import PatternChart.Proofs.Paths
import PatternChart.Diagram.Build
/-!
# Positions of a regex and the arrows of its diagram

A regex is read along *position words*. Its positions are the places its diagram draws
as one leaf: every anchor, every atom that is not parenthesised, and every empty
alternative, numbered in the order the syntax lists them. A word reads one position of
an anchor or plain atom, the words of a parenthesised atom's body (a quantifier is not
read: it does not change which position may follow which), the words of each term of an
alternative one after another, and the words of any one alternative of a regex.

Building a diagram draws the positions as its leaves, in the same order
(`Regex.leafIds_build`), and keeps the words (`Regex.paths_build`). A regex whose every
group has an alternative, which is what building demands, gives a diagram whose
sequences and choices are never empty (`Regex.filled_build`). With the facts about
threads in `Proofs.Paths`, the arrows of the diagram therefore join exactly the
positions read one right after the other in some word, each pair once, sorted by the
later position and then by the earlier one, and the diagram's frontier lists the
positions that end a word, in increasing order (`Regex.build_arrows_follow_paths`).
-/

set_option autoImplicit false

namespace PatternChart

/-! ## 1. Positions and position words -/

/-- The id an atom carries. -/
def Atom.id : Atom → Int
  | .char _ i | .any i | .classEscape _ i | .escaped _ i | .backReference _ i
  | .charSet _ _ i | .group _ _ i | .nonCapturing _ i | .lookahead _ _ i => i

/-- A place of a regex that its diagram draws as one leaf: an anchor, an atom that is
not parenthesised with its quantifier, or an empty alternative. -/
inductive Position where
  | anchor (anchor : Anchor) (id : Int)
  | atom (atom : Atom) (quantifier : Option Quantifier) (greedy : Bool)
  | empty

/-- The id of the node a position stands for; an empty alternative has none. -/
def Position.nodeId : Position → Option Int
  | .anchor _ id => some id
  | .atom a _ _ => some a.id
  | .empty => none

mutual
/-- The positions of a regex, in the order the syntax lists them. -/
def Regex.positions : Regex → List Position
  | .mk alts => Alternative.positionsOfList alts

/-- The positions of alternatives, one alternative after another. -/
def Alternative.positionsOfList : List Alternative → List Position
  | [] => []
  | a :: as => a.positions ++ Alternative.positionsOfList as

/-- The positions of an alternative; an empty one is a position of its own. -/
def Alternative.positions : Alternative → List Position
  | .mk [] => [.empty]
  | .mk (t :: ts) => Term.positionsOfList (t :: ts)

/-- The positions of terms, one term after another. -/
def Term.positionsOfList : List Term → List Position
  | [] => []
  | t :: ts => t.positions ++ Term.positionsOfList ts

/-- The positions of a term. -/
def Term.positions : Term → List Position
  | .assertion a id => [.anchor a id]
  | .quantified atom q greedy => atom.positions q greedy

/-- The positions of an atom under a quantifier: those of the body of a parenthesised
atom, and the atom itself otherwise. -/
def Atom.positions (q : Option Quantifier) (greedy : Bool) : Atom → List Position
  | .group r _ _ => r.positions
  | .nonCapturing r _ => r.positions
  | .lookahead r _ _ => r.positions
  | a => [.atom a q greedy]
end

mutual
/-- The position words of a regex whose first position has index `n`: those of any
one alternative. -/
def Regex.paths (n : Nat) : Regex → Language Nat
  | .mk alts => Alternative.pathsOfList n alts

/-- The position words of any one of several alternatives. -/
def Alternative.pathsOfList (n : Nat) : List Alternative → Language Nat
  | [] => 0
  | a :: as => a.paths n + Alternative.pathsOfList (n + a.positions.length) as

/-- The position words of an alternative: its own position when it is empty, else the
words of its terms one after another. -/
def Alternative.paths (n : Nat) : Alternative → Language Nat
  | .mk [] => {[n]}
  | .mk (t :: ts) => Term.pathsOfList n (t :: ts)

/-- The position words of terms read one after another. -/
def Term.pathsOfList (n : Nat) : List Term → Language Nat
  | [] => 1
  | t :: ts => t.paths n * Term.pathsOfList (n + t.positions.length) ts

/-- The position words of a term; a quantifier is not read. -/
def Term.paths (n : Nat) : Term → Language Nat
  | .assertion _ _ => {[n]}
  | .quantified atom _ _ => atom.paths n

/-- The position words of an atom: those of a parenthesised atom's body, and its own
position otherwise. -/
def Atom.paths (n : Nat) : Atom → Language Nat
  | .group r _ _ => r.paths n
  | .nonCapturing r _ => r.paths n
  | .lookahead r _ _ => r.paths n
  | _ => {[n]}
end

mutual
/-- Whether every regex node of a regex, at the top and inside every group, has an
alternative: what building a diagram demands. -/
def Regex.drawable : Regex → Bool
  | .mk alts => !alts.isEmpty && Alternative.drawableList alts

/-- Whether every alternative of a list is drawable. -/
def Alternative.drawableList : List Alternative → Bool
  | [] => true
  | a :: as => a.drawable && Alternative.drawableList as

/-- Whether every term of an alternative is drawable. -/
def Alternative.drawable : Alternative → Bool
  | .mk ts => Term.drawableList ts

/-- Whether every term of a list is drawable. -/
def Term.drawableList : List Term → Bool
  | [] => true
  | t :: ts => t.drawable && Term.drawableList ts

/-- Whether a term's atom, if parenthesised, has a drawable body. -/
def Term.drawable : Term → Bool
  | .assertion _ _ => true
  | .quantified atom _ _ => atom.drawable

/-- Whether an atom, if parenthesised, has a drawable body. -/
def Atom.drawable : Atom → Bool
  | .group r _ _ => r.drawable
  | .nonCapturing r _ => r.drawable
  | .lookahead r _ _ => r.drawable
  | _ => true
end

/-! ## 2. Building draws the positions as leaves and keeps the words -/

theorem boxLeaf_eq (hooks : Hooks) (label caption : String) (tone : Tone) (id : Int) :
    boxLeaf hooks label caption tone id =
      .leaf .zero
        { label, caption, tone, nodeId := some id, onEnter := (hooks id).1,
          onLeave := (hooks id).2 } := rfl

theorem groupBox_eq (hooks : Hooks) (label : Option String) (caption : String) (id : Int)
    (body : Element Int) :
    groupBox hooks label caption id body =
      .seq .zero
        { groupLabel := label, caption, border := groupBorder, nodeId := some id,
          onEnter := (hooks id).1, onLeave := (hooks id).2 } [body] := rfl

@[simp] theorem leaves_groupBox (hooks : Hooks) (label : Option String) (caption : String)
    (id : Int) (body : Element Int) :
    (groupBox hooks label caption id body).leaves = body.leaves := by
  simp [groupBox_eq, Element.leaves, Element.leavesOfList]

@[simp] theorem paths_groupBox (hooks : Hooks) (label : Option String) (caption : String)
    (id : Int) (body : Element Int) (n : Nat) :
    (groupBox hooks label caption id body).paths n = body.paths n := by
  simp [groupBox_eq, Element.paths, Element.pathsRow]

mutual
/-- The leaves of a regex's diagram stand for its positions, in order: there are as many,
and each carries the id of its position's node. -/
theorem Regex.leafIds_build (hooks : Hooks) :
    ∀ r : Regex, (r.build hooks).leaves.map Leaf.nodeId = r.positions.map Position.nodeId
  | .mk alts => Alternative.leafIds_buildList hooks alts

theorem Alternative.leafIds_buildList (hooks : Hooks) :
    ∀ as : List Alternative,
      (Element.leavesOfList (Alternative.buildList hooks as)).map Leaf.nodeId =
        (Alternative.positionsOfList as).map Position.nodeId
  | [] => rfl
  | a :: as => by
    have ha := Alternative.leafIds_build hooks a
    have has := Alternative.leafIds_buildList hooks as
    simp only [Alternative.buildList, Element.leavesOfList, Alternative.positionsOfList,
      List.map_append]
    rw [ha, has]

theorem Alternative.leafIds_build (hooks : Hooks) :
    ∀ a : Alternative, (a.build hooks).leaves.map Leaf.nodeId = a.positions.map Position.nodeId
  | .mk [] => rfl
  | .mk (t :: ts) => Term.leafIds_buildList hooks (t :: ts)

theorem Term.leafIds_buildList (hooks : Hooks) :
    ∀ ts : List Term,
      (Element.leavesOfList (Term.buildList hooks ts)).map Leaf.nodeId =
        (Term.positionsOfList ts).map Position.nodeId
  | [] => rfl
  | t :: ts => by
    have ht := Term.leafIds_build hooks t
    have hts := Term.leafIds_buildList hooks ts
    simp only [Term.buildList, Element.leavesOfList, Term.positionsOfList, List.map_append]
    rw [ht, hts]

theorem Term.leafIds_build (hooks : Hooks) :
    ∀ t : Term, (t.build hooks).leaves.map Leaf.nodeId = t.positions.map Position.nodeId
  | .assertion _ _ => rfl
  | .quantified atom q greedy => Atom.leafIds_build hooks _ q greedy atom

theorem Atom.leafIds_build (hooks : Hooks) (caption : String) (q : Option Quantifier)
    (greedy : Bool) :
    ∀ a : Atom, (a.build hooks caption).leaves.map Leaf.nodeId =
      (a.positions q greedy).map Position.nodeId
  | .char _ _ | .any _ | .classEscape _ _ | .escaped _ _ | .backReference _ _
  | .charSet _ _ _ => rfl
  | .group r _ _ => by
    simpa [Atom.build, Atom.positions] using Regex.leafIds_build hooks r
  | .nonCapturing r _ => by
    simpa [Atom.build, Atom.positions] using Regex.leafIds_build hooks r
  | .lookahead r _ _ => by
    simpa [Atom.build, Atom.positions] using Regex.leafIds_build hooks r
end

/-- A diagram has as many leaves as its regex has positions. -/
theorem Alternative.length_leaves_build (hooks : Hooks) (a : Alternative) :
    (a.build hooks).leaves.length = a.positions.length := by
  simpa using congrArg List.length (Alternative.leafIds_build hooks a)

theorem Term.length_leaves_build (hooks : Hooks) (t : Term) :
    (t.build hooks).leaves.length = t.positions.length := by
  simpa using congrArg List.length (Term.leafIds_build hooks t)

mutual
/-- **Building keeps the words.** The paths of a regex's diagram are its position words. -/
theorem Regex.paths_build (hooks : Hooks) (n : Nat) :
    ∀ r : Regex, (r.build hooks).paths n = r.paths n
  | .mk alts => Alternative.paths_buildList hooks n alts

theorem Alternative.paths_buildList (hooks : Hooks) (n : Nat) :
    ∀ as : List Alternative,
      Element.pathsStack n (Alternative.buildList hooks as) = Alternative.pathsOfList n as
  | [] => rfl
  | a :: as => by
    simp only [Alternative.buildList, Element.pathsStack, Alternative.pathsOfList]
    -- the next alternative's leaves are numbered after this one's, which are its positions
    rw [Alternative.paths_build hooks n a, Alternative.length_leaves_build,
      Alternative.paths_buildList hooks _ as]

theorem Alternative.paths_build (hooks : Hooks) (n : Nat) :
    ∀ a : Alternative, (a.build hooks).paths n = a.paths n
  | .mk [] => rfl
  | .mk (t :: ts) => Term.paths_buildList hooks n (t :: ts)

theorem Term.paths_buildList (hooks : Hooks) (n : Nat) :
    ∀ ts : List Term, Element.pathsRow n (Term.buildList hooks ts) = Term.pathsOfList n ts
  | [] => rfl
  | t :: ts => by
    simp only [Term.buildList, Element.pathsRow, Term.pathsOfList]
    rw [Term.paths_build hooks n t, Term.length_leaves_build, Term.paths_buildList hooks _ ts]

theorem Term.paths_build (hooks : Hooks) (n : Nat) :
    ∀ t : Term, (t.build hooks).paths n = t.paths n
  | .assertion _ _ => rfl
  | .quantified atom _ _ => Atom.paths_build hooks n _ atom

theorem Atom.paths_build (hooks : Hooks) (n : Nat) (caption : String) :
    ∀ a : Atom, (a.build hooks caption).paths n = a.paths n
  | .char _ _ | .any _ | .classEscape _ _ | .escaped _ _ | .backReference _ _
  | .charSet _ _ _ => rfl
  | .group r _ _ => by
    rw [Atom.build, paths_groupBox, Atom.paths, Regex.paths_build hooks n r]
  | .nonCapturing r _ => by
    rw [Atom.build, paths_groupBox, Atom.paths, Regex.paths_build hooks n r]
  | .lookahead r _ _ => by
    rw [Atom.build, paths_groupBox, Atom.paths, Regex.paths_build hooks n r]
end

theorem Alternative.isEmpty_buildList (hooks : Hooks) (as : List Alternative) :
    (Alternative.buildList hooks as).isEmpty = as.isEmpty := by
  cases as <;> rfl

mutual
/-- **A drawable regex gives a filled diagram**: building makes a choice for every regex
node and a sequence for every alternative with terms and every group, each with a child. -/
theorem Regex.filled_build (hooks : Hooks) :
    ∀ r : Regex, r.drawable → (r.build hooks).filled
  | .mk alts, h => by
    simp only [Regex.drawable, Bool.and_eq_true] at h
    have hs := Alternative.filledList_buildList hooks alts h.2
    simp [Regex.build, Element.filled, Alternative.isEmpty_buildList, h.1, hs]

theorem Alternative.filledList_buildList (hooks : Hooks) :
    ∀ as : List Alternative, Alternative.drawableList as →
      Element.filledList (Alternative.buildList hooks as)
  | [], _ => rfl
  | a :: as, h => by
    simp only [Alternative.drawableList, Bool.and_eq_true] at h
    have ha := Alternative.filled_build hooks a h.1
    have has := Alternative.filledList_buildList hooks as h.2
    simp [Alternative.buildList, Element.filledList, ha, has]

theorem Alternative.filled_build (hooks : Hooks) :
    ∀ a : Alternative, a.drawable → (a.build hooks).filled
  | .mk [], _ => rfl
  | .mk (t :: ts), h => by
    have hs := Term.filledList_buildList hooks (t :: ts) h
    have hne : Term.buildList hooks (t :: ts) ≠ [] := by simp [Term.buildList]
    simp [Alternative.build, Element.filled, hs, hne]

theorem Term.filledList_buildList (hooks : Hooks) :
    ∀ ts : List Term, Term.drawableList ts → Element.filledList (Term.buildList hooks ts)
  | [], _ => rfl
  | t :: ts, h => by
    simp only [Term.drawableList, Bool.and_eq_true] at h
    have ht := Term.filled_build hooks t h.1
    have hts := Term.filledList_buildList hooks ts h.2
    simp [Term.buildList, Element.filledList, ht, hts]

theorem Term.filled_build (hooks : Hooks) : ∀ t : Term, t.drawable → (t.build hooks).filled
  | .assertion _ _, _ => rfl
  | .quantified atom _ _, h => Atom.filled_build hooks _ atom h

theorem Atom.filled_build (hooks : Hooks) (caption : String) :
    ∀ a : Atom, a.drawable → (a.build hooks caption).filled
  | .char _ _, _ | .any _, _ | .classEscape _ _, _ | .escaped _ _, _ | .backReference _ _, _
  | .charSet _ _ _, _ => rfl
  | .group r _ _, h => by
    simp [Atom.build, groupBox_eq, Element.filled, Element.filledList,
      Regex.filled_build hooks r h]
  | .nonCapturing r _, h => by
    simp [Atom.build, groupBox_eq, Element.filled, Element.filledList,
      Regex.filled_build hooks r h]
  | .lookahead r _ _, h => by
    simp [Atom.build, groupBox_eq, Element.filled, Element.filledList,
      Regex.filled_build hooks r h]
end

/-! ## 3. The arrows of a regex's diagram -/

/-- What the arrows and the frontier of a diagram must be for a regex: its leaves stand
for the regex's positions in order; its arrows join exactly the positions read one right
after the other in some position word, sorted by the later position and then by the
earlier one, each once; its frontier lists exactly the positions that end a word, in
increasing order. -/
structure ArrowsFollowPaths (r : Regex) (t : Element Int) : Prop where
  leaves : t.leaves.map Leaf.nodeId = r.positions.map Position.nodeId
  arrows_iff : ∀ i j, (i, j) ∈ t.arrowPairs ↔ ∃ w ∈ r.paths 0, [i, j] <:+: w
  arrows_sorted : t.arrowPairs.Pairwise ByTarget
  frontier_iff : ∀ k, k ∈ t.frontierOf ↔ ∃ w ∈ r.paths 0, w.getLast? = some k
  frontier_sorted : t.frontierOf.Pairwise (· < ·)

/-- **The arrows of a regex's diagram follow its position words.** For every regex that
can be built, with any hooks, the diagram's leaves are the regex's positions in order,
its arrows join exactly the positions read one right after the other in some word (each
pair once, sorted by the later position and then by the earlier one), and its frontier
lists the positions that end a word, in increasing order. -/
theorem Regex.build_arrows_follow_paths (hooks : Hooks) (r : Regex) (hr : r.drawable) :
    ArrowsFollowPaths r (r.build hooks) := by
  have hfilled := Regex.filled_build hooks r hr
  obtain ⟨harrows, hsorted, hfrontier, hincreasing⟩ :=
    Element.arrowPairs_frontierOf_of_filled (r.build hooks) hfilled
  rw [Regex.paths_build] at harrows hfrontier
  exact ⟨Regex.leafIds_build hooks r, harrows, hsorted, hfrontier, hincreasing⟩

/-- `x(?:ab|c)y|`, whose second alternative is empty, can be built, so its diagram's
arrows follow its position words. -/
theorem Regex.build_arrows_follow_paths_sample :
    (Regex.mk [.mk [.quantified (.char "x" 1) none true,
      .quantified (.nonCapturing (.mk [.mk [.quantified (.char "a" 3) none true,
        .quantified (.char "b" 4) none true], .mk [.quantified (.char "c" 5) none true]]) 2)
        (some .star) true,
      .quantified (.char "y" 6) none true], .mk []]).drawable = true ∧
    ArrowsFollowPaths
      (.mk [.mk [.quantified (.char "x" 1) none true,
        .quantified (.nonCapturing (.mk [.mk [.quantified (.char "a" 3) none true,
          .quantified (.char "b" 4) none true], .mk [.quantified (.char "c" 5) none true]]) 2)
          (some .star) true,
        .quantified (.char "y" 6) none true], .mk []])
      ((Regex.mk [.mk [.quantified (.char "x" 1) none true,
        .quantified (.nonCapturing (.mk [.mk [.quantified (.char "a" 3) none true,
          .quantified (.char "b" 4) none true], .mk [.quantified (.char "c" 5) none true]]) 2)
          (some .star) true,
        .quantified (.char "y" 6) none true], .mk []]).build Hooks.none) :=
  ⟨by decide, Regex.build_arrows_follow_paths Hooks.none _ (by decide)⟩

/-- In `x(?:ab|c)y|` the positions are `x a b c y ∅`: `x` leads into both alternatives
of the group, both lead to `y`, and the empty alternative is joined to nothing. -/
example :
    ((Regex.mk [.mk [.quantified (.char "x" 1) none true,
      .quantified (.nonCapturing (.mk [.mk [.quantified (.char "a" 3) none true,
        .quantified (.char "b" 4) none true], .mk [.quantified (.char "c" 5) none true]]) 2)
        (some .star) true,
      .quantified (.char "y" 6) none true], .mk []]).build Hooks.none).arrowPairs =
      [(0, 1), (1, 2), (0, 3), (2, 4), (3, 4)] := by decide

end PatternChart
