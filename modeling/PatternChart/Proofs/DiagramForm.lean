import PatternChart.Proofs.ReadingOrder
/-!
# The form of a built diagram

Building turns a regex into a diagram of a fixed form, and the later passes count on it.
`Regex.DrawnAs r t` says what that form is, one syntax node at a time:

* a regex is drawn as a choice with one part per alternative, in order, and it has at
  least one alternative;
* an empty alternative is drawn as a leaf, and any other as a *plain row*: a sequence with
  border zero, no group label, no caption and no node id, with one part per term, in order;
* an anchor, and an atom that is not parenthesised, are drawn as a leaf that carries the
  node's id;
* a group, non-capturing group or lookahead is drawn as a *group box*: a sequence with the
  group border, the atom's id and its quantifier's caption, around exactly one part, the
  drawing of its body.

The relation says nothing of frames. Building leaves every frame at zero, and every
container of a built diagram has a part, since a regex read for a diagram has an
alternative at the top and inside every group.

The main statement, `Node.diagram_drawnAs_filled_framesZero`, says all three of every
diagram that building gives.
-/

set_option autoImplicit false

namespace PatternChart

/-- The regex a parenthesised atom encloses; other atoms enclose none. -/
def Atom.body : Atom → Option Regex
  | .group r _ _ | .nonCapturing r _ | .lookahead r _ _ => some r
  | _ => none

mutual
/-- How a diagram draws a regex: as a choice between the drawings of its alternatives,
of which there is at least one. -/
inductive Regex.DrawnAs : Regex → Element Int → Prop
  | choice {alts : List Alternative} {f : Frame Int} {cs : List (Element Int)} :
      alts ≠ [] → List.Forall₂ Alternative.DrawnAs alts cs → Regex.DrawnAs (.mk alts) (.choice f cs)

/-- How a diagram draws an alternative: as a leaf when it is empty, and otherwise as a
plain row of the drawings of its terms. -/
inductive Alternative.DrawnAs : Alternative → Element Int → Prop
  | empty {f : Frame Int} {l : Leaf} : Alternative.DrawnAs (.mk []) (.leaf f l)
  | row {ts : List Term} {f : Frame Int} {s : Sequence} {cs : List (Element Int)} :
      ts ≠ [] → s.border = 0 → s.groupLabel = none → s.caption = "" → s.nodeId = none →
      List.Forall₂ Term.DrawnAs ts cs → Alternative.DrawnAs (.mk ts) (.seq f s cs)

/-- How a diagram draws a term: an anchor or a plain atom as a leaf with the node's id, and
a parenthesised atom as a group box with the atom's id and caption around its body. -/
inductive Term.DrawnAs : Term → Element Int → Prop
  | anchor {a : Anchor} {id : Int} {f : Frame Int} {l : Leaf} :
      l.nodeId = some id → Term.DrawnAs (.assertion a id) (.leaf f l)
  | box {atom : Atom} {q : Option Quantifier} {greedy : Bool} {f : Frame Int} {l : Leaf} :
      atom.body = none → l.nodeId = some atom.id →
      Term.DrawnAs (.quantified atom q greedy) (.leaf f l)
  | group {atom : Atom} {q : Option Quantifier} {greedy : Bool} {r : Regex} {f : Frame Int}
      {s : Sequence} {c : Element Int} :
      atom.body = some r → s.border = groupBorder → s.nodeId = some atom.id →
      s.caption = Quantifier.caption q greedy → Regex.DrawnAs r c →
      Term.DrawnAs (.quantified atom q greedy) (.seq f s [c])
end

/-! ## 1. Building draws every node in its form -/

section Form

variable (hooks : Hooks)

mutual
/-- **Building draws a regex in its form**, wherever every regex node has an alternative. -/
theorem Regex.drawnAs_build : ∀ r : Regex, r.drawable → r.DrawnAs (r.build hooks)
  | .mk alts, h => by
    simp only [Regex.drawable, Bool.and_eq_true, Bool.not_eq_true', List.isEmpty_eq_false_iff]
      at h
    exact .choice h.1 (Alternative.drawnAs_buildList alts h.2)

theorem Alternative.drawnAs_buildList :
    ∀ as : List Alternative, Alternative.drawableList as →
      List.Forall₂ Alternative.DrawnAs as (Alternative.buildList hooks as)
  | [], _ => .nil
  | a :: as, h => by
    simp only [Alternative.drawableList, Bool.and_eq_true] at h
    exact .cons (Alternative.drawnAs_build a h.1) (Alternative.drawnAs_buildList as h.2)

theorem Alternative.drawnAs_build : ∀ a : Alternative, a.drawable → a.DrawnAs (a.build hooks)
  | .mk [], _ => .empty
  | .mk (t :: ts), h =>
    .row (List.cons_ne_nil t ts) rfl rfl rfl rfl (Term.drawnAs_buildList (t :: ts) h)

theorem Term.drawnAs_buildList :
    ∀ ts : List Term, Term.drawableList ts → List.Forall₂ Term.DrawnAs ts (Term.buildList hooks ts)
  | [], _ => .nil
  | t :: ts, h => by
    simp only [Term.drawableList, Bool.and_eq_true] at h
    exact .cons (Term.drawnAs_build t h.1) (Term.drawnAs_buildList ts h.2)

theorem Term.drawnAs_build : ∀ t : Term, t.drawable → t.DrawnAs (t.build hooks)
  | .assertion _ _, _ => .anchor rfl
  | .quantified atom _ _, h => Atom.drawnAs_build _ _ atom h

/-- An atom with its quantifier is drawn as its term: a plain atom as a box with its id, a
parenthesised one as a group box around the drawing of its body. -/
theorem Atom.drawnAs_build (q : Option Quantifier) (greedy : Bool) :
    ∀ atom : Atom, atom.drawable →
      Term.DrawnAs (.quantified atom q greedy) (atom.build hooks (Quantifier.caption q greedy))
  | .char _ _, _ | .any _, _ | .classEscape _ _, _ | .escaped _ _, _ | .backReference _ _, _
  | .charSet _ _ _, _ => .box rfl rfl
  | .group r _ _, h | .nonCapturing r _, h | .lookahead r _ _, h =>
    .group rfl rfl rfl rfl (Regex.drawnAs_build r h)
end

end Form

/-! ## 2. Building leaves every frame at zero -/

namespace Element

/-- Whether every element of a tree still has the zero frame: nothing in it is sized or
placed. -/
def FramesZero (t : Element Int) : Prop := ∀ e ∈ t.subtrees, e.frame = Frame.zero

theorem framesZero_leaf (l : Leaf) : (Element.leaf .zero l).FramesZero := by
  intro e he
  rw [subtrees, List.mem_singleton] at he
  rw [he]
  rfl

/-- A container at zero is all at zero when each of its parts is. -/
theorem framesZero_of_parts {t : Element Int} {cs : List (Element Int)} (ht : t.frame = .zero)
    (hsub : t.subtrees = t :: subtreesOfList cs) (hcs : ∀ c ∈ cs, c.FramesZero) :
    t.FramesZero := by
  intro e he
  rw [hsub, List.mem_cons, subtreesOfList_eq_flatMap, List.mem_flatMap] at he
  rcases he with rfl | ⟨c, hc, he⟩
  · exact ht
  · exact hcs c hc e he

theorem framesZero_seq (s : Sequence) {cs : List (Element Int)} (hcs : ∀ c ∈ cs, c.FramesZero) :
    (Element.seq .zero s cs).FramesZero :=
  framesZero_of_parts rfl rfl hcs

theorem framesZero_choice {cs : List (Element Int)} (hcs : ∀ c ∈ cs, c.FramesZero) :
    (Element.choice .zero cs).FramesZero :=
  framesZero_of_parts rfl rfl hcs

end Element

section Frames

variable (hooks : Hooks)

mutual
/-- **Building sizes and places nothing.** -/
theorem Regex.framesZero_build : ∀ r : Regex, (r.build hooks).FramesZero
  | .mk alts => Element.framesZero_choice (Alternative.framesZero_buildList alts)

theorem Alternative.framesZero_buildList :
    ∀ as : List Alternative, ∀ c ∈ Alternative.buildList hooks as, c.FramesZero
  | [] => fun _ h => nomatch h
  | a :: as => List.forall_mem_cons.mpr
    ⟨Alternative.framesZero_build a, Alternative.framesZero_buildList as⟩

theorem Alternative.framesZero_build : ∀ a : Alternative, (a.build hooks).FramesZero
  | .mk [] => Element.framesZero_leaf _
  | .mk (t :: ts) => Element.framesZero_seq _ (Term.framesZero_buildList (t :: ts))

theorem Term.framesZero_buildList :
    ∀ ts : List Term, ∀ c ∈ Term.buildList hooks ts, c.FramesZero
  | [] => fun _ h => nomatch h
  | t :: ts => List.forall_mem_cons.mpr ⟨Term.framesZero_build t, Term.framesZero_buildList ts⟩

theorem Term.framesZero_build : ∀ t : Term, (t.build hooks).FramesZero
  | .assertion _ _ => Element.framesZero_leaf _
  | .quantified atom _ _ => Atom.framesZero_build _ atom

theorem Atom.framesZero_build (caption : String) : ∀ a : Atom, (a.build hooks caption).FramesZero
  | .char _ _ | .any _ | .classEscape _ _ | .escaped _ _ | .backReference _ _
  | .charSet _ _ _ => Element.framesZero_leaf _
  | .group r _ _ | .nonCapturing r _ | .lookahead r _ _ =>
    Element.framesZero_seq _ (List.forall_mem_singleton.mpr (Regex.framesZero_build r))
end

end Frames

/-! ## 3. Every diagram that building gives -/

/-- **The form of a built diagram.** Whenever building a diagram of a node tree succeeds, the
tree reads as a regex, the diagram draws that regex in its form (a choice with one part per
alternative, plain rows of terms, leaves with their nodes' ids and group boxes around the
drawings of their bodies), every choice and every sequence in it has a part, and every frame
in it is zero. -/
theorem Node.diagram_drawnAs_filled_framesZero (hooks : Hooks) (n : Node) (t : Element Int)
    (h : n.diagram hooks = .ok t) :
    ∃ r, readRegex .diagram n = .ok r ∧ r.DrawnAs t ∧ t.filled = true ∧ t.FramesZero := by
  obtain ⟨r, hr, rfl⟩ := Except.map_eq_ok_iff.mp h
  -- reading for a diagram refuses a regex node without alternatives, at every depth
  have hdrawable := Node.drawable_of_readRegex hr
  exact ⟨r, hr, Regex.drawnAs_build hooks r hdrawable, Regex.filled_build hooks r hdrawable,
    Regex.framesZero_build hooks r⟩

/-- `(?=a)b*|`, a lookahead, a starred character and an empty alternative, builds, and its
diagram has the form building promises. -/
theorem Node.diagram_drawnAs_filled_framesZero_lookahead :
    ∃ t, (Node.regex [.alternative [.quantified (.lookahead (.regex [.alternative
          [.quantified (.char "a" 2) .null true]]) false 1) .null true,
        .quantified (.char "b" 3) .star true], .alternative []]).diagram Hooks.none = .ok t ∧
      ∃ r, readRegex .diagram (Node.regex [.alternative [.quantified (.lookahead (.regex
          [.alternative [.quantified (.char "a" 2) .null true]]) false 1) .null true,
        .quantified (.char "b" 3) .star true], .alternative []]) = .ok r ∧
        r.DrawnAs t ∧ t.filled = true ∧ t.FramesZero :=
  ⟨_, rfl, Node.diagram_drawnAs_filled_framesZero Hooks.none _ _ rfl⟩

end PatternChart
