import PatternChart.Proofs.Squeeze
import PatternChart.Proofs.Positions
/-!
# Group boxes hold what they enclose

A group box is drawn around the diagram of its body, and the layout is meant to keep every
part of the body inside it. It does not always. Sizing reserves the group's border in
width and half of it in height, but resizing hands the body the target less the whole
border both ways: the body of a group is squeezed by 20 pixels in width and 10 in height,
and a group inside another is squeezed again. The squeeze is shared among the children of
each choice and sequence by a share truncated toward zero, so the children together come
out larger than their parent by the remainder. The half border of 10 pixels around the
body is what absorbs that remainder.

Two things can defeat it. A squeezed container with more than eleven children can leave a
remainder above 10 pixels: a group of 21 characters ends 10 pixels past its box and the
canvas. And group boxes nested deep enough squeeze a box to nothing, after which its size is
clamped at zero and no longer shrinks with its body: six groups around a character do
(`Regex.crowded_or_deep_groups_overflow`). What is true of every regex is that no part starts
left of or above the canvas or a group box around it; and when groups nest at most five deep
and no choice or sequence inside a group has more than eleven children, every part lies
inside every group box around it and inside the canvas (`Regex.layout_within_group_boxes`).

The proof follows the syntax. A part of the diagram inside `g` groups is resized to a
target at most `20·g` narrower and `10·g` shorter than its natural size (`Room`); then a
term reaches exactly its frame, an alternative reaches at most `overhang g` past its width,
and a regex at most `overhang g` past both, which is nothing at the top and the half
border inside a group (`Regex.fits_resize`). No child of a row is squeezed below nothing
(`unclamped_resizeRow`). Five groups deep, a group box may be narrower than its border, so
that its body is clamped at zero width; that body is one with no group and narrower than two
leaves, which lies flat in the width it is given (`Regex.reach_resize_narrow`), and the box
of at least ten pixels still holds it.
-/

set_option autoImplicit false

namespace PatternChart

/-! ## 1. How deep group boxes nest and how many parts they hold -/

namespace Element

variable {α : Type}

mutual
/-- How many group boxes nest at the deepest point of a tree. -/
def groupDepth : Element α → Nat
  | .leaf _ _ => 0
  | .seq _ s cs => (if 0 < s.border then 1 else 0) + groupDepthList cs
  | .choice _ cs => groupDepthList cs

/-- How many group boxes nest at the deepest point of a list of trees. -/
def groupDepthList : List (Element α) → Nat
  | [] => 0
  | c :: cs => max c.groupDepth (groupDepthList cs)
end

mutual
/-- The most children that a sequence or choice of a tree has inside a group box; `inside`
says whether the tree itself lies in one. -/
def fanInside (inside : Bool) : Element α → Nat
  | .leaf _ _ => 0
  | .seq _ s cs =>
    max (if inside then cs.length else 0) (fanInsideList (inside || decide (0 < s.border)) cs)
  | .choice _ cs => max (if inside then cs.length else 0) (fanInsideList inside cs)

/-- The most children that a sequence or choice of a list of trees has inside a group box. -/
def fanInsideList (inside : Bool) : List (Element α) → Nat
  | [] => 0
  | c :: cs => max (c.fanInside inside) (fanInsideList inside cs)
end

/-- The most children that a sequence or choice has inside a group box of a diagram. -/
def groupFan (e : Element α) : Nat := e.fanInside false

end Element

/-- `(a(bc|d))e` nests two groups, the inner one with two alternatives and the outer one's
alternative with two terms. -/
example :
    let r : Regex := .mk [.mk [.quantified (.group (.mk [.mk [.quantified (.char "a" 3) none true,
      .quantified (.group (.mk [.mk [.quantified (.char "b" 5) none true,
        .quantified (.char "c" 6) none true], .mk [.quantified (.char "d" 7) none true]]) 2 4)
        none true]]) 1 2) none true, .quantified (.char "e" 8) none true]]
    (r.build Hooks.none).groupDepth = 2 ∧ (r.build Hooks.none).groupFan = 2 := by
  decide

theorem groupDepth_groupBox (hooks : Hooks) (label : Option String) (caption : String) (id : Int)
    (body : Element Int) :
    (groupBox hooks label caption id body).groupDepth = body.groupDepth + 1 := by
  simp [groupBox_eq, Element.groupDepth, Element.groupDepthList, groupBorder]
  omega

theorem fanInside_groupBox (hooks : Hooks) (label : Option String) (caption : String) (id : Int)
    (body : Element Int) (inside : Bool) :
    (groupBox hooks label caption id body).fanInside inside =
      max (if inside then 1 else 0) (body.fanInside true) := by
  simp [groupBox_eq, Element.fanInside, Element.fanInsideList, groupBorder]

theorem fanInside_choice_le {f : Frame Int} {cs : List (Element Int)} {inside : Bool} {m : Nat} :
    (Element.choice f cs).fanInside inside ≤ m ↔
      (inside = true → cs.length ≤ m) ∧ Element.fanInsideList inside cs ≤ m := by
  cases inside <;> simp [Element.fanInside]

theorem fanInside_seq_le {f : Frame Int} {s : Sequence} {cs : List (Element Int)}
    {inside : Bool} {m : Nat} :
    (Element.seq f s cs).fanInside inside ≤ m ↔
      (inside = true → cs.length ≤ m) ∧
        Element.fanInsideList (inside || decide (0 < s.border)) cs ≤ m := by
  cases inside <;> simp [Element.fanInside]

/-! ## 2. Sizes of a regex's diagram -/

section Sizes

variable (hooks : Hooks)

mutual
/-- Building gives every part a size of zero and every border of zero or more. -/
theorem Regex.sized_build : ∀ r : Regex, (r.build hooks).Sized
  | .mk as => ⟨Int.le_refl 0, Int.le_refl 0, Alternative.sizedList_buildList as⟩

theorem Alternative.sizedList_buildList :
    ∀ as : List Alternative, Element.SizedList (Alternative.buildList hooks as)
  | [] => trivial
  | a :: as => ⟨Alternative.sized_build a, Alternative.sizedList_buildList as⟩

theorem Alternative.sized_build : ∀ a : Alternative, (a.build hooks).Sized
  | .mk [] => ⟨Int.le_refl 0, Int.le_refl 0⟩
  | .mk (t :: ts) =>
    ⟨Int.le_refl 0, Int.le_refl 0, Int.le_refl 0, Term.sizedList_buildList (t :: ts)⟩

theorem Term.sizedList_buildList :
    ∀ ts : List Term, Element.SizedList (Term.buildList hooks ts)
  | [] => trivial
  | t :: ts => ⟨Term.sized_build t, Term.sizedList_buildList ts⟩

theorem Term.sized_build : ∀ t : Term, (t.build hooks).Sized
  | .assertion _ _ => ⟨Int.le_refl 0, Int.le_refl 0⟩
  | .quantified atom _ _ => Atom.sized_build _ atom

theorem Atom.sized_build (caption : String) : ∀ a : Atom, (a.build hooks caption).Sized
  | .char _ _ | .any _ | .classEscape _ _ | .escaped _ _ | .backReference _ _
  | .charSet _ _ _ => ⟨Int.le_refl 0, Int.le_refl 0⟩
  | .group r _ _ | .nonCapturing r _ | .lookahead r _ _ =>
    ⟨Int.le_refl 0, Int.le_refl 0, (by decide : (0 : Int) ≤ 20), ⟨Regex.sized_build r, trivial⟩⟩
end

/-- A leaf's natural width is at least ninety pixels. -/
theorem le_leafWidth (label : String) : 90 ≤ leafWidth label := Int.le_max_right _ _

mutual
/-- **Every part of a drawable regex's diagram is at least a leaf's least size.** -/
theorem Regex.roomy_build :
    ∀ r : Regex, r.drawable →
      90 ≤ (r.build hooks).infer.frame.width ∧ leafHeight ≤ (r.build hooks).infer.frame.height
  | .mk [], h => by simp [Regex.drawable] at h
  | .mk (a :: as), h => by
    simp only [Regex.drawable, Alternative.drawableList, Bool.and_eq_true] at h
    have ha := Alternative.roomy_build a h.2.1
    have has := Alternative.roomy_buildList as h.2.2
    -- the first alternative alone is as wide and as tall as that
    have hrest : 0 ≤ (Element.heights (Element.inferList (Alternative.buildList hooks as))).sum :=
      List.sum_nonneg (by
        simpa [Element.heights] using fun c hc => Int.le_trans (by decide) (has c hc).2)
    simp only [Regex.build, Alternative.buildList, Element.infer_choice, Element.inferList,
      Element.widths_cons, Element.heights_cons, List.sum_cons, Element.frame_choice]
    exact ⟨Int.le_trans ha.1 (le_greatest List.mem_cons_self), by omega⟩

theorem Alternative.roomy_buildList :
    ∀ as : List Alternative, Alternative.drawableList as →
      ∀ c ∈ Element.inferList (Alternative.buildList hooks as),
        90 ≤ c.frame.width ∧ leafHeight ≤ c.frame.height
  | [], _, c, hc => by simp [Alternative.buildList, Element.inferList] at hc
  | a :: as, h, c, hc => by
    simp only [Alternative.drawableList, Bool.and_eq_true] at h
    simp only [Alternative.buildList, Element.inferList, List.mem_cons] at hc
    rcases hc with rfl | hc
    · exact Alternative.roomy_build a h.1
    · exact Alternative.roomy_buildList as h.2 c hc

theorem Alternative.roomy_build :
    ∀ a : Alternative, a.drawable →
      90 ≤ (a.build hooks).infer.frame.width ∧ leafHeight ≤ (a.build hooks).infer.frame.height
  | .mk [], _ => ⟨le_leafWidth _, Int.le_refl _⟩
  | .mk (t :: ts), h => by
    simp only [Alternative.drawable, Term.drawableList, Bool.and_eq_true] at h
    have ht := Term.roomy_build t h.1
    have hts := Term.roomy_buildList ts h.2
    -- the first term alone is as wide and as tall as that
    have hrest : 0 ≤ (Element.widths (Element.inferList (Term.buildList hooks ts))).sum :=
      List.sum_nonneg (by
        simpa [Element.widths] using fun c hc => Int.le_trans (by decide) (hts c hc).1)
    have hfirst : (t.build hooks).infer ∈ Element.inferList (Term.buildList hooks (t :: ts)) :=
      List.mem_cons_self
    have htall := Element.height_le_greatest hfirst
    simp only [Alternative.build, Term.buildList, Element.infer_seq, Element.inferList,
      Element.widths_cons, Element.heights_cons, List.sum_cons, Element.frame_seq] at htall ⊢
    omega

theorem Term.roomy_buildList :
    ∀ ts : List Term, Term.drawableList ts →
      ∀ c ∈ Element.inferList (Term.buildList hooks ts),
        90 ≤ c.frame.width ∧ leafHeight ≤ c.frame.height
  | [], _, c, hc => by simp [Term.buildList, Element.inferList] at hc
  | t :: ts, h, c, hc => by
    simp only [Term.drawableList, Bool.and_eq_true] at h
    simp only [Term.buildList, Element.inferList, List.mem_cons] at hc
    rcases hc with rfl | hc
    · exact Term.roomy_build t h.1
    · exact Term.roomy_buildList ts h.2 c hc

theorem Term.roomy_build :
    ∀ t : Term, t.drawable →
      90 ≤ (t.build hooks).infer.frame.width ∧ leafHeight ≤ (t.build hooks).infer.frame.height
  | .assertion _ _, _ => ⟨le_leafWidth _, Int.le_refl _⟩
  | .quantified atom _ _, h => Atom.roomy_build _ atom h

theorem Atom.roomy_build (caption : String) :
    ∀ a : Atom, a.drawable →
      90 ≤ (a.build hooks caption).infer.frame.width ∧
        leafHeight ≤ (a.build hooks caption).infer.frame.height
  | .char _ _, _ | .any _, _ | .classEscape _ _, _ | .escaped _ _, _ | .backReference _ _, _
  | .charSet _ _ _, _ => ⟨le_leafWidth _, Int.le_refl _⟩
  | .group r _ _, h | .nonCapturing r _, h | .lookahead r _ _, h => by
    have hr := Regex.roomy_build r h
    simp only [Atom.build, groupBox_eq, Element.infer_seq, Element.inferList, Element.widths,
      Element.heights, List.map_cons, List.map_nil, List.sum_cons, List.sum_nil, greatest,
      Element.frame_seq, groupBorder]
    omega
end

end Sizes

@[simp] theorem Alternative.length_buildList (hooks : Hooks) :
    ∀ as : List Alternative, (Alternative.buildList hooks as).length = as.length
  | [] => rfl
  | a :: as => by simp [Alternative.buildList, Alternative.length_buildList hooks as]

@[simp] theorem Term.length_buildList (hooks : Hooks) :
    ∀ ts : List Term, (Term.buildList hooks ts).length = ts.length
  | [] => rfl
  | t :: ts => by simp [Term.buildList, Term.length_buildList hooks ts]

/-! ## 3. How far a resized part reaches -/

/-- How far the parts of a squeezed container inside `g` group boxes may reach past it:
nothing at the top, where nothing is squeezed, and up to half a group's border inside a
group. -/
def overhang (g : Nat) : Int := if g = 0 then 0 else 10

theorem overhang_nonneg (g : Nat) : 0 ≤ overhang g := by
  unfold overhang
  split <;> decide

/-- **The overshoot inside `g` groups.** Sharing a surplus no smaller than `-(c·g)` among
`n` parts gives no part less than that, and hands out at most the overhang inside `g`
groups more than the surplus, when a container inside a group has at most eleven parts. -/
theorem overshoot_le_overhang (s c : Int) (n g : Nat) (hn : 0 < n) (hc : 0 ≤ c)
    (hs : -(c * g) ≤ s) (hfan : 0 < g → n ≤ 11) :
    n * evenShare s n - s ≤ overhang g ∧ -(c * g) ≤ evenShare s n := by
  obtain ⟨h₁, h₂, h₃⟩ := evenShare_overshoot s n hn
  have hcg : 0 ≤ c * g := Int.mul_nonneg hc (by omega)
  refine ⟨?_, by omega⟩
  rcases Nat.eq_zero_or_pos g with rfl | hg
  · -- at the top the surplus is never negative, so nothing is left over
    have hs' : 0 ≤ s := by simpa using hs
    simp only [overhang, if_true]
    omega
  · have hn11 := hfan hg
    simp only [overhang, Nat.pos_iff_ne_zero.mp hg, if_false]
    omega

/-- **A squeezed choice fits with the overhang.** A choice of at least one child, at most
eleven inside a group, resized to a height at most `10·g` below its natural height, fits
with the overhang in both directions when its children, resized to its width and their own
heights plus any share no smaller than that squeeze, fit with the overhang in width. -/
theorem fits_resize_choice {g k : Nat} {f : Frame Int} {cs : List (Element Int)} {w h : Int}
    (hw : 0 ≤ w) (hh : 0 ≤ h) (hn : 0 < cs.length) (hfan : 0 < g → cs.length ≤ 11)
    (hshort : f.height - 10 * g ≤ h) (htall : ∀ c ∈ cs, 10 * g ≤ c.frame.height)
    (hsum : (Element.heights cs).sum = f.height)
    (hcs : ∀ share : Int, -(10 * g) ≤ share →
      ∀ c ∈ Element.resizeStack w share cs, c.Fits k (overhang g) 0) :
    ((Element.choice f cs).resize w h).Fits k (overhang g) (overhang g) := by
  obtain ⟨hover, hshare⟩ :=
    overshoot_le_overhang (h - f.height) 10 cs.length g hn (by decide) (by omega) hfan
  have hheights := Element.sum_heights_resizeStack w (evenShare (h - f.height) cs.length)
    fun c hc => by
      have := htall c hc
      omega
  simp only [Element.resize, Int.max_eq_left hw, Int.max_eq_left hh]
  refine .stack hw hh (hcs _ hshare) (fun c hc => ?_) ?_ (overhang_nonneg g) (overhang_nonneg g)
  · rw [Element.frame_mem_resizeStack _ _ c hc, Int.max_eq_left hw]
  · -- the children's heights together exceed the target by the overshoot alone
    dsimp only
    rw [hheights, hsum]
    omega

/-- **No child of a row is squeezed below nothing.** A row given a target of zero or more, at
most `20·g` below its natural width, hands a lone child the target itself and each of two or
more children no less than `10·g` below its own width, which it has. -/
theorem unclamped_resizeRow {W : Int} {g : Nat} {cs : List (Element Int)} (hW : 0 ≤ W)
    (hs : -(20 * g) ≤ W - (Element.widths cs).sum)
    (hwide : ∀ c ∈ cs, 10 * g ≤ c.frame.width) :
    ∀ c ∈ cs, 0 ≤ c.frame.width + evenShare (W - (Element.widths cs).sum) cs.length := by
  match cs with
  | [] => simp
  | [c] =>
    intro d hd
    rw [List.mem_singleton] at hd
    subst hd
    simp only [Element.widths, List.map_cons, List.map_nil, List.sum_cons, List.sum_nil,
      List.length_singleton, evenShare_one] at hs ⊢
    omega
  | c₁ :: c₂ :: cs =>
    intro d hd
    -- two children or more share the squeeze, so that each takes at most half of it
    have hhalf := two_mul_max_neg_evenShare_le (W - (Element.widths (c₁ :: c₂ :: cs)).sum)
      (show 1 < (c₁ :: c₂ :: cs).length by simp)
    have := hwide d hd
    omega

/-- **A squeezed row fits with the overhang.** A sequence without border of at least one
child, at most eleven inside a group, resized to a width of zero or more and at most `20·g`
below its natural width, fits with the overhang in width when its children, resized to its
height and their own widths plus any share no smaller than that squeeze, fit exactly. -/
theorem fits_resize_row {g k : Nat} {f : Frame Int} {s : Sequence} {cs : List (Element Int)}
    {w h : Int} (hb : s.border = 0) (hw : 0 ≤ w) (hh : 0 ≤ h) (hn : 0 < cs.length)
    (hfan : 0 < g → cs.length ≤ 11) (hnarrow : f.width - 20 * g ≤ w)
    (hwide : ∀ c ∈ cs, 10 * g ≤ c.frame.width) (hsum : (Element.widths cs).sum = f.width)
    (hcs : ∀ share : Int, -(20 * g) ≤ share → ∀ c ∈ Element.resizeRow share h cs, c.Fits k 0 0) :
    ((Element.seq f s cs).resize w h).Fits k (overhang g) 0 := by
  obtain ⟨hover, hshare⟩ :=
    overshoot_le_overhang (w - f.width) 20 cs.length g hn (by decide) (by omega) hfan
  have hunclamped := unclamped_resizeRow hw (by omega) hwide
  rw [hsum] at hunclamped
  have hwidths := Element.sum_widths_resizeRow (evenShare (w - f.width) cs.length) h hunclamped
  simp only [Element.resize, hb, Int.sub_zero, Int.max_eq_left hw, Int.max_eq_left hh]
  refine .row hb hw hh (hcs _ hshare) (fun c hc => ?_) ?_ (overhang_nonneg g)
  · rw [Element.frame_mem_resizeRow _ _ c hc, Int.max_eq_left hh]
  · -- the children's widths together exceed the target by the overshoot alone
    dsimp only
    rw [hwidths, hsum]
    omega

/-- Resizing sees a target width only once it is clamped at zero. -/
theorem Element.resize_max_width (w h : Int) (e : Element Int) :
    e.resize (max w 0) h = e.resize w h := by
  cases e <;> simp [Element.resize]

/-- The room a part of a diagram is resized in when it lies inside `g` group boxes and its
leaves may be squeezed by `k` levels: at most five levels, groups nesting no deeper than
`k` with the ones around it, no more than eleven children to a container inside a group,
and a target at most `20·g` narrower and `10·g` shorter than the part's natural size. -/
structure Room (g k : Nat) (e : Element Int) (w h : Int) : Prop where
  shallow : k ≤ 5
  depth : e.groupDepth + g ≤ k
  fan : e.fanInside (decide (0 < g)) ≤ 11
  width : e.infer.frame.width - 20 * g ≤ w
  height : e.infer.frame.height - 10 * g ≤ h

/-- A leaf resized within its room fits, with any allowance. -/
theorem Room.fits_leaf {g k : Nat} {f : Frame Int} {l : Leaf} {w h dx dy : Int}
    (room : Room g k (.leaf f l) w h) (hdx : 0 ≤ dx) (hdy : 0 ≤ dy) :
    ((Element.leaf f l).infer.resize w h).Fits k dx dy := by
  have hw := room.width
  have hh := room.height
  have hgk : g ≤ k := by
    have := room.depth
    omega
  simp only [Element.infer_leaf, Element.resize, Element.frame_leaf] at hw hh ⊢
  have hw' := Int.le_max_left w 0
  have hh' := Int.le_max_left h 0
  exact .leaf (Int.le_max_right _ _) (Int.le_max_right _ _) (by dsimp only; omega)
    (by dsimp only; omega) hdx hdy

/-- A part's room is kept when its target width is clamped at zero. -/
theorem Room.clampWidth {g k : Nat} {e : Element Int} {w h : Int} (room : Room g k e w h) :
    Room g k e (max w 0) h :=
  ⟨room.shallow, room.depth, room.fan, Int.le_trans room.width (Int.le_max_left w 0), room.height⟩

section GroupBox

variable (hooks : Hooks) {g k : Nat} {label : Option String} {caption : String} {id : Int}
  {inner : Element Int} {w h : Int}

/-- The body of a group box has the group's room, inside one more group and squeezed by the
whole border. -/
theorem Room.body (room : Room g k (groupBox hooks label caption id inner) w h) :
    Room (g + 1) k inner (w - 20) (h - 20) := by
  obtain ⟨hk, hdepth, hfan, hW, hH⟩ := room
  rw [groupDepth_groupBox] at hdepth
  rw [fanInside_groupBox] at hfan
  simp only [groupBox_eq, Element.infer_seq, Element.inferList, Element.widths, Element.heights,
    List.map_cons, List.map_nil, List.sum_cons, List.sum_nil, greatest, Element.frame_seq,
    groupBorder] at hW hH
  refine ⟨hk, by omega, by simpa using Nat.le_trans (Nat.le_max_right _ _) hfan, ?_, ?_⟩ <;>
    push_cast <;> omega

/-- **A group box given less than its border's width is the deepest.** Its body, at least a
leaf wide, lies inside five groups with it, so holds no group itself, and is narrower than
two leaves side by side. -/
theorem Room.narrow (room : Room g k (groupBox hooks label caption id inner) w h) (hw : w < 20)
    (hbig : 90 ≤ inner.infer.frame.width) :
    inner.groupDepth = 0 ∧ inner.infer.frame.width < 100 := by
  obtain ⟨hk, hdepth, -, hW, -⟩ := room
  rw [groupDepth_groupBox] at hdepth
  simp only [groupBox_eq, Element.infer_seq, Element.inferList, Element.widths,
    List.map_cons, List.map_nil, List.sum_cons, List.sum_nil, Element.frame_seq] at hW
  -- a squeeze of more than seventy pixels takes four groups around the box
  have hg : 4 ≤ g := by omega
  omega

/-- **A group box fits exactly** when its body, resized within the group's room, overhangs its
own frame by no more than half the border, and by nothing when it is squeezed below zero
width. -/
theorem Room.fits_groupBox (room : Room g k (groupBox hooks label caption id inner) w h)
    (hbody : (inner.infer.resize (w - 20) (h - 20)).Fits k 10 10)
    (hbig : 90 ≤ inner.infer.frame.width ∧ leafHeight ≤ inner.infer.frame.height)
    (hclamped : w < 20 → (inner.infer.resize (w - 20) (h - 20)).reach.1 ≤ 0) :
    ((groupBox hooks label caption id inner).infer.resize w h).Fits k 0 0 := by
  obtain ⟨hk, hdepth, -, hW, hH⟩ := room
  rw [groupDepth_groupBox] at hdepth
  simp only [groupBox_eq, Element.infer_seq, Element.inferList, Element.widths, Element.heights,
    List.map_cons, List.map_nil, List.sum_cons, List.sum_nil, greatest, Element.frame_seq,
    groupBorder, leafHeight] at hW hH hbig
  -- the group itself counts, so it lies inside at most four others
  have hw : 10 ≤ w := by omega
  have hh : 20 ≤ h := by omega
  have htarget : inner.infer.frame.width + (max w 0 - (inner.infer.frame.width + 0) - 20) =
      w - 20 := by omega
  simp only [groupBox_eq, Element.infer_seq, Element.inferList, Element.resize, Element.resizeRow,
    Element.widths, List.map_cons, List.map_nil, List.sum_cons, List.sum_nil, List.length_cons,
    List.length_nil, Nat.zero_add, evenShare_one, htarget, groupBorder]
  rw [Int.max_eq_left (by omega : (0 : Int) ≤ h)]
  have hsize := Element.frame_resize (w - 20) (h - 20) inner.infer
  rcases Int.lt_or_le w 20 with hlt | hge
  · -- squeezed below zero, the body is clamped at zero width and reaches no further
    have hflat : (inner.infer.resize (w - 20) (h - 20)).Fits k 0 10 :=
      ⟨hbody.sized, hbody.tight, by have := hclamped hlt; simp only [hsize]; omega,
        hbody.reach_height, hbody.leaves⟩
    refine Element.Fits.group rfl hflat ?_ ?_ <;> simp only [hsize] <;> omega
  · refine Element.Fits.group rfl hbody ?_ ?_ <;> simp only [hsize] <;> omega

end GroupBox

/-- A stack reaches no wider than a width of zero or more that every child keeps within. -/
theorem Element.reachStack_fst_le {w : Int} (w0 : 0 ≤ w) :
    ∀ {cs : List (Element Int)}, (∀ c ∈ cs, c.reach.1 ≤ w) → (Element.reachStack cs).1 ≤ w
  | [], _ => by simpa [Element.reachStack] using w0
  | c :: cs, hcs => by
    have ih := Element.reachStack_fst_le w0 fun d hd => hcs d (List.mem_cons_of_mem c hd)
    simp only [Element.reachStack]
    exact Int.max_le.mpr ⟨hcs c List.mem_cons_self, ih⟩

section Narrow

/-! A body squeezed below nothing is clamped at zero width. The only such body is the
deepest one allowed, with no group inside it and narrower than two leaves side by side;
each of its alternatives is then one leaf or a row of one, which every target width passes
down unchanged, so that the whole body lies flat at the target clamped at zero. -/

variable (hooks : Hooks)

/-- A term whose diagram holds no group box is drawn as a single leaf. -/
theorem Term.build_eq_leaf :
    ∀ t : Term, (t.build hooks).groupDepth = 0 → ∃ f l, t.build hooks = .leaf f l
  | .assertion _ _, _ => ⟨_, _, rfl⟩
  | .quantified (.char _ _) _ _, _ | .quantified (.any _) _ _, _
  | .quantified (.classEscape _ _) _ _, _ | .quantified (.escaped _ _) _ _, _
  | .quantified (.backReference _ _) _ _, _ | .quantified (.charSet _ _ _) _ _, _ => ⟨_, _, rfl⟩
  | .quantified (.group _ _ _) _ _, h | .quantified (.nonCapturing _ _) _ _, h
  | .quantified (.lookahead _ _ _) _ _, h => by
    simp [Term.build, Atom.build, groupDepth_groupBox] at h

/-- **A narrow alternative lies flat.** An alternative without groups, narrower than two
leaves side by side, reaches no further than any width it is resized to, clamped at zero. -/
theorem Alternative.reach_resize_narrow (w h : Int) :
    ∀ a : Alternative, a.drawable → (a.build hooks).groupDepth = 0 →
      (a.build hooks).infer.frame.width < 180 →
      ((a.build hooks).infer.resize w h).reach.1 ≤ max w 0
  | .mk [], _, _, _ => by simp [Alternative.build, Element.resize, Element.reach]
  | .mk [t], _, hdepth, _ => by
    have ht : (t.build hooks).groupDepth = 0 := by
      simpa [Alternative.build, Term.buildList, Element.groupDepth, Element.groupDepthList]
        using hdepth
    obtain ⟨f, l, hleaf⟩ := Term.build_eq_leaf hooks t ht
    -- a row of one hands its child the row's own target
    simp [Alternative.build, Term.buildList, hleaf, Element.inferList, Element.resize,
      Element.resizeRow, Element.reach, Element.reachRow, Element.widths]
  | .mk (t₁ :: t₂ :: ts), ha, _, hnarrow => by
    -- two terms side by side are at least two leaves wide
    have hts := Term.roomy_buildList hooks (t₁ :: t₂ :: ts) ha
    have h₁ := (hts (t₁.build hooks).infer List.mem_cons_self).1
    have h₂ := (hts (t₂.build hooks).infer (List.mem_cons_of_mem _ List.mem_cons_self)).1
    have hrest : 0 ≤ (Element.widths (Element.inferList (Term.buildList hooks ts))).sum :=
      List.sum_nonneg (by
        simpa [Element.widths] using fun c hc => Int.le_trans (by decide)
          (hts c (List.mem_cons_of_mem _ (List.mem_cons_of_mem _ hc))).1)
    simp only [Alternative.build, Term.buildList, Element.infer_seq, Element.inferList,
      Element.widths_cons, List.sum_cons, Element.frame_seq] at hnarrow
    omega

/-- Narrow alternatives stacked at a width of zero or more reach no further than it. -/
theorem Alternative.reach_resizeStack_narrow {w : Int} (share : Int) (hw : 0 ≤ w) :
    ∀ as : List Alternative, Alternative.drawableList as →
      Element.groupDepthList (Alternative.buildList hooks as) = 0 →
      (∀ c ∈ Element.inferList (Alternative.buildList hooks as), c.frame.width < 180) →
      ∀ c ∈ Element.resizeStack w share (Element.inferList (Alternative.buildList hooks as)),
        c.reach.1 ≤ w
  | [], _, _, _, c, hc => by
    simp [Alternative.buildList, Element.inferList, Element.resizeStack] at hc
  | a :: as, has, hdepth, hnarrow, c, hc => by
    simp only [Alternative.drawableList, Bool.and_eq_true] at has
    simp only [Alternative.buildList, Element.groupDepthList, Nat.max_eq_zero_iff] at hdepth
    simp only [Alternative.buildList, Element.inferList, Element.resizeStack,
      List.mem_cons] at hc
    rcases hc with rfl | hc
    · have := Alternative.reach_resize_narrow hooks w ((a.build hooks).infer.frame.height + share)
        a has.1 hdepth.1 (hnarrow _ List.mem_cons_self)
      rwa [Int.max_eq_left hw] at this
    · exact Alternative.reach_resizeStack_narrow share hw as has.2 hdepth.2
        (fun d hd => hnarrow d (List.mem_cons_of_mem _ hd)) c hc

/-- **A narrow regex lies flat.** A regex without groups, narrower than two leaves side by
side, reaches no further than any width it is resized to, clamped at zero. -/
theorem Regex.reach_resize_narrow (w h : Int) (r : Regex) (hr : r.drawable)
    (hdepth : (r.build hooks).groupDepth = 0) (hnarrow : (r.build hooks).infer.frame.width < 180) :
    ((r.build hooks).infer.resize w h).reach.1 ≤ max w 0 := by
  obtain ⟨as⟩ := r
  have has : Alternative.drawableList as := by
    simp only [Regex.drawable, Bool.and_eq_true] at hr
    exact hr.2
  simp only [Regex.build, Element.infer_choice, Element.frame_choice, Element.groupDepth]
    at hdepth hnarrow
  -- the alternatives are stacked at the clamped width, each lying flat in it
  have hstack := Element.reachStack_fst_le (Int.le_max_right w 0)
    (Alternative.reach_resizeStack_narrow hooks
      (evenShare (max h 0 - (Element.heights (Element.inferList (Alternative.buildList hooks as))).sum)
        as.length) (Int.le_max_right w 0) as has hdepth
      fun c hc => Int.lt_of_le_of_lt (Element.width_le_greatest hc) hnarrow)
  simp only [Regex.build, Element.infer_choice, Element.resize, Element.reach,
    Element.length_inferList, Alternative.length_buildList]
  exact Int.max_le.mpr ⟨Int.le_refl _, hstack⟩

end Narrow

section Fitting

variable (hooks : Hooks)

mutual
/-- **How far a resized regex reaches.** A drawable regex's diagram resized within its room
inside `g` groups reaches no more than the overhang past its width and its height. -/
theorem Regex.fits_resize :
    ∀ (r : Regex) (g k : Nat) (w h : Int), r.drawable → Room g k (r.build hooks) w h →
      ((r.build hooks).infer.resize w h).Fits k (overhang g) (overhang g)
  | .mk [], _, _, _, _, hr, _ => by simp [Regex.drawable] at hr
  | .mk (a :: as), g, k, w, h, hr, room => by
    have hbig := Regex.roomy_build hooks (.mk (a :: as)) hr
    have has : Alternative.drawableList (a :: as) := by simpa [Regex.drawable] using hr
    have hsizes := Alternative.roomy_buildList hooks (a :: as) has
    -- a target width below zero is resized as zero, which keeps the room
    rw [← Element.resize_max_width]
    have hw := Int.le_max_right w 0
    obtain ⟨hk, hdepth, hfan, hW, hH⟩ := room.clampWidth
    obtain ⟨hcount, hfan⟩ := fanInside_choice_le.mp hfan
    simp only [Regex.build, Element.infer_choice, Element.frame_choice, Element.groupDepth,
      leafHeight] at hbig hdepth hW hH ⊢
    -- the alternatives are stacked at the regex's width and share its squeeze in height
    refine fits_resize_choice hw (by omega) (by simp)
      (fun hg => by simpa using hcount (decide_eq_true hg)) hH
      (fun c hc => by
        have := (hsizes c hc).2
        simp only [leafHeight] at this
        omega) rfl
      (fun share hshare => Alternative.fits_resizeStack (a :: as) g k _ share has hk hdepth hfan
        (fun c hc => by
          have := Element.width_le_greatest hc
          omega) hshare)

/-- The alternatives of a regex, stacked at one width and each given its height plus a
share no smaller than the squeeze inside `g` groups, each fit with the overhang. -/
theorem Alternative.fits_resizeStack :
    ∀ (as : List Alternative) (g k : Nat) (w share : Int), Alternative.drawableList as →
      k ≤ 5 → Element.groupDepthList (Alternative.buildList hooks as) + g ≤ k →
      Element.fanInsideList (decide (0 < g)) (Alternative.buildList hooks as) ≤ 11 →
      (∀ c ∈ Element.inferList (Alternative.buildList hooks as), c.frame.width - 20 * g ≤ w) →
      -(10 * g) ≤ share →
      ∀ c ∈ Element.resizeStack w share (Element.inferList (Alternative.buildList hooks as)),
        c.Fits k (overhang g) 0
  | [], _, _, _, _, _, _, _, _, _, _, c, hc => by
    simp [Alternative.buildList, Element.inferList, Element.resizeStack] at hc
  | a :: as, g, k, w, share, has, hk, hdepth, hfan, hwidths, hshare, c, hc => by
    simp only [Alternative.drawableList, Bool.and_eq_true] at has
    simp only [Alternative.buildList, Element.groupDepthList, Element.fanInsideList] at hdepth hfan
    have hhead := hwidths _ List.mem_cons_self
    have hrest : ∀ d ∈ Element.inferList (Alternative.buildList hooks as),
        d.frame.width - 20 * g ≤ w := fun d hd => hwidths d (List.mem_cons_of_mem _ hd)
    simp only [Alternative.buildList, Element.inferList, Element.resizeStack,
      List.mem_cons] at hc
    rcases hc with rfl | hc
    · exact Alternative.fits_resize a g k w _ has.1 ⟨hk, by omega, by omega, hhead, by omega⟩
    · exact Alternative.fits_resizeStack as g k w share has.2 hk (by omega) (by omega) hrest
        hshare c hc

/-- **How far a resized alternative reaches.** A drawable alternative's diagram resized
within its room inside `g` groups reaches no more than the overhang past its width, and no
lower than its height. -/
theorem Alternative.fits_resize :
    ∀ (a : Alternative) (g k : Nat) (w h : Int), a.drawable → Room g k (a.build hooks) w h →
      ((a.build hooks).infer.resize w h).Fits k (overhang g) 0
  | .mk [], g, _, _, _, _, room => room.fits_leaf (overhang_nonneg g) (Int.le_refl 0)
  | .mk (t :: ts), g, k, w, h, ha, room => by
    have hbig := Alternative.roomy_build hooks (.mk (t :: ts)) ha
    have hts : Term.drawableList (t :: ts) := ha
    have hsizes := Term.roomy_buildList hooks (t :: ts) hts
    rw [← Element.resize_max_width]
    have hw := Int.le_max_right w 0
    obtain ⟨hk, hdepth, hfan, hW, hH⟩ := room.clampWidth
    obtain ⟨hcount, hfan⟩ := fanInside_seq_le.mp hfan
    simp only [Alternative.build, Element.infer_seq, Element.frame_seq, Element.groupDepth,
      Int.lt_irrefl, if_false, Nat.zero_add, decide_false, Bool.or_false, Int.zero_ediv,
      Int.add_zero, leafHeight] at hbig hdepth hfan hW hH ⊢
    -- the terms are lined up at the alternative's height and share its squeeze in width
    refine fits_resize_row rfl hw (by omega) (by simp)
      (fun hg => by simpa using hcount (decide_eq_true hg)) hW
      (fun c hc => by
        have := (hsizes c hc).1
        omega) rfl
      (fun share hshare => Term.fits_resizeRow (t :: ts) g k share h hts hk hdepth hfan
        (fun c hc => by
          have := Element.height_le_greatest hc
          omega) hshare)

/-- The terms of an alternative, lined up at one height and each given its width plus a
share no smaller than the squeeze inside `g` groups, each fit exactly. -/
theorem Term.fits_resizeRow :
    ∀ (ts : List Term) (g k : Nat) (share h : Int), Term.drawableList ts → k ≤ 5 →
      Element.groupDepthList (Term.buildList hooks ts) + g ≤ k →
      Element.fanInsideList (decide (0 < g)) (Term.buildList hooks ts) ≤ 11 →
      (∀ c ∈ Element.inferList (Term.buildList hooks ts), c.frame.height - 10 * g ≤ h) →
      -(20 * g) ≤ share →
      ∀ c ∈ Element.resizeRow share h (Element.inferList (Term.buildList hooks ts)),
        c.Fits k 0 0
  | [], _, _, _, _, _, _, _, _, _, _, c, hc => by
    simp [Term.buildList, Element.inferList, Element.resizeRow] at hc
  | t :: ts, g, k, share, h, hts, hk, hdepth, hfan, hheights, hshare, c, hc => by
    simp only [Term.drawableList, Bool.and_eq_true] at hts
    simp only [Term.buildList, Element.groupDepthList, Element.fanInsideList] at hdepth hfan
    have hhead := hheights _ List.mem_cons_self
    have hrest : ∀ d ∈ Element.inferList (Term.buildList hooks ts),
        d.frame.height - 10 * g ≤ h := fun d hd => hheights d (List.mem_cons_of_mem _ hd)
    simp only [Term.buildList, Element.inferList, Element.resizeRow, List.mem_cons] at hc
    rcases hc with rfl | hc
    · exact Term.fits_resize t g k _ h hts.1 ⟨hk, by omega, by omega, by omega, hhead⟩
    · exact Term.fits_resizeRow ts g k share h hts.2 hk (by omega) (by omega) hrest hshare c hc

/-- **A resized term reaches exactly its frame.** -/
theorem Term.fits_resize :
    ∀ (t : Term) (g k : Nat) (w h : Int), t.drawable → Room g k (t.build hooks) w h →
      ((t.build hooks).infer.resize w h).Fits k 0 0
  | .assertion _ _, _, _, _, _, _, room => room.fits_leaf (Int.le_refl 0) (Int.le_refl 0)
  | .quantified atom _ _, g, k, w, h, ht, room => Atom.fits_resize _ atom g k w h ht room

/-- **A resized atom reaches exactly its frame**: a leaf trivially, and a group box because
its body, one group further in, overhangs it by no more than half its border. -/
theorem Atom.fits_resize (caption : String) :
    ∀ (a : Atom) (g k : Nat) (w h : Int), a.drawable → Room g k (a.build hooks caption) w h →
      ((a.build hooks caption).infer.resize w h).Fits k 0 0
  | .char _ _, _, _, _, _, _, room | .any _, _, _, _, _, _, room
  | .classEscape _ _, _, _, _, _, _, room | .escaped _ _, _, _, _, _, _, room
  | .backReference _ _, _, _, _, _, _, room | .charSet _ _ _, _, _, _, _, _, room =>
    room.fits_leaf (Int.le_refl 0) (Int.le_refl 0)
  | .group r _ _, g, k, w, h, ha, room | .nonCapturing r _, g, k, w, h, ha, room
  | .lookahead r _ _, g, k, w, h, ha, room =>
    room.fits_groupBox hooks
      (Regex.fits_resize r (g + 1) k (w - 20) (h - 20) ha (room.body hooks))
      (Regex.roomy_build hooks r ha)
      (fun hw => by
        -- only the deepest body is squeezed below nothing, and it lies flat
        obtain ⟨hdepth, hnarrow⟩ := room.narrow hooks hw (Regex.roomy_build hooks r ha).1
        have hflat := Regex.reach_resize_narrow hooks (w - 20) (h - 20) r ha hdepth (by omega)
        rwa [Int.max_eq_right (by omega)] at hflat)
end

end Fitting

/-! ## 4. Group boxes and the canvas -/

/-- **Every part of a laid-out diagram starts inside the canvas and every group box around
it, and lies wholly inside them when groups nest at most five deep and no choice or
sequence inside a group has more than eleven children.** The first half holds of every
regex. The second needs each hypothesis: a regex without an alternative in a group is
drawn as an empty box that its body's clamped frame sticks out of; more than eleven
children can leave more than the half border of truncated squeeze; and six levels down a
group box itself is squeezed to nothing and clamped at zero. -/
theorem Regex.layout_within_group_boxes (hooks : Hooks) (r : Regex) :
    (r.build hooks).layout.contained Frame.startsWithin = true ∧
      (r.drawable = true → (r.build hooks).groupDepth ≤ 5 → (r.build hooks).groupFan ≤ 11 →
        (r.build hooks).layout.contained Frame.within = true) := by
  refine ⟨Element.layout_contained_startsWithin (Regex.sized_build hooks r),
    fun hr hdepth hfan => ?_⟩
  -- the root is resized to its own natural size, inside no group
  have room : Room 0 5 (r.build hooks) (r.build hooks).infer.frame.width
      (r.build hooks).infer.frame.height :=
    ⟨Nat.le_refl 5, hdepth, hfan, by omega, by omega⟩
  exact Element.layout_contained_within (Regex.fits_resize hooks r 0 5 _ _ hr room)

/-- A regex inside `n` nested groups, each numbered one. -/
def Regex.grouped : Nat → Regex → Regex
  | 0, r => r
  | n + 1, r => .mk [.mk [.quantified (.group (r.grouped n) 1 1) none true]]

/-- Five groups around one character, as deep as the bound allows, are laid out within their
boxes: the innermost box is ten pixels wide, and its body, squeezed to minus ten and clamped
at zero, lies flat at its inner edge. -/
theorem Regex.layout_within_group_boxes_deepest :
    (Regex.grouped 5 (.mk [.mk [.quantified (.char "a" 6) none true]])).drawable = true ∧
    ((Regex.grouped 5 (.mk [.mk [.quantified (.char "a" 6) none true]])).build
      Hooks.none).groupDepth = 5 ∧
    ((Regex.grouped 5 (.mk [.mk [.quantified (.char "a" 6) none true]])).build
      Hooks.none).layout.contained Frame.within = true :=
  ⟨by decide, by decide, (Regex.layout_within_group_boxes Hooks.none _).2 (by decide) (by decide)
    (by decide)⟩

/-- **Neither bound can be dropped.** A group of twenty-one characters is squeezed by its
border's twenty pixels, which a share truncated toward zero leaves wholly to the row: its last
character ends ten pixels past the group box and nine past the canvas. Six groups around one
character squeeze the fifth box to ten pixels and the sixth to nothing: the sixth box's body,
clamped at zero width, starts ten pixels inside a box of no width at all. -/
theorem Regex.crowded_or_deep_groups_overflow :
    (Regex.grouped 1 (.mk [.mk (List.replicate 21 (.quantified (.char "a" 2) none true))])).drawable =
        true ∧
    ((Regex.grouped 1 (.mk [.mk (List.replicate 21 (.quantified (.char "a" 2) none true))])).build
        Hooks.none).groupFan = 21 ∧
    ((Regex.grouped 1 (.mk [.mk (List.replicate 21 (.quantified (.char "a" 2) none true))])).build
        Hooks.none).layout.contained Frame.within = false ∧
    (Regex.grouped 6 (.mk [.mk [.quantified (.char "a" 7) none true]])).drawable = true ∧
    ((Regex.grouped 6 (.mk [.mk [.quantified (.char "a" 7) none true]])).build
        Hooks.none).groupDepth = 6 ∧
    ((Regex.grouped 6 (.mk [.mk [.quantified (.char "a" 7) none true]])).build
        Hooks.none).groupFan = 1 ∧
    ((Regex.grouped 6 (.mk [.mk [.quantified (.char "a" 7) none true]])).build
        Hooks.none).layout.contained Frame.within = false := by
  refine ⟨by decide, by decide, by decide, by decide, by decide, by decide, by decide⟩

end PatternChart
