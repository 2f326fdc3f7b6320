import PatternChart.Proofs.ReadingOrder
import PatternChart.Proofs.GroupBoxes
/-!
# Leaf boxes lie apart

Every leaf is drawn as a box centred in its slot, and a slot is sixty pixels wider and fifty
taller than its box. Layout squeezes slots: a group box hands its body twenty pixels less
width and ten less height than it reserves, and a squeezed choice or sequence shares its
shortfall among its children by a share truncated toward zero, so that they overhang it by
the remainder. The margins around the boxes absorb the squeeze, up to a point.

Measured in half pixels from a placed part's sides (`BoxesWithin`,
`Element.boxesWithin_place_resize_infer`), the boxes of its leaves lie

* at least `60` less its squeeze in width right of its left side, and at least `50` less
  its squeeze in height below its top: squeezing a part moves its first leaf's box no
  nearer than the squeeze to its left side;
* and at least `60` left of the right side of its natural or given width, whichever is
  larger, less `20` for every level of group boxes it holds, and at least `50` above the
  bottom of its natural or given height. A group box lets its body's boxes overhang its
  natural width by ten pixels: the overhang of a squeezed sequence is not shared out.

Inside a part held by `g` groups the squeeze is at most `20·g` in width and `10·g` in height,
and two children of a squeezed container share it. A leaf's box, centred in its slot, loses
only half its own squeeze on either side (`Element.leaf_part_placeAcross`); in a built
diagram a row lines up only leaves and group boxes (`Element.builtForm`). So when groups nest
at most four deep the boxes of each child of a sequence lie left of those of every later
child, and in a choice above them (`Element.inOrder_place_resize_infer`). The arrows then run
rightward (`Proofs.ReadingOrder`) and no two leaf boxes overlap. With the root at its natural
size every box lies in the canvas when groups nest at most three deep. Neither bound can be
raised. Four groups around a group of sixty-one characters and one more, five deep, squeeze
the inner group's body by sixty pixels, which its truncated share hands out as nothing, so
its last box overlaps the next one; and four groups around eighty-one characters end the last
box ten pixels past the outermost group and nine past the canvas.
-/

set_option autoImplicit false

namespace PatternChart

/-! ## 1. Leaf boxes in half pixels -/

/-- Twice the left edge of the box drawn for a leaf: the box is centred in the leaf's frame,
so its edges fall on half pixels, and doubled they are whole. -/
def twiceLeft (p : Frame Int × Leaf) : Int := 2 * p.1.x + p.1.width - boxWidth p.2.label

/-- Twice the right edge of the box drawn for a leaf. -/
def twiceRight (p : Frame Int × Leaf) : Int := 2 * p.1.x + p.1.width + boxWidth p.2.label

/-- Twice the top edge of the box drawn for a leaf. -/
def twiceTop (p : Frame Int × Leaf) : Int := 2 * p.1.y + p.1.height - boxHeight

/-- Twice the bottom edge of the box drawn for a leaf. -/
def twiceBottom (p : Frame Int × Leaf) : Int := 2 * p.1.y + p.1.height + boxHeight

/-- A leaf's slot is sixty pixels wider than its box, whatever its label. -/
theorem leafWidth_eq (label : String) : leafWidth label = boxWidth label + 60 := by
  unfold leafWidth boxWidth
  omega

/-- Whether the boxes of some leaves lie within doubled bounds: left edges from `lx`, right
edges up to `hx`, top edges from `ly` and bottom edges up to `hy`. -/
def BoxesWithin (lx hx ly hy : Int) (ps : List (Frame Int × Leaf)) : Prop :=
  ∀ p ∈ ps, lx ≤ twiceLeft p ∧ twiceRight p ≤ hx ∧ ly ≤ twiceTop p ∧ twiceBottom p ≤ hy

namespace BoxesWithin

variable {lx hx ly hy lx' hx' ly' hy' : Int} {ps qs : List (Frame Int × Leaf)}

theorem mono (h : BoxesWithin lx hx ly hy ps) (hlx : lx' ≤ lx) (hhx : hx ≤ hx')
    (hly : ly' ≤ ly) (hhy : hy ≤ hy') : BoxesWithin lx' hx' ly' hy' ps := fun p hp => by
  obtain ⟨h₁, h₂, h₃, h₄⟩ := h p hp
  exact ⟨by omega, by omega, by omega, by omega⟩

theorem append (h : BoxesWithin lx hx ly hy ps) (h' : BoxesWithin lx hx ly hy qs) :
    BoxesWithin lx hx ly hy (ps ++ qs) := fun p hp =>
  (List.mem_append.mp hp).elim (h p) (h' p)

end BoxesWithin

/-! ## 2. Where a placed part's boxes lie -/

namespace Element

variable {α : Type}

/-- Whether a tree is a leaf or a sequence with a border: what a row of a diagram lines up. -/
def leafOrGroup : Element α → Bool
  | .leaf _ _ => true
  | .seq _ s _ => decide (0 < s.border)
  | .choice _ _ => false

mutual
/-- Whether a tree has the form building gives a diagram, as far as its leaf boxes care: every
sequence is plain or a group box, without a border or with the border of a group, and one of
two parts or more lines up only leaves and group boxes. -/
def builtForm : Element α → Bool
  | .leaf _ _ => true
  | .seq _ s cs =>
    decide (s.border = 0 ∨ s.border = groupBorder) && (decide (cs.length ≤ 1) || cs.all leafOrGroup) &&
      builtFormList cs
  | .choice _ cs => builtFormList cs

/-- Whether every tree of a list has the form of a built diagram. -/
def builtFormList : List (Element α) → Bool
  | [] => true
  | e :: es => builtForm e && builtFormList es
end

mutual
/-- **Where a resized part's boxes lie.** A part resized from its natural size to a target and
placed at a corner has the boxes of its leaves at least `60` half pixels less its squeeze in
width right of its left side and `50` less its squeeze in height below its top; at most `60`
less `20` for each level of groups it holds left of the right side of its natural or target
width, whichever is larger, and `50` above the bottom of its natural or target height. -/
theorem boxesWithin_place_resize_infer :
    ∀ e : Element Int, e.Sized → e.builtForm → ∀ w h x y : Int,
      BoxesWithin (2 * x + 60 - max (e.infer.frame.width - max w 0) 0)
        (2 * (x + max e.infer.frame.width (max w 0)) + 20 * e.groupDepth - 60)
        (2 * y + 50 - max (e.infer.frame.height - max h 0) 0)
        (2 * (y + max e.infer.frame.height (max h 0)) - 50)
        ((e.infer.resize w h).place x y).framedLeaves
  | .leaf f l, _, _, w, h, x, y => by
    intro p hp
    simp only [infer_leaf, resize, place, framedLeaves, List.mem_singleton] at hp
    subst hp
    have hslot := leafWidth_eq l.label
    simp only [infer_leaf, frame_leaf, groupDepth, twiceLeft, twiceRight, twiceTop, twiceBottom,
      boxHeight, leafHeight]
    omega
  | .seq f s cs, hs, hb, w, h, x, y => by
    obtain ⟨-, -, -, hcs⟩ := hs
    simp only [builtForm, Bool.and_eq_true] at hb
    obtain ⟨⟨hborder, -⟩, hbcs⟩ := hb
    replace hborder : s.border = 0 ∨ s.border = 20 := of_decide_eq_true hborder
    have hrow := boxesWithin_placeAcross cs hcs hbcs
      (evenShare (max w 0 - (widths (inferList cs)).sum - s.border) cs.length)
      (max h 0 - s.border) (x + s.border / 2) (y + s.border / 2)
    have hsum : 0 ≤ (widths (inferList cs)).sum :=
      List.sum_nonneg (widths_nonneg (sized_inferList cs hcs))
    have htall : 0 ≤ greatest (heights (inferList cs)) :=
      greatest_nonneg (heights_nonneg (sized_inferList cs hcs))
    have hshare := max_neg_evenShare_le
      (max w 0 - (widths (inferList cs)).sum - s.border) cs.length
    have hhand := mul_max_evenShare_le (max w 0 - (widths (inferList cs)).sum - s.border) cs.length
    simp only [infer_seq, resize, place, framedLeaves, frame_seq, groupDepth, length_inferList]
    -- the row starts half the border in; a group lets it overhang the natural width by as much
    rcases hborder with hb | hb <;>
      simp only [hb, Int.lt_irrefl, Int.reduceLT, ite_true, ite_false] at hrow hshare hhand ⊢ <;>
      refine hrow.mono ?_ ?_ ?_ ?_ <;> omega
  | .choice f cs, hs, hb, w, h, x, y => by
    obtain ⟨-, -, hcs⟩ := hs
    have hstack := boxesWithin_placeDown cs hcs hb (max w 0)
      (evenShare (max h 0 - (heights (inferList cs)).sum) cs.length) x y
    have hshare := max_neg_evenShare_le (max h 0 - (heights (inferList cs)).sum) cs.length
    have hhand := mul_max_evenShare_le (max h 0 - (heights (inferList cs)).sum) cs.length
    simp only [infer_choice, resize, place, framedLeaves, frame_choice, groupDepth,
      length_inferList]
    refine hstack.mono ?_ ?_ ?_ ?_ <;> omega

/-- The boxes of a row of parts, each resized to its natural width plus a share and to one
height, and lined up from a corner. -/
theorem boxesWithin_placeAcross :
    ∀ cs : List (Element Int), SizedList cs → builtFormList cs → ∀ share h x y : Int,
      BoxesWithin (2 * x + 60 - max (-share) 0)
        (2 * (x + (widths (inferList cs)).sum + cs.length * max share 0) +
          20 * groupDepthList cs - 60)
        (2 * y + 50 - max (greatest (heights (inferList cs)) - max h 0) 0)
        (2 * (y + max (greatest (heights (inferList cs))) (max h 0)) - 50)
        (framedLeavesOfList (placeAcross x y (resizeRow share h (inferList cs))))
  | [], _, _, _, _, _, _ => fun p hp => by
    simp [inferList, resizeRow, placeAcross, framedLeavesOfList] at hp
  | c :: cs, ⟨hc, hcs⟩, hb, share, h, x, y => by
    simp only [builtFormList, Bool.and_eq_true] at hb
    have hhead := boxesWithin_place_resize_infer c hc hb.1 (c.infer.frame.width + share) h x y
    have hrest := boxesWithin_placeAcross cs hcs hb.2 share h
      (x + max (c.infer.frame.width + share) 0) y
    have hwide := (sized_infer c hc).size_nonneg
    have hsum : 0 ≤ (widths (inferList cs)).sum :=
      List.sum_nonneg (widths_nonneg (sized_inferList cs hcs))
    have hnonneg := heights_nonneg (sized_inferList (c :: cs) ⟨hc, hcs⟩)
    have hfirst : c.infer.frame.height ≤ greatest (heights (inferList (c :: cs))) :=
      le_greatest List.mem_cons_self
    have hlater : greatest (heights (inferList cs)) ≤ greatest (heights (inferList (c :: cs))) :=
      greatest_le_greatest_cons _ hnonneg
    have hdepth := Nat.le_max_left c.groupDepth (groupDepthList cs)
    have hdepth' := Nat.le_max_right c.groupDepth (groupDepthList cs)
    have hhand : 0 ≤ (cs.length : Int) * max share 0 :=
      Int.mul_nonneg (Int.natCast_nonneg _) (Int.le_max_right _ _)
    simp only [inferList, heights_cons] at hfirst hlater ⊢
    simp only [resizeRow, placeAcross, framedLeavesOfList, widths_cons, List.sum_cons,
      List.length_cons, groupDepthList, frame_resize, Int.natCast_add, Int.natCast_one,
      Int.add_mul, Int.one_mul]
    -- the first part sits at the corner, the rest start where its width ends
    refine .append (hhead.mono ?_ ?_ ?_ ?_) (hrest.mono ?_ ?_ ?_ ?_) <;> omega

/-- The boxes of a stack of parts, each resized to one width and to its natural height plus
a share, and stacked down from a corner. -/
theorem boxesWithin_placeDown :
    ∀ cs : List (Element Int), SizedList cs → builtFormList cs → ∀ w share x y : Int,
      BoxesWithin (2 * x + 60 - max (greatest (widths (inferList cs)) - max w 0) 0)
        (2 * (x + max (greatest (widths (inferList cs))) (max w 0)) +
          20 * groupDepthList cs - 60)
        (2 * y + 50 - max (-share) 0)
        (2 * (y + (heights (inferList cs)).sum + cs.length * max share 0) - 50)
        (framedLeavesOfList (placeDown x y (resizeStack w share (inferList cs))))
  | [], _, _, _, _, _, _ => fun p hp => by
    simp [inferList, resizeStack, placeDown, framedLeavesOfList] at hp
  | c :: cs, ⟨hc, hcs⟩, hb, w, share, x, y => by
    simp only [builtFormList, Bool.and_eq_true] at hb
    have hhead := boxesWithin_place_resize_infer c hc hb.1 w (c.infer.frame.height + share) x y
    have hrest := boxesWithin_placeDown cs hcs hb.2 w share x
      (y + max (c.infer.frame.height + share) 0)
    have hwide := (sized_infer c hc).size_nonneg
    have hsum : 0 ≤ (heights (inferList cs)).sum :=
      List.sum_nonneg (heights_nonneg (sized_inferList cs hcs))
    have hnonneg := widths_nonneg (sized_inferList (c :: cs) ⟨hc, hcs⟩)
    have hfirst : c.infer.frame.width ≤ greatest (widths (inferList (c :: cs))) :=
      le_greatest List.mem_cons_self
    have hlater : greatest (widths (inferList cs)) ≤ greatest (widths (inferList (c :: cs))) :=
      greatest_le_greatest_cons _ hnonneg
    have hdepth := Nat.le_max_left c.groupDepth (groupDepthList cs)
    have hdepth' := Nat.le_max_right c.groupDepth (groupDepthList cs)
    have hhand : 0 ≤ (cs.length : Int) * max share 0 :=
      Int.mul_nonneg (Int.natCast_nonneg _) (Int.le_max_right _ _)
    simp only [inferList, widths_cons] at hfirst hlater ⊢
    simp only [resizeStack, placeDown, framedLeavesOfList, heights_cons, List.sum_cons,
      List.length_cons, groupDepthList, frame_resize, Int.natCast_add, Int.natCast_one,
      Int.add_mul, Int.one_mul]
    refine .append (hhead.mono ?_ ?_ ?_ ?_) (hrest.mono ?_ ?_ ?_ ?_) <;> omega
end

/-! ## 3. Parts placed apart -/

/-- The box of one leaf ends left of where the box of another begins. -/
def LeftOf (p q : Frame Int × Leaf) : Prop := twiceRight p < twiceLeft q

/-- The box of one leaf ends above where the box of another begins. -/
def Above (p q : Frame Int × Leaf) : Prop := twiceBottom p < twiceTop q

@[simp] theorem length_placeAcross (x y : Int) (cs : List (Element Int)) :
    (placeAcross x y cs).length = cs.length := by
  induction cs generalizing x with
  | nil => rfl
  | cons c cs ih => simp [placeAcross, ih]

@[simp] theorem length_placeDown (x y : Int) (cs : List (Element Int)) :
    (placeDown x y cs).length = cs.length := by
  induction cs generalizing y with
  | nil => rfl
  | cons c cs ih => simp [placeDown, ih]

@[simp] theorem length_resizeRow (share h : Int) (cs : List (Element Int)) :
    (resizeRow share h cs).length = cs.length := by
  induction cs with
  | nil => rfl
  | cons c cs ih => simp [resizeRow, ih]

@[simp] theorem length_resizeStack (w share : Int) (cs : List (Element Int)) :
    (resizeStack w share cs).length = cs.length := by
  induction cs with
  | nil => rfl
  | cons c cs ih => simp [resizeStack, ih]

theorem le_frame_x_placeAcross (y : Int) :
    ∀ (cs : List (Element Int)) (x : Int), (∀ c ∈ cs, 0 ≤ c.frame.width) →
      ∀ d ∈ placeAcross x y cs, x ≤ d.frame.x
  | [], _, _, _, hd => absurd hd List.not_mem_nil
  | c :: cs, x, hw, d, hd => by
    rcases List.mem_cons.mp hd with rfl | hd
    · simp
    · have := le_frame_x_placeAcross y cs _ (fun c' hc' => hw c' (List.mem_cons_of_mem c hc')) d hd
      have := hw c List.mem_cons_self
      omega

theorem le_frame_y_placeDown (x : Int) :
    ∀ (cs : List (Element Int)) (y : Int), (∀ c ∈ cs, 0 ≤ c.frame.height) →
      ∀ d ∈ placeDown x y cs, y ≤ d.frame.y
  | [], _, _, _, hd => absurd hd List.not_mem_nil
  | c :: cs, y, hh, d, hd => by
    rcases List.mem_cons.mp hd with rfl | hd
    · simp
    · have := le_frame_y_placeDown x cs _ (fun c' hc' => hh c' (List.mem_cons_of_mem c hc')) d hd
      have := hh c List.mem_cons_self
      omega

/-- **Parts lined up lie apart.** Parts lined up rightward from a corner have the boxes of
each part left of those of every later part, when every part's boxes start `A` half pixels
right of its left side and end at most `B` right of its right side, with `B < A` wherever
there are two parts. -/
theorem pairwise_placeAcross {A B y : Int} :
    ∀ (cs : List (Element Int)) (x : Int), (1 < cs.length → B < A) →
      (∀ c ∈ cs, 0 ≤ c.frame.width) →
      (∀ c ∈ placeAcross x y cs, ∀ p ∈ c.framedLeaves,
        2 * c.frame.x + A ≤ twiceLeft p ∧ twiceRight p ≤ 2 * (c.frame.x + c.frame.width) + B) →
      (placeAcross x y cs).Pairwise fun c d => ∀ p ∈ c.framedLeaves, ∀ q ∈ d.framedLeaves, LeftOf p q
  | [], _, _, _, _ => List.Pairwise.nil
  | c :: cs, x, hAB, hw, hbox => by
    have hw' : ∀ d ∈ cs, 0 ≤ d.frame.width := fun d hd => hw d (List.mem_cons_of_mem c hd)
    rw [placeAcross, List.pairwise_cons]
    refine ⟨fun d hd p hp q hq => ?_, pairwise_placeAcross cs _
      (fun h => hAB (by simp only [List.length_cons]; omega)) hw'
      fun d hd => hbox d (List.mem_cons_of_mem _ hd)⟩
    -- a later part starts where this one ends, and there are two parts
    have hB : B < A := hAB (by
      have := List.length_pos_of_mem hd
      simp only [List.length_cons, length_placeAcross] at this ⊢
      omega)
    have hstart := le_frame_x_placeAcross y cs _ hw' d hd
    have hp' := (hbox _ List.mem_cons_self p hp).2
    have hq' := (hbox d (List.mem_cons_of_mem _ hd) q hq).1
    simp only [frame_place] at hp'
    unfold LeftOf
    omega

/-- **Parts stacked lie apart.** Parts stacked downward from a corner have the boxes of each
part above those of every later part, when every part's boxes start `A` half pixels below its
top and end at most `B` below its bottom, with `B < A` wherever there are two parts. -/
theorem pairwise_placeDown {A B x : Int} :
    ∀ (cs : List (Element Int)) (y : Int), (1 < cs.length → B < A) →
      (∀ c ∈ cs, 0 ≤ c.frame.height) →
      (∀ c ∈ placeDown x y cs, ∀ p ∈ c.framedLeaves,
        2 * c.frame.y + A ≤ twiceTop p ∧ twiceBottom p ≤ 2 * (c.frame.y + c.frame.height) + B) →
      (placeDown x y cs).Pairwise fun c d => ∀ p ∈ c.framedLeaves, ∀ q ∈ d.framedLeaves, Above p q
  | [], _, _, _, _ => List.Pairwise.nil
  | c :: cs, y, hAB, hh, hbox => by
    have hh' : ∀ d ∈ cs, 0 ≤ d.frame.height := fun d hd => hh d (List.mem_cons_of_mem c hd)
    rw [placeDown, List.pairwise_cons]
    refine ⟨fun d hd p hp q hq => ?_, pairwise_placeDown cs _
      (fun h => hAB (by simp only [List.length_cons]; omega)) hh'
      fun d hd => hbox d (List.mem_cons_of_mem _ hd)⟩
    have hB : B < A := hAB (by
      have := List.length_pos_of_mem hd
      simp only [List.length_cons, length_placeDown] at this ⊢
      omega)
    have hstart := le_frame_y_placeDown x cs _ hh' d hd
    have hp' := (hbox _ List.mem_cons_self p hp).2
    have hq' := (hbox d (List.mem_cons_of_mem _ hd) q hq).1
    simp only [frame_place] at hp'
    unfold Above
    omega

/-- A part of a resized row is one of the row's parts, resized to its natural width plus the
share and to the row's height, at its place. -/
theorem mem_placeAcross_resizeRow {share h y : Int} :
    ∀ {cs : List (Element Int)} {x : Int} {d : Element Int},
      d ∈ placeAcross x y (resizeRow share h (inferList cs)) →
        ∃ c ∈ cs, d = (c.infer.resize (c.infer.frame.width + share) h).place d.frame.x y
  | [], _, _, hd => absurd hd List.not_mem_nil
  | c :: cs, x, d, hd => by
    simp only [inferList, resizeRow, placeAcross, List.mem_cons] at hd
    rcases hd with rfl | hd
    · exact ⟨c, List.mem_cons_self, by simp⟩
    · obtain ⟨c', hc', hd'⟩ := mem_placeAcross_resizeRow hd
      exact ⟨c', List.mem_cons_of_mem c hc', hd'⟩

/-- A part of a resized stack is one of the stack's parts, resized to the stack's width and
its natural height plus the share, at its place. -/
theorem mem_placeDown_resizeStack {w share x : Int} :
    ∀ {cs : List (Element Int)} {y : Int} {d : Element Int},
      d ∈ placeDown x y (resizeStack w share (inferList cs)) →
        ∃ c ∈ cs, d = (c.infer.resize w (c.infer.frame.height + share)).place x d.frame.y
  | [], _, _, hd => absurd hd List.not_mem_nil
  | c :: cs, y, d, hd => by
    simp only [inferList, resizeStack, placeDown, List.mem_cons] at hd
    rcases hd with rfl | hd
    · exact ⟨c, List.mem_cons_self, by simp⟩
    · obtain ⟨c', hc', hd'⟩ := mem_placeDown_resizeStack hd
      exact ⟨c', List.mem_cons_of_mem c hc', hd'⟩

theorem builtForm_of_mem {cs : List (Element Int)} {c : Element Int}
    (hcs : builtFormList cs) (hc : c ∈ cs) : c.builtForm := by
  induction cs with
  | nil => exact absurd hc List.not_mem_nil
  | cons d ds ih =>
    simp only [builtFormList, Bool.and_eq_true] at hcs
    rcases List.mem_cons.mp hc with rfl | hc
    · exact hcs.1
    · exact ih hcs.2 hc

theorem groupDepth_le_of_mem {cs : List (Element Int)} {c : Element Int} (hc : c ∈ cs) :
    c.groupDepth ≤ groupDepthList cs := by
  induction cs with
  | nil => exact absurd hc List.not_mem_nil
  | cons d ds ih =>
    simp only [groupDepthList]
    rcases List.mem_cons.mp hc with rfl | hc
    · exact Nat.le_max_left _ _
    · exact Nat.le_trans (ih hc) (Nat.le_max_right _ _)

/-- Each part of a resized row has its boxes at least `60` less the squeeze right of its left
side, and at most twice the squeeze plus `20` for each level of groups in the row, less `60`,
right of its right side. -/
theorem boxes_part_placeAcross {cs : List (Element Int)} (hcs : SizedList cs)
    (hb : builtFormList cs) {share h x y : Int} {d : Element Int}
    (hd : d ∈ placeAcross x y (resizeRow share h (inferList cs))) :
    ∀ p ∈ d.framedLeaves, 2 * d.frame.x + (60 - max (-share) 0) ≤ twiceLeft p ∧
      twiceRight p ≤ 2 * (d.frame.x + d.frame.width) +
        (2 * max (-share) 0 + 20 * groupDepthList cs - 60) := by
  obtain ⟨c, hc, hdc⟩ := mem_placeAcross_resizeRow hd
  generalize d.frame.x = X at hdc
  subst hdc
  have hcs' := sizedList_iff.mp hcs c hc
  have hbox := boxesWithin_place_resize_infer c hcs' (builtForm_of_mem hb hc)
    (c.infer.frame.width + share) h X y
  have hwide := (sized_infer c hcs').size_nonneg.1
  have hdepth := groupDepth_le_of_mem hc
  intro p hp
  obtain ⟨h₁, h₂, -, -⟩ := hbox p hp
  simp only [frame_place, frame_resize]
  exact ⟨by omega, by omega⟩

/-- Each part of a resized stack has its boxes at least `50` less the squeeze below its top,
and at most twice the squeeze less `50` below its bottom. -/
theorem boxes_part_placeDown {cs : List (Element Int)} (hcs : SizedList cs)
    (hb : builtFormList cs) {w share x y : Int} {d : Element Int}
    (hd : d ∈ placeDown x y (resizeStack w share (inferList cs))) :
    ∀ p ∈ d.framedLeaves, 2 * d.frame.y + (50 - max (-share) 0) ≤ twiceTop p ∧
      twiceBottom p ≤ 2 * (d.frame.y + d.frame.height) + (2 * max (-share) 0 - 50) := by
  obtain ⟨c, hc, hdc⟩ := mem_placeDown_resizeStack hd
  generalize d.frame.y = Y at hdc
  subst hdc
  have hcs' := sizedList_iff.mp hcs c hc
  have hbox := boxesWithin_place_resize_infer c hcs' (builtForm_of_mem hb hc)
    w (c.infer.frame.height + share) x Y
  have htall := (sized_infer c hcs').size_nonneg.2
  intro p hp
  obtain ⟨-, -, h₁, h₂⟩ := hbox p hp
  simp only [frame_place, frame_resize]
  exact ⟨by omega, by omega⟩

/-- The parts of a row that lines up only leaves and group boxes, with no group among them,
are leaves. -/
theorem leaves_of_groupDepthList {cs : List (Element Int)} (hcs : cs.all leafOrGroup)
    (hflat : groupDepthList cs = 0) : ∀ c ∈ cs, ∃ f l, c = .leaf f l := by
  intro c hc
  have hboxed := List.all_eq_true.mp hcs c hc
  have hdepth := groupDepth_le_of_mem hc
  cases c with
  | leaf f l => exact ⟨f, l, rfl⟩
  | seq f s ds =>
    -- a group box is a group deep
    simp only [leafOrGroup, decide_eq_true_eq] at hboxed
    simp only [groupDepth, hboxed, if_true] at hdepth
    omega
  | choice f ds => simp [leafOrGroup] at hboxed

/-- The box of a leaf of a resized row ends at most the squeeze, less `60` half pixels, right of
the leaf's right side: a leaf's box is centred in it, so it loses only half the squeeze on each
side. -/
theorem leaf_part_placeAcross {cs : List (Element Int)} (hleaves : ∀ c ∈ cs, ∃ f l, c = .leaf f l)
    {share h x y : Int} {d : Element Int} (hd : d ∈ placeAcross x y (resizeRow share h (inferList cs))) :
    ∀ p ∈ d.framedLeaves, twiceRight p ≤ 2 * (d.frame.x + d.frame.width) + (max (-share) 0 - 60) := by
  obtain ⟨c, hc, hdc⟩ := mem_placeAcross_resizeRow hd
  obtain ⟨f, l, rfl⟩ := hleaves c hc
  generalize d.frame.x = X at hdc
  subst hdc
  intro p hp
  simp only [infer_leaf, resize, place, framedLeaves, List.mem_singleton] at hp
  subst hp
  have hslot := leafWidth_eq l.label
  simp only [infer_leaf, resize, place, frame_leaf, twiceRight]
  omega

/-- **The parts of a resized row lie apart.** A row of the form of a built diagram, its parts
each resized to their natural width plus a share and lined up from a corner, has the boxes of
each part left of those of every later part, when groups nest at most four deep with the `G`
around the row and two parts or more are each squeezed by at most `10·G`. -/
theorem pairwise_placeAcross_resizeRow {cs : List (Element Int)} (hcs : SizedList cs)
    (hb : builtFormList cs) (hrow : cs.length ≤ 1 ∨ cs.all leafOrGroup) {G : Nat}
    {share h x y : Int} (hdepth : groupDepthList cs + G ≤ 4)
    (hshare : 1 < cs.length → 2 * max (-share) 0 ≤ 20 * G) :
    (placeAcross x y (resizeRow share h (inferList cs))).Pairwise fun c d =>
      ∀ p ∈ c.framedLeaves, ∀ q ∈ d.framedLeaves, LeftOf p q := by
  have hwidths : ∀ c ∈ resizeRow share h (inferList cs), 0 ≤ c.frame.width := fun c hc =>
    (sizedList_iff.mp (sized_resizeRow _ _ _ (sized_inferList cs hcs)) c hc).size_nonneg.1
  rcases Nat.lt_or_ge 1 cs.length with hlen | hlen
  · have hhalf := hshare hlen
    rcases Nat.eq_zero_or_pos (groupDepthList cs) with hflat | hdeep
    · -- parts without groups are leaves, whose boxes keep to the middle of their slots
      have hleaves := leaves_of_groupDepthList (hrow.resolve_left (by omega)) hflat
      exact pairwise_placeAcross _ _ (fun _ => by omega) hwidths fun d hd p hp =>
        ⟨(boxes_part_placeAcross hcs hb hd p hp).1, leaf_part_placeAcross hleaves hd p hp⟩
    · exact pairwise_placeAcross _ _ (fun _ => by omega) hwidths
        (fun d hd => boxes_part_placeAcross hcs hb hd)
  · -- a lone part has no other to lie apart from
    refine pairwise_placeAcross _ _ (fun h => ?_) hwidths
      (fun d hd => boxes_part_placeAcross hcs hb hd)
    simp only [length_resizeRow, length_inferList] at h
    omega

mutual
/-- **The parts of a resized tree stand apart.** A part of the form of a built diagram inside
`g` group boxes, with groups nesting at most four deep in all, squeezed by at most `20·g` in
width and `10·g` in height, resized and placed, has in every sequence the boxes of each part
left of those of every later part, and in every choice above them. -/
theorem inOrder_place_resize_infer :
    ∀ e : Element Int, e.Sized → e.builtForm → ∀ (g : Nat) (w h x y : Int),
      e.groupDepth + g ≤ 4 → e.infer.frame.width - max w 0 ≤ 20 * g →
      e.infer.frame.height - max h 0 ≤ 10 * g →
      ((e.infer.resize w h).place x y).InOrder LeftOf Above
  | .leaf f l, _, _, _, w, h, x, y, _, _, _ => by
    simp only [infer_leaf, resize, place]
    exact inOrder_leaf _ _
  | .seq f s cs, hs, hb, g, w, h, x, y, hdepth, hwide, htall => by
    obtain ⟨-, -, -, hcs⟩ := hs
    simp only [builtForm, Bool.and_eq_true, Bool.or_eq_true, decide_eq_true_eq] at hb
    obtain ⟨⟨hborder, hrow⟩, hbcs⟩ := hb
    replace hborder : s.border = 0 ∨ s.border = 20 := hborder
    -- a group box puts its parts one group deeper
    have hlevel : (s.border = 0 ∧ (if 0 < s.border then 1 else 0 : Nat) = 0) ∨
        (s.border = 20 ∧ (if 0 < s.border then 1 else 0 : Nat) = 1) := by
      rcases hborder with hb | hb <;> simp [hb]
    simp only [infer_seq, frame_seq, groupDepth] at hdepth hwide htall
    generalize (if 0 < s.border then 1 else 0 : Nat) = t at hlevel hdepth
    have hsq := max_neg_evenShare_le (max w 0 - (widths (inferList cs)).sum - s.border) cs.length
    simp only [infer_seq, resize, place, length_inferList]
    refine inOrder_seq.mpr ⟨pairwise_placeAcross_resizeRow hcs hbcs hrow
      (show groupDepthList cs + (g + t) ≤ 4 by omega) fun hlen => ?_,
      inOrder_placeAcross cs hcs hbcs (g + t) _ _ _ _ (by omega) (by omega) (by omega)⟩
    -- two parts share the squeeze, so that each takes at most half of it
    have := two_mul_max_neg_evenShare_le (max w 0 - (widths (inferList cs)).sum - s.border) hlen
    omega
  | .choice f cs, hs, hb, g, w, h, x, y, hdepth, hwide, htall => by
    obtain ⟨-, -, hcs⟩ := hs
    simp only [infer_choice, frame_choice, groupDepth] at hdepth hwide htall
    have hsq := max_neg_evenShare_le (max h 0 - (heights (inferList cs)).sum) cs.length
    simp only [infer_choice, resize, place, length_inferList]
    refine inOrder_choice.mpr ⟨pairwise_placeDown _ _ (fun hlen => ?_) (fun c hc => ?_)
      (fun d hd => boxes_part_placeDown hcs hb hd),
      inOrder_placeDown cs hcs hb g _ _ _ _ hdepth (by omega) (by omega)⟩
    · -- two alternatives share the squeeze, so that each takes at most half of it
      simp only [length_resizeStack, length_inferList] at hlen
      have := two_mul_max_neg_evenShare_le (max h 0 - (heights (inferList cs)).sum) hlen
      omega
    · exact (sizedList_iff.mp (sized_resizeStack _ _ _ (sized_inferList cs hcs)) c hc).size_nonneg.2

/-- The parts of a resized row stand apart inside, each squeezed by no more than the row. -/
theorem inOrder_placeAcross :
    ∀ cs : List (Element Int), SizedList cs → builtFormList cs →
      ∀ (g : Nat) (share h x y : Int), groupDepthList cs + g ≤ 4 → -share ≤ 20 * g →
        greatest (heights (inferList cs)) - max h 0 ≤ 10 * g →
        ∀ d ∈ placeAcross x y (resizeRow share h (inferList cs)), d.InOrder LeftOf Above
  | [], _, _, _, _, _, _, _, _, _, _, d, hd => by
    simp [inferList, resizeRow, placeAcross] at hd
  | c :: cs, ⟨hc, hcs⟩, hb, g, share, h, x, y, hdepth, hshare, htall, d, hd => by
    simp only [builtFormList, Bool.and_eq_true] at hb
    have hnonneg := heights_nonneg (sized_inferList (c :: cs) ⟨hc, hcs⟩)
    have hfirst : c.infer.frame.height ≤ greatest (heights (inferList (c :: cs))) :=
      le_greatest List.mem_cons_self
    have hlater : greatest (heights (inferList cs)) ≤ greatest (heights (inferList (c :: cs))) :=
      greatest_le_greatest_cons _ hnonneg
    have hwide := (sized_infer c hc).size_nonneg.1
    simp only [groupDepthList] at hdepth
    simp only [inferList, resizeRow, placeAcross, List.mem_cons] at hd
    rcases hd with rfl | hd
    · exact inOrder_place_resize_infer c hc hb.1 g _ _ _ _ (by omega) (by omega) (by omega)
    · exact inOrder_placeAcross cs hcs hb.2 g share h _ y (by omega) hshare (by omega) d hd

/-- The parts of a resized stack stand apart inside, each squeezed by no more than the stack. -/
theorem inOrder_placeDown :
    ∀ cs : List (Element Int), SizedList cs → builtFormList cs →
      ∀ (g : Nat) (w share x y : Int), groupDepthList cs + g ≤ 4 →
        greatest (widths (inferList cs)) - max w 0 ≤ 20 * g → -share ≤ 10 * g →
        ∀ d ∈ placeDown x y (resizeStack w share (inferList cs)), d.InOrder LeftOf Above
  | [], _, _, _, _, _, _, _, _, _, _, d, hd => by
    simp [inferList, resizeStack, placeDown] at hd
  | c :: cs, ⟨hc, hcs⟩, hb, g, w, share, x, y, hdepth, hwide, hshare, d, hd => by
    simp only [builtFormList, Bool.and_eq_true] at hb
    have hnonneg := widths_nonneg (sized_inferList (c :: cs) ⟨hc, hcs⟩)
    have hfirst : c.infer.frame.width ≤ greatest (widths (inferList (c :: cs))) :=
      le_greatest List.mem_cons_self
    have hlater : greatest (widths (inferList cs)) ≤ greatest (widths (inferList (c :: cs))) :=
      greatest_le_greatest_cons _ hnonneg
    have htall := (sized_infer c hc).size_nonneg.2
    simp only [groupDepthList] at hdepth
    simp only [inferList, resizeStack, placeDown, List.mem_cons] at hd
    rcases hd with rfl | hd
    · exact inOrder_place_resize_infer c hc hb.1 g _ _ _ _ (by omega) (by omega) (by omega)
    · exact inOrder_placeDown cs hcs hb.2 g w share x _ (by omega) (by omega) hshare d hd
end

/-! ## 4. The laid-out tree -/

/-- **A laid-out tree's leaf boxes lie apart and in the canvas.** Laying out a tree of the form
of a built diagram puts every leaf's box inside the canvas when groups nest at most three
deep; and when they nest at most four deep, it puts in every sequence the boxes of each part
left of those of every later part, and in every choice above them. -/
theorem layout_boxes_apart {e : Element Int} (he : e.Sized) (hb : e.builtForm) :
    (e.groupDepth ≤ 3 →
      BoxesWithin 0 (2 * e.layout.canvas.1) 0 (2 * e.layout.canvas.2) e.layout.framedLeaves) ∧
      (e.groupDepth ≤ 4 → e.layout.InOrder LeftOf Above) := by
  have hsize := (sized_infer e he).size_nonneg
  -- the root is resized to its own natural size, inside no group
  refine ⟨fun hdepth => ?_, fun hdepth => inOrder_place_resize_infer e he hb 0 _ _ _ _ hdepth
    (by omega) (by omega)⟩
  have hbox := boxesWithin_place_resize_infer e he hb e.infer.frame.width e.infer.frame.height
    margin margin
  refine hbox.mono ?_ ?_ ?_ ?_ <;>
    simp only [layout, canvas, frame_place, frame_resize, margin] <;> omega

end Element

/-! ## 5. Diagrams of regexes -/

section BuiltForm

variable (hooks : Hooks)

/-- Every term is drawn as a leaf or a group box. -/
theorem Term.leafOrGroup_build (t : Term) : (t.build hooks).leafOrGroup := by
  cases t with
  | assertion => rfl
  | quantified atom => cases atom <;> rfl

theorem Term.all_leafOrGroup_buildList (ts : List Term) :
    (Term.buildList hooks ts).all Element.leafOrGroup := by
  induction ts with
  | nil => rfl
  | cons t ts ih => simp [Term.buildList, Term.leafOrGroup_build hooks t, ih]

mutual
/-- Building gives a diagram its form: every sequence plain or a group box, and every row a row
of leaves and group boxes. -/
theorem Regex.builtForm_build : ∀ r : Regex, (r.build hooks).builtForm
  | .mk as => Alternative.builtFormList_buildList as

theorem Alternative.builtFormList_buildList :
    ∀ as : List Alternative, Element.builtFormList (Alternative.buildList hooks as)
  | [] => rfl
  | a :: as => by
    simp [Alternative.buildList, Element.builtFormList, Alternative.builtForm_build a,
      Alternative.builtFormList_buildList as]

theorem Alternative.builtForm_build : ∀ a : Alternative, (a.build hooks).builtForm
  | .mk [] => rfl
  | .mk (t :: ts) => by
    simp [Alternative.build, Element.builtForm, Term.builtFormList_buildList (t :: ts),
      Term.all_leafOrGroup_buildList hooks (t :: ts)]

theorem Term.builtFormList_buildList :
    ∀ ts : List Term, Element.builtFormList (Term.buildList hooks ts)
  | [] => rfl
  | t :: ts => by
    simp [Term.buildList, Element.builtFormList, Term.builtForm_build t,
      Term.builtFormList_buildList ts]

theorem Term.builtForm_build : ∀ t : Term, (t.build hooks).builtForm
  | .assertion _ _ => rfl
  | .quantified atom _ _ => Atom.builtForm_build _ atom

theorem Atom.builtForm_build (caption : String) :
    ∀ a : Atom, (a.build hooks caption).builtForm
  | .char _ _ | .any _ | .classEscape _ _ | .escaped _ _ | .backReference _ _
  | .charSet _ _ _ => rfl
  | .group r _ _ | .nonCapturing r _ | .lookahead r _ _ => by
    simp [Atom.build, groupBox_eq, Element.builtForm, Element.builtFormList,
      Regex.builtForm_build r]
end

end BuiltForm

/-! ## 6. The drawing -/

namespace Sixths

@[simp] theorem ofInt_units (n : Int) : (Coordinate.ofInt n : Sixths).units = 6 * n := rfl

@[simp] theorem half_units (s : Sixths) : (Coordinate.half s).units = s.units / 2 := rfl

end Sixths

namespace Box

/-- Whether a box drawn in sixths of a pixel lies inside a canvas `w` pixels wide and `h`
pixels tall. -/
def Within (b : Box Sixths) (w h : Int) : Prop :=
  0 ≤ b.x.units ∧ b.x.units + b.width.units ≤ 6 * w ∧ 0 ≤ b.y.units ∧
    b.y.units + b.height.units ≤ 6 * h

instance (b : Box Sixths) (w h : Int) : Decidable (b.Within w h) :=
  inferInstanceAs (Decidable (_ ∧ _ ∧ _ ∧ _))

/-- Whether two boxes drawn in sixths of a pixel have disjoint interiors: one lies wholly
left of, right of, above or below the other. -/
def Apart (b c : Box Sixths) : Prop :=
  b.x.units + b.width.units ≤ c.x.units ∨ c.x.units + c.width.units ≤ b.x.units ∨
    b.y.units + b.height.units ≤ c.y.units ∨ c.y.units + c.height.units ≤ b.y.units

instance (b c : Box Sixths) : Decidable (b.Apart c) :=
  inferInstanceAs (Decidable (_ ∨ _ ∨ _ ∨ _))

end Box

/-- A leaf laid out in whole pixels is drawn in sixths of a pixel with the edges of its box
at three times their doubled places. -/
theorem leafBox_units (p : Frame Int × Leaf) :
    (leafBox (p.1.map Coordinate.ofInt) p.2 : Box Sixths).x.units = 3 * twiceLeft p ∧
      (leafBox (p.1.map Coordinate.ofInt) p.2 : Box Sixths).x.units +
        (leafBox (p.1.map Coordinate.ofInt) p.2 : Box Sixths).width.units = 3 * twiceRight p ∧
      (leafBox (p.1.map Coordinate.ofInt) p.2 : Box Sixths).y.units = 3 * twiceTop p ∧
      (leafBox (p.1.map Coordinate.ofInt) p.2 : Box Sixths).y.units +
        (leafBox (p.1.map Coordinate.ofInt) p.2 : Box Sixths).height.units = 3 * twiceBottom p := by
  simp only [leafBox, Frame.center, Frame.map, Sixths.add_units, Sixths.sub_units,
    Sixths.ofInt_units, Sixths.half_units, twiceLeft, twiceRight, twiceTop, twiceBottom,
    boxHeight]
  omega

theorem leafRight_units (p : Frame Int × Leaf) :
    (leafRight (p.1.map Coordinate.ofInt) p.2 : Point Sixths).x.units = 3 * twiceRight p := by
  simp only [leafRight, Frame.center, Frame.map, Sixths.add_units, Sixths.ofInt_units,
    Sixths.half_units, twiceRight]
  omega

theorem leafLeft_units (p : Frame Int × Leaf) :
    (leafLeft (p.1.map Coordinate.ofInt) p.2 : Point Sixths).x.units = 3 * twiceLeft p := by
  simp only [leafLeft, Frame.center, Frame.map, Sixths.add_units, Sixths.sub_units,
    Sixths.ofInt_units, Sixths.half_units, twiceLeft]
  omega

namespace Element

variable {β : Type} [Coordinate β]

/-- The boxes drawn for the leaves of a diagram, in pre-order. -/
def leafBoxes (e : Element β) : List (Box β) := e.framedLeaves.map fun p => leafBox p.1 p.2

mutual
/-- The boxes of the leaves are among the boxes drawn, in the same order. -/
theorem leafBoxes_sublist_boxes : ∀ e : Element β, e.leafBoxes.Sublist e.boxes
  | .leaf _ _ => List.Sublist.refl _
  | .seq _ _ cs => (leafBoxesOfList_sublist cs).trans (List.sublist_append_right _ _)
  | .choice _ cs => leafBoxesOfList_sublist cs

theorem leafBoxesOfList_sublist :
    ∀ cs : List (Element β),
      ((framedLeavesOfList cs).map fun p => leafBox p.1 p.2).Sublist (boxesOfList cs)
  | [] => List.Sublist.slnil
  | c :: cs => by
    rw [framedLeavesOfList, List.map_append, boxesOfList]
    exact (leafBoxes_sublist_boxes c).append (leafBoxesOfList_sublist cs)
end

/-- The leaf at an index of a drawn diagram is the laid-out leaf there, drawn. -/
theorem leafAt?_drawn (t : Element Int) (i : Nat) :
    t.drawn.leafAt? i = t.framedLeaves[i]?.map fun p => (p.1.map Coordinate.ofInt, p.2) := by
  simp [leafAt?, listAt?, drawn, framedLeaves_mapFrames]

/-- The ends found for a list of pairs of leaf indices are one per pair, each the leaves at the
pair's indices. -/
theorem mem_arrowEnds {γ : Type} [Coordinate γ] (e : Element γ) :
    ∀ (pairs : List (Int × Int)) (ends : List ((Frame γ × Leaf) × (Frame γ × Leaf))),
      e.arrowEnds pairs = some ends →
        ends.length = pairs.length ∧
          ∀ u ∈ ends, ∃ ab ∈ pairs, e.leafAt? ab.1 = some u.1 ∧ e.leafAt? ab.2 = some u.2
  | [], ends, h => by
    simp only [arrowEnds, List.mapM_nil, Option.pure_def, Option.some.injEq] at h
    subst h
    simp
  | (a, b) :: pairs, ends, h => by
    simp only [arrowEnds, List.mapM_cons, Option.pure_def, Option.bind_eq_bind,
      Option.bind_eq_some_iff, Option.some.injEq] at h
    obtain ⟨⟨x, y⟩, ⟨x', hx, y', hy, hxy⟩, zs, hzs, rfl⟩ := h
    obtain ⟨rfl, rfl⟩ := Prod.mk.inj hxy.symm
    obtain ⟨hlen, hmem⟩ := mem_arrowEnds e pairs zs hzs
    refine ⟨by simp [hlen], fun u hu => ?_⟩
    rcases List.mem_cons.mp hu with rfl | hu
    · exact ⟨(a, b), List.mem_cons_self, hx, hy⟩
    · obtain ⟨ab, hab, h⟩ := hmem u hu
      exact ⟨ab, List.mem_cons_of_mem _ hab, h⟩

/-- A diagram laid out in whole pixels draws the box of each leaf in sixths of a pixel. -/
theorem leafBoxes_drawn (t : Element Int) :
    t.drawn.leafBoxes =
      t.framedLeaves.map fun p => (leafBox (p.1.map Coordinate.ofInt) p.2 : Box Sixths) := by
  simp [leafBoxes, drawn, framedLeaves_mapFrames]

/-- Leaves whose boxes lie within twice the sides of a canvas, at doubled places, are drawn
inside it. -/
theorem leafBoxes_drawn_within {t : Element Int} {w h : Int}
    (hbox : BoxesWithin 0 (2 * w) 0 (2 * h) t.framedLeaves) :
    ∀ b ∈ t.drawn.leafBoxes, b.Within w h := by
  rw [leafBoxes_drawn]
  intro b hb
  obtain ⟨p, hp, rfl⟩ := List.mem_map.mp hb
  obtain ⟨h₁, h₂, h₃, h₄⟩ := leafBox_units p
  obtain ⟨h₅, h₆, h₇, h₈⟩ := hbox p hp
  refine ⟨?_, ?_, ?_, ?_⟩ <;> omega

/-- Leaves laid out in order, each pair across or down, are drawn with boxes pairwise
apart. -/
theorem leafBoxes_drawn_apart {t : Element Int} (h : t.InOrder LeftOf Above) :
    t.drawn.leafBoxes.Pairwise Box.Apart := by
  rw [leafBoxes_drawn, List.pairwise_map]
  refine (pairwise_framedLeaves_inOrder t h).imp fun {p q} hpq => ?_
  obtain ⟨-, hp₂, -, hp₄⟩ := leafBox_units p
  obtain ⟨hq₁, -, hq₃, -⟩ := leafBox_units q
  unfold Box.Apart
  rcases hpq with hpq | hpq
  · unfold LeftOf at hpq
    omega
  · unfold Above at hpq
    omega

/-- The arrows drawn for the pairs a diagram laid out in order threads run rightward: each
pair is in order across, so the arrow leaves the right side of a box left of the box it
enters. -/
theorem arrows_drawn_rightward {t : Element Int} (h : t.InOrder LeftOf Above)
    {ends : List ((Frame Sixths × Leaf) × (Frame Sixths × Leaf))}
    (hends : t.drawn.arrowEnds (t.arrowPairs.map fun (a, b) => ((a : Int), (b : Int))) =
      some ends) :
    ∀ a ∈ (t.drawn.shapes ends).arrows, a.start.x.units < a.finish.x.units := by
  intro a ha
  simp only [shapes, List.mem_map] at ha
  obtain ⟨⟨u, v⟩, huv, rfl⟩ := ha
  obtain ⟨⟨i', j'⟩, hcast, hu, hv⟩ := (mem_arrowEnds _ _ ends hends).2 (u, v) huv
  obtain ⟨⟨i, j⟩, hij, hij'⟩ := List.mem_map.mp hcast
  obtain ⟨rfl, rfl⟩ := Prod.mk.inj hij'
  obtain ⟨p, q, hp, hq, hpq⟩ := arrowPairs_inOrder h (i, j) hij
  simp only [leafAt?_drawn, hp, hq, Option.map_some, Option.some.injEq] at hu hv
  subst hu hv
  simp only [connector, leafRight_units, leafLeft_units]
  unfold LeftOf at hpq
  omega

end Element

/-- **Leaf boxes lie apart in the canvas, and arrows run rightward.** The rendering of a regex
draws the boxes of its leaves among all the boxes it draws, in the same order, and one arrow
for each pair of leaves it joins. When the group boxes of its diagram nest at most three deep,
each leaf box lies inside the canvas; when they nest at most four deep, no two leaf boxes have
overlapping interiors, and each arrow starts at the right side of one box left of where it
ends, at the left side of another. -/
theorem Regex.render_leaf_boxes_apart (hooks : Hooks) (r : Regex) :
    (r.render hooks).tree.drawn.leafBoxes.Sublist (r.render hooks).shapes.boxes ∧
      (r.render hooks).shapes.arrows.length = (r.render hooks).pairs.length ∧
      ((r.build hooks).groupDepth ≤ 3 → ∀ b ∈ (r.render hooks).tree.drawn.leafBoxes,
        b.Within (r.render hooks).canvas.1 (r.render hooks).canvas.2) ∧
      ((r.build hooks).groupDepth ≤ 4 →
        (r.render hooks).tree.drawn.leafBoxes.Pairwise Box.Apart ∧
          ∀ a ∈ (r.render hooks).shapes.arrows, a.start.x.units < a.finish.x.units) := by
  obtain ⟨hwithin, horder⟩ := Element.layout_boxes_apart (Regex.sized_build hooks r)
    (Regex.builtForm_build hooks r)
  -- the rendering draws the laid-out tree, in sixths of a pixel
  generalize hT : (r.build hooks).layout = T at hwithin horder
  have hends := Element.arrowEnds_drawn_isSome T
  obtain ⟨ends, hends⟩ := Option.isSome_iff_exists.mp hends
  have hshapes : (r.render hooks).shapes = T.drawn.shapes ends := by
    simp only [Regex.render, Regex.renderTitled, hT, hends, Option.getD_some]
  have htree : (r.render hooks).tree = T := by simp only [Regex.render, Regex.renderTitled, hT]
  have hpairs : (r.render hooks).pairs = T.arrowPairs := by
    simp only [Regex.render, Regex.renderTitled, hT]
  have hcanvas : (r.render hooks).canvas = T.canvas := by
    simp only [Regex.render, Regex.renderTitled, hT]
  rw [hshapes, htree, hpairs, hcanvas]
  refine ⟨Element.leafBoxes_sublist_boxes _, ?_, fun h => Element.leafBoxes_drawn_within (hwithin h),
    fun h => ⟨Element.leafBoxes_drawn_apart (horder h), Element.arrows_drawn_rightward (horder h) hends⟩⟩
  simp [Element.shapes, (Element.mem_arrowEnds _ _ ends hends).1]

/-- `(ab|c)` inside `n` groups: a choice between a sequence and a character. -/
def Regex.groupedChoice (n : Nat) : Regex :=
  Regex.grouped n (.mk [.mk [.quantified (.char "a" 4) none true,
    .quantified (.char "b" 5) none true], .mk [.quantified (.char "c" 6) none true]])

/-- Three groups around `(ab|c)` have their leaf boxes inside the canvas, and four groups
around it have them apart, with arrows running rightward. -/
theorem Regex.render_leaf_boxes_apart_groupedChoice :
    (∀ b ∈ ((Regex.groupedChoice 3).render Hooks.none).tree.drawn.leafBoxes,
        b.Within ((Regex.groupedChoice 3).render Hooks.none).canvas.1
          ((Regex.groupedChoice 3).render Hooks.none).canvas.2) ∧
      ((Regex.groupedChoice 4).render Hooks.none).tree.drawn.leafBoxes.Pairwise Box.Apart ∧
      ∀ a ∈ ((Regex.groupedChoice 4).render Hooks.none).shapes.arrows,
        a.start.x.units < a.finish.x.units :=
  ⟨(Regex.render_leaf_boxes_apart Hooks.none (Regex.groupedChoice 3)).2.2.1 (by decide),
    (Regex.render_leaf_boxes_apart Hooks.none (Regex.groupedChoice 4)).2.2.2 (by decide)⟩

/-- **Groups nested deeper break the statement.** Four groups around a group of sixty-one `a`
and a `b` nest five deep: the inner group's body is squeezed by sixty pixels, which a share
truncated to nothing leaves wholly to overhang, and the box of its last `a` overlaps that of
`b`, so that the arrow between them runs leftward. Four groups around eighty-one characters
squeeze the row by eighty pixels, which its truncated share likewise hands out as nothing:
the last box ends past the canvas. -/
theorem Regex.deep_groups_break_leaf_boxes :
    ((Regex.grouped 4 (.mk [.mk [.quantified (.group (.mk [.mk
      (List.replicate 61 (.quantified (.char "a" 1) none true))]) 1 1) none true,
      .quantified (.char "b" 2) none true]])).build Hooks.none).groupDepth = 5 ∧
    ¬ ((Regex.grouped 4 (.mk [.mk [.quantified (.group (.mk [.mk
      (List.replicate 61 (.quantified (.char "a" 1) none true))]) 1 1) none true,
      .quantified (.char "b" 2) none true]])).render Hooks.none).tree.drawn.leafBoxes.Pairwise
        Box.Apart ∧
    ¬ (∀ a ∈ ((Regex.grouped 4 (.mk [.mk [.quantified (.group (.mk [.mk
      (List.replicate 61 (.quantified (.char "a" 1) none true))]) 1 1) none true,
      .quantified (.char "b" 2) none true]])).render Hooks.none).shapes.arrows,
        a.start.x.units < a.finish.x.units) ∧
    ((Regex.grouped 4 (.mk [.mk (List.replicate 81 (.quantified (.char "a" 1) none true))])).build
      Hooks.none).groupDepth = 4 ∧
    ¬ ∀ b ∈ ((Regex.grouped 4 (.mk [.mk (List.replicate 81 (.quantified (.char "a" 1) none true))])).render
      Hooks.none).tree.drawn.leafBoxes,
        b.Within ((Regex.grouped 4 (.mk [.mk (List.replicate 81
          (.quantified (.char "a" 1) none true))])).render Hooks.none).canvas.1
          ((Regex.grouped 4 (.mk [.mk (List.replicate 81
            (.quantified (.char "a" 1) none true))])).render Hooks.none).canvas.2 := by
  refine ⟨by decide +kernel, by decide +kernel, by decide +kernel, by decide +kernel,
    by decide +kernel⟩

end PatternChart
