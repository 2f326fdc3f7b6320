import PatternChart.Proofs.Relayout
import PatternChart.Proofs.GroupBoxes
/-!
# How the parts of a resized container add up

Resizing hands each child of a container its natural size plus an even share of the
difference between the container's target and its natural size: a choice shares out its
height, a sequence its width less its border. A share is truncated toward zero, so the
children of a stretched container fall short of the target by the remainder of the
division, fewer than one pixel per child, and the children of a squeezed container
overhang it by the remainder. That is the promise of the layout.

It does not always hold. A child's target is clamped at zero, and a squeezed child whose
share of the shortfall is more than its whole natural size is clamped: it takes more room
than its share, and the children overhang by more. Five groups around one character are
enough (`Regex.five_groups_overhang_their_share`): each group squeezes its body by its
whole border of twenty pixels, and the body of the innermost, ninety pixels wide
naturally, is handed minus ten and clamped at zero inside a box ten pixels wide. What
does hold is the promise wherever no child is clamped, and, clamped or not, that the
children of a squeezed container never fall short of its target
(`Regex.layout_shares_within_one_per_part`).

The statement pairs each container of the laid-out tree with the same container of the
sized tree, the one it was resized from, by their places in pre-order.
-/

set_option autoImplicit false

namespace PatternChart

/-! ## 1. Clamped parts -/

/-- Parts given their natural sizes plus a share, each clamped at zero, add up to at least
their natural sizes plus one share each. -/
theorem le_sum_clamped (s : Int) :
    ∀ xs : List Int, xs.sum + xs.length * s ≤ (xs.map fun x => max (x + s) 0).sum
  | [] => by simp
  | x :: xs => by
    have ih := le_sum_clamped s xs
    have hx := Int.le_max_left (x + s) 0
    simp only [List.sum_cons, List.length_cons, List.map_cons, Int.natCast_add, Int.natCast_one,
      Int.add_mul, Int.one_mul]
    omega

/-- Where no part is clamped, they add up to exactly their natural sizes plus one share each. -/
theorem sum_clamped_of_nonneg (s : Int) :
    ∀ xs : List Int, (∀ x ∈ xs, 0 ≤ x + s) →
      (xs.map fun x => max (x + s) 0).sum = xs.sum + xs.length * s
  | [], _ => by simp
  | x :: xs, hxs => by
    have ih := sum_clamped_of_nonneg s xs fun y hy => hxs y (List.mem_cons_of_mem x hy)
    have hx := Int.max_eq_left (hxs x List.mem_cons_self)
    simp only [List.sum_cons, List.length_cons, List.map_cons, Int.natCast_add, Int.natCast_one,
      Int.add_mul, Int.one_mul, ih, hx]
    omega

/-! ## 2. Handouts -/

/-- What a container hands out along the axis it shares out, beside its natural self: the
target it shares out, its natural size, the sizes its parts got and their natural sizes. -/
structure Handout where
  target : Int
  natural : Int
  given : List Int
  naturals : List Int
  deriving DecidableEq, Repr

namespace Handout

/-- The layout's promise for a handout, with the bound above a squeezed target kept for
where `above` holds. When the container is stretched (its natural size is at most its
target) the parts fall short of the target by less than one pixel each; when it is
squeezed they add up to at least the target and, where `above` holds, overhang it by less
than one pixel each. A container without parts promises nothing. -/
def Promise (h : Handout) (above : Prop) : Prop :=
  h.given ≠ [] →
    (h.natural ≤ h.target → h.target - h.given.length < h.given.sum ∧ h.given.sum ≤ h.target) ∧
      (h.target < h.natural →
        h.target ≤ h.given.sum ∧ (above → h.given.sum < h.target + h.given.length))

instance (h : Handout) (above : Prop) [Decidable above] : Decidable (h.Promise above) :=
  inferInstanceAs (Decidable (_ → _))

/-- Whether no part's natural size is below its share of the shortfall, so that no part
is squeezed below zero and clamped. -/
def Unclamped (h : Handout) : Prop :=
  ∀ x ∈ h.naturals, (h.natural - h.target) / h.naturals.length ≤ x

/-- How parts of natural sizes `xs` share out a target: each gets its natural size plus the
even share of the difference, clamped at zero. -/
def share (target : Int) (xs : List Int) : Handout where
  target := target
  natural := xs.sum
  given := xs.map fun x => max (x + evenShare (target - xs.sum) xs.length) 0
  naturals := xs

/-- **Sharing out a target keeps the promise where no part is clamped**, and never falls
short of a squeezed target. -/
theorem share_promise (T : Int) (xs : List Int) (hxs : ∀ x ∈ xs, 0 ≤ x) :
    (share T xs).Promise (share T xs).Unclamped := by
  intro hne
  simp only [share, Unclamped, ne_eq, List.map_eq_nil_iff, List.length_map] at hne ⊢
  have hn : (0 : Int) < xs.length := by
    have := List.length_pos_iff.mpr hne
    omega
  have hlow := le_sum_clamped (evenShare (T - xs.sum) xs.length) xs
  refine ⟨fun hstretch => ?_, fun hsqueeze => ?_⟩
  · -- stretched: the parts get all of the surplus but its remainder, and none is clamped
    have hsurplus : 0 ≤ T - xs.sum := Int.sub_nonneg_of_le hstretch
    have hshares := mul_evenShare_of_nonneg hsurplus xs.length
    have hmod := Int.emod_lt_of_pos (T - xs.sum) hn
    have hmod' := Int.emod_nonneg (T - xs.sum) (Int.ne_of_gt hn)
    rw [sum_clamped_of_nonneg _ xs fun x hx =>
      Int.add_nonneg (hxs x hx) (evenShare_nonneg hsurplus _)]
    constructor <;> omega
  · -- squeezed: the shares take out all of the shortfall but its remainder
    have hshares := mul_evenShare_of_nonpos (show T - xs.sum ≤ 0 by omega) xs.length
    have hmod := Int.emod_lt_of_pos (-(T - xs.sum)) hn
    have hmod' := Int.emod_nonneg (-(T - xs.sum)) (Int.ne_of_gt hn)
    refine ⟨by omega, fun hfree => ?_⟩
    -- a part no smaller than its share of the shortfall is not clamped
    have hkept : ∀ x ∈ xs, 0 ≤ x + evenShare (T - xs.sum) xs.length := by
      intro x hx
      have := hfree x hx
      rw [evenShare_of_nonpos (by omega), show -(T - xs.sum) = xs.sum - T by omega]
      omega
    rw [sum_clamped_of_nonneg _ xs hkept]
    omega

end Handout

/-! ## 3. Handouts of a resized tree -/

namespace Element

variable {α : Type}

mutual
/-- Every element of a tree in pre-order, the tree itself first. -/
def subtrees : Element α → List (Element α)
  | .leaf f l => [.leaf f l]
  | .seq f s cs => .seq f s cs :: subtreesOfList cs
  | .choice f cs => .choice f cs :: subtreesOfList cs

/-- Every element of a list of trees in pre-order. -/
def subtreesOfList : List (Element α) → List (Element α)
  | [] => []
  | e :: es => subtrees e ++ subtreesOfList es
end

/-- The handout of a container of a resized tree `t`, beside the same container `i` before
it was resized: a choice shares out its height and a sequence its width less its border. -/
def handout : Element Int → Element Int → Option Handout
  | .choice f cs, .choice g ds => some ⟨f.height, g.height, heights cs, heights ds⟩
  | .seq f s cs, .seq g _ ds => some ⟨f.width - s.border, g.width, widths cs, widths ds⟩
  | _, _ => none

/-- Whether a container of a resized tree keeps the layout's promise beside its sized self,
the bound above a squeezed target kept for where `above` holds. -/
def Keeps (above : Handout → Prop) (t i : Element Int) : Prop :=
  ∀ h ∈ handout t i, h.Promise (above h)

instance (above : Handout → Prop) [DecidablePred above] (t i : Element Int) :
    Decidable (Keeps above t i) :=
  inferInstanceAs (Decidable (∀ h ∈ handout t i, h.Promise (above h)))

/-- Whether every container of a laid-out tree keeps the layout's promise beside the same
container of the sized tree, the bound above a squeezed target kept for where `above`
holds. -/
def SharesAddUp (above : Handout → Prop) (e : Element Int) : Prop :=
  List.Forall₂ (Keeps above) e.layout.subtrees e.infer.subtrees

instance (above : Handout → Prop) [DecidablePred above] (e : Element Int) :
    Decidable (e.SharesAddUp above) :=
  inferInstanceAs (Decidable (List.Forall₂ _ _ _))

@[simp] theorem length_heights (cs : List (Element Int)) : (heights cs).length = cs.length :=
  List.length_map _

@[simp] theorem length_widths (cs : List (Element Int)) : (widths cs).length = cs.length :=
  List.length_map _

@[simp] theorem heights_resizeStack (w share : Int) (cs : List (Element Int)) :
    heights (resizeStack w share cs) = (heights cs).map fun x => max (x + share) 0 := by
  induction cs with
  | nil => rfl
  | cons c cs ih => simp [resizeStack, ih]

@[simp] theorem widths_resizeRow (share h : Int) (cs : List (Element Int)) :
    widths (resizeRow share h cs) = (widths cs).map fun x => max (x + share) 0 := by
  induction cs with
  | nil => rfl
  | cons c cs ih => simp [resizeRow, ih]

/-- A resized choice shares out its clamped target height among its children's heights. -/
theorem handout_resize_infer_choice (f : Frame Int) (cs : List (Element Int)) (w h : Int) :
    handout ((Element.choice f cs).infer.resize w h) (Element.choice f cs).infer =
      some (Handout.share (max h 0) (heights (inferList cs))) := by
  simp only [infer_choice, resize, handout, heights_resizeStack, Handout.share, length_heights]

/-- A resized sequence shares out its clamped target width, less its border, among its
children's widths. -/
theorem handout_resize_infer_seq (f : Frame Int) (s : Sequence) (cs : List (Element Int))
    (w h : Int) :
    handout ((Element.seq f s cs).infer.resize w h) (Element.seq f s cs).infer =
      some (Handout.share (max w 0 - s.border) (widths (inferList cs))) := by
  simp only [infer_seq, resize, handout, widths_resizeRow, Handout.share, length_widths,
    sub_right_comm (max w 0) _ s.border]

theorem heights_nonneg {cs : List (Element Int)} (hcs : SizedList cs) :
    ∀ x ∈ heights cs, 0 ≤ x := by
  simpa [heights] using fun c hc => ((sizedList_iff.mp hcs) c hc).size_nonneg.2

theorem widths_nonneg {cs : List (Element Int)} (hcs : SizedList cs) :
    ∀ x ∈ widths cs, 0 ≤ x := by
  simpa [widths] using fun c hc => ((sizedList_iff.mp hcs) c hc).size_nonneg.1

/-- **Resizing keeps the promise at a container where no child is clamped**, whatever the
target: a sized container shares its target out among its children's natural sizes. -/
theorem keeps_resize_infer_self (w h : Int) (e : Element Int) (he : e.Sized) :
    Keeps Handout.Unclamped (e.infer.resize w h) e.infer := by
  cases e with
  | leaf f l => exact fun _ hh => (Option.not_mem_none _ hh).elim
  | seq f s cs =>
    rw [Keeps, handout_resize_infer_seq]
    rintro _ ⟨⟩
    exact Handout.share_promise _ _ (widths_nonneg (sized_inferList cs he.2.2.2))
  | choice f cs =>
    rw [Keeps, handout_resize_infer_choice]
    rintro _ ⟨⟩
    exact Handout.share_promise _ _ (heights_nonneg (sized_inferList cs he.2.2))

mutual
/-- **Resizing keeps the promise at every container where no child is clamped.** Every
container of a sized tree resized to any target, beside the same container sized. -/
theorem keeps_resize_infer :
    ∀ e : Element Int, e.Sized → ∀ w h : Int,
      List.Forall₂ (Keeps Handout.Unclamped) (e.infer.resize w h).subtrees e.infer.subtrees
  | .leaf f l, he, w, h => .cons (keeps_resize_infer_self w h (.leaf f l) he) .nil
  | .seq f s cs, he, w, h =>
    .cons (keeps_resize_infer_self w h (.seq f s cs) he) (keeps_resizeRow_inferList cs he.2.2.2 _ _)
  | .choice f cs, he, w, h =>
    .cons (keeps_resize_infer_self w h (.choice f cs) he) (keeps_resizeStack_inferList cs he.2.2 _ _)

theorem keeps_resizeRow_inferList :
    ∀ cs : List (Element Int), SizedList cs → ∀ share h : Int,
      List.Forall₂ (Keeps Handout.Unclamped) (subtreesOfList (resizeRow share h (inferList cs)))
        (subtreesOfList (inferList cs))
  | [], _, _, _ => .nil
  | c :: cs, ⟨hc, hcs⟩, share, h =>
    List.rel_append (keeps_resize_infer c hc _ _) (keeps_resizeRow_inferList cs hcs share h)

theorem keeps_resizeStack_inferList :
    ∀ cs : List (Element Int), SizedList cs → ∀ w share : Int,
      List.Forall₂ (Keeps Handout.Unclamped) (subtreesOfList (resizeStack w share (inferList cs)))
        (subtreesOfList (inferList cs))
  | [], _, _, _ => .nil
  | c :: cs, ⟨hc, hcs⟩, w, share =>
    List.rel_append (keeps_resize_infer c hc _ _) (keeps_resizeStack_inferList cs hcs w share)
end

/-! ## 4. The laid-out tree -/

mutual
theorem subtrees_unplaced : ∀ e : Element Int, e.unplaced.subtrees = e.subtrees.map unplaced
  | .leaf _ _ => rfl
  | .seq _ _ cs => by rw [unplaced, subtrees, subtrees, subtreesOfList_unplacedList]; rfl
  | .choice _ cs => by rw [unplaced, subtrees, subtrees, subtreesOfList_unplacedList]; rfl

theorem subtreesOfList_unplacedList :
    ∀ es : List (Element Int), subtreesOfList (unplacedList es) = (subtreesOfList es).map unplaced
  | [] => rfl
  | e :: es => by
    rw [unplacedList, subtreesOfList, subtreesOfList, List.map_append, subtrees_unplaced,
      subtreesOfList_unplacedList es]
end

/-- A handout reads no corner. -/
theorem handout_unplaced (t i : Element Int) : handout t.unplaced i = handout t i := by
  cases t <;> cases i <;> simp [unplaced, handout]

/-- Whether the containers of a tree keep the promise does not depend on its corners. -/
theorem forall₂_keeps_unplaced (above : Handout → Prop) (t : Element Int) (l : List (Element Int)) :
    List.Forall₂ (Keeps above) t.unplaced.subtrees l ↔ List.Forall₂ (Keeps above) t.subtrees l := by
  have hkeeps : ∀ t' i, Keeps above t'.unplaced i ↔ Keeps above t' i := fun t' i => by
    rw [Keeps, Keeps, handout_unplaced]
  rw [subtrees_unplaced, List.forall₂_map_left_iff]
  exact ⟨List.Forall₂.imp fun t' i => (hkeeps t' i).mp, List.Forall₂.imp fun t' i => (hkeeps t' i).mpr⟩

/-- **Every container of a laid-out tree keeps the promise where no child is clamped.** -/
theorem sharesAddUp_layout (e : Element Int) (he : e.Sized) : e.SharesAddUp Handout.Unclamped := by
  -- placing changes corners only, and a handout reads no corner
  rw [SharesAddUp, ← forall₂_keeps_unplaced, layout, unplaced_place, forall₂_keeps_unplaced]
  exact keeps_resize_infer e he _ _

end Element

/-- **The children of every container of a regex's diagram add up as the layout promises,
where no child is clamped.** Lay out the diagram of any regex and compare each choice and
each sequence with the same container of the sized diagram. A stretched choice's children
fall short of its height by less than one pixel each, and a squeezed one's children add up
to at least its height; where none is squeezed below zero, they overhang it by less than
one pixel each. The same holds of a sequence's children's widths against its width less
its border. -/
theorem Regex.layout_shares_within_one_per_part (hooks : Hooks) (r : Regex) :
    (r.build hooks).SharesAddUp Handout.Unclamped :=
  Element.sharesAddUp_layout _ (Regex.sized_build hooks r)

/-- Five groups around one character: the innermost group box is ten pixels wide, so its
body is handed minus ten and clamped at zero. Its border of twenty leaves `-10` to share,
and the body, zero wide, overhangs that by ten pixels where the promise allows less
than one. -/
theorem Regex.five_groups_overhang_their_share :
    ¬ (Regex.build Hooks.none
      (.mk [.mk [.quantified (.group (.mk [.mk [.quantified (.group (.mk [.mk [.quantified
        (.group (.mk [.mk [.quantified (.group (.mk [.mk [.quantified (.group (.mk [.mk
          [.quantified (.char "a" 6) none true]]) 5 5) none true]]) 4 4) none true]]) 3 3)
            none true]]) 2 2) none true]]) 1 1) none true]])).SharesAddUp fun _ => True := by
  decide

end PatternChart
