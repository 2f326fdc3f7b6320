import PatternChart.Proofs.Placement
import PatternChart.Proofs.Squeeze
/-!
# Resizing as a function of its target

Resizing fixes an element's size at its target, clamped at zero, and hands each child a
target made of the child's own size and a share of what is left over. Two consequences
about the pass as a function of the target:

* A tree without group boxes is left as it is by resizing it again to the size it got
  (`Element.resize_idempotent_at_own_size`): every element then already has the size its
  parent hands it, so there is nothing left over to share. A border breaks this, since a
  sequence shares its target less its border: resizing a group box again at its own size
  squeezes its body once more.
* Widths are decided by the width target alone and heights by the height target alone,
  and both grow with their target (`Element.resize_monotone`). A choice gives its
  children its full width and shares out height; a sequence shares out width and gives
  its height less the border; and clamping at zero, a share truncated toward zero and
  taking off a border are each monotone.

Elements of two resizings of one tree are compared at the same place in pre-order
(`Element.frames`): resizing keeps the shape, so these are the same element.
-/

set_option autoImplicit false

namespace PatternChart

/-! ## 1. Shares -/

@[simp] theorem evenShare_zero (n : Nat) : evenShare 0 n = 0 := by
  simp [evenShare]

/-- A larger surplus never gives a smaller share. -/
theorem evenShare_mono (n : Nat) {s s' : Int} (h : s ≤ s') : evenShare s n ≤ evenShare s' n := by
  unfold evenShare
  split
  · exact Int.le_refl 0
  · exact Int.tdiv_le_tdiv (Int.natCast_pos.mpr (Nat.pos_of_ne_zero ‹_›)) h

@[simp] theorem max_max_zero (v : Int) : max (max v 0) 0 = max v 0 :=
  Int.max_eq_left (Int.le_max_right v 0)

namespace Element

/-! ## 2. Resizing at its own size -/

variable {α : Type}

mutual
/-- Whether no sequence of a tree has a border: a tree without group boxes. -/
def borderless : Element α → Bool
  | .leaf _ _ => true
  | .seq _ s cs => decide (s.border = 0) && borderlessList cs
  | .choice _ cs => borderlessList cs

/-- Whether no tree of a list has a border. -/
def borderlessList : List (Element α) → Bool
  | [] => true
  | e :: es => borderless e && borderlessList es
end

mutual
/-- Resizing a tree without group boxes again, to the clamped target, changes nothing. -/
theorem resize_resize (w h : Int) :
    ∀ e : Element Int, e.borderless → (e.resize w h).resize (max w 0) (max h 0) = e.resize w h
  | .leaf _ _, _ => by simp [resize]
  | .seq f s cs, hb => by
    simp only [borderless, Bool.and_eq_true, decide_eq_true_eq] at hb
    -- a sequence of its own width, with no border, has nothing to share
    simp only [resize, hb.1, Int.sub_zero, max_max_zero, Int.sub_self, evenShare_zero]
    rw [resizeRow_resizeRow _ _ cs (Int.le_max_right h 0) hb.2]
  | .choice f cs, hb => by
    simp only [borderless] at hb
    -- a choice of its own height has nothing to share
    simp only [resize, max_max_zero, Int.sub_self, evenShare_zero]
    rw [resizeStack_resizeStack _ _ cs (Int.le_max_right w 0) hb]

/-- Resizing the children of a row again, each to the width it got, changes nothing. -/
theorem resizeRow_resizeRow (share h : Int) :
    ∀ cs : List (Element Int), 0 ≤ h → borderlessList cs →
      resizeRow 0 h (resizeRow share h cs) = resizeRow share h cs
  | [], _, _ => rfl
  | c :: cs, h0, hcs => by
    simp only [borderlessList, Bool.and_eq_true] at hcs
    have hc := resize_resize (c.frame.width + share) h c hcs.1
    rw [Int.max_eq_left h0] at hc
    simp only [resizeRow, frame_resize, Int.add_zero, hc, resizeRow_resizeRow share h cs h0 hcs.2]

/-- Resizing the children of a stack again, each to the height it got, changes nothing. -/
theorem resizeStack_resizeStack (w share : Int) :
    ∀ cs : List (Element Int), 0 ≤ w → borderlessList cs →
      resizeStack w 0 (resizeStack w share cs) = resizeStack w share cs
  | [], _, _ => rfl
  | c :: cs, w0, hcs => by
    simp only [borderlessList, Bool.and_eq_true] at hcs
    have hc := resize_resize w (c.frame.height + share) c hcs.1
    rw [Int.max_eq_left w0] at hc
    simp only [resizeStack, frame_resize, Int.add_zero, hc, resizeStack_resizeStack w share cs w0 hcs.2]
end

/-- **Resizing is idempotent at its own size** in a tree without group boxes: resizing the
result of a resize again, to the size it got, gives it back. -/
theorem resize_idempotent_at_own_size (t : Element Int) (ht : t.borderless) (w h : Int) :
    (t.resize w h).resize (t.resize w h).frame.width (t.resize w h).frame.height = t.resize w h := by
  rw [frame_resize]
  exact resize_resize w h t ht

/-- A choice between a row of two leaves and a leaf, of sizes it was never sized to. -/
def stackOfRowAndLeaf : Element Int :=
  .choice ⟨0, 0, 0, 0⟩
    [.seq ⟨180, 80, 0, 0⟩ {} [.leaf ⟨90, 80, 0, 0⟩ { label := "a" },
      .leaf ⟨90, 80, 0, 0⟩ { label := "b" }],
     .leaf ⟨90, 80, 0, 0⟩ { label := "c" }]

/-- Resized to a negative height, the stack is resized to its own size without change. -/
theorem resize_idempotent_at_own_size_stack :
    stackOfRowAndLeaf.borderless = true ∧
      (stackOfRowAndLeaf.resize 125 (-7)).resize (stackOfRowAndLeaf.resize 125 (-7)).frame.width
        (stackOfRowAndLeaf.resize 125 (-7)).frame.height = stackOfRowAndLeaf.resize 125 (-7) :=
  ⟨by decide, resize_idempotent_at_own_size _ (by decide) 125 (-7)⟩

end Element

/-! ## 3. Resizing to a larger target -/

/-- Whether a frame is no wider than another where `wide` holds and no taller where `tall`
holds. -/
def Frame.NoLarger (wide tall : Prop) (f f' : Frame Int) : Prop :=
  (wide → f.width ≤ f'.width) ∧ (tall → f.height ≤ f'.height)

/-- A frame given two clamped targets is no wider and no taller where the targets are
ordered so. -/
theorem Frame.noLarger_clamped {wide tall : Prop} (f : Frame Int) {w w' h h' : Int}
    (hw : wide → w ≤ w') (hh : tall → h ≤ h') :
    Frame.NoLarger wide tall { f with width := max w 0, height := max h 0 }
      { f with width := max w' 0, height := max h' 0 } :=
  ⟨fun p => max_le_max (hw p) le_rfl, fun p => max_le_max (hh p) le_rfl⟩

namespace Element

mutual
/-- **Each size follows its own target.** Resizing a tree to two targets, every element of
the first is no wider than the same element of the second where the width targets are
ordered so, and no taller where the height targets are. -/
theorem frames_resize_noLarger {wide tall : Prop} :
    ∀ (e : Element Int) {w w' h h' : Int}, (wide → w ≤ w') → (tall → h ≤ h') →
      List.Forall₂ (Frame.NoLarger wide tall) (e.resize w h).frames (e.resize w' h').frames
  | .leaf f _, _, _, _, _, hw, hh => .cons (Frame.noLarger_clamped f hw hh) .nil
  | .seq f _ cs, _, _, _, _, hw, hh =>
    -- the children share the width left over and all get the height less the border
    .cons (Frame.noLarger_clamped f hw hh)
      (framesOfList_resizeRow_noLarger cs
        (fun p => evenShare_mono _ (Int.sub_le_sub_right
          (Int.sub_le_sub_right (max_le_max (hw p) le_rfl) _) _))
        (fun p => Int.sub_le_sub_right (max_le_max (hh p) le_rfl) _))
  | .choice f cs, _, _, _, _, hw, hh =>
    -- the children all get the full width and share the height left over
    .cons (Frame.noLarger_clamped f hw hh)
      (framesOfList_resizeStack_noLarger cs (fun p => max_le_max (hw p) le_rfl)
        (fun p => evenShare_mono _ (Int.sub_le_sub_right (max_le_max (hh p) le_rfl) _)))

theorem framesOfList_resizeRow_noLarger {wide tall : Prop} :
    ∀ (cs : List (Element Int)) {share share' h h' : Int}, (wide → share ≤ share') →
      (tall → h ≤ h') →
      List.Forall₂ (Frame.NoLarger wide tall) (framesOfList (resizeRow share h cs))
        (framesOfList (resizeRow share' h' cs))
  | [], _, _, _, _, _, _ => .nil
  | c :: cs, _, _, _, _, hs, hh =>
    List.rel_append (frames_resize_noLarger c (fun p => Int.add_le_add_left (hs p) _) hh)
      (framesOfList_resizeRow_noLarger cs hs hh)

theorem framesOfList_resizeStack_noLarger {wide tall : Prop} :
    ∀ (cs : List (Element Int)) {w w' share share' : Int}, (wide → w ≤ w') →
      (tall → share ≤ share') →
      List.Forall₂ (Frame.NoLarger wide tall) (framesOfList (resizeStack w share cs))
        (framesOfList (resizeStack w' share' cs))
  | [], _, _, _, _, _, _ => .nil
  | c :: cs, _, _, _, _, hw, hs =>
    List.rel_append (frames_resize_noLarger c hw (fun p => Int.add_le_add_left (hs p) _))
      (framesOfList_resizeStack_noLarger cs hw hs)
end

/-- Two lists each no larger than the other at every place agree there. -/
theorem map_eq_of_forall₂_le {β : Type} {g : β → Int} :
    ∀ {l l' : List β}, List.Forall₂ (fun a b => g a ≤ g b) l l' →
      List.Forall₂ (fun a b => g a ≤ g b) l' l → l.map g = l'.map g
  | [], [], _, _ => rfl
  | _ :: _, _ :: _, .cons hab h, .cons hba h' => by
    rw [List.map_cons, List.map_cons, Int.le_antisymm hab hba, map_eq_of_forall₂_le h h']

variable (t : Element Int)

/-- A wider target never makes an element narrower, whatever the height targets. -/
theorem widths_resize_mono {w w' : Int} (hw : w ≤ w') (h h' : Int) :
    List.Forall₂ (fun f f' => f.width ≤ f'.width) (t.resize w h).frames (t.resize w' h').frames :=
  (@frames_resize_noLarger _ False t _ _ _ _ (fun _ => hw) False.elim).imp fun _ _ hf => hf.1 hw

/-- A taller target never makes an element shorter, whatever the width targets. -/
theorem heights_resize_mono {h h' : Int} (hh : h ≤ h') (w w' : Int) :
    List.Forall₂ (fun f f' => f.height ≤ f'.height) (t.resize w h).frames (t.resize w' h').frames :=
  (@frames_resize_noLarger False _ t _ _ _ _ False.elim (fun _ => hh)).imp fun _ _ hf => hf.2 hh

/-- The widths of a resized tree are those of the width target alone. -/
theorem widths_resize (w h h' : Int) :
    (t.resize w h).frames.map Frame.width = (t.resize w h').frames.map Frame.width :=
  map_eq_of_forall₂_le (widths_resize_mono t le_rfl h h') (widths_resize_mono t le_rfl h' h)

/-- The heights of a resized tree are those of the height target alone. -/
theorem heights_resize (h w w' : Int) :
    (t.resize w h).frames.map Frame.height = (t.resize w' h).frames.map Frame.height :=
  map_eq_of_forall₂_le (heights_resize_mono t le_rfl w w') (heights_resize_mono t le_rfl w' w)

/-- **Enlarging the target never shrinks an element.** Resized to a target at least as
wide, every element is at least as wide, and to one at least as tall, at least as tall;
each element's width depends on the width target alone and its height on the height
target alone. -/
theorem resize_monotone {w w' h h' : Int} (hw : w ≤ w') (hh : h ≤ h') :
    List.Forall₂ (fun f f' => f.width ≤ f'.width) (t.resize w h).frames (t.resize w' h).frames ∧
      List.Forall₂ (fun f f' => f.height ≤ f'.height) (t.resize w h).frames
        (t.resize w h').frames ∧
      (t.resize w h).frames.map Frame.width = (t.resize w h').frames.map Frame.width ∧
      (t.resize w h).frames.map Frame.height = (t.resize w' h).frames.map Frame.height :=
  ⟨widths_resize_mono t hw h h, heights_resize_mono t hh w w, widths_resize t w h h',
    heights_resize t h w w'⟩

/-- A group box around two leaves, of sizes it was never sized to. -/
def boxedPair : Element Int :=
  .seq ⟨0, 0, 0, 0⟩ { border := 20 }
    [.leaf ⟨90, 80, 0, 0⟩ { label := "a" }, .leaf ⟨97, 80, 0, 0⟩ { label := "bc" }]

/-- The box resized from a negative target to larger ones. -/
theorem resize_monotone_boxedPair :
    (-40 : Int) ≤ 150 ∧ (-10 : Int) ≤ 95 ∧
      List.Forall₂ (fun f f' => f.width ≤ f'.width) (boxedPair.resize (-40) (-10)).frames
        (boxedPair.resize 150 (-10)).frames ∧
      List.Forall₂ (fun f f' => f.height ≤ f'.height) (boxedPair.resize (-40) (-10)).frames
        (boxedPair.resize (-40) 95).frames ∧
      (boxedPair.resize (-40) (-10)).frames.map Frame.width =
        (boxedPair.resize (-40) 95).frames.map Frame.width ∧
      (boxedPair.resize (-40) (-10)).frames.map Frame.height =
        (boxedPair.resize 150 (-10)).frames.map Frame.height :=
  ⟨by decide, by decide, resize_monotone _ (by decide) (by decide)⟩

end Element

end PatternChart
