import PatternChart.Proofs.Shape
import PatternChart.Proofs.Squeeze
import PatternChart.Diagram.Arrows
/-!
# Laying out again changes nothing

Layout sets every frame of a tree anew, and what it sets them to is read off the shape
alone. Sizing gives each element the size of its labels, borders and children, whatever
size it came with, and keeps its corner; resizing reads only sizes and keeps every
corner; placing overwrites every corner and reads only sizes. So the frames a tree comes
with play no part: the laid-out tree is the layout of its shape with every frame zero
(`Element.layout_of_shape`), two trees of one shape are laid out alike
(`Element.layout_eq_of_shape_eq`), and laying out a laid-out tree gives it back
(`Element.layout_layout`). The arrows are read off the shape too, so layout keeps them
(`Element.arrowPairs_layout`, `Element.frontierOf_layout`).

The corners are what the second and third pass disagree about, so the proofs go through
`Element.unplaced`, the tree with every corner at the origin: placing reads nothing a
tree has that `unplaced` forgets, and resizing and sizing change nothing it keeps but
sizes.
-/

set_option autoImplicit false

namespace PatternChart

namespace Element

/-! ## 1. Trees with every corner at the origin -/

mutual
/-- The tree with every corner moved to the origin: all that placing reads of it. -/
def unplaced : Element Int → Element Int
  | .leaf f l => .leaf { f with x := 0, y := 0 } l
  | .seq f s cs => .seq { f with x := 0, y := 0 } s (unplacedList cs)
  | .choice f cs => .choice { f with x := 0, y := 0 } (unplacedList cs)

/-- Trees with every corner moved to the origin. -/
def unplacedList : List (Element Int) → List (Element Int)
  | [] => []
  | e :: es => unplaced e :: unplacedList es
end

@[simp] theorem frame_unplaced (e : Element Int) :
    e.unplaced.frame = { e.frame with x := 0, y := 0 } := by
  cases e <;> rfl

@[simp] theorem length_unplacedList :
    ∀ cs : List (Element Int), (unplacedList cs).length = cs.length
  | [] => rfl
  | c :: cs => by rw [unplacedList, List.length_cons, List.length_cons, length_unplacedList cs]

@[simp] theorem widths_unplacedList :
    ∀ cs : List (Element Int), widths (unplacedList cs) = widths cs
  | [] => rfl
  | c :: cs => by simp [unplacedList, widths_unplacedList cs]

@[simp] theorem heights_unplacedList :
    ∀ cs : List (Element Int), heights (unplacedList cs) = heights cs
  | [] => rfl
  | c :: cs => by simp [unplacedList, heights_unplacedList cs]

/-! ## 2. What each pass does to corners -/

mutual
/-- **Placing reads no corner.** -/
theorem place_unplaced (x y : Int) : ∀ e : Element Int, e.unplaced.place x y = e.place x y
  | .leaf _ _ => rfl
  | .seq _ s cs => by
    rw [unplaced, place, place, placeAcross_unplacedList]
  | .choice _ cs => by
    rw [unplaced, place, place, placeDown_unplacedList]

theorem placeAcross_unplacedList (x y : Int) :
    ∀ cs : List (Element Int), placeAcross x y (unplacedList cs) = placeAcross x y cs
  | [] => rfl
  | c :: cs => by
    rw [unplacedList, placeAcross, placeAcross, place_unplaced, frame_unplaced,
      placeAcross_unplacedList _ y cs]

theorem placeDown_unplacedList (x y : Int) :
    ∀ cs : List (Element Int), placeDown x y (unplacedList cs) = placeDown x y cs
  | [] => rfl
  | c :: cs => by
    rw [unplacedList, placeDown, placeDown, place_unplaced, frame_unplaced,
      placeDown_unplacedList x _ cs]
end

mutual
/-- **Placing changes corners only.** -/
theorem unplaced_place (x y : Int) : ∀ e : Element Int, (e.place x y).unplaced = e.unplaced
  | .leaf _ _ => rfl
  | .seq _ s cs => by
    rw [place, unplaced, unplaced, unplacedList_placeAcross]
  | .choice _ cs => by
    rw [place, unplaced, unplaced, unplacedList_placeDown]

theorem unplacedList_placeAcross (x y : Int) :
    ∀ cs : List (Element Int), unplacedList (placeAcross x y cs) = unplacedList cs
  | [] => rfl
  | c :: cs => by
    rw [placeAcross, unplacedList, unplacedList, unplaced_place, unplacedList_placeAcross _ y cs]

theorem unplacedList_placeDown (x y : Int) :
    ∀ cs : List (Element Int), unplacedList (placeDown x y cs) = unplacedList cs
  | [] => rfl
  | c :: cs => by
    rw [placeDown, unplacedList, unplacedList, unplaced_place, unplacedList_placeDown x _ cs]
end

mutual
/-- **Resizing reads no corner and keeps every corner.** -/
theorem unplaced_resize (w h : Int) :
    ∀ e : Element Int, (e.resize w h).unplaced = e.unplaced.resize w h
  | .leaf _ _ => rfl
  | .seq _ s cs => by
    rw [resize, unplaced, unplaced, resize, unplacedList_resizeRow, length_unplacedList]
  | .choice _ cs => by
    rw [resize, unplaced, unplaced, resize, unplacedList_resizeStack, length_unplacedList]

theorem unplacedList_resizeRow (share h : Int) :
    ∀ cs : List (Element Int),
      unplacedList (resizeRow share h cs) = resizeRow share h (unplacedList cs)
  | [] => rfl
  | c :: cs => by
    rw [resizeRow, unplacedList, unplacedList, resizeRow, unplaced_resize, frame_unplaced,
      unplacedList_resizeRow share h cs]

theorem unplacedList_resizeStack (w share : Int) :
    ∀ cs : List (Element Int),
      unplacedList (resizeStack w share cs) = resizeStack w share (unplacedList cs)
  | [] => rfl
  | c :: cs => by
    rw [resizeStack, unplacedList, unplacedList, resizeStack, unplaced_resize, frame_unplaced,
      unplacedList_resizeStack w share cs]
end

mutual
/-- **Sizing reads no frame.** Once its corners are forgotten, a sized tree is the tree
with every frame zero, sized. -/
theorem unplaced_infer :
    ∀ e : Element Int, e.infer.unplaced = (e.mapFrames fun _ => 0).infer
  | .leaf _ _ => rfl
  | .seq _ s cs => by
    -- the children's sizes, and so the sequence's own, are those of the zero frames
    rw [mapFrames, infer_seq, infer_seq, unplaced, ← unplacedList_inferList, widths_unplacedList,
      heights_unplacedList]
    rfl
  | .choice _ cs => by
    rw [mapFrames, infer_choice, infer_choice, unplaced, ← unplacedList_inferList,
      widths_unplacedList, heights_unplacedList]
    rfl

theorem unplacedList_inferList :
    ∀ cs : List (Element Int),
      unplacedList (inferList cs) = inferList (mapFramesOfList (fun _ => 0) cs)
  | [] => rfl
  | c :: cs => by
    rw [inferList, unplacedList, unplaced_infer, unplacedList_inferList cs]
    rfl
end

/-! ## 3. The layout is read off the shape -/

mutual
theorem mapFrames_mapFrames {α β γ : Type} (g : α → β) (g' : β → γ) :
    ∀ e : Element α, (e.mapFrames g).mapFrames g' = e.mapFrames (g' ∘ g)
  | .leaf _ _ => rfl
  | .seq _ s cs => by
    rw [mapFrames, mapFrames, mapFrames, mapFramesOfList_mapFramesOfList]
    rfl
  | .choice _ cs => by
    rw [mapFrames, mapFrames, mapFrames, mapFramesOfList_mapFramesOfList]
    rfl

theorem mapFramesOfList_mapFramesOfList {α β γ : Type} (g : α → β) (g' : β → γ) :
    ∀ es : List (Element α),
      mapFramesOfList g' (mapFramesOfList g es) = mapFramesOfList (g' ∘ g) es
  | [] => rfl
  | e :: es => by
    rw [mapFramesOfList, mapFramesOfList, mapFramesOfList, mapFrames_mapFrames,
      mapFramesOfList_mapFramesOfList g g' es]
end

/-- Layout reads nothing of the frames it is given: it lays a tree out as it lays out the
tree with every frame zero. -/
theorem layout_mapFrames_zero (e : Element Int) : (e.mapFrames fun _ => 0).layout = e.layout := by
  simp only [layout]
  rw [← unplaced_infer, frame_unplaced, ← unplaced_resize, place_unplaced]

/-- **The layout is read off the shape.** A laid-out tree is the layout of its shape with
every frame zero. -/
theorem layout_of_shape (e : Element Int) : (e.shape.mapFrames fun _ => 0).layout = e.layout := by
  rw [shape, mapFrames_mapFrames]
  exact layout_mapFrames_zero e

/-- Two trees of one shape are laid out alike, whatever their frames. -/
theorem layout_eq_of_shape_eq {e e' : Element Int} (h : e.shape = e'.shape) :
    e.layout = e'.layout := by
  rw [← layout_of_shape e, h, layout_of_shape]

/-- **Laying out again changes nothing.** -/
theorem layout_layout (e : Element Int) : e.layout.layout = e.layout :=
  layout_eq_of_shape_eq (shape_layout e)

/-! ## 4. The arrows are read off the shape -/

mutual
/-- Threading reads no frame. -/
@[simp] theorem thread_mapFrames {α β : Type} (g : α → β) (F : List Nat) (n : Nat) :
    ∀ e : Element α, (e.mapFrames g).thread F n = e.thread F n
  | .leaf _ _ => rfl
  | .seq _ _ cs => threadRow_mapFramesOfList g F n cs
  | .choice _ cs => threadStack_mapFramesOfList g F n cs

@[simp] theorem threadRow_mapFramesOfList {α β : Type} (g : α → β) (F : List Nat) (n : Nat) :
    ∀ es : List (Element α), threadRow F n (mapFramesOfList g es) = threadRow F n es
  | [] => rfl
  | e :: es => by
    rw [mapFramesOfList, threadRow, threadRow, thread_mapFrames, threadRow_mapFramesOfList]

@[simp] theorem threadStack_mapFramesOfList {α β : Type} (g : α → β) (F : List Nat) (n : Nat) :
    ∀ es : List (Element α), threadStack F n (mapFramesOfList g es) = threadStack F n es
  | [] => rfl
  | e :: es => by
    rw [mapFramesOfList, threadStack, threadStack, thread_mapFrames, threadStack_mapFramesOfList]
end

/-- The arrows and the frontier of a tree are those of its shape. -/
theorem thread_shape {α : Type} (F : List Nat) (n : Nat) (e : Element α) :
    e.shape.thread F n = e.thread F n :=
  thread_mapFrames _ F n e

/-- Layout keeps what threading reads off a tree. -/
theorem thread_layout (F : List Nat) (n : Nat) (e : Element Int) :
    e.layout.thread F n = e.thread F n := by
  rw [← thread_shape, shape_layout, thread_shape]

/-- Layout keeps the arrows. -/
theorem arrowPairs_layout (e : Element Int) : e.layout.arrowPairs = e.arrowPairs :=
  congrArg Thread.arrows (thread_layout [] 0 e)

/-- Layout keeps the leaves that end a diagram. -/
theorem frontierOf_layout (e : Element Int) : e.layout.frontierOf = e.frontierOf :=
  congrArg Thread.frontier (thread_layout [] 0 e)

/-- **Layout sets every frame from the shape alone.** A laid-out tree has the shape of the
tree: the same kinds of element with the same children in the same order, and every label,
caption, tone, group label, border, id and hook kept. Its frames depend on nothing else, so
two trees that differ only in their frames are laid out alike, laying out again changes
nothing, and the arrows and the frontier read off the laid-out tree are those of the tree. -/
theorem layout_frames_from_shape (t : Element Int) :
    t.layout.shape = t.shape ∧ (∀ t' : Element Int, t'.shape = t.shape → t'.layout = t.layout) ∧
      t.layout.layout = t.layout ∧ t.layout.arrowPairs = t.arrowPairs ∧
        t.layout.frontierOf = t.frontierOf :=
  ⟨shape_layout t, fun _ h => layout_eq_of_shape_eq h, layout_layout t, arrowPairs_layout t,
    frontierOf_layout t⟩

end Element

end PatternChart
