import PatternChart.Node.Read
import PatternChart.Diagram.Layout
import PatternChart.Number.Division
/-!
# Laying out a diagram as handed over

A caller may hand the layout passes a diagram whose frames hold floats as well as
whole numbers, and whose children need not all be elements. The passes here work on
such a node tree directly, with the arithmetic of measures, so that the first fault
met in the order of the work is the one reported: a node that is no element, a child
without the size its container asks it for, or a whole number too large to meet a
float.

* `Node.infer?` reads the tree, then sizes it; sizes are whole numbers, so only the
  reading can fail, and positions stay as given.
* `Node.resize?` does what `Element.resize` does with measures: a target below zero
  becomes zero, a choice asks each child for its height and a sequence for its width
  before it resizes the child, and a share is truncated toward zero.
* `Node.place?` does what `Element.place` does with measures. A container moves its
  cursor past every child, the last one too, so a cursor that cannot move past the
  last child still fails.
* `Node.layout?` reads the tree and lays it out in whole pixels: every frame is set
  anew, so the frames it comes with play no part.
-/

set_option autoImplicit false

namespace PatternChart

namespace Node

/-- The frame of a diagram element, or `none` for any other node. -/
def frame? : Node → Option (Frame Measure)
  | .leaf f _ | .seq f _ _ | .choice f _ => some f
  | _ => none

/-- One number of a child's frame, which a container asks for under `field`; a node
without a frame lacks it. -/
def sizeField (n : Node) (field : String) (get : Frame Measure → Measure) :
    Except DiagramError Measure :=
  match n.frame? with
  | some f => pure (get f)
  | none => throw (.missingField n field)

/-- Arithmetic on measures, its fault made a diagram error. -/
def measured {γ : Type} (r : Except NumberFault γ) : Except DiagramError γ :=
  r.mapError .number

/-- Reads a diagram and sizes it bottom up; positions stay as given. -/
def infer? (n : Node) : Except DiagramError (Element Measure) :=
  (Element.inferWith Measure.whole) <$> n.readElement

mutual
/-- Resizes a diagram to a target width and height, each first lifted to zero when it
is below zero. -/
def resize? (w h : Measure) : Node → Except DiagramError (Element Measure)
  | .leaf f l => pure (.leaf { f with width := w.clampAtZero, height := h.clampAtZero } l)
  | .choice f cs => do
    let w := w.clampAtZero
    let h := h.clampAtZero
    let share := (← measured (h.sub? f.height)).evenShare cs.length
    pure (.choice { f with width := w, height := h } (← resizeStack? w share cs))
  | .seq f s cs => do
    let w := w.clampAtZero
    let h := h.clampAtZero
    let surplus ← measured ((w.sub? f.width) >>= fun d => d.sub? (.whole s.border))
    let share := surplus.evenShare cs.length
    let childHeight ← measured (h.sub? (.whole s.border))
    pure (.seq { f with width := w, height := h } s (← resizeRow? share childHeight cs))
  | n => throw (.unsupported .visual n)

/-- Resizes the children of a choice: the full width, and each its own height plus a share. -/
def resizeStack? (w share : Measure) : List Node → Except DiagramError (List (Element Measure))
  | [] => pure []
  | c :: cs => do
    let height ← c.sizeField "height" Frame.height
    let e ← resize? w (← measured (height.add? share)) c
    pure (e :: (← resizeStack? w share cs))

/-- Resizes the children of a sequence: each its own width plus a share, and one height. -/
def resizeRow? (share h : Measure) : List Node → Except DiagramError (List (Element Measure))
  | [] => pure []
  | c :: cs => do
    let width ← c.sizeField "width" Frame.width
    let e ← resize? (← measured (width.add? share)) h c
    pure (e :: (← resizeRow? share h cs))
end

mutual
/-- Places a diagram with its top left corner at `(x, y)`; sizes are kept. -/
def place? (x y : Measure) : Node → Except DiagramError (Element Measure)
  | .leaf f l => pure (.leaf { f with x, y } l)
  | .choice f cs => do pure (.choice { f with x, y } (← placeDown? x y cs))
  | .seq f s cs => do
    let half : Measure := .whole (s.border / 2)
    let start ← measured (x.add? half)
    pure (.seq { f with x, y } s (← placeAcross? start y half cs))
  | n => throw (.unsupported .visual n)

/-- Stacks diagrams downward from `(x, y)`, moving down past each. -/
def placeDown? (x y : Measure) : List Node → Except DiagramError (List (Element Measure))
  | [] => pure []
  | c :: cs => do
    let e ← place? x y c
    let below ← measured (y.add? e.frame.height)
    pure (e :: (← placeDown? x below cs))

/-- Lines diagrams up rightward from `x`, each `half` below `y`, moving right past each. -/
def placeAcross? (x y half : Measure) : List Node → Except DiagramError (List (Element Measure))
  | [] => pure []
  | c :: cs => do
    let top ← measured (y.add? half)
    let e ← place? x top c
    let right ← measured (x.add? e.frame.width)
    pure (e :: (← placeAcross? right y half cs))
end

/-- A diagram resized without a fault has the lifted target size. -/
theorem frame_resize? {w h : Measure} {n : Node} {e : Element Measure}
    (ok : n.resize? w h = .ok e) : e.frame.width = w.clampAtZero ∧ e.frame.height = h.clampAtZero := by
  cases n <;> simp only [resize?, bind, Except.bind, pure, Except.pure] at ok
  all_goals repeat' (split at ok)
  all_goals cases ok
  all_goals exact ⟨rfl, rfl⟩

/-- A diagram placed without a fault has its corner at the given point. -/
theorem frame_place? {x y : Measure} {n : Node} {e : Element Measure}
    (ok : n.place? x y = .ok e) : e.frame.x = x ∧ e.frame.y = y := by
  cases n <;> simp only [place?, bind, Except.bind, pure, Except.pure] at ok
  all_goals repeat' (split at ok)
  all_goals cases ok
  all_goals exact ⟨rfl, rfl⟩

/-- Reads a diagram and lays it out in whole pixels, its root at the margin. -/
def layout? (n : Node) : Except DiagramError (Element Int) :=
  (fun e => (e.mapFrames fun _ => (0 : Int)).layout) <$> n.readElement

end Node

end PatternChart
