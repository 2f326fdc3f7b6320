import PatternChart.Node.Read
import PatternChart.Diagram.Build
import PatternChart.Diagram.Layout
import PatternChart.Diagram.Arrows
import PatternChart.Drawing.Svg
/-!
# Rendering a regex

The whole way from a node tree to a drawing: read the tree as a regex for a diagram,
build the diagram, lay it out, thread its arrows, and draw it, with the tree's pattern
text, read on its own, as the document's title. A rendering keeps every stage that a caller may
want to look at: the laid-out tree, the arrows as leaf indices, the shapes and the
canvas, and the SVG text.

A bitmap of a rendering is scaled: its size is the canvas size times the scale, rounded
to the nearest integer (a half to the even one) and at least one pixel. A scale that
is not positive is refused, after the regex has been read and drawn; so is a size
that has no nearest integer, and one that the bitmap library, a parameter here, refuses.

A diagram handed over with its own geometry is drawn with the caller's numbers, and
the drawing stops at the first arithmetic fault or unwritable number.
-/

set_option autoImplicit false

namespace PatternChart

open Coordinate

/-- What rendering a regex gives. -/
structure Rendering where
  /-- The laid-out diagram. -/
  tree : Element Int
  /-- The arrows, as pairs of pre-order leaf indices. -/
  pairs : List (Nat × Nat)
  /-- The drawing, in sixths of a pixel. -/
  shapes : Shapes Sixths
  /-- The canvas width and height. -/
  canvas : Int × Int
  /-- The SVG text of the drawing. -/
  svg : String

/-- The laid-out diagram of a regex drawn exactly, in sixths of a pixel. -/
def Element.drawn (tree : Element Int) : Element Sixths := tree.mapFrames ofInt

/-- The leaves at both ends of each arrow, for pairs whose indices are in range. -/
def Element.arrowEnds {β : Type} [Coordinate β] (e : Element β) (pairs : List (Int × Int)) :
    Option (List ((Frame β × Leaf) × (Frame β × Leaf))) :=
  pairs.mapM fun (a, b) => do pure ((← e.leafAt? a), (← e.leafAt? b))

/-- Renders a regex with the given hooks under the given title. -/
def Regex.renderTitled (hooks : Hooks) (title : String) (r : Regex) : Rendering :=
  let tree := (r.build hooks).layout
  let pairs := tree.arrowPairs
  let drawn := tree.drawn
  let ends := (drawn.arrowEnds (pairs.map fun (a, b) => ((a : Int), (b : Int)))).getD []
  let shapes := drawn.shapes ends
  let canvas := tree.canvas
  let svg := (shapes.toSvg (ofInt canvas.1) (ofInt canvas.2) (some title)).toText
  { tree, pairs, shapes, canvas, svg }

/-- Renders a regex with the given hooks under its own pattern text. -/
def Regex.render (hooks : Hooks) (r : Regex) : Rendering := r.renderTitled hooks r.text

namespace Node

/-- The unsized diagram of a node tree, or the first reason it has none. -/
def diagram (hooks : Hooks) (n : Node) : Except DiagramError (Element Int) :=
  (readRegex .diagram n).map (Regex.build hooks)

/-- The caption a quantifier slot gives an atom. -/
def caption (q : Node) (greedy : Bool) : Except DiagramError String :=
  (readQuantifier q).map fun q => Quantifier.caption q greedy

/-- Renders a node tree as a regex, or gives the first reason it cannot be. The tree is
read for a diagram and drawn; its pattern text, read on its own, is the title. -/
def render (hooks : Hooks) (n : Node) : Except DiagramError Rendering := do
  let r ← readRegex .diagram n
  let title ← patternText n
  pure (r.renderTitled hooks title)

/-- One side of a bitmap: a canvas side times the scale, rounded to the nearest integer
(a half to the even one), and at least one pixel. -/
def scaledSide (side : Int) (scale : Measure) : Except DiagramError Int := do
  let product ← ((Measure.whole side).mul? scale).mapError .number
  let rounded ← product.round?.mapError .number
  pure (max 1 rounded)

/-- The size of a bitmap of the node tree's rendering at a scale, made by a bitmap library
whose check `newImage` gives the reason it refuses a width and height, if it does. -/
def bitmapSize (newImage : Int → Int → Option BitmapFault) (n : Node) (scale : Measure) :
    Except DiagramError (Int × Int) := do
  let r ← n.render Hooks.none
  if scale.isNonPositive then throw (.badScale scale)
  let w ← scaledSide r.canvas.1 scale
  let h ← scaledSide r.canvas.2 scale
  match newImage w h with
  | some f => throw (.bitmap f)
  | none => pure (w, h)

/-! ## Drawing a diagram as given -/

mutual
/-- The leaves met walking through the elements of a node tree in pre-order, passing
over anything that is not an element. -/
def leafFrames : Node → List (Frame Measure × Leaf)
  | .leaf f l => [(f, l)]
  | .seq _ _ cs => leafFramesOfList cs
  | .choice _ cs => leafFramesOfList cs
  | _ => []

/-- The leaves of a list of node trees, one after another. -/
def leafFramesOfList : List Node → List (Frame Measure × Leaf)
  | [] => []
  | n :: ns => leafFrames n ++ leafFramesOfList ns
end

/-- The leaves at both ends of each arrow, an index below zero counting back from the
last leaf, or `none` when an index is out of range. -/
def arrowEnds? (n : Node) (pairs : List (Int × Int)) :
    Option (List ((Frame Measure × Leaf) × (Frame Measure × Leaf))) :=
  let ls := n.leafFrames
  pairs.mapM fun (a, b) => do pure ((← listAt? ls a), (← listAt? ls b))

/-- The first fault among computed numbers. -/
def firstFault (xs : List Checked) : Option DiagramError :=
  (xs.findSome? Checked.fault?).map .number

/-- A frame of given numbers as computed values. -/
def checkedFrame (f : Frame Measure) : Frame Checked := f.map .ok

mutual
/-- The first reason drawing a node tree stops, in pre-order: a node that is not an
element, or a fault in the arithmetic of an element's own box and labels. -/
def drawingFault? : Node → Option DiagramError
  | .leaf f l =>
    firstFault ((leafBox (checkedFrame f) l).numbers ++
      (leafLabels (checkedFrame f) l).flatMap Label.numbers)
  | .seq f s cs =>
    (firstFault ((groupBox? (checkedFrame f) s).toList.flatMap Box.numbers ++
      (groupLabels (checkedFrame f) s).flatMap Label.numbers)).orElse fun _ =>
      drawingFaultOfList cs
  | .choice _ cs => drawingFaultOfList cs
  | n => some (.unsupported .visual n)

/-- The first reason drawing stops in a list of node trees. -/
def drawingFaultOfList : List Node → Option DiagramError
  | [] => none
  | n :: ns => (drawingFault? n).orElse fun _ => drawingFaultOfList ns
end

/-- The SVG text of a diagram drawn with its own geometry, with arrows between the given
leaves, on a canvas of the given size. Drawing stops at the first node that is not an
element or the first arithmetic fault, in pre-order, and then at the first number the
document cannot write, in document order. -/
def markup (n : Node) (ends : List ((Frame Measure × Leaf) × (Frame Measure × Leaf)))
    (width height : Measure) (title : Option String) : Except DiagramError String := do
  if let some e := n.drawingFault? then throw e
  let tree ← n.readElement
  let drawn : Element Checked := tree.mapFrames .ok
  let ends := ends.map fun ((f, l), (g, k)) => ((checkedFrame f, l), (checkedFrame g, k))
  let shapes := drawn.shapes ends
  if let some e := firstFault (shapes.arrows.flatMap Arrow.numbers) then throw e
  let w : Checked := .ok width
  let h : Checked := .ok height
  match (shapes.writtenNumbers w h).findSome? Checked.writeFault? with
  | some f => throw (.number f)
  | none => pure (shapes.toSvg w h title).toText

end Node

end PatternChart
