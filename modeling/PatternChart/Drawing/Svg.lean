import PatternChart.Drawing.Shapes
import PatternChart.Xml.Basic
/-!
# SVG documents

A drawing as an SVG document. The root carries the namespace and the canvas size, and
holds, in this order: a title when there is a non-empty one; every box, as a `rect`,
wrapped in a `g` element carrying its node id and its script hooks when it has a node
id; every label, as a `text`; and for each arrow its head, a filled triangle, and
then its curve.
-/

set_option autoImplicit false

namespace PatternChart

variable {β : Type} [Coordinate β]

/-- The namespace of SVG elements. -/
def svgNamespace : String := "http://www.w3.org/2000/svg"

/-- The colour of arrows and text. -/
def ink : String := "#000000"

/-- A point as written in a path: its two numbers after one another. -/
def Point.text (p : Point β) : String := Coordinate.text p.x ++ " " ++ Coordinate.text p.y

/-- The `rect` of a box. -/
def Box.rect (b : Box β) : Xml.Element :=
  .mk "rect" [("x", Coordinate.text b.x), ("y", Coordinate.text b.y),
    ("width", Coordinate.text b.width), ("height", Coordinate.text b.height),
    ("rx", toString b.radius), ("ry", toString b.radius), ("fill", "none"), ("stroke", b.stroke),
    ("stroke-width", toString b.strokeWidth), ("pointer-events", "all")] "" []

/-- The script of a hook, when it has one. -/
def Hook.script? : Option Hook → Option String
  | some (.script s) => some s
  | _ => none

/-- A box as it stands in the document: its `rect`, grouped with its id and script
hooks when it has a node id. -/
def Box.toXml (b : Box β) : Xml.Element :=
  match b.nodeId with
  | none => b.rect
  | some id =>
    let hover :=
      (match Hook.script? b.onEnter with | some s => [("onmouseenter", s)] | none => []) ++
      (match Hook.script? b.onLeave with | some s => [("onmouseleave", s)] | none => [])
    .mk "g" ([("class", "regex-node"), ("data-node-id", toString id)] ++ hover) "" [b.rect]

/-- The `text` of a label. -/
def Label.toXml (l : Label β) : Xml.Element :=
  .mk "text" [("x", Coordinate.text l.x), ("y", Coordinate.text l.y), ("font-family", "sans-serif"),
    ("font-size", toString l.fontSize ++ "px"), ("text-anchor", l.anchor.name),
    ("dominant-baseline", "central"), ("fill", ink), ("pointer-events", "none")] l.text []

/-- The two paths of an arrow: its head, then its curve. -/
def Arrow.toXml (a : Arrow β) : List Xml.Element :=
  let (first, tip, last) := a.head
  [.mk "path" [("d", "M " ++ first.text ++ " L " ++ tip.text ++ " L " ++ last.text ++ " Z"),
      ("fill", ink), ("stroke", ink), ("stroke-width", "1")] "" [],
    .mk "path" [("d", "M " ++ a.start.text ++ " C " ++ a.control1.text ++ " " ++ a.control2.text ++
        " " ++ a.finish.text), ("fill", "none"), ("stroke", ink), ("stroke-width", "2")] "" []]

/-- The SVG document of a drawing on a canvas of the given size. -/
def Shapes.toSvg (s : Shapes β) (width height : β) (title : Option String) : Xml.Element :=
  let titleElement : List Xml.Element := match title with
    | some t => if t = "" then [] else [.mk "title" [] t []]
    | none => []
  .mk "svg" [("xmlns", svgNamespace), ("width", Coordinate.text width),
      ("height", Coordinate.text height),
      ("viewBox", "0 0 " ++ Coordinate.text width ++ " " ++ Coordinate.text height)] ""
    (titleElement ++ s.boxes.map Box.toXml ++ s.labels.map Label.toXml ++
      (s.arrows.map Arrow.toXml).flatten)

/-! ## The numbers a document writes -/

/-- The numbers of a box, in the order its `rect` writes them. -/
def Box.numbers (b : Box β) : List β := [b.x, b.y, b.width, b.height]

/-- The numbers of a label, in the order its `text` writes them. -/
def Label.numbers (l : Label β) : List β := [l.x, l.y]

/-- The numbers of an arrow, in the order its two paths write them. -/
def Arrow.numbers (a : Arrow β) : List β :=
  let (first, tip, last) := a.head
  [first.x, first.y, tip.x, tip.y, last.x, last.y, a.start.x, a.start.y, a.control1.x,
    a.control1.y, a.control2.x, a.control2.y, a.finish.x, a.finish.y]

/-- Every number the document of a drawing writes, in document order: the canvas size,
then the boxes, the labels and the arrows. -/
def Shapes.writtenNumbers (s : Shapes β) (width height : β) : List β :=
  [width, height] ++ s.boxes.flatMap Box.numbers ++ s.labels.flatMap Label.numbers ++
    s.arrows.flatMap Arrow.numbers

end PatternChart
