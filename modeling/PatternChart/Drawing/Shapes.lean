import PatternChart.Drawing.Coordinate
import PatternChart.Diagram.Basic
/-!
# The shapes of a drawing

A laid-out diagram is drawn as boxes, text labels and arrows.

* A leaf is a rounded box `max (10 + 7·n) 30` wide and 30 tall for a label of `n`
  characters, centred in the leaf's slot and stroked in its tone's ink, with the label
  at the centre and its caption, if any, 6 pixels above the box.
* A sequence with a positive border is a group box over its whole frame, with its
  group label, if any, at its top left and its caption, if any, at its top right.
* An arrow is a curve from the right end of one leaf's box to the left end of
  another's, leaving and arriving level, with its handles a third of the way from each
  end, and a head at its end.

Boxes and labels come in the pre-order of the elements they belong to; a box keeps the
id and hooks of its element, which is what hover bindings are read from.
-/

set_option autoImplicit false

namespace PatternChart

/-- A point of the drawing. -/
structure Point (β : Type) where
  x : β
  y : β
  deriving DecidableEq, Repr

/-- Which point of a label its position gives. -/
inductive TextAnchor where
  | start
  | middle
  | finish
  deriving DecidableEq, Repr

/-- The anchor's name in a drawing. -/
def TextAnchor.name : TextAnchor → String
  | .start => "start"
  | .middle => "middle"
  | .finish => "end"

/-- A rounded rectangle, with the id and hooks of the element it draws. -/
structure Box (β : Type) where
  x : β
  y : β
  width : β
  height : β
  radius : Nat
  stroke : String
  strokeWidth : Nat
  nodeId : Option Int
  onEnter : Option Hook
  onLeave : Option Hook

/-- A line of text. -/
structure Label (β : Type) where
  x : β
  y : β
  text : String
  fontSize : Nat
  anchor : TextAnchor

/-- A cubic curve from `start` to `finish` with two handles. -/
structure Arrow (β : Type) where
  start : Point β
  control1 : Point β
  control2 : Point β
  finish : Point β

/-- Everything a drawing holds, in drawing order within each kind. -/
structure Shapes (β : Type) where
  boxes : List (Box β)
  labels : List (Label β)
  arrows : List (Arrow β)

/-! ## Leaves -/

/-- The width of the box drawn for a label: seven pixels per character beside ten of
margin, and never under thirty. -/
def boxWidth (label : String) : Int := max (10 + 7 * label.length) 30

/-- The height of a leaf's box. -/
def boxHeight : Int := 30

variable {β : Type} [Coordinate β]

open Coordinate

/-- The centre of a slot. -/
def Frame.center (f : Frame β) : Point β :=
  ⟨f.x + half f.width, f.y + half f.height⟩

/-- Where an arrow arrives at a leaf: the middle of its box's left side. -/
def leafLeft (f : Frame β) (l : Leaf) : Point β :=
  let c := f.center
  ⟨c.x - half (ofInt (boxWidth l.label)), c.y⟩

/-- Where an arrow leaves a leaf: the middle of its box's right side. -/
def leafRight (f : Frame β) (l : Leaf) : Point β :=
  let c := f.center
  ⟨c.x + half (ofInt (boxWidth l.label)), c.y⟩

/-- The box of a leaf. -/
def leafBox (f : Frame β) (l : Leaf) : Box β :=
  let c := f.center
  let w := boxWidth l.label
  { x := c.x - half (ofInt w), y := c.y - half (ofInt boxHeight), width := ofInt w,
    height := ofInt boxHeight, radius := 20, stroke := l.tone.stroke, strokeWidth := 1,
    nodeId := l.nodeId, onEnter := l.onEnter, onLeave := l.onLeave }

/-- The label of a leaf, and its caption above the box when it has one. -/
def leafLabels (f : Frame β) (l : Leaf) : List (Label β) :=
  let c := f.center
  let main : Label β := ⟨c.x, c.y, l.label, 15, .middle⟩
  if l.caption = "" then [main]
  else [main, ⟨c.x, c.y - half (ofInt boxHeight) - ofInt 6, l.caption, 10, .middle⟩]

/-! ## Group boxes -/

/-- The stroke colour of group boxes. -/
def groupStroke : String := "#3b7dd8"

/-- The box of a sequence with a positive border. -/
def groupBox? (f : Frame β) (s : Sequence) : Option (Box β) :=
  if 0 < s.border then
    some
      { x := f.x, y := f.y, width := f.width, height := f.height, radius := 5,
        stroke := groupStroke, strokeWidth := 1, nodeId := s.nodeId, onEnter := s.onEnter,
        onLeave := s.onLeave }
  else none

/-- The labels of a group box: its group label at the top left and its caption at the
top right, each only when present and non-empty. -/
def groupLabels (f : Frame β) (s : Sequence) : List (Label β) :=
  if 0 < s.border then
    let y := f.y + ofInt 10
    let lead : List (Label β) := match s.groupLabel with
      | some t => if t = "" then [] else [⟨f.x + ofInt 5, y, t, 12, .start⟩]
      | none => []
    let trail : List (Label β) :=
      if s.caption = "" then [] else [⟨f.x + f.width - ofInt 5, y, s.caption, 10, .finish⟩]
    lead ++ trail
  else []

/-! ## Collecting -/

namespace Element

mutual
/-- The boxes of an element in pre-order. -/
def boxes : Element β → List (Box β)
  | .leaf f l => [leafBox f l]
  | .seq f s cs => (groupBox? f s).toList ++ boxesOfList cs
  | .choice _ cs => boxesOfList cs

/-- The boxes of a list of elements. -/
def boxesOfList : List (Element β) → List (Box β)
  | [] => []
  | e :: es => boxes e ++ boxesOfList es
end

mutual
/-- The labels of an element in pre-order. -/
def labels : Element β → List (Label β)
  | .leaf f l => leafLabels f l
  | .seq f s cs => groupLabels f s ++ labelsOfList cs
  | .choice _ cs => labelsOfList cs

/-- The labels of a list of elements. -/
def labelsOfList : List (Element β) → List (Label β)
  | [] => []
  | e :: es => labels e ++ labelsOfList es
end

end Element

/-! ## Arrows -/

/-- The arrow from one leaf to another. -/
def connector (source target : Frame β × Leaf) : Arrow β :=
  let start := leafRight source.1 source.2
  let finish := leafLeft target.1 target.2
  let dx := finish.x - start.x
  { start, control1 := ⟨start.x + twoThirds dx, start.y⟩,
    control2 := ⟨finish.x - twoThirds dx, finish.y⟩, finish }

/-- The three corners of an arrow's head: six pixels back from the tip and four to
either side, then the tip. -/
def Arrow.head (a : Arrow β) : Point β × Point β × Point β :=
  (⟨a.finish.x - ofInt 6, a.finish.y - ofInt 4⟩, a.finish,
    ⟨a.finish.x - ofInt 6, a.finish.y + ofInt 4⟩)

/-- The member of a list at an index, an index below zero counting back from the end. -/
def listAt? {γ : Type} (xs : List γ) (i : Int) : Option γ :=
  if 0 ≤ i then xs[i.toNat]? else if xs.length + i < 0 then none else xs[(xs.length + i).toNat]?

/-- The leaf at a pre-order index, an index below zero counting back from the last leaf. -/
def Element.leafAt? (e : Element β) (i : Int) : Option (Frame β × Leaf) :=
  listAt? e.framedLeaves i

/-- The shapes of an element with arrows between the given pairs of leaves. -/
def Element.shapes (e : Element β) (pairs : List ((Frame β × Leaf) × (Frame β × Leaf))) :
    Shapes β :=
  { boxes := e.boxes, labels := e.labels, arrows := pairs.map fun (a, b) => connector a b }

/-- The hover bindings of a drawing: for each node id that some box carries, in the
order the ids first appear, the hooks of the last box that carries it. -/
def Shapes.bindings (s : Shapes β) : List (Int × Option Hook × Option Hook) :=
  s.boxes.foldl bind []
where
  /-- Adds one box's binding: in place when its id is bound already, else at the end. -/
  bind (acc : List (Int × Option Hook × Option Hook)) (b : Box β) :
      List (Int × Option Hook × Option Hook) :=
    match b.nodeId with
    | none => acc
    | some id =>
      if acc.any (·.1 == id) then
        acc.map fun p => if p.1 == id then (id, b.onEnter, b.onLeave) else p
      else acc ++ [(id, b.onEnter, b.onLeave)]

end PatternChart
