import PatternChart.Diagram.Basic
/-!
# Laying out a diagram

Layout gives every element of a diagram its frame in three passes over whole pixels.

* `infer` sizes bottom up: a leaf is `max (70 + 7·n) 90` wide for a label of `n`
  characters and 80 tall; a choice is as wide as its widest child and as tall as its
  children together; a sequence is as wide as its children together and as tall as
  its tallest child plus half its border, rounded down.
* `resize` stretches or squeezes top down to a target size, clamped at zero. A choice
  shares the difference between the target height and its own evenly among its
  children's heights and gives each child the full width; a sequence shares the
  difference between the target width and its own width plus border among its
  children's widths and gives each child the target height less the border. A share
  is truncated toward zero.
* `place` gives positions: a choice stacks its children from its own top left corner
  down, a sequence lines them up from half its border right and down of its corner.

`layout` runs the three with the inferred size as target and the corner at `(1, 1)`,
which leaves a margin of one pixel on the canvas, two pixels larger than the root.
Only frames change: labels, hooks, borders and the tree's shape are kept.
-/

set_option autoImplicit false

namespace PatternChart

/-- The width of a leaf's slot: seven pixels per character beside seventy of margin,
and never under ninety. -/
def leafWidth (label : String) : Int := max (70 + 7 * label.length) 90

/-- The height of a leaf's slot. -/
def leafHeight : Int := 80

/-- The greatest of a list of numbers, and zero for none. -/
def greatest : List Int → Int
  | [] => 0
  | [x] => x
  | x :: y :: ys => max x (greatest (y :: ys))

/-- An even share of a surplus among `n` parts, truncated toward zero; none for no parts. -/
def evenShare (surplus : Int) (n : Nat) : Int :=
  if n = 0 then 0 else surplus.tdiv n

/-- A frame given a size written through `ofInt`, its corner kept. -/
def Frame.withSize {β : Type} (ofInt : Int → β) (f : Frame β) (size : Int × Int) : Frame β :=
  { f with width := ofInt size.1, height := ofInt size.2 }

namespace Element

/-- The widths of a list of elements. -/
def widths (es : List (Element Int)) : List Int := es.map fun e => e.frame.width

/-- The heights of a list of elements. -/
def heights (es : List (Element Int)) : List Int := es.map fun e => e.frame.height

mutual
/-- Sizes an element bottom up; positions are kept. -/
def infer : Element Int → Element Int
  | .leaf f l => .leaf { f with width := leafWidth l.label, height := leafHeight } l
  | .choice f cs =>
    let cs := inferList cs
    .choice { f with width := greatest (widths cs), height := (heights cs).sum } cs
  | .seq f s cs =>
    let cs := inferList cs
    .seq { f with width := (widths cs).sum, height := greatest (heights cs) + s.border / 2 } s cs

/-- Sizes a list of elements. -/
def inferList : List (Element Int) → List (Element Int)
  | [] => []
  | e :: es => infer e :: inferList es
end

mutual
/-- Resizes an element to a target width and height, each clamped at zero. -/
def resize (w h : Int) : Element Int → Element Int
  | .leaf f l => .leaf { f with width := max w 0, height := max h 0 } l
  | .choice f cs =>
    let share := evenShare (max h 0 - f.height) cs.length
    .choice { f with width := max w 0, height := max h 0 } (resizeStack (max w 0) share cs)
  | .seq f s cs =>
    let share := evenShare (max w 0 - f.width - s.border) cs.length
    .seq { f with width := max w 0, height := max h 0 } s (resizeRow share (max h 0 - s.border) cs)

/-- Resizes the children of a choice: the full width, and each its own height plus a share. -/
def resizeStack (w share : Int) : List (Element Int) → List (Element Int)
  | [] => []
  | c :: cs => resize w (c.frame.height + share) c :: resizeStack w share cs

/-- Resizes the children of a sequence: each its own width plus a share, and one height. -/
def resizeRow (share h : Int) : List (Element Int) → List (Element Int)
  | [] => []
  | c :: cs => resize (c.frame.width + share) h c :: resizeRow share h cs
end

mutual
/-- Places an element with its top left corner at `(x, y)`; sizes are kept. -/
def place (x y : Int) : Element Int → Element Int
  | .leaf f l => .leaf { f with x, y } l
  | .choice f cs => .choice { f with x, y } (placeDown x y cs)
  | .seq f s cs => .seq { f with x, y } s (placeAcross (x + s.border / 2) (y + s.border / 2) cs)

/-- Stacks elements downward from `(x, y)`. -/
def placeDown (x y : Int) : List (Element Int) → List (Element Int)
  | [] => []
  | c :: cs => place x y c :: placeDown x (y + c.frame.height) cs

/-- Lines elements up rightward from `(x, y)`. -/
def placeAcross (x y : Int) : List (Element Int) → List (Element Int)
  | [] => []
  | c :: cs => place x y c :: placeAcross (x + c.frame.width) y cs
end

/-! ## Sizes from shape alone

The size `infer` gives an element depends on its labels, borders and shape, never on
the frames it comes with, so it can be read off any element and written in any kind
of number that whole numbers embed in. -/

mutual
/-- The size `infer` gives an element, as a width and a height. -/
def naturalSize {β : Type} : Element β → Int × Int
  | .leaf _ l => (leafWidth l.label, leafHeight)
  | .choice _ cs =>
    let sizes := naturalSizes cs
    (greatest (sizes.map Prod.fst), (sizes.map Prod.snd).sum)
  | .seq _ s cs =>
    let sizes := naturalSizes cs
    ((sizes.map Prod.fst).sum, greatest (sizes.map Prod.snd) + s.border / 2)

/-- The sizes `infer` gives a list of elements. -/
def naturalSizes {β : Type} : List (Element β) → List (Int × Int)
  | [] => []
  | e :: es => naturalSize e :: naturalSizes es
end

mutual
/-- Sizes an element bottom up, writing each size through `ofInt`; positions are kept. -/
def inferWith {β : Type} (ofInt : Int → β) : Element β → Element β
  | .leaf f l => .leaf (f.withSize ofInt (leafWidth l.label, leafHeight)) l
  | e@(.choice f cs) => .choice (f.withSize ofInt e.naturalSize) (inferListWith ofInt cs)
  | e@(.seq f s cs) => .seq (f.withSize ofInt e.naturalSize) s (inferListWith ofInt cs)

/-- Sizes a list of elements, writing each size through `ofInt`. -/
def inferListWith {β : Type} (ofInt : Int → β) : List (Element β) → List (Element β)
  | [] => []
  | e :: es => inferWith ofInt e :: inferListWith ofInt es
end

/-! ## What each pass does to an element's own frame -/

/-- Inference sets a leaf's size from its label alone. -/
@[simp] theorem frame_infer_leaf (f : Frame Int) (l : Leaf) :
    (Element.leaf f l).infer.frame =
      { f with width := leafWidth l.label, height := leafHeight } := rfl

/-- Resizing gives an element exactly the clamped target size and keeps its corner. -/
@[simp] theorem frame_resize (w h : Int) (e : Element Int) :
    (e.resize w h).frame = { e.frame with width := max w 0, height := max h 0 } := by
  cases e <;> rfl

/-- Placing puts an element's corner at the given point and keeps its size. -/
@[simp] theorem frame_place (x y : Int) (e : Element Int) :
    (e.place x y).frame = { e.frame with x, y } := by
  cases e <;> rfl

/-- The margin around a laid-out diagram. -/
def margin : Int := 1

/-- Sizes, fits and places a diagram, its root at the margin. -/
def layout (e : Element Int) : Element Int :=
  let sized := e.infer
  (sized.resize sized.frame.width sized.frame.height).place margin margin

/-- The canvas a laid-out diagram needs: the root's size and the margin on each side. -/
def canvas (e : Element Int) : Int × Int :=
  (e.frame.width + 2 * margin, e.frame.height + 2 * margin)

end Element

end PatternChart
