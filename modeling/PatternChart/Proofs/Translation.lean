import PatternChart.Proofs.Sharing
import PatternChart.Node.Layout
/-!
# Placing from a moved corner

Placing reads sizes and borders and writes corners, each corner an offset from the one it
starts from: a choice stacks its parts down from its own corner, and a sequence lines them
up from half its border in. No offset depends on where the start is, so placing from a
corner moved by `(dx, dy)` moves every corner of the result by `(dx, dy)` and changes
nothing else (`Element.place_moves_with_corner`), whatever the sizes, whatever the sign of
the borders, and with empty containers too.

The cursor of a row or a stack is where the induction happens: the statement is proved for
`placeAcross` and `placeDown` from every cursor at once, which is what lets the step past
one part go on from the next cursor.

A caller hands a tree over as nodes, with measures for numbers, and `Node.place?` places it
with the arithmetic of measures. On a tree of whole numbers that arithmetic is exact and
never fails, so placing the tree as handed over is placing it in whole pixels
(`Element.place?_toNode`), and what is said here of `Element.place` holds of it.
-/

set_option autoImplicit false

namespace PatternChart

/-- A frame moved by `(dx, dy)`: its corner moves and its size stays. -/
def Frame.translate (dx dy : Int) (f : Frame Int) : Frame Int :=
  { f with x := f.x + dx, y := f.y + dy }

namespace Element

mutual
/-- The tree moved by `(dx, dy)`: every corner in it moves, and nothing else changes. -/
def translate (dx dy : Int) : Element Int → Element Int
  | .leaf f l => .leaf (f.translate dx dy) l
  | .seq f s cs => .seq (f.translate dx dy) s (translateList dx dy cs)
  | .choice f cs => .choice (f.translate dx dy) (translateList dx dy cs)

/-- Trees moved by `(dx, dy)`. -/
def translateList (dx dy : Int) : List (Element Int) → List (Element Int)
  | [] => []
  | e :: es => translate dx dy e :: translateList dx dy es
end

variable (dx dy : Int)

@[simp] theorem frame_translate (e : Element Int) :
    (e.translate dx dy).frame = e.frame.translate dx dy := by
  cases e <;> rfl

mutual
/-- Moving a tree changes frames only. -/
@[simp] theorem shape_translate : ∀ e : Element Int, (e.translate dx dy).shape = e.shape
  | .leaf _ _ => rfl
  | .seq _ s cs => congrArg (Element.seq blank s) (shapeOfList_translateList cs)
  | .choice _ cs => congrArg (Element.choice blank) (shapeOfList_translateList cs)

@[simp] theorem shapeOfList_translateList :
    ∀ cs : List (Element Int), shapeOfList (translateList dx dy cs) = shapeOfList cs
  | [] => rfl
  | c :: cs => by
    rw [translateList, shapeOfList_cons, shapeOfList_cons, shape_translate c,
      shapeOfList_translateList cs]
end

mutual
/-- The elements of a moved tree are its elements, each moved. -/
theorem subtrees_translate :
    ∀ e : Element Int, (e.translate dx dy).subtrees = e.subtrees.map (translate dx dy)
  | .leaf _ _ => rfl
  | .seq _ _ cs => by
    rw [translate, subtrees, subtrees, subtreesOfList_translateList cs]
    rfl
  | .choice _ cs => by
    rw [translate, subtrees, subtrees, subtreesOfList_translateList cs]
    rfl

theorem subtreesOfList_translateList :
    ∀ cs : List (Element Int),
      subtreesOfList (translateList dx dy cs) = (subtreesOfList cs).map (translate dx dy)
  | [] => rfl
  | c :: cs => by
    rw [translateList, subtreesOfList, subtreesOfList, List.map_append, subtrees_translate c,
      subtreesOfList_translateList cs]
end

/-- The frames of a moved tree, in pre-order, are its frames, each moved. -/
theorem frames_translate (e : Element Int) :
    (e.translate dx dy).subtrees.map frame = e.subtrees.map fun u => u.frame.translate dx dy := by
  rw [subtrees_translate, List.map_map]
  exact List.map_congr_left fun u _ => frame_translate dx dy u

/-! ## Placing commutes with moving -/

mutual
/-- Placing from a moved corner places, then moves. -/
theorem place_add (x y : Int) :
    ∀ e : Element Int, e.place (x + dx) (y + dy) = (e.place x y).translate dx dy
  | .leaf _ _ => rfl
  | .seq _ s cs => by
    -- the parts start half the border in, from either corner
    rw [place, place, Int.add_right_comm x, Int.add_right_comm y, placeAcross_add]
    rfl
  | .choice _ cs => by
    rw [place, place, placeDown_add]
    rfl

/-- Lining parts up from a moved cursor lines them up, then moves them. -/
theorem placeAcross_add (x y : Int) :
    ∀ cs : List (Element Int),
      placeAcross (x + dx) (y + dy) cs = translateList dx dy (placeAcross x y cs)
  | [] => rfl
  | c :: cs => by
    -- the cursor past `c` is moved as much as the cursor before it
    rw [placeAcross, placeAcross, Int.add_right_comm x, place_add x y c,
      placeAcross_add (x + c.frame.width) y cs]
    rfl

/-- Stacking parts from a moved cursor stacks them, then moves them. -/
theorem placeDown_add (x y : Int) :
    ∀ cs : List (Element Int),
      placeDown (x + dx) (y + dy) cs = translateList dx dy (placeDown x y cs)
  | [] => rfl
  | c :: cs => by
    rw [placeDown, placeDown, Int.add_right_comm y, place_add x y c,
      placeDown_add x (y + c.frame.height) cs]
    rfl
end

/-- **Placing from a moved corner moves every corner and nothing else.** For every tree (any
sizes, borders of any sign, empty containers included) and all `x`, `y`, `dx`, `dy`: placing
at `(x + dx, y + dy)` gives the tree placed at `(x, y)` moved by `(dx, dy)`. That is, the two
have the same shape, so every label, caption, hook, border and child is the same, and their
frames in pre-order differ by `dx` in `x` and `dy` in `y`, sizes kept. -/
theorem place_moves_with_corner (x y : Int) (e : Element Int) :
    e.place (x + dx) (y + dy) = (e.place x y).translate dx dy ∧
      (e.place (x + dx) (y + dy)).shape = (e.place x y).shape ∧
      (e.place (x + dx) (y + dy)).subtrees.map frame =
        (e.place x y).subtrees.map fun u => u.frame.translate dx dy := by
  have hmoved := place_add dx dy x y e
  refine ⟨hmoved, ?_, ?_⟩
  · rw [hmoved, shape_translate]
  · rw [hmoved, frames_translate]

/-! ## Placing a tree as handed over -/

mutual
/-- The node tree of a diagram in whole pixels, as a caller hands it over. -/
def toNode : Element Int → Node
  | .leaf f l => .leaf (f.map .whole) l
  | .seq f s cs => .seq (f.map .whole) s (toNodeList cs)
  | .choice f cs => .choice (f.map .whole) (toNodeList cs)

/-- The node trees of diagrams in whole pixels. -/
def toNodeList : List (Element Int) → List Node
  | [] => []
  | e :: es => toNode e :: toNodeList es
end

@[simp] theorem frame_mapFrames {α β : Type} (g : α → β) (e : Element α) :
    (e.mapFrames g).frame = e.frame.map g := by
  cases e <;> rfl

mutual
/-- **Placing a tree of whole numbers as handed over is placing it in whole pixels**: every
sum of measures on the way is a sum of whole numbers, which is exact and never fails. -/
theorem place?_toNode (x y : Int) :
    ∀ e : Element Int, e.toNode.place? (.whole x) (.whole y) = .ok ((e.place x y).mapFrames .whole)
  | .leaf _ _ => rfl
  | .seq f s cs => by
    simp only [toNode, Node.place?, Node.measured, Measure.add?, bind, Except.bind,
      Except.mapError, pure, Except.pure]
    rw [placeAcross?_toNodeList]
    rfl
  | .choice f cs => by
    simp only [toNode, Node.place?, bind, Except.bind, pure, Except.pure]
    rw [placeDown?_toNodeList]
    rfl

theorem placeAcross?_toNodeList (x y half : Int) :
    ∀ cs : List (Element Int),
      Node.placeAcross? (.whole x) (.whole y) (.whole half) (toNodeList cs) =
        .ok (mapFramesOfList .whole (placeAcross x (y + half) cs))
  | [] => rfl
  | c :: cs => by
    simp only [toNodeList, Node.placeAcross?, Node.measured, Measure.add?, bind, Except.bind,
      Except.mapError, pure, Except.pure]
    rw [place?_toNode]
    -- the cursor moves past the part by its width, which placing keeps
    simp only [frame_mapFrames, frame_place, Frame.map]
    rw [placeAcross?_toNodeList]
    rfl

theorem placeDown?_toNodeList (x y : Int) :
    ∀ cs : List (Element Int),
      Node.placeDown? (.whole x) (.whole y) (toNodeList cs) =
        .ok (mapFramesOfList .whole (placeDown x y cs))
  | [] => rfl
  | c :: cs => by
    simp only [toNodeList, Node.placeDown?, Node.measured, Measure.add?, bind, Except.bind,
      Except.mapError, pure, Except.pure]
    rw [place?_toNode]
    simp only [frame_mapFrames, frame_place, Frame.map]
    rw [placeDown?_toNodeList]
    rfl
end

end Element

end PatternChart
