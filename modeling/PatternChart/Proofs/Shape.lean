import PatternChart.Diagram.Layout
/-!
# Layout changes frames only

The *shape* of an element is the element with its frames forgotten: what is left is
the tree itself, with every leaf's label, caption, tone, id and hooks and every
sequence's group label, caption, border, id and hooks. Everything that is read off a
diagram without looking at geometry (its leaves, the boxes that carry ids, the arrows)
is a function of its shape.

Each pass of the layout rebuilds the tree with new frames and nothing else, so it keeps
the shape (`Element.shape_infer`, `Element.shape_resize`, `Element.shape_place`), and so
does the whole layout (`Element.shape_layout`) and writing the frames in other numbers
(`Element.shape_mapFrames`).
-/

set_option autoImplicit false

namespace PatternChart

namespace Element

variable {α β : Type}

/-- An element with its frames forgotten. -/
def shape (e : Element α) : Element Unit := e.mapFrames fun _ => ()

/-- Elements with their frames forgotten. -/
def shapeOfList (es : List (Element α)) : List (Element Unit) :=
  mapFramesOfList (fun _ => ()) es

/-- The frame every shape has. -/
def blank : Frame Unit := ⟨(), (), (), ()⟩

@[simp] theorem shape_leaf (f : Frame α) (l : Leaf) : (Element.leaf f l).shape = .leaf blank l :=
  rfl

@[simp] theorem shape_seq (f : Frame α) (s : Sequence) (cs : List (Element α)) :
    (Element.seq f s cs).shape = .seq blank s (shapeOfList cs) := rfl

@[simp] theorem shape_choice (f : Frame α) (cs : List (Element α)) :
    (Element.choice f cs).shape = .choice blank (shapeOfList cs) := rfl

@[simp] theorem shapeOfList_nil : shapeOfList ([] : List (Element α)) = [] := rfl

@[simp] theorem shapeOfList_cons (e : Element α) (es : List (Element α)) :
    shapeOfList (e :: es) = e.shape :: shapeOfList es := rfl

mutual
/-- Writing the frames in other numbers keeps the shape. -/
@[simp] theorem shape_mapFrames (g : α → β) : ∀ e : Element α, (e.mapFrames g).shape = e.shape
  | .leaf _ _ => rfl
  | .seq _ s cs => congrArg (Element.seq blank s) (shapeOfList_mapFramesOfList g cs)
  | .choice _ cs => congrArg (Element.choice blank) (shapeOfList_mapFramesOfList g cs)

@[simp] theorem shapeOfList_mapFramesOfList (g : α → β) :
    ∀ es : List (Element α), shapeOfList (mapFramesOfList g es) = shapeOfList es
  | [] => rfl
  | e :: es => by
    rw [mapFramesOfList, shapeOfList_cons, shapeOfList_cons, shape_mapFrames g e,
      shapeOfList_mapFramesOfList g es]
end

/-- A shape is its own shape. -/
@[simp] theorem shape_shape (e : Element α) : e.shape.shape = e.shape :=
  shape_mapFrames _ e

/-! ## Each pass keeps the shape

Each pass rebuilds a sequence or a choice around its children with a new frame, so
the shape of the result is the same container around the children's shapes; the cases
below say exactly that. -/

mutual
/-- Sizing keeps the shape. -/
@[simp] theorem shape_infer : ∀ e : Element Int, e.infer.shape = e.shape
  | .leaf _ _ => rfl
  | .seq _ s cs => congrArg (Element.seq blank s) (shapeOfList_inferList cs)
  | .choice _ cs => congrArg (Element.choice blank) (shapeOfList_inferList cs)

@[simp] theorem shapeOfList_inferList :
    ∀ cs : List (Element Int), shapeOfList (inferList cs) = shapeOfList cs
  | c :: cs => by
    rw [inferList, shapeOfList_cons, shapeOfList_cons, shape_infer c, shapeOfList_inferList cs]
  | [] => rfl
end

mutual
/-- Resizing keeps the shape, whatever the target. -/
@[simp] theorem shape_resize (w h : Int) : ∀ e : Element Int, (e.resize w h).shape = e.shape
  | .leaf _ _ => rfl
  | .seq _ s cs => congrArg (Element.seq blank s) (shapeOfList_resizeRow _ _ cs)
  | .choice _ cs => congrArg (Element.choice blank) (shapeOfList_resizeStack _ _ cs)

@[simp] theorem shapeOfList_resizeRow (share h : Int) :
    ∀ cs : List (Element Int), shapeOfList (resizeRow share h cs) = shapeOfList cs
  | c :: cs => by
    rw [resizeRow, shapeOfList_cons, shapeOfList_cons, shape_resize _ _ c,
      shapeOfList_resizeRow share h cs]
  | [] => rfl

@[simp] theorem shapeOfList_resizeStack (w share : Int) :
    ∀ cs : List (Element Int), shapeOfList (resizeStack w share cs) = shapeOfList cs
  | c :: cs => by
    rw [resizeStack, shapeOfList_cons, shapeOfList_cons, shape_resize _ _ c,
      shapeOfList_resizeStack w share cs]
  | [] => rfl
end

mutual
/-- Placing keeps the shape, wherever the corner. -/
@[simp] theorem shape_place (x y : Int) : ∀ e : Element Int, (e.place x y).shape = e.shape
  | .leaf _ _ => rfl
  | .seq _ s cs => congrArg (Element.seq blank s) (shapeOfList_placeAcross _ _ cs)
  | .choice _ cs => congrArg (Element.choice blank) (shapeOfList_placeDown _ _ cs)

@[simp] theorem shapeOfList_placeAcross (x y : Int) :
    ∀ cs : List (Element Int), shapeOfList (placeAcross x y cs) = shapeOfList cs
  | c :: cs => by
    rw [placeAcross, shapeOfList_cons, shapeOfList_cons, shape_place _ _ c,
      shapeOfList_placeAcross _ y cs]
  | [] => rfl

@[simp] theorem shapeOfList_placeDown (x y : Int) :
    ∀ cs : List (Element Int), shapeOfList (placeDown x y cs) = shapeOfList cs
  | c :: cs => by
    rw [placeDown, shapeOfList_cons, shapeOfList_cons, shape_place _ _ c,
      shapeOfList_placeDown x _ cs]
  | [] => rfl
end

/-- **Layout changes frames only.** A laid-out diagram has the shape of the diagram. -/
@[simp] theorem shape_layout (e : Element Int) : e.layout.shape = e.shape := by
  rw [layout, shape_place, shape_resize, shape_infer]

end Element

end PatternChart
