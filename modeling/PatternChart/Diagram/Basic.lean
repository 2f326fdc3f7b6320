/-!
# Diagram elements

A diagram is a tree of three kinds of element. A *leaf* is one labelled box. A
*sequence* lays its children out left to right; when it has a border it is drawn as a
group box around them, with a label at its top left and a caption at its top
right. A *choice* stacks its children top to bottom, one per alternative.

Every element has a frame (width, height and the position of its top left corner),
kept apart from everything else the element carries, so that the layout can be
said to change frames and nothing else. The frame's numbers are a type parameter:
whole pixels for laid-out diagrams, and whatever numbers a caller hands over for
drawing.

The main statements about this module's operations are equations for the pre-order
walk `Element.leaves`, which is how arrows and bindings name leaves.
-/

set_option autoImplicit false

namespace PatternChart

/-- What happens when the pointer enters or leaves a drawn box: a script, which is
written into the drawing as an event attribute, or a plain value, which is kept with
the box but never written. -/
inductive Hook where
  | script (code : String)
  | plain (value : String)
  deriving DecidableEq, Repr

/-- The colour family of a leaf's border: the plain ink of literal text, the muted
ink of metacharacters, or any other named family, which draws in plain ink. -/
inductive Tone where
  | plain
  | muted
  | named (tag : String)
  deriving DecidableEq, Repr

namespace Tone

/-- The tag that names a tone in a stored diagram. -/
def tag : Tone → String
  | .plain => "default"
  | .muted => "meta"
  | .named t => t

/-- Reads a tag back; the two reserved tags give their own tones, so that
`ofTag (tag t) = t` for every tone whose tag is not reserved. -/
def ofTag (t : String) : Tone :=
  if t = "default" then .plain else if t = "meta" then .muted else .named t

@[simp] theorem tag_ofTag (t : String) : (ofTag t).tag = t := by
  unfold ofTag
  split
  · simp_all [tag]
  · split <;> simp_all [tag]

/-- The stroke colour a tone draws its border with. -/
def stroke : Tone → String
  | .muted => "#8c8c8c"
  | _ => "#000000"

end Tone

/-- Size and position of an element: its width and height, and its top left corner. -/
structure Frame (α : Type) where
  width : α
  height : α
  x : α
  y : α
  deriving DecidableEq, Repr

/-- A frame with each number mapped. -/
def Frame.map {α β : Type} (g : α → β) (f : Frame α) : Frame β :=
  ⟨g f.width, g f.height, g f.x, g f.y⟩

/-- The frame of an element that has not been sized or placed yet. -/
def Frame.zero : Frame Int := ⟨0, 0, 0, 0⟩

/-- Everything a leaf carries besides its frame. -/
structure Leaf where
  label : String
  caption : String := ""
  tone : Tone := .plain
  nodeId : Option Int := none
  onEnter : Option Hook := none
  onLeave : Option Hook := none
  deriving DecidableEq, Repr

/-- Everything a sequence carries besides its frame and children. A sequence whose
border is positive is a group box; its border is counted in its height and width. -/
structure Sequence where
  groupLabel : Option String := none
  caption : String := ""
  border : Int := 0
  nodeId : Option Int := none
  onEnter : Option Hook := none
  onLeave : Option Hook := none
  deriving DecidableEq, Repr

/-- A diagram element whose frame holds numbers of type `α`. -/
inductive Element (α : Type) where
  | leaf (frame : Frame α) (leaf : Leaf)
  | seq (frame : Frame α) (info : Sequence) (children : List (Element α))
  | choice (frame : Frame α) (children : List (Element α))
  deriving Repr

namespace Element

variable {α : Type}

/-- The element's own frame. -/
def frame : Element α → Frame α
  | .leaf f _ => f
  | .seq f _ _ => f
  | .choice f _ => f

mutual
/-- The element with every frame's numbers mapped. -/
def mapFrames {β : Type} (g : α → β) : Element α → Element β
  | .leaf f l => .leaf (f.map g) l
  | .seq f s cs => .seq (f.map g) s (mapFramesOfList g cs)
  | .choice f cs => .choice (f.map g) (mapFramesOfList g cs)

/-- The elements of a list with every frame's numbers mapped. -/
def mapFramesOfList {β : Type} (g : α → β) : List (Element α) → List (Element β)
  | [] => []
  | e :: es => mapFrames g e :: mapFramesOfList g es
end

mutual
/-- The leaves in pre-order: the order in which arrows and bindings count them. -/
def leaves : Element α → List Leaf
  | .leaf _ l => [l]
  | .seq _ _ cs => leavesOfList cs
  | .choice _ cs => leavesOfList cs

/-- The leaves of a list of elements, one element after another. -/
def leavesOfList : List (Element α) → List Leaf
  | [] => []
  | e :: es => leaves e ++ leavesOfList es
end

mutual
/-- The leaves in pre-order with their frames. -/
def framedLeaves : Element α → List (Frame α × Leaf)
  | .leaf f l => [(f, l)]
  | .seq _ _ cs => framedLeavesOfList cs
  | .choice _ cs => framedLeavesOfList cs

/-- The framed leaves of a list of elements, one element after another. -/
def framedLeavesOfList : List (Element α) → List (Frame α × Leaf)
  | [] => []
  | e :: es => framedLeaves e ++ framedLeavesOfList es
end

/-- The leaves of a list of elements are the leaves of each element, in order. -/
theorem leavesOfList_eq_flatMap (es : List (Element α)) : leavesOfList es = es.flatMap leaves := by
  induction es with
  | nil => rfl
  | cons e es ih => simp [leavesOfList, ih]

/-- The framed leaves of a list of elements are those of each element, in order. -/
theorem framedLeavesOfList_eq_flatMap (es : List (Element α)) :
    framedLeavesOfList es = es.flatMap framedLeaves := by
  induction es with
  | nil => rfl
  | cons e es ih => simp [framedLeavesOfList, ih]

/-- Mapping the frames of a list maps each element's frames. -/
theorem mapFramesOfList_eq_map {β : Type} (g : α → β) (es : List (Element α)) :
    mapFramesOfList g es = es.map (mapFrames g) := by
  induction es with
  | nil => rfl
  | cons e es ih => simp [mapFramesOfList, ih]

end Element

end PatternChart
