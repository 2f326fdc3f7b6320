import PatternChart.Proofs.Shape
import PatternChart.Proofs.Positions
import PatternChart.Render
/-!
# Boxes that carry ids, their hover bindings and their groups

A drawing points back at the regex it was made of through node ids. Building gives a
box with an id, and the hooks the factory gives for that id, to every anchor and every
atom of a regex, a parenthesised atom's group box coming before the boxes of its body;
the leaf of an empty alternative and the sequence of an alternative carry none. Layout
changes frames only (`Proofs.Shape`), and drawing reads ids and hooks off leaves and
group boxes, so the boxes of a rendering that carry an id are the regex's anchors and
atoms in pre-order, each with its id and its hooks (`Regex.nodeBoxes_build`).

Two things are read off those boxes.

* The hover bindings keep, for each id, the place where it first appears and the hooks
  of the last box that carries it. Since every box of an id carries the hooks of that
  id, the bindings are the ids' first occurrences, each with its hooks
  (`Shapes.bindings_of_filterMap`).
* The document wraps each box with an id in a group element carrying the id and, for
  each hook that is a script, an event attribute holding the script; no other element of
  the document is a group (`Shapes.groups_toSvg`).

The main statement, `Regex.render_binds_node_boxes`, puts the three together for every
regex and every hook factory.
-/

set_option autoImplicit false

namespace PatternChart

/-! ## 1. The nodes that get a box with an id -/

mutual
/-- The ids of the anchors and atoms of a regex in pre-order: the nodes its diagram draws
a box with an id for. A parenthesised atom comes before the nodes of its body. -/
def Regex.boxIds : Regex → List Int
  | .mk alts => Alternative.boxIdsOfList alts

/-- The ids of the anchors and atoms of alternatives, one alternative after another. -/
def Alternative.boxIdsOfList : List Alternative → List Int
  | [] => []
  | a :: as => a.boxIds ++ Alternative.boxIdsOfList as

/-- The ids of the anchors and atoms of an alternative; an empty one has none. -/
def Alternative.boxIds : Alternative → List Int
  | .mk ts => Term.boxIdsOfList ts

/-- The ids of the anchors and atoms of terms, one term after another. -/
def Term.boxIdsOfList : List Term → List Int
  | [] => []
  | t :: ts => t.boxIds ++ Term.boxIdsOfList ts

/-- The id of an anchor, or those of a quantified atom; the quantifier has none. -/
def Term.boxIds : Term → List Int
  | .assertion _ id => [id]
  | .quantified atom _ _ => atom.boxIds

/-- The id of an atom, followed by those of its body when it is parenthesised. -/
def Atom.boxIds : Atom → List Int
  | .group r _ id => id :: r.boxIds
  | .nonCapturing r id => id :: r.boxIds
  | .lookahead r _ id => id :: r.boxIds
  | a => [a.id]
end

/-! ## 2. What the boxes of a diagram bind -/

/-- What a box binds: its node id with its two hooks, when it has an id. -/
def Box.binding {β : Type} (b : Box β) : Option (Int × Option Hook × Option Hook) :=
  b.nodeId.map fun i => (i, b.onEnter, b.onLeave)

namespace Element

variable {α β : Type}

mutual
/-- The bindings of the boxes an element draws, in drawing order, read off the element
without drawing it: a leaf's box binds its leaf's id, a group box its sequence's. -/
def nodeBoxes : Element α → List (Int × Option Hook × Option Hook)
  | .leaf _ l => (l.nodeId.map fun i => (i, l.onEnter, l.onLeave)).toList
  | .seq _ s cs =>
    (if 0 < s.border then (s.nodeId.map fun i => (i, s.onEnter, s.onLeave)).toList else []) ++
      nodeBoxesOfList cs
  | .choice _ cs => nodeBoxesOfList cs

/-- The bindings of the boxes of a list of elements, one element after another. -/
def nodeBoxesOfList : List (Element α) → List (Int × Option Hook × Option Hook)
  | [] => []
  | e :: es => nodeBoxes e ++ nodeBoxesOfList es
end

section Drawn

variable [Coordinate β]

mutual
/-- The boxes an element draws bind what `nodeBoxes` reads off it. -/
theorem filterMap_binding_boxes : ∀ e : Element β, e.boxes.filterMap Box.binding = e.nodeBoxes
  | .leaf f l => by
    cases h : l.nodeId <;> simp [boxes, nodeBoxes, leafBox, Box.binding, h]
  | .seq f s cs => by
    rw [boxes, nodeBoxes, List.filterMap_append, filterMap_binding_boxesOfList cs]
    -- a sequence draws a box exactly when its border is positive
    by_cases hb : 0 < s.border <;> cases hn : s.nodeId <;> simp [groupBox?, Box.binding, hb, hn]
  | .choice _ cs => filterMap_binding_boxesOfList cs

theorem filterMap_binding_boxesOfList :
    ∀ es : List (Element β), (boxesOfList es).filterMap Box.binding = nodeBoxesOfList es
  | [] => rfl
  | e :: es => by
    rw [boxesOfList, nodeBoxesOfList, List.filterMap_append, filterMap_binding_boxes e,
      filterMap_binding_boxesOfList es]
end

end Drawn

mutual
/-- Writing the frames in other numbers keeps what the boxes bind. -/
@[simp] theorem nodeBoxes_mapFrames (g : α → β) :
    ∀ e : Element α, (e.mapFrames g).nodeBoxes = e.nodeBoxes
  | .leaf _ _ => rfl
  | .seq _ _ cs => by rw [mapFrames, nodeBoxes, nodeBoxes, nodeBoxesOfList_mapFramesOfList g cs]
  | .choice _ cs => by rw [mapFrames, nodeBoxes, nodeBoxes, nodeBoxesOfList_mapFramesOfList g cs]

@[simp] theorem nodeBoxesOfList_mapFramesOfList (g : α → β) :
    ∀ es : List (Element α), nodeBoxesOfList (mapFramesOfList g es) = nodeBoxesOfList es
  | [] => rfl
  | e :: es => by
    rw [mapFramesOfList, nodeBoxesOfList, nodeBoxesOfList, nodeBoxes_mapFrames g e,
      nodeBoxesOfList_mapFramesOfList g es]
end

/-- What the boxes bind is read off the shape. -/
theorem nodeBoxes_shape (e : Element α) : e.shape.nodeBoxes = e.nodeBoxes :=
  nodeBoxes_mapFrames _ e

/-- Layout keeps what the boxes bind. -/
theorem nodeBoxes_layout (e : Element Int) : e.layout.nodeBoxes = e.nodeBoxes := by
  rw [← nodeBoxes_shape, shape_layout, nodeBoxes_shape]

end Element

/-! ## 3. Building binds each anchor and atom to its hooks -/

section Build

variable (hooks : Hooks)

mutual
/-- **The boxes with ids are the anchors and atoms.** The boxes of a regex's diagram that
carry an id bind, in order, the ids of its anchors and atoms in pre-order, each to the
hooks the factory gives for it. -/
theorem Regex.nodeBoxes_build :
    ∀ r : Regex, (r.build hooks).nodeBoxes = r.boxIds.map fun i => (i, hooks i)
  | .mk alts => Alternative.nodeBoxes_buildList alts

theorem Alternative.nodeBoxes_buildList :
    ∀ as : List Alternative, Element.nodeBoxesOfList (Alternative.buildList hooks as) =
      (Alternative.boxIdsOfList as).map fun i => (i, hooks i)
  | [] => rfl
  | a :: as => by
    rw [Alternative.buildList, Element.nodeBoxesOfList, Alternative.boxIdsOfList, List.map_append,
      Alternative.nodeBoxes_build a, Alternative.nodeBoxes_buildList as]

theorem Alternative.nodeBoxes_build :
    ∀ a : Alternative, (a.build hooks).nodeBoxes = a.boxIds.map fun i => (i, hooks i)
  | .mk [] => rfl
  | .mk (t :: ts) => by
    -- the sequence of an alternative has no border, so it draws no box of its own
    have hts := Term.nodeBoxes_buildList (t :: ts)
    simpa [Alternative.build, Element.nodeBoxes, Alternative.boxIds] using hts

theorem Term.nodeBoxes_buildList :
    ∀ ts : List Term, Element.nodeBoxesOfList (Term.buildList hooks ts) =
      (Term.boxIdsOfList ts).map fun i => (i, hooks i)
  | [] => rfl
  | t :: ts => by
    rw [Term.buildList, Element.nodeBoxesOfList, Term.boxIdsOfList, List.map_append,
      Term.nodeBoxes_build t, Term.nodeBoxes_buildList ts]

theorem Term.nodeBoxes_build :
    ∀ t : Term, (t.build hooks).nodeBoxes = t.boxIds.map fun i => (i, hooks i)
  | .assertion _ _ => by simp [Term.build, boxLeaf_eq, Element.nodeBoxes, Term.boxIds]
  | .quantified atom _ _ => Atom.nodeBoxes_build _ atom

theorem Atom.nodeBoxes_build (caption : String) :
    ∀ a : Atom, (a.build hooks caption).nodeBoxes = a.boxIds.map fun i => (i, hooks i)
  | .char _ _ | .any _ | .classEscape _ _ | .escaped _ _ | .backReference _ _
  | .charSet _ _ _ => by simp [Atom.build, boxLeaf_eq, Element.nodeBoxes, Atom.boxIds, Atom.id]
  | .group r _ _ => by
    simp [Atom.build, groupBox_eq, groupBorder, Element.nodeBoxes, Element.nodeBoxesOfList,
      Atom.boxIds, Regex.nodeBoxes_build r]
  | .nonCapturing r _ => by
    simp [Atom.build, groupBox_eq, groupBorder, Element.nodeBoxes, Element.nodeBoxesOfList,
      Atom.boxIds, Regex.nodeBoxes_build r]
  | .lookahead r _ _ => by
    simp [Atom.build, groupBox_eq, groupBorder, Element.nodeBoxes, Element.nodeBoxesOfList,
      Atom.boxIds, Regex.nodeBoxes_build r]
end

end Build

/-! ## 4. Hover bindings keep first places -/

namespace Shapes

variable {β : Type} (g : Int → Option Hook × Option Hook)

/-- Binding one more box whose hooks are those of its id: the bound ids stay the first
occurrences of the ids met so far, each with its hooks. -/
theorem bind_step (ids : List Int) (b : Box β)
    (hb : ∀ i, b.nodeId = some i → (b.onEnter, b.onLeave) = g i) :
    bindings.bind (ids.eraseDups.map fun i => (i, g i)) b =
      (ids ++ b.nodeId.toList).eraseDups.map fun i => (i, g i) := by
  cases hid : b.nodeId with
  | none => simp [bindings.bind, hid]
  | some i =>
    have hhooks : (b.onEnter, b.onLeave) = g i := hb i hid
    simp only [bindings.bind, hid, Option.toList_some, List.eraseDups_append]
    by_cases hi : i ∈ ids
    · -- a bound id is rebound to the same hooks, and keeps its place
      have hany : (ids.eraseDups.map fun i => (i, g i)).any (·.1 == i) = true := by
        simpa [List.mem_eraseDups] using hi
      have hnew : ([i].removeAll ids).eraseDups = [] := by
        simp [List.removeAll, hi]
      rw [if_pos hany, hnew, List.append_nil, List.map_map]
      refine List.map_congr_left fun j _ => ?_
      by_cases hj : j = i
      · subst hj
        simp [← hhooks]
      · simp [hj]
    · have hany : (ids.eraseDups.map fun i => (i, g i)).any (·.1 == i) = false := by
        simp only [List.any_map, List.any_eq_false, List.mem_eraseDups, Function.comp_apply,
          beq_iff_eq]
        intro j hj hji
        exact hi (hji ▸ hj)
      have hnew : ([i].removeAll ids).eraseDups = [i] := by
        have hkeep : [i].removeAll ids = [i] := by simp [List.removeAll, hi]
        rw [hkeep]
        rfl
      rw [if_neg (by simp [hany]), hnew, List.map_append, List.map_singleton, hhooks]

/-- Binding boxes whose hooks are those of their ids, one after another. -/
theorem foldl_bind (ids : List Int) (bs : List (Box β))
    (hb : ∀ b ∈ bs, ∀ i, b.nodeId = some i → (b.onEnter, b.onLeave) = g i) :
    bs.foldl bindings.bind (ids.eraseDups.map fun i => (i, g i)) =
      (ids ++ bs.filterMap Box.nodeId).eraseDups.map fun i => (i, g i) := by
  induction bs generalizing ids with
  | nil => simp
  | cons b bs ih =>
    rw [List.foldl_cons, bind_step g ids b (hb b List.mem_cons_self),
      ih _ fun b' hb' => hb b' (List.mem_cons_of_mem _ hb')]
    cases hid : b.nodeId <;> simp [hid]

/-- **Bindings keep first places.** When the boxes that carry ids bind the ids `ids` in
order, each to the hooks `g` gives it, the hover bindings are the first occurrences of
those ids, in order, each bound to its hooks. -/
theorem bindings_of_filterMap (s : Shapes β) (ids : List Int)
    (h : s.boxes.filterMap Box.binding = ids.map fun i => (i, g i)) :
    s.bindings = ids.eraseDups.map fun i => (i, g i) := by
  -- every box with an id carries the hooks of that id
  have hb : ∀ b ∈ s.boxes, ∀ i, b.nodeId = some i → (b.onEnter, b.onLeave) = g i := by
    intro b hmem i hid
    have hbind : (i, b.onEnter, b.onLeave) ∈ s.boxes.filterMap Box.binding :=
      List.mem_filterMap.mpr ⟨b, hmem, by simp [Box.binding, hid]⟩
    rw [h] at hbind
    obtain ⟨j, -, hj⟩ := List.mem_map.mp hbind
    obtain ⟨rfl, hgj⟩ := Prod.mk.inj hj
    exact hgj.symm
  -- the ids met are the ids the bindings name
  have hids : s.boxes.filterMap Box.nodeId = ids := by
    have := congrArg (List.map Prod.fst) h
    rw [List.map_filterMap, List.map_map] at this
    simpa [Box.binding, Function.comp_def] using this
  have := foldl_bind g [] s.boxes hb
  rw [List.nil_append, hids] at this
  exact this

end Shapes

/-! ## 5. Each box with an id is one group of the document -/

/-- The group element a document wraps the box of node `i` in, when the box has the hooks
`hs`: an element named `g`, of class `regex-node`, carrying the id, with an
`onmouseenter` or `onmouseleave` attribute exactly when the matching hook is a script,
holding that script. -/
structure NodeGroup (i : Int) (hs : Option Hook × Option Hook) (g : Xml.Element) : Prop where
  name_eq : g.name = "g"
  class_eq : g.attributes.lookup "class" = some "regex-node"
  nodeId_eq : g.attributes.lookup "data-node-id" = some (toString i)
  enter_eq : g.attributes.lookup "onmouseenter" = Hook.script? hs.1
  leave_eq : g.attributes.lookup "onmouseleave" = Hook.script? hs.2

namespace Box

variable {β : Type} [Coordinate β]

/-- A box with an id is written as the group of its node. -/
theorem nodeGroup_toXml (b : Box β) {i : Int} (hi : b.nodeId = some i) :
    NodeGroup i (b.onEnter, b.onLeave) b.toXml := by
  cases he : Hook.script? b.onEnter <;> cases hl : Hook.script? b.onLeave <;>
    exact ⟨by simp [toXml, hi, Xml.Element.name],
      by simp [toXml, hi, he, hl, Xml.Element.attributes],
      by simp [toXml, hi, he, hl, Xml.Element.attributes, List.lookup_cons],
      by simp [toXml, hi, he, hl, Xml.Element.attributes, List.lookup_cons],
      by simp [toXml, hi, he, hl, Xml.Element.attributes, List.lookup_cons]⟩

/-- A box without an id is written as a bare `rect`. -/
theorem name_toXml (b : Box β) : b.toXml.name = if b.nodeId.isSome then "g" else "rect" := by
  cases hi : b.nodeId <;> simp [toXml, rect, hi, Xml.Element.name]

/-- The groups among the written boxes are those of the boxes with ids, in order. -/
theorem forall₂_groups (bs : List (Box β)) :
    List.Forall₂ (fun (p : Int × Option Hook × Option Hook) g => NodeGroup p.1 p.2 g)
      (bs.filterMap Box.binding) ((bs.map Box.toXml).filter fun g => g.name == "g") := by
  induction bs with
  | nil => exact List.Forall₂.nil
  | cons b bs ih =>
    cases hi : b.nodeId with
    | none =>
      have hname : b.toXml.name = "rect" := by simp [name_toXml, hi]
      simpa [binding, hi, hname] using ih
    | some i =>
      have hname : b.toXml.name = "g" := by simp [name_toXml, hi]
      simp only [List.filterMap_cons, binding, hi, Option.map_some, List.map_cons,
        List.filter_cons, hname, beq_self_eq_true, if_true]
      exact List.Forall₂.cons (nodeGroup_toXml b hi) ih

end Box

namespace Shapes

variable {β : Type} [Coordinate β]

/-- **Groups are the boxes with ids.** The group elements of a drawing's document are the
groups of its boxes with ids, one each, in the order of the boxes; the title, the labels
and the arrows are no groups. -/
theorem groups_toSvg (s : Shapes β) (w h : β) (title : Option String) :
    List.Forall₂ (fun (p : Int × Option Hook × Option Hook) g => NodeGroup p.1 p.2 g)
      (s.boxes.filterMap Box.binding)
      ((s.toSvg w h title).children.filter fun g => g.name == "g") := by
  have hlabels : (s.labels.map Label.toXml).filter (fun g => g.name == "g") = [] := by
    refine List.filter_eq_nil_iff.mpr fun g hg => ?_
    obtain ⟨l, -, rfl⟩ := List.mem_map.mp hg
    simp [Label.toXml, Xml.Element.name]
  have harrows : (s.arrows.map Arrow.toXml).flatten.filter (fun g => g.name == "g") = [] := by
    refine List.filter_eq_nil_iff.mpr fun g hg => ?_
    obtain ⟨xs, hxs, hg⟩ := List.mem_flatten.mp hg
    obtain ⟨a, -, rfl⟩ := List.mem_map.mp hxs
    simp only [Arrow.toXml, List.mem_cons, List.not_mem_nil, or_false] at hg
    rcases hg with rfl | rfl <;> simp [Xml.Element.name]
  have htitle : ∀ t : String,
      (if t = "" then [] else [Xml.Element.mk "title" [] t []]).filter (fun g => g.name == "g") =
        [] := by
    intro t
    split <;> simp [Xml.Element.name]
  have hboxes := Box.forall₂_groups s.boxes
  cases title with
  | none =>
    simpa only [toSvg, Xml.Element.children, List.filter_append, List.filter_nil, hlabels,
      harrows, List.nil_append, List.append_nil] using hboxes
  | some t =>
    simpa only [toSvg, Xml.Element.children, List.filter_append, htitle, hlabels, harrows,
      List.nil_append, List.append_nil] using hboxes

end Shapes

/-! ## 6. What a rendering binds -/

/-- **Boxes, bindings and groups follow the anchors and atoms.** For every regex and hook
factory, the boxes of its rendering that carry an id bind, in order, the ids of the
regex's anchors and atoms in pre-order (a parenthesised atom before its body), each to
the hooks the factory gives for it. So the hover bindings are those ids' first
occurrences, each bound to its hooks, and the SVG text is written from a document whose
group elements are one per such node, in the same order, each of class `regex-node`,
carrying the node's id, and with an event attribute for each of its hooks that is a
script. -/
theorem Regex.render_binds_node_boxes (hooks : Hooks) (r : Regex) :
    (r.render hooks).shapes.boxes.filterMap Box.binding = r.boxIds.map (fun i => (i, hooks i)) ∧
    (r.render hooks).shapes.bindings = r.boxIds.eraseDups.map (fun i => (i, hooks i)) ∧
    ∃ doc : Xml.Element, (r.render hooks).svg = doc.toText ∧
      List.Forall₂ (fun i g => NodeGroup i (hooks i) g) r.boxIds
        (doc.children.filter fun g => g.name == "g") := by
  have hboxes : (r.render hooks).shapes.boxes.filterMap Box.binding =
      r.boxIds.map (fun i => (i, hooks i)) := by
    show (r.build hooks).layout.drawn.boxes.filterMap Box.binding = _
    rw [Element.filterMap_binding_boxes, Element.drawn, Element.nodeBoxes_mapFrames,
      Element.nodeBoxes_layout, Regex.nodeBoxes_build]
  have hgroups := Shapes.groups_toSvg (r.render hooks).shapes
    (Coordinate.ofInt (r.render hooks).canvas.1) (Coordinate.ofInt (r.render hooks).canvas.2)
    (some r.text)
  rw [hboxes, List.forall₂_map_left_iff] at hgroups
  exact ⟨hboxes, Shapes.bindings_of_filterMap hooks _ _ hboxes, _, rfl, hgroups⟩


/-- In `a(b)` with the group's id also `2`, the id `2` is bound once, in the place of the
atom `a`, before the id `1` of `b`. -/
example :
    ((Regex.mk [.mk [.quantified (.char "a" 2) none true,
      .quantified (.group (.mk [.mk [.quantified (.char "b" 1) none true]]) 1 2) none true]]).render
        (Hooks.highlight "regex_" "hot")).shapes.bindings.map Prod.fst = [2, 1] := by
  decide

end PatternChart
