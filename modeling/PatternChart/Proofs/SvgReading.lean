import Mathlib
import PatternChart.Proofs.XmlReading
import PatternChart.Proofs.Hover
/-!
# The SVG text of a rendering reads back

The SVG text of a rendering is written from an XML document (`Shapes.toSvg`) by the
writer of `Xml.Basic`, which escapes what XML requires and nothing more. This module
shows what an XML processor reads back from it (`Proofs.XmlReading`), for every regex
and every hook factory.

The document is well formed when every character written into it is an XML character.
Most of it is fixed text, names and numbers: numbers are written in digits, a minus sign
and a point (`Sixths.numberChar_text`), strokes are fixed colours. What comes from the
caller is the pattern text, which is the title; the labels, whose characters are those
of the pattern text or a few glyphs of the builder's own (`Regex.labelsFrom_build`); and
the hooks' scripts. So the document is well formed when the pattern text and the scripts
are in XML characters (`Shapes.toSvg_writable`, `Regex.render_shapes_writable`).

A reader then gives back the document with the writer's layout, and with line ends
normalized in its texts: a carriage return, which the writer puts raw into a title or a
label, is read as a line feed, while in an attribute it is written as a reference and
read back exactly. The main statement, `Regex.render_svg_reads_back`, reads off the
result the title, the label texts in order, and the groups of the anchors and atoms with
their ids and scripts. Without the condition on characters the text is no XML document
at all (`Regex.render_svg_breaks_on_control_characters`).
-/

set_option autoImplicit false

namespace PatternChart

open Xml

/-! ## 1. Numbers are written in digits, a sign and a point -/

/-- The characters a drawing writes numbers in. -/
def numberChar (c : Char) : Bool := c.isDigit || c == '-' || c == '.'

theorem isChar_of_numberChar {c : Char} (h : numberChar c = true) : isChar c = true := by
  simp only [numberChar, Char.isDigit, Bool.or_eq_true, Bool.and_eq_true, decide_eq_true_eq,
    beq_iff_eq] at h
  rcases h with (⟨h₁, h₂⟩ | rfl) | rfl
  · -- a digit lies in the first range of printable characters
    have h₁' : 48 ≤ c.toNat := h₁
    have h₂' : c.toNat ≤ 57 := h₂
    simp only [isChar, inRanges, List.any_cons, List.any_nil, Bool.or_false, Bool.or_eq_true,
      decide_eq_true_eq]
    omega
  · decide
  · decide

theorem numberChar_repr_nat (n : Nat) : ∀ c ∈ n.repr.toList, numberChar c = true := by
  intro c hc
  simp only [Nat.repr, String.toList_ofList] at hc
  simp [numberChar, Nat.isDigit_of_mem_toDigits (by decide) (by decide) hc]

/-- An integer is written in digits after a minus sign, if any. -/
theorem isDigit_or_minus_repr (n : Int) : ∀ c ∈ n.repr.toList, c.isDigit = true ∨ c = '-' := by
  intro c hc
  cases n with
  | ofNat m =>
    simp only [Int.repr, Nat.repr, String.toList_ofList] at hc
    exact .inl (Nat.isDigit_of_mem_toDigits (by decide) (by decide) hc)
  | negSucc m =>
    simp only [Int.repr, Nat.repr, String.toList_append, String.toList_ofList,
      List.mem_append] at hc
    rcases hc with hc | hc
    · simp_all
    · exact .inl (Nat.isDigit_of_mem_toDigits (by decide) (by decide) hc)

theorem numberChar_repr_int (n : Int) : ∀ c ∈ n.repr.toList, numberChar c = true := by
  intro c hc
  rcases isDigit_or_minus_repr n c hc with h | rfl
  · simp [numberChar, h]
  · rfl

theorem mem_stripDecimal {s : String} {c : Char} (h : c ∈ (stripDecimal s).toList) :
    c ∈ s.toList := by
  simp only [stripDecimal, String.toList_ofList, List.mem_reverse] at h
  exact List.mem_reverse.mp ((List.dropWhile_sublist _).subset ((List.dropWhile_sublist _).subset h))

theorem numberChar_thousandthsText (negative : Bool) (q : Int) :
    ∀ c ∈ (thousandthsText negative q).toList, numberChar c = true := by
  intro c hc
  have hc' := mem_stripDecimal hc
  simp only [String.toList_append, List.mem_append, Nat.toString_eq_repr, String.toList_ofList,
    List.mem_replicate] at hc'
  rcases hc' with ((hsign | hint) | hpoint) | (hzero | hfrac)
  · cases negative <;> simp_all [numberChar]
  · exact numberChar_repr_nat _ c hint
  · simp_all [numberChar]
  · simp [numberChar, hzero.2]
  · exact numberChar_repr_nat _ c hfrac

theorem Sixths.numberChar_text (s : Sixths) : ∀ c ∈ s.text.toList, numberChar c = true := by
  simp only [Sixths.text]
  split
  · exact numberChar_repr_int _
  · exact numberChar_thousandthsText _ _


/-! ## 2. The texts of a diagram's labels -/

/-- The texts of a leaf's labels: its label, and its caption when it has one. -/
def Leaf.labelTexts (l : Leaf) : List String := if l.caption = "" then [l.label] else [l.label, l.caption]

/-- The texts of a sequence's labels: a group box's group label and caption, each when
present and non-empty. -/
def Sequence.labelTexts (s : Sequence) : List String :=
  if 0 < s.border then
    (match s.groupLabel with
      | some t => if t = "" then [] else [t]
      | none => []) ++
      (if s.caption = "" then [] else [s.caption])
  else []

namespace Element

variable {α β : Type}

mutual
/-- The texts of the labels an element draws, in drawing order, read off the element
without drawing it. -/
def labelTexts : Element α → List String
  | .leaf _ l => l.labelTexts
  | .seq _ s cs => s.labelTexts ++ labelTextsOfList cs
  | .choice _ cs => labelTextsOfList cs

/-- The texts of the labels of a list of elements, one element after another. -/
def labelTextsOfList : List (Element α) → List String
  | [] => []
  | e :: es => labelTexts e ++ labelTextsOfList es
end

section Drawn

variable [Coordinate β]

theorem map_text_leafLabels (f : Frame β) (l : Leaf) :
    (leafLabels f l).map Label.text = l.labelTexts := by
  unfold leafLabels Leaf.labelTexts
  split <;> rfl

theorem map_text_groupLabels (f : Frame β) (s : Sequence) :
    (groupLabels f s).map Label.text = s.labelTexts := by
  unfold groupLabels Sequence.labelTexts
  split
  · -- both sides choose by the group label and the caption
    cases s.groupLabel with
    | none => by_cases hc : s.caption = "" <;> simp [hc]
    | some t => by_cases ht : t = "" <;> by_cases hc : s.caption = "" <;> simp [ht, hc]
  · rfl

mutual
/-- The labels an element draws carry the texts `labelTexts` reads off it. -/
theorem map_text_labels : ∀ e : Element β, e.labels.map Label.text = e.labelTexts
  | .leaf f l => map_text_leafLabels f l
  | .seq f s cs => by
    rw [labels, labelTexts, List.map_append, map_text_groupLabels, map_text_labelsOfList cs]
  | .choice _ cs => map_text_labelsOfList cs

theorem map_text_labelsOfList :
    ∀ es : List (Element β), (labelsOfList es).map Label.text = labelTextsOfList es
  | [] => rfl
  | e :: es => by
    rw [labelsOfList, labelTextsOfList, List.map_append, map_text_labels e,
      map_text_labelsOfList es]
end

end Drawn

mutual
/-- Writing the frames in other numbers keeps the label texts. -/
@[simp] theorem labelTexts_mapFrames (g : α → β) :
    ∀ e : Element α, (e.mapFrames g).labelTexts = e.labelTexts
  | .leaf _ _ => rfl
  | .seq _ _ cs => by
    rw [mapFrames, labelTexts, labelTexts, labelTextsOfList_mapFramesOfList g cs]
  | .choice _ cs => by
    rw [mapFrames, labelTexts, labelTexts, labelTextsOfList_mapFramesOfList g cs]

@[simp] theorem labelTextsOfList_mapFramesOfList (g : α → β) :
    ∀ es : List (Element α), labelTextsOfList (mapFramesOfList g es) = labelTextsOfList es
  | [] => rfl
  | e :: es => by
    rw [mapFramesOfList, labelTextsOfList, labelTextsOfList, labelTexts_mapFrames g e,
      labelTextsOfList_mapFramesOfList g es]
end

/-- Layout keeps the label texts. -/
theorem labelTexts_layout (e : Element Int) : e.layout.labelTexts = e.labelTexts := by
  rw [← labelTexts_mapFrames (fun _ => ()) e.layout, ← shape, shape_layout, shape,
    labelTexts_mapFrames]

end Element


/-! ## 3. Labels are made of the pattern's characters -/

/-- The characters the builder puts into labels of its own: the digits and minus sign of
group numbers and repeat counts, the infinity sign of an unbounded repeat, the marks
`?!` and `?=` of lookaheads, the visible space and the empty set. -/
def builderGlyph (c : Char) : Bool :=
  c.isDigit || c == '-' || c == '∞' || c == '?' || c == '!' || c == '=' || c == '␣' || c == '∅'

theorem builderGlyph_repr (n : Int) : ∀ c ∈ n.repr.toList, builderGlyph c = true := by
  intro c hc
  rcases isDigit_or_minus_repr n c hc with h | rfl
  · simp [builderGlyph, h]
  · rfl

/-- The bounds of a quantifier are written in the builder's glyphs. -/
theorem builderGlyph_bounds (q : Quantifier) :
    (∀ c ∈ q.bounds.1.toList, builderGlyph c = true) ∧
      ∀ c ∈ q.bounds.2.toList, builderGlyph c = true := by
  cases q with
  | star | plus | optional => simp [Quantifier.bounds, builderGlyph]
  | exactly n => exact ⟨builderGlyph_repr n, builderGlyph_repr n⟩
  | atLeast n => exact ⟨builderGlyph_repr n, by simp [Quantifier.bounds, builderGlyph]⟩
  | between lo hi => exact ⟨builderGlyph_repr lo, builderGlyph_repr hi⟩

/-- A caption is written in the builder's glyphs: a count, or two bounds around a dash. -/
theorem builderGlyph_caption (q : Option Quantifier) (greedy : Bool) :
    ∀ c ∈ (Quantifier.caption q greedy).toList, builderGlyph c = true := by
  rcases q with _ | q
  · simp [Quantifier.caption]
  · by_cases hq : ∃ n, q = .exactly n
    · obtain ⟨n, rfl⟩ := hq
      exact builderGlyph_repr n
    · -- any other quantifier shows its two bounds around a dash
      obtain ⟨hlo, hhi⟩ := builderGlyph_bounds q
      rw [Quantifier.caption.eq_3 greedy q fun n h => hq ⟨n, h⟩]
      rcases hb : q.bounds with ⟨lo, hi⟩
      rw [hb] at hlo hhi
      intro c hc
      have hc' : c ∈ lo.toList ∨ c = '-' ∨ c ∈ hi.toList := by
        cases greedy <;> simp at hc <;> tauto
      rcases hc' with h | rfl | h
      exacts [hlo c h, rfl, hhi c h]

/-- Every character of every label is one of a text or one of the builder's glyphs. -/
def LabelsFrom (text : String) (labels : List String) : Prop :=
  ∀ l ∈ labels, ∀ c ∈ l.toList, c ∈ text.toList ∨ builderGlyph c = true

theorem labelsFrom_append {text : String} {l₁ l₂ : List String} :
    LabelsFrom text (l₁ ++ l₂) ↔ LabelsFrom text l₁ ∧ LabelsFrom text l₂ := by
  simp only [LabelsFrom, List.mem_append]
  exact ⟨fun h => ⟨fun l hl => h l (.inl hl), fun l hl => h l (.inr hl)⟩,
    fun h l hl => hl.elim (h.1 l) (h.2 l)⟩

theorem LabelsFrom.mono {text text' : String} {labels : List String}
    (h : LabelsFrom text labels) (hsub : text.toList ⊆ text'.toList) : LabelsFrom text' labels :=
  fun l hl c hc => (h l hl c hc).imp_left fun h' => hsub h'


theorem labelsFrom_boxLeaf {text label caption : String} (hooks : Hooks) (tone : Tone) (id : Int)
    (hlabel : ∀ c ∈ label.toList, c ∈ text.toList ∨ builderGlyph c = true)
    (hcap : ∀ c ∈ caption.toList, builderGlyph c = true) :
    LabelsFrom text (boxLeaf hooks label caption tone id).labelTexts := by
  intro l hl c hc
  have hl' : l = label ∨ l = caption := by
    simp only [boxLeaf_eq, Element.labelTexts, Leaf.labelTexts] at hl
    split at hl <;> simp_all
  rcases hl' with rfl | rfl
  · exact hlabel c hc
  · exact .inr (hcap c hc)

theorem labelsFrom_groupBox {text caption : String} (hooks : Hooks) {label : Option String}
    (id : Int) {body : Element Int} (hlabel : ∀ t ∈ label, ∀ c ∈ t.toList, builderGlyph c = true)
    (hcap : ∀ c ∈ caption.toList, builderGlyph c = true) (hbody : LabelsFrom text body.labelTexts) :
    LabelsFrom text (groupBox hooks label caption id body).labelTexts := by
  rw [groupBox_eq, Element.labelTexts, Element.labelTextsOfList, Element.labelTextsOfList,
    List.append_nil, labelsFrom_append]
  refine ⟨fun l hl c hc => .inr ?_, hbody⟩
  -- a group box shows its group label and its caption
  have hl' : l ∈ label ∨ l = caption := by
    rw [Sequence.labelTexts, if_pos (show (0 : Int) < groupBorder by decide), List.mem_append] at hl
    rcases hl with hl | hl
    · left
      rcases label with _ | t
      · simp at hl
      · by_cases ht : t = "" <;> simp_all
    · right
      by_cases hc : caption = "" <;> simp_all
  rcases hl' with hl' | rfl
  · exact hlabel l hl' c hc
  · exact hcap c hc

theorem Alternative.subset_listText (a : Alternative) (as : List Alternative) :
    a.text.toList ⊆ (Alternative.listText (a :: as)).toList ∧
      (Alternative.listText as).toList ⊆ (Alternative.listText (a :: as)).toList := by
  cases as with
  | nil => simp [Alternative.listText]
  | cons a' as =>
    simp only [Alternative.listText, String.toList_append]
    exact ⟨fun c hc => by simp [hc], fun c hc => by simp [hc]⟩

theorem Atom.subset_text_quantified (atom : Atom) (q : Option Quantifier) (greedy : Bool) :
    atom.text.toList ⊆ (Term.quantified atom q greedy).text.toList := by
  cases q with
  | none => exact List.Subset.refl _
  | some q => simp [Term.text]

section Build

variable (hooks : Hooks)

mutual
/-- **Labels come from the pattern.** Every character of every label, caption and group
label of a regex's diagram is a character of its pattern text or one of the builder's
glyphs. -/
theorem Regex.labelsFrom_build : ∀ r : Regex, LabelsFrom r.text (r.build hooks).labelTexts
  | .mk alts => Alternative.labelsFrom_buildList alts

theorem Alternative.labelsFrom_buildList :
    ∀ as : List Alternative,
      LabelsFrom (Alternative.listText as) (Element.labelTextsOfList (Alternative.buildList hooks as))
  | [] => by simp [LabelsFrom, Alternative.buildList, Element.labelTextsOfList]
  | a :: as => by
    rw [Alternative.buildList, Element.labelTextsOfList, labelsFrom_append]
    exact ⟨(Alternative.labelsFrom_build a).mono (Alternative.subset_listText a as).1,
      (Alternative.labelsFrom_buildList as).mono (Alternative.subset_listText a as).2⟩

theorem Alternative.labelsFrom_build :
    ∀ a : Alternative, LabelsFrom a.text (a.build hooks).labelTexts
  | .mk [] => by
    -- the leaf of an empty alternative shows the empty set
    simp [LabelsFrom, Alternative.build, Element.labelTexts, Leaf.labelTexts, builderGlyph]
  | .mk (t :: ts) => by
    have hts := Term.labelsFrom_buildList (t :: ts)
    simpa [Alternative.build, Element.labelTexts, Sequence.labelTexts, Alternative.text] using hts

theorem Term.labelsFrom_buildList :
    ∀ ts : List Term, LabelsFrom (Term.listText ts) (Element.labelTextsOfList (Term.buildList hooks ts))
  | [] => by simp [LabelsFrom, Term.buildList, Element.labelTextsOfList]
  | t :: ts => by
    rw [Term.buildList, Element.labelTextsOfList, labelsFrom_append, Term.listText]
    exact ⟨(Term.labelsFrom_build t).mono (by simp),
      (Term.labelsFrom_buildList ts).mono (by simp)⟩

theorem Term.labelsFrom_build : ∀ t : Term, LabelsFrom t.text (t.build hooks).labelTexts
  | .assertion a id => labelsFrom_boxLeaf hooks .muted id (fun c hc => .inl hc) (by simp)
  | .quantified atom q greedy =>
    (Atom.labelsFrom_build _ (builderGlyph_caption q greedy) atom).mono
      (Atom.subset_text_quantified atom q greedy)

theorem Atom.labelsFrom_build (caption : String)
    (hcap : ∀ c ∈ caption.toList, builderGlyph c = true) :
    ∀ a : Atom, LabelsFrom a.text (a.build hooks caption).labelTexts
  | .char v id => by
    -- a space shows as the visible space glyph
    refine labelsFrom_boxLeaf hooks .plain id (fun c hc => ?_) hcap
    unfold charLabel at hc
    split at hc
    · simp_all [builderGlyph]
    · exact .inl hc
  | .any id | .classEscape _ id | .escaped _ id | .backReference _ id | .charSet _ _ id =>
    labelsFrom_boxLeaf hooks _ id (fun c hc => .inl hc) hcap
  | .group r n id =>
    labelsFrom_groupBox hooks id (fun t ht => by simp at ht; exact ht ▸ builderGlyph_repr n) hcap
      ((Regex.labelsFrom_build r).mono fun c hc => by simp [Atom.text, hc])
  | .nonCapturing r id =>
    labelsFrom_groupBox hooks id (fun t ht => by simp at ht) hcap
      ((Regex.labelsFrom_build r).mono fun c hc => by simp [Atom.text, hc])
  | .lookahead r neg id =>
    labelsFrom_groupBox hooks id
      (fun t ht => by cases neg <;> simp at ht <;> subst ht <;> simp [builderGlyph]) hcap
      ((Regex.labelsFrom_build r).mono fun c hc => by simp [Atom.text, hc])
end

end Build


/-! ## 4. A drawing's document is well formed -/

/-- Whether a hook is written in XML characters: a script is when its text is, and any
other hook is never written. -/
def Hook.writable (h : Option Hook) : Bool := (Hook.script? h).all fun s => s.toList.all isChar

theorem isChar_toDigits (n : Nat) : ∀ c ∈ Nat.toDigits 10 n, isChar c = true :=
  fun c hc => isChar_of_numberChar (numberChar_repr_nat n c (by simpa [Nat.repr] using hc))

theorem isChar_repr_int (n : Int) : ∀ c ∈ n.repr.toList, isChar c = true :=
  fun c hc => isChar_of_numberChar (numberChar_repr_int n c hc)

section Document

variable {β : Type} [Coordinate β]

/-- Whether a coordinate type writes its numbers in XML characters. -/
def Coordinate.TextIsChar (β : Type) [Coordinate β] : Prop :=
  ∀ x : β, ∀ c ∈ (Coordinate.text x).toList, isChar c = true

theorem Box.rect_writable (hβ : Coordinate.TextIsChar β) (b : Box β)
    (hstroke : ∀ c ∈ b.stroke.toList, isChar c = true) : b.rect.writable = true := by
  simp +decide [Box.rect, Xml.Element.writable, Xml.Element.wellFormed,
    Xml.Element.wellFormedList]
  exact ⟨hβ b.x, hβ b.y, hβ b.width, hβ b.height, isChar_toDigits b.radius, hstroke,
    isChar_toDigits b.strokeWidth⟩

theorem Box.toXml_writable (hβ : Coordinate.TextIsChar β) (b : Box β)
    (hstroke : ∀ c ∈ b.stroke.toList, isChar c = true)
    (hhooks : ∀ i, b.nodeId = some i → Hook.writable b.onEnter = true ∧
      Hook.writable b.onLeave = true) : b.toXml.writable = true := by
  have hrect : b.rect.wellFormed isChar = true := Box.rect_writable hβ b hstroke
  unfold Box.toXml
  split
  · exact hrect
  · rename_i i hi
    obtain ⟨he, hl⟩ := hhooks i hi
    have hid := isChar_repr_int i
    -- the group carries the id, and a script for each hook that is one
    cases hse : Hook.script? b.onEnter <;> cases hsl : Hook.script? b.onLeave <;>
      simp_all +decide [Hook.writable, Xml.Element.writable, Xml.Element.wellFormed,
        Xml.Element.wellFormedList]

theorem Label.toXml_writable (hβ : Coordinate.TextIsChar β) (l : Label β)
    (htext : ∀ c ∈ l.text.toList, isChar c = true) : l.toXml.writable = true := by
  have hanchor : ∀ c ∈ l.anchor.name.toList, isChar c = true := by
    cases l.anchor <;> simp [TextAnchor.name, isChar, inRanges]
  simp +decide [Label.toXml, ink, Xml.Element.writable, Xml.Element.wellFormed,
    Xml.Element.wellFormedList]
  exact ⟨⟨hβ l.x, hβ l.y, isChar_toDigits l.fontSize, hanchor⟩, htext⟩

theorem Point.isChar_text (hβ : Coordinate.TextIsChar β) (p : Point β) :
    ∀ c ∈ p.text.toList, isChar c = true := by
  simp only [Point.text, String.toList_append, List.mem_append]
  rintro c ((hc | hc) | hc)
  · exact hβ p.x c hc
  · simp only [String.reduceToList, List.mem_singleton] at hc
    subst hc
    rfl
  · exact hβ p.y c hc

theorem Arrow.toXml_writable (hβ : Coordinate.TextIsChar β) (a : Arrow β) :
    ∀ g ∈ a.toXml, g.writable = true := by
  rcases h : a.head with ⟨first, tip, last⟩
  simp +decide [Arrow.toXml, h, ink, Xml.Element.writable, Xml.Element.wellFormed,
    Xml.Element.wellFormedList]
  exact ⟨⟨Point.isChar_text hβ first, Point.isChar_text hβ tip, Point.isChar_text hβ last⟩,
    Point.isChar_text hβ a.start, Point.isChar_text hβ a.control1, Point.isChar_text hβ a.control2,
    Point.isChar_text hβ a.finish⟩

/-- What a drawing needs for its document to be well formed: the texts of its labels and
the strokes of its boxes are in XML characters, and so are the scripts of its boxes with
ids. -/
structure Shapes.Writable (s : Shapes β) : Prop where
  labels : ∀ l ∈ s.labels, ∀ c ∈ l.text.toList, isChar c = true
  strokes : ∀ b ∈ s.boxes, ∀ c ∈ b.stroke.toList, isChar c = true
  hooks : ∀ b ∈ s.boxes, ∀ i, b.nodeId = some i →
    Hook.writable b.onEnter = true ∧ Hook.writable b.onLeave = true

/-- **A drawing's document is well formed** when its numbers, label texts, strokes,
scripts and title are written in XML characters. -/
theorem Shapes.toSvg_writable (hβ : Coordinate.TextIsChar β) {s : Shapes β} (hs : s.Writable)
    (w h : β) {title : Option String} (htitle : ∀ t ∈ title, ∀ c ∈ t.toList, isChar c = true) :
    (s.toSvg w h title).writable = true := by
  simp +decide [Shapes.toSvg, svgNamespace, Xml.Element.writable, Xml.Element.wellFormed]
  refine ⟨⟨hβ w, hβ h, hβ w, hβ h⟩, (Xml.Element.wellFormedList_iff _).mpr fun g hg => ?_⟩
  simp only [List.mem_append, List.mem_map, List.mem_flatten] at hg
  rcases hg with ht | ⟨b, hb, rfl⟩ | ⟨l, hl, rfl⟩ | ⟨xs, ⟨a, -, rfl⟩, hg⟩
  · -- the title, when there is one
    rcases title with _ | t
    · simp at ht
    · have htc := htitle t rfl
      by_cases hte : t = ""
      · simp [hte] at ht
      · simp only [hte, if_false, List.mem_singleton] at ht
        subst ht
        simp +decide [Xml.Element.wellFormed, Xml.Element.wellFormedList]
        exact htc
  · exact Box.toXml_writable hβ b (hs.strokes b hb) (hs.hooks b hb)
  · exact Label.toXml_writable hβ l (hs.labels l hl)
  · exact Arrow.toXml_writable hβ a g hg

end Document

/-! ## 5. The drawing of a regex is well formed -/

/-- Numbers in sixths of a pixel are written in XML characters. -/
theorem Sixths.textIsChar : Coordinate.TextIsChar Sixths :=
  fun x c hc => isChar_of_numberChar (Sixths.numberChar_text x c hc)

theorem isChar_of_builderGlyph {c : Char} (h : builderGlyph c = true) : isChar c = true := by
  simp only [builderGlyph, Bool.or_eq_true, beq_iff_eq] at h
  rcases h with ((((((hd | rfl) | rfl) | rfl) | rfl) | rfl) | rfl) | rfl
  · exact isChar_of_numberChar (by simp [numberChar, hd])
  all_goals decide

/-- A tone's stroke colour is written in XML characters. -/
theorem Tone.isChar_stroke (t : Tone) : ∀ c ∈ t.stroke.toList, isChar c = true := by
  refine List.all_eq_true.mp ?_
  -- each colour as a list of characters, checked one by one
  cases t <;> simp only [Tone.stroke, String.reduceToList] <;> decide

namespace Element

variable {β : Type} [Coordinate β]

mutual
/-- Every box an element draws is stroked in a colour written in XML characters. -/
theorem isChar_stroke_boxes :
    ∀ e : Element β, ∀ b ∈ e.boxes, ∀ c ∈ b.stroke.toList, isChar c = true
  | .leaf f l => by
    intro b hb
    simp only [boxes, List.mem_singleton] at hb
    subst hb
    exact Tone.isChar_stroke l.tone
  | .seq f s cs => by
    intro b hb
    rw [boxes, List.mem_append] at hb
    rcases hb with hb | hb
    · unfold groupBox? at hb
      split at hb
      · simp only [Option.toList_some, List.mem_singleton] at hb
        subst hb
        exact List.all_eq_true.mp (by simp only [groupStroke, String.reduceToList]; decide)
      · simp at hb
    · exact isChar_stroke_boxesOfList cs b hb
  | .choice _ cs => isChar_stroke_boxesOfList cs

theorem isChar_stroke_boxesOfList :
    ∀ es : List (Element β), ∀ b ∈ boxesOfList es, ∀ c ∈ b.stroke.toList, isChar c = true
  | [] => by simp [boxesOfList]
  | e :: es => by
    intro b hb
    rw [boxesOfList, List.mem_append] at hb
    exact hb.elim (isChar_stroke_boxes e b) (isChar_stroke_boxesOfList es b)
end

end Element

section Render

variable (hooks : Hooks) (r : Regex)

/-- The boxes of a rendering that carry an id bind the regex's anchors and atoms, each to
its hooks. -/
theorem Regex.filterMap_binding_render :
    (r.render hooks).shapes.boxes.filterMap Box.binding = r.boxIds.map fun i => (i, hooks i) := by
  show (r.build hooks).layout.drawn.boxes.filterMap Box.binding = _
  rw [Element.filterMap_binding_boxes, Element.drawn, Element.nodeBoxes_mapFrames,
    Element.nodeBoxes_layout, Regex.nodeBoxes_build]

/-- The labels of a rendering carry the label texts of the regex's diagram. -/
theorem Regex.map_text_render_labels :
    (r.render hooks).shapes.labels.map Label.text = (r.build hooks).labelTexts := by
  show (r.build hooks).layout.drawn.labels.map Label.text = _
  rw [Element.map_text_labels, Element.drawn, Element.labelTexts_mapFrames,
    Element.labelTexts_layout]

/-- The drawing of a regex is writable when its pattern text and the scripts of its hooks
are in XML characters. -/
theorem Regex.render_shapes_writable (htext : ∀ c ∈ r.text.toList, isChar c = true)
    (hhooks : ∀ i, Hook.writable (hooks i).1 = true ∧ Hook.writable (hooks i).2 = true) :
    (r.render hooks).shapes.Writable where
  labels l hl c hc := by
    have hmem : l.text ∈ (r.build hooks).labelTexts := by
      rw [← Regex.map_text_render_labels]
      exact List.mem_map_of_mem hl
    rcases Regex.labelsFrom_build hooks r l.text hmem c hc with h | h
    · exact htext c h
    · exact isChar_of_builderGlyph h
  strokes b hb := Element.isChar_stroke_boxes _ b hb
  hooks b hb i hi := by
    -- a box with an id carries the hooks the factory gives for that id
    have hbind : (i, b.onEnter, b.onLeave) ∈ (r.render hooks).shapes.boxes.filterMap Box.binding :=
      List.mem_filterMap.mpr ⟨b, hb, by simp [Box.binding, hi]⟩
    rw [Regex.filterMap_binding_render] at hbind
    obtain ⟨j, -, hj⟩ := List.mem_map.mp hbind
    simp only [Prod.mk.injEq] at hj
    obtain ⟨rfl, hj⟩ := hj
    have hw := hhooks j
    rwa [hj] at hw

end Render

section Filters

variable {β : Type} [Coordinate β]

theorem Shapes.filter_name_boxes (s : Shapes β) (n : String) (hg : n ≠ "g") (hr : n ≠ "rect") :
    (s.boxes.map Box.toXml).filter (fun g => g.name == n) = [] := by
  refine List.filter_eq_nil_iff.mpr fun g hg' => ?_
  obtain ⟨b, -, rfl⟩ := List.mem_map.mp hg'
  rw [Box.name_toXml]
  split <;> simp [Ne.symm hg, Ne.symm hr]

theorem Shapes.filter_name_labels (s : Shapes β) (n : String) :
    (s.labels.map Label.toXml).filter (fun g => g.name == n) =
      if n = "text" then s.labels.map Label.toXml else [] := by
  split
  · refine List.filter_eq_self.mpr fun g hg => ?_
    obtain ⟨l, -, rfl⟩ := List.mem_map.mp hg
    simp_all [Label.toXml, Xml.Element.name]
  · rename_i hn
    refine List.filter_eq_nil_iff.mpr fun g hg => ?_
    obtain ⟨l, -, rfl⟩ := List.mem_map.mp hg
    simp [Label.toXml, Xml.Element.name, Ne.symm hn]

theorem Shapes.filter_name_arrows (s : Shapes β) (n : String) (hp : n ≠ "path") :
    (s.arrows.map Arrow.toXml).flatten.filter (fun g => g.name == n) = [] := by
  refine List.filter_eq_nil_iff.mpr fun g hg => ?_
  obtain ⟨xs, hxs, hg⟩ := List.mem_flatten.mp hg
  obtain ⟨a, -, rfl⟩ := List.mem_map.mp hxs
  simp only [Arrow.toXml, List.mem_cons, List.not_mem_nil, or_false] at hg
  rcases hg with rfl | rfl <;> simp [Xml.Element.name, Ne.symm hp]

/-- The title of a drawing's document: one element, when the title is not empty. -/
theorem Shapes.filter_title_toSvg (s : Shapes β) (w h : β) (t : String) :
    (s.toSvg w h (some t)).children.filter (fun g => g.name == "title") =
      if t = "" then [] else [.mk "title" [] t []] := by
  simp only [Shapes.toSvg, Xml.Element.children, List.filter_append,
    s.filter_name_boxes "title" (by decide) (by decide), s.filter_name_labels,
    s.filter_name_arrows "title" (by decide)]
  split <;> simp [Xml.Element.name]

/-- The `text` elements of a drawing's document: one for each label. -/
theorem Shapes.filter_text_toSvg (s : Shapes β) (w h : β) (t : String) :
    (s.toSvg w h (some t)).children.filter (fun g => g.name == "text") =
      s.labels.map Label.toXml := by
  simp only [Shapes.toSvg, Xml.Element.children, List.filter_append,
    s.filter_name_boxes "text" (by decide) (by decide), s.filter_name_labels,
    s.filter_name_arrows "text" (by decide)]
  split <;> simp [Xml.Element.name]

end Filters

/-! ## 6. What a reader finds in the SVG text of a rendering -/

section Reading

variable (hooks : Hooks) (r : Regex)

/-- The SVG document of a rendering, before it is written as text: its title is the
regex's pattern text. -/
def Regex.svgDocument : Xml.Element :=
  (r.render hooks).shapes.toSvg (Coordinate.ofInt (r.render hooks).canvas.1)
    (Coordinate.ofInt (r.render hooks).canvas.2) (some r.text)

/-- The SVG text of a rendering reads back as its document, with the line ends of its
texts normalized and the writer's layout, when the pattern text and the hooks' scripts
are in XML characters. -/
theorem Regex.read_render_svg (htext : ∀ c ∈ r.text.toList, isChar c = true)
    (hhooks : ∀ i, Hook.writable (hooks i).1 = true ∧ Hook.writable (hooks i).2 = true) :
    Xml.read (r.render hooks).svg = some ((r.svgDocument hooks).normalized.indented 0) := by
  have htitle : ∀ t ∈ some r.text, ∀ c ∈ t.toList, isChar c = true := by
    intro t ht
    cases ht
    exact htext
  exact Xml.Element.read_toText
    (Shapes.toSvg_writable Sixths.textIsChar (Regex.render_shapes_writable hooks r htext hhooks)
      _ _ htitle)

/-- What a reader finds as the title: the pattern text with its line ends normalized,
unless it is empty. -/
theorem Regex.titles_read :
    (((r.svgDocument hooks).normalized.indented 0).childrenNamed "title").map Xml.Tree.text =
      if r.text = "" then [] else [Xml.normalizeText r.text] := by
  rw [Xml.Element.childrenNamed_indented_normalized, Regex.svgDocument, Shapes.filter_title_toSvg]
  split <;> simp [Xml.Element.normalized, Xml.Tree.text]

/-- What a reader finds as the `text` elements: the label texts of the regex's diagram, in
order, with their line ends normalized. -/
theorem Regex.texts_read :
    (((r.svgDocument hooks).normalized.indented 0).childrenNamed "text").map Xml.Tree.text =
      (r.build hooks).labelTexts.map Xml.normalizeText := by
  rw [Xml.Element.childrenNamed_indented_normalized, Regex.svgDocument, Shapes.filter_text_toSvg,
    ← Regex.map_text_render_labels]
  simp [Label.toXml, Xml.Element.normalized, Xml.Tree.text]

/-- What a reader finds as the groups: one for each anchor and atom of the regex, carrying
its id and, for each hook that is a script, that script. -/
theorem Regex.groups_read :
    List.Forall₂ (fun i g => g.attributes.lookup "data-node-id" = some (toString i) ∧
        g.attributes.lookup "onmouseenter" = Hook.script? (hooks i).1 ∧
        g.attributes.lookup "onmouseleave" = Hook.script? (hooks i).2)
      r.boxIds (((r.svgDocument hooks).normalized.indented 0).childrenNamed "g") := by
  have hg := Shapes.groups_toSvg (r.render hooks).shapes
    (Coordinate.ofInt (r.render hooks).canvas.1) (Coordinate.ofInt (r.render hooks).canvas.2)
    (some r.text)
  rw [Regex.filterMap_binding_render, List.forall₂_map_left_iff] at hg
  rw [Xml.Element.childrenNamed_indented_normalized, List.forall₂_map_right_iff]
  exact hg.imp fun i g h =>
    ⟨by simpa using h.nodeId_eq, by simpa using h.enter_eq, by simpa using h.leave_eq⟩

end Reading

/-- The highlight hooks write their scripts in XML characters when the id prefix and the
class name are. -/
theorem Hooks.highlight_writable {idPrefix cssClass : String}
    (hp : ∀ c ∈ idPrefix.toList, isChar c = true) (hc : ∀ c ∈ cssClass.toList, isChar c = true)
    (i : Int) :
    Hook.writable (Hooks.highlight idPrefix cssClass i).1 = true ∧
      Hook.writable (Hooks.highlight idPrefix cssClass i).2 = true := by
  simp +decide [Hooks.highlight, Hook.writable, Hook.script?]
  exact ⟨hp, isChar_repr_int i, hc⟩

/-- **The SVG text of a rendering reads back.** For every regex whose pattern text is in
XML characters, and every hook factory whose scripts are, the SVG text of its rendering
is a well-formed XML document, and a reader gives back its document: the title is the
pattern text, the `text` elements hold the labels, captions and group labels of the
diagram in order, and each anchor and atom has its group with its id and the scripts of
its hooks, exactly as written. The one change is the one XML makes to every text: line
ends in the title and labels are normalized, a carriage return becoming a line feed. -/
theorem Regex.render_svg_reads_back (hooks : Hooks) (r : Regex)
    (htext : ∀ c ∈ r.text.toList, isChar c = true)
    (hhooks : ∀ i, Hook.writable (hooks i).1 = true ∧ Hook.writable (hooks i).2 = true) :
    ∃ t : Xml.Tree, Xml.read (r.render hooks).svg = some t ∧
      t = (r.svgDocument hooks).normalized.indented 0 ∧
      (t.childrenNamed "title").map Xml.Tree.text =
        (if r.text = "" then [] else [Xml.normalizeText r.text]) ∧
      (t.childrenNamed "text").map Xml.Tree.text =
        (r.build hooks).labelTexts.map Xml.normalizeText ∧
      List.Forall₂ (fun i g => g.attributes.lookup "data-node-id" = some (toString i) ∧
          g.attributes.lookup "onmouseenter" = Hook.script? (hooks i).1 ∧
          g.attributes.lookup "onmouseleave" = Hook.script? (hooks i).2)
        r.boxIds (t.childrenNamed "g") :=
  ⟨_, Regex.read_render_svg hooks r htext hhooks, rfl, Regex.titles_read hooks r,
    Regex.texts_read hooks r, Regex.groups_read hooks r⟩

/-- The regex `ab`, its characters numbered 1 and 2. -/
def twoCharRegex : Regex :=
  .mk [.mk [.quantified (.char "a" 1) none true, .quantified (.char "b" 2) none true]]

/-- The SVG text of `ab` with the default highlight hooks reads back. -/
theorem Regex.render_svg_reads_back_ab :
    (∀ c ∈ twoCharRegex.text.toList, isChar c = true) ∧
    (∀ i, Hook.writable (Hooks.highlight "regex_" "highlight" i).1 = true ∧
      Hook.writable (Hooks.highlight "regex_" "highlight" i).2 = true) ∧
    ∃ t : Xml.Tree,
      Xml.read (twoCharRegex.render (Hooks.highlight "regex_" "highlight")).svg = some t ∧
      t = (twoCharRegex.svgDocument (Hooks.highlight "regex_" "highlight")).normalized.indented 0 ∧
      (t.childrenNamed "title").map Xml.Tree.text =
        (if twoCharRegex.text = "" then [] else [Xml.normalizeText twoCharRegex.text]) ∧
      (t.childrenNamed "text").map Xml.Tree.text =
        (twoCharRegex.build (Hooks.highlight "regex_" "highlight")).labelTexts.map
          Xml.normalizeText ∧
      List.Forall₂ (fun i g => g.attributes.lookup "data-node-id" = some (toString i) ∧
          g.attributes.lookup "onmouseenter" =
            Hook.script? (Hooks.highlight "regex_" "highlight" i).1 ∧
          g.attributes.lookup "onmouseleave" =
            Hook.script? (Hooks.highlight "regex_" "highlight" i).2)
        twoCharRegex.boxIds (t.childrenNamed "g") := by
  have htext : ∀ c ∈ twoCharRegex.text.toList, isChar c = true := by
    simp [twoCharRegex, Regex.text, Alternative.listText, Alternative.text, Term.listText,
      Term.text, Atom.text, isChar, inRanges]
  have hhooks : ∀ i, Hook.writable (Hooks.highlight "regex_" "highlight" i).1 = true ∧
      Hook.writable (Hooks.highlight "regex_" "highlight" i).2 = true :=
    Hooks.highlight_writable (by simp [isChar, inRanges]) (by simp [isChar, inRanges])
  exact ⟨htext, hhooks, Regex.render_svg_reads_back _ _ htext hhooks⟩

/-! ## 7. Characters outside XML

A character that is no XML character is written raw wherever it stands in a text, so
the written form holds it; a carriage return is an XML character but reads back as a
line feed. -/

/-- The written children hold the written form of each child. -/
theorem Xml.Element.write_subset_writeChildren (level : Nat) {c : Xml.Element}
    {cs : List Xml.Element} (h : c ∈ cs) :
    (c.write level).toList ⊆ (Xml.Element.writeChildren level cs).toList := by
  induction cs with
  | nil => simp at h
  | cons d ds ih =>
    cases ds with
    | nil =>
      rw [List.mem_singleton] at h
      subst h
      simp [Xml.Element.writeChildren]
    | cons d' ds =>
      intro x hx
      rcases List.mem_cons.mp h with rfl | h
      · simp [Xml.Element.writeChildren, hx]
      · simp [Xml.Element.writeChildren, ih h hx]

/-- The written form of an element holds the written form of each of its children. -/
theorem Xml.Element.write_subset_of_mem_children (e : Xml.Element) (level : Nat)
    {c : Xml.Element} (hc : c ∈ e.children) :
    (c.write (level + 1)).toList ⊆ (e.write level).toList := by
  obtain ⟨name, attrs, text, _ | ⟨d, ds⟩⟩ := e
  · simp [Xml.Element.children] at hc
  · simp only [Xml.Element.children] at hc
    intro x hx
    have hx' := Xml.Element.write_subset_writeChildren (level + 1) hc hx
    simp [Xml.Element.write, hx']

/-- The pattern text of a regex of one plain character is that character. -/
theorem Regex.text_single_char (v : String) (id : Int) :
    (Regex.mk [.mk [.quantified (.char v id) none true]]).text = v := by
  simp [Regex.text, Alternative.listText, Alternative.text, Term.listText, Term.text, Atom.text]

/-- The regex whose one term is the control character U+0001. -/
def controlCharRegex : Regex := .mk [.mk [.quantified (.char "\x01" 1) none true]]

/-- The regex whose one term is a carriage return. -/
def carriageReturnRegex : Regex := .mk [.mk [.quantified (.char "\r" 1) none true]]

/-- **What fails without XML characters.** The SVG text of a character that is no XML
character holds it raw, so it is no XML document; and a carriage return in the pattern
text, which is an XML character, reads back from the title as a line feed. -/
theorem Regex.render_svg_breaks_on_control_characters :
    (∃ c ∈ (controlCharRegex.render (Hooks.highlight "regex_" "highlight")).svg.toList,
      isChar c = false) ∧
    carriageReturnRegex.text = "\r" ∧
    ∃ t : Xml.Tree,
      Xml.read (carriageReturnRegex.render (Hooks.highlight "regex_" "highlight")).svg = some t ∧
      (t.childrenNamed "title").map Xml.Tree.text = ["\n"] := by
  have hcr : carriageReturnRegex.text = "\r" := Regex.text_single_char _ _
  have hhooks : ∀ i, Hook.writable (Hooks.highlight "regex_" "highlight" i).1 = true ∧
      Hook.writable (Hooks.highlight "regex_" "highlight" i).2 = true :=
    Hooks.highlight_writable (by simp [isChar, inRanges]) (by simp [isChar, inRanges])
  -- U+0001 stands raw in the title, which is a child of the document
  have htitle : Xml.Element.mk "title" [] "\x01" [] ∈
      (controlCharRegex.svgDocument (Hooks.highlight "regex_" "highlight")).children := by
    simp [Regex.svgDocument, Shapes.toSvg, Xml.Element.children, controlCharRegex,
      Regex.text_single_char]
  have hraw : '\x01' ∈ ((Xml.Element.mk "title" [] "\x01" []).write 1).toList := by
    simp [Xml.Element.write, Xml.escapeText, Xml.escapeTextChar]
  -- a carriage return is an XML character, and alone it becomes a line feed
  have hread := Regex.read_render_svg (Hooks.highlight "regex_" "highlight") carriageReturnRegex
    (by simp [hcr, isChar, inRanges]) hhooks
  refine ⟨⟨'\x01', Xml.Element.write_subset_of_mem_children _ 0 htitle hraw, by decide⟩, hcr, _,
    hread, ?_⟩
  rw [Regex.titles_read, hcr]
  simp only [String.reduceToList, normalizeText, if_neg (by decide : ("\r" : String) ≠ ""),
    normalizeLineEnds.eq_2 [] (fun _ h => List.cons_ne_nil _ _ h.symm), normalizeLineEnds.eq_4]

end PatternChart
