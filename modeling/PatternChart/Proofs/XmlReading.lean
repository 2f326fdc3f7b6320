import Mathlib
import PatternChart.Xml.Basic
import PatternChart.Proofs.Parsing
/-!
# Reading written XML back

An XML processor reads a text in two steps (XML 1.0, fifth edition). It first
normalizes line ends: a carriage return, alone or followed by a line feed, becomes one
line feed (§2.11). It then reads the grammar of §2 and §3. `Xml.read` is such a reader
for documents made of elements, attributes, character data and references. It refuses
what these documents never hold: comments, processing instructions, CDATA sections, a
document type declaration and an XML declaration. So a text it accepts is a well-formed
document, in which

* every character is a `Char` of production [2] (`Xml.isChar`),
* element and attribute names are `Name`s of production [5] (`Xml.isName`),
* every end tag names its start tag, and no attribute is given twice,
* no attribute value holds `<` and no character data holds `]]>`,
* every reference is a character reference to an XML character or one of the five
  predefined entities.

What the reader gives back (`Xml.Tree`) is the tree as ElementTree keeps it: for each
element its name, its attributes in order with their values after attribute-value
normalization (§3.3.3: a blank becomes a space, a reference stands for its character),
the text before its first child, and each child with the text that follows it.

The main result, `Xml.Element.read_toText`, is that the written form of an element reads
back as the element with the layout the writer adds (`Xml.Element.indented`) and with
the line ends of its texts normalized (`Xml.Element.normalized`), as long as the element
has XML names, distinct attribute names and only XML characters (`Xml.Element.writable`).
A carriage return is the one character that does not read back as written: the writer
puts it raw into character data, where line-end handling turns it into a line feed, and
writes it as a reference in an attribute value, which reads back exactly. The proof
reads the normalized element, which holds no carriage return in its texts
(`Xml.Element.readable`), after showing that line-end handling of the written form is
the written form of the normalized element (`Xml.normalizeLineEnds_write`). Nesting is
bounded by a fuel argument; the length of the text is always enough.
-/

set_option autoImplicit false

namespace PatternChart.Xml

/-! ## 1. Characters and names -/

/-- Whether a code point lies in one of a list of closed ranges. -/
def inRanges (n : Nat) (ranges : List (Nat × Nat)) : Bool :=
  ranges.any fun (lo, hi) => decide (lo ≤ n ∧ n ≤ hi)

/-- The characters of XML 1.0 (production [2]). -/
def isChar (c : Char) : Bool :=
  inRanges c.toNat [(0x9, 0xA), (0xD, 0xD), (0x20, 0xD7FF), (0xE000, 0xFFFD), (0x10000, 0x10FFFF)]

/-- White space (production [3]). -/
def isSpace (c : Char) : Bool := c = ' ' || c = '\t' || c = '\r' || c = '\n'

/-- The characters a name may start with (production [4]). -/
def isNameStartChar (c : Char) : Bool :=
  inRanges c.toNat [(0x3A, 0x3A), (0x41, 0x5A), (0x5F, 0x5F), (0x61, 0x7A), (0xC0, 0xD6),
    (0xD8, 0xF6), (0xF8, 0x2FF), (0x370, 0x37D), (0x37F, 0x1FFF), (0x200C, 0x200D),
    (0x2070, 0x218F), (0x2C00, 0x2FEF), (0x3001, 0xD7FF), (0xF900, 0xFDCF), (0xFDF0, 0xFFFD),
    (0x10000, 0xEFFFF)]

/-- The characters a name may go on with (production [4a]). -/
def isNameChar (c : Char) : Bool :=
  isNameStartChar c ||
    inRanges c.toNat [(0x2D, 0x2E), (0x30, 0x39), (0xB7, 0xB7), (0x300, 0x36F), (0x203F, 0x2040)]

/-- Whether a text is a name (production [5]). -/
def isName (s : String) : Bool :=
  match s.toList with
  | c :: cs => isNameStartChar c && cs.all isNameChar
  | [] => false

/-- Whether a character is written and read back unchanged in character data: an XML
character other than a carriage return, which line-end handling would turn into a line
feed. -/
def isTextChar (c : Char) : Bool := isChar c && c != '\r'

/-- End-of-line handling (§2.11): a carriage return, alone or before a line feed, becomes
a line feed. -/
def normalizeLineEnds : List Char → List Char
  | '\r' :: '\n' :: s => '\n' :: normalizeLineEnds s
  | '\r' :: s => '\n' :: normalizeLineEnds s
  | c :: s => c :: normalizeLineEnds s
  | [] => []

/-! ## 2. The reader -/

/-- An element as a reader gives it back: its name, its attributes in order, the text
before its first child, and each child with the text that follows it. -/
inductive Tree where
  | mk (name : String) (attributes : List (String × String)) (text : String)
      (children : List (Tree × String))

namespace Tree

/-- The element's name. -/
def name : Tree → String
  | .mk n _ _ _ => n

/-- The element's attributes, in order. -/
def attributes : Tree → List (String × String)
  | .mk _ attrs _ _ => attrs

/-- The text before the element's first child. -/
def text : Tree → String
  | .mk _ _ t _ => t

/-- The element's children, each with the text that follows it. -/
def children : Tree → List (Tree × String)
  | .mk _ _ _ cs => cs

/-- The child elements of a given name, in document order. -/
def childrenNamed (t : Tree) (n : String) : List Tree :=
  (t.children.map Prod.fst).filter fun c => c.name == n

end Tree

/-- Reads a name, as far as its characters go. -/
def readName : List Char → Option (String × List Char)
  | c :: s =>
    if isNameStartChar c then some (String.ofList (c :: s.takeWhile isNameChar), s.dropWhile isNameChar)
    else none
  | [] => none

/-- The character a predefined entity stands for (§4.6). -/
def predefinedEntity : String → Option Char
  | "amp" => some '&'
  | "lt" => some '<'
  | "gt" => some '>'
  | "quot" => some '"'
  | "apos" => some '\x27'
  | _ => none

/-- The XML character with a code point, if there is one. -/
def charOfCode (n : Nat) : Option Char :=
  if isChar (Char.ofNat n) && (Char.ofNat n).toNat == n then some (Char.ofNat n) else none

/-- The value of a hexadecimal digit. -/
def hexDigit? (c : Char) : Option Nat :=
  if c.isDigit then some (c.toNat - '0'.toNat)
  else if 'a' ≤ c ∧ c ≤ 'f' then some (c.toNat - 'a'.toNat + 10)
  else if 'A' ≤ c ∧ c ≤ 'F' then some (c.toNat - 'A'.toNat + 10)
  else none

/-- Reads a nonempty run of hexadecimal digits after a value read so far. -/
def readHexFrom (acc : Nat) : List Char → Option (Nat × List Char)
  | c :: s =>
    match hexDigit? c with
    | some d => some ((readHexFrom (16 * acc + d) s).getD (16 * acc + d, s))
    | none => none
  | [] => none

/-- Reads a reference after its ampersand (production [67]): a decimal or hexadecimal
character reference to an XML character, or a predefined entity. -/
def readReference (s : List Char) : Option (Char × List Char) :=
  match s with
  | '#' :: 'x' :: s₁ =>
    match readHexFrom 0 s₁ with
    | some (n, ';' :: s₂) => (charOfCode n).map fun c => (c, s₂)
    | _ => none
  | '#' :: s₁ =>
    match parseNumber s₁ with
    | some (n, ';' :: s₂) => (charOfCode n).map fun c => (c, s₂)
    | _ => none
  | _ =>
    match readName s with
    | some (name, ';' :: s₂) => (predefinedEntity name).map fun c => (c, s₂)
    | _ => none

/-- Reads an attribute value up to its closing quote `q` (production [10]), normalized:
a blank becomes a space and a reference its character (§3.3.3). -/
def readAttValue (q : Char) : Nat → List Char → Option (List Char × List Char)
  | 0, _ => none
  | n + 1, c :: s =>
    if c = q then some ([], s)
    else if c = '<' then none
    else if c = '&' then
      match readReference s with
      | some (r, s₁) => (readAttValue q n s₁).map fun (v, s₂) => (r :: v, s₂)
      | none => none
    else if isSpace c then (readAttValue q n s).map fun (v, s₂) => (' ' :: v, s₂)
    else if isChar c then (readAttValue q n s).map fun (v, s₂) => (c :: v, s₂)
    else none
  | _ + 1, [] => none

/-- Reads an attribute (production [41]): a name, `=` with optional blanks around it, and
a value in double or single quotes. -/
def readAttribute (n : Nat) (s : List Char) : Option ((String × String) × List Char) :=
  match readName s with
  | some (k, s₁) =>
    match s₁.dropWhile isSpace with
    | '=' :: s₂ =>
      match s₂.dropWhile isSpace with
      | q :: s₃ =>
        if q = '"' ∨ q = '\x27' then
          (readAttValue q n s₃).map fun (v, s₄) => ((k, String.ofList v), s₄)
        else none
      | [] => none
    | _ => none
  | none => none

/-- Reads the attributes of a start tag, each after white space, up to the end of the
tag, and tells whether it closes an empty element (`/>`) or opens content (`>`).
`spaced` tells whether white space was read since the last name or value. -/
def readAttributes : Nat → Bool → List Char → Option (List (String × String) × Bool × List Char)
  | 0, _, _ => none
  | _ + 1, _, '>' :: s => some ([], false, s)
  | _ + 1, _, '/' :: '>' :: s => some ([], true, s)
  | n + 1, spaced, c :: s =>
    if isSpace c then readAttributes n true s
    else if spaced then
      match readAttribute n (c :: s) with
      | some (a, s₁) => (readAttributes n false s₁).map fun (as, e, s₂) => (a :: as, e, s₂)
      | none => none
    else none
  | _ + 1, _, [] => none

mutual
/-- Reads an element (production [39]): its start tag and, unless it is empty, its
content up to the end tag. -/
def readElement : Nat → List Char → Option (Tree × List Char)
  | n + 1, '<' :: s =>
    match readName s with
    | some (name, s₁) =>
      match readAttributes n false s₁ with
      | some (attrs, empty, s₂) =>
        if (attrs.map Prod.fst).Nodup then
          if empty then some (.mk name attrs "" [], s₂)
          else
            (readContent n name s₂).map fun ((text, children), s₃) =>
              (.mk name attrs (String.ofList text) children, s₃)
        else none
      | none => none
    | none => none
  | _, _ => none

/-- Reads content up to the end tag of the element named `name` (production [43]): the
characters before the first child element and each child element with the characters
that follow it. -/
def readContent : Nat → String → List Char →
    Option ((List Char × List (Tree × String)) × List Char)
  | 0, _, _ => none
  | _ + 1, name, '<' :: '/' :: s =>
    match readName s with
    | some (name', s₁) =>
      match s₁.dropWhile isSpace with
      | '>' :: s₂ => if name' = name then some (([], []), s₂) else none
      | _ => none
    | none => none
  | n + 1, name, '<' :: s =>
    match readElement n ('<' :: s) with
    | some (t, s₁) =>
      (readContent n name s₁).map fun ((tail, children), s₂) =>
        (([], (t, String.ofList tail) :: children), s₂)
    | none => none
  | n + 1, name, '&' :: s =>
    match readReference s with
    | some (c, s₁) => (readContent n name s₁).map fun ((text, children), s₂) => ((c :: text, children), s₂)
    | none => none
  | n + 1, name, c :: s =>
    if isChar c && !(c = ']' && s.take 2 = [']', '>']) then
      (readContent n name s).map fun ((text, children), s₂) => ((c :: text, children), s₂)
    else none
  | _ + 1, _, [] => none
end

/-- Reads a document (production [1]): one element, with nothing but white space around
it. -/
def readDocument (n : Nat) (s : List Char) : Option Tree :=
  match readElement n (s.dropWhile isSpace) with
  | some (t, s₁) => if s₁.all isSpace then some t else none
  | none => none

/-- What an XML processor reads from a text when it is a well-formed document. -/
def read (s : String) : Option Tree := readDocument (s.length + 1) (normalizeLineEnds s.toList)

/-! ## 3. What a written element reads back as -/

mutual
/-- The tree a written element reads back as: an element with children has the line
break and indentation before its first child as its text, unless its text holds more
than blanks, and each child has the line break and indentation that follow it. -/
def Element.indented (level : Nat) : Element → Tree
  | .mk name attrs text [] => .mk name attrs text []
  | .mk name attrs text (c :: cs) =>
    .mk name attrs (if isBlank text then indent (level + 1) else text)
      (Element.indentedChildren (level + 1) (indent level) (c :: cs))

/-- Children as they read back at a level: each with the line break and indentation
before the next, the last one with `tail`. -/
def Element.indentedChildren (level : Nat) (tail : String) : List Element → List (Tree × String)
  | [] => []
  | [c] => [(c.indented level, tail)]
  | c :: cs => (c.indented level, indent level) :: Element.indentedChildren level tail cs
end

mutual
/-- Whether an element's written form is a well-formed document whose texts hold only
characters that pass `textChar`: its name and attribute names are XML names, no
attribute is given twice, its attribute values hold only XML characters, and so do its
children. -/
def Element.wellFormed (textChar : Char → Bool) : Element → Bool
  | .mk name attrs text cs =>
    isName name && decide (attrs.map Prod.fst).Nodup &&
      attrs.all (fun a => isName a.1 && a.2.toList.all isChar) && text.toList.all textChar &&
      Element.wellFormedList textChar cs

/-- Whether every element of a list is well formed. -/
def Element.wellFormedList (textChar : Char → Bool) : List Element → Bool
  | [] => true
  | c :: cs => c.wellFormed textChar && Element.wellFormedList textChar cs
end

/-- Whether an element's written form is a well-formed document: it holds only XML
characters. -/
def Element.writable (e : Element) : Bool := e.wellFormed isChar

/-- Whether an element's written form reads back with its texts as they are: it holds
only XML characters, and no carriage return in its texts. -/
def Element.readable (e : Element) : Bool := e.wellFormed isTextChar

/-- A text with its line ends normalized, as a reader sees it. -/
def normalizeText (s : String) : String := String.ofList (normalizeLineEnds s.toList)

mutual
/-- An element with the line ends of its texts normalized. -/
def Element.normalized : Element → Element
  | .mk name attrs text cs => .mk name attrs (normalizeText text) (Element.normalizedList cs)

/-- Elements with the line ends of their texts normalized. -/
def Element.normalizedList : List Element → List Element
  | [] => []
  | c :: cs => c.normalized :: Element.normalizedList cs
end

/-! ## 4. Reading single tokens -/

theorem readName_append {s : String} (hs : isName s = true) {rest : List Char}
    (hrest : rest.head?.any isNameChar = false) : readName (s.toList ++ rest) = some (s, rest) := by
  unfold isName at hs
  cases h : s.toList with
  | nil => simp [h] at hs
  | cons c cs =>
    simp only [h, Bool.and_eq_true, List.all_eq_true] at hs
    have htake : (cs ++ rest).takeWhile isNameChar = cs := by
      rw [List.takeWhile_append_of_pos hs.2]
      cases rest with
      | nil => simp
      | cons d ds => simp_all
    have hdrop : (cs ++ rest).dropWhile isNameChar = rest := by
      rw [List.dropWhile_append_of_pos hs.2]
      cases rest with
      | nil => simp
      | cons d ds => simp_all
    rw [List.cons_append]
    simp only [readName, hs.1, if_true, htake, hdrop]
    rw [← h, String.ofList_toList]

/-! ### Attribute values -/

/-- Each character of an attribute value, as the writer escapes it, reads back as
itself. -/
theorem readAttValue_escape {c : Char} (hc : isChar c = true) (n : Nat) (s : List Char) :
    readAttValue '"' (n + 1) ((escapeAttributeChar c).toList ++ s) =
      (readAttValue '"' n s).map fun (v, s₂) => (c :: v, s₂) := by
  unfold escapeAttributeChar
  split
  · rfl
  · rfl
  · rfl
  · rfl
  · rfl
  · rfl
  · rfl
  · -- a character written as itself: a blank left is a space, which stays a space
    rename_i h₁ h₂ h₃ h₄ h₅ h₆ h₇
    by_cases hsp : isSpace c = true
    · have hc' : c = ' ' := by
        simp only [isSpace, Bool.or_eq_true, decide_eq_true_eq] at hsp
        rcases hsp with ((h | h) | h) | h <;> simp_all
      subst hc'
      rfl
    · simp only [Char.toString, String.toList_singleton, List.singleton_append, readAttValue]
      rw [if_neg h₄, if_neg h₂, if_neg h₁, if_neg hsp, if_pos hc]

theorem toList_escapeAttribute (v : String) :
    (escapeAttribute v).toList = v.toList.flatMap fun c => (escapeAttributeChar c).toList := by
  simp [escapeAttribute, List.flatMap_map]

/-- An escaped attribute value reads back up to its closing quote. -/
theorem readAttValue_text {v : List Char} (hv : ∀ c ∈ v, isChar c = true) {n : Nat}
    (hn : v.length < n) (s : List Char) :
    readAttValue '"' n ((v.flatMap fun c => (escapeAttributeChar c).toList) ++ '"' :: s) =
      some (v, s) := by
  induction v generalizing n with
  | nil =>
    obtain ⟨k, rfl⟩ : ∃ k, n = k + 1 := ⟨n - 1, by simp at hn; omega⟩
    simp [readAttValue]
  | cons c v ih =>
    obtain ⟨k, rfl⟩ : ∃ k, n = k + 1 := ⟨n - 1, by simp at hn; omega⟩
    rw [List.flatMap_cons, List.append_assoc, readAttValue_escape (hv c List.mem_cons_self),
      ih (fun d hd => hv d (List.mem_cons_of_mem c hd)) (by simp at hn; omega)]
    rfl

/-- Writing each character as at least one never shortens a text. -/
theorem length_le_flatMap (cs : List Char) {f : Char → List Char} (hf : ∀ c, f c ≠ []) :
    cs.length ≤ (cs.flatMap f).length := by
  induction cs with
  | nil => simp
  | cons c cs ih =>
    have hc : 1 ≤ (f c).length := List.length_pos_iff.mpr (hf c)
    simp only [List.flatMap_cons, List.length_append, List.length_cons]
    omega

/-- Escaping never shortens a value. -/
theorem length_le_escapeAttribute (v : String) :
    v.toList.length ≤ (escapeAttribute v).toList.length := by
  rw [toList_escapeAttribute]
  refine length_le_flatMap _ fun c => ?_
  unfold escapeAttributeChar
  split <;> simp

theorem dropWhile_isSpace_cons {c : Char} (hc : isSpace c = false) (s : List Char) :
    (c :: s).dropWhile isSpace = c :: s := by
  simp [hc]

theorem readAttribute_text {k v : String} (hk : isName k = true)
    (hv : ∀ c ∈ v.toList, isChar c = true) {n : Nat} (hn : v.toList.length < n) (s : List Char) :
    readAttribute n (k.toList ++ '=' :: '"' :: ((escapeAttribute v).toList ++ '"' :: s)) =
      some ((k, v), s) := by
  rw [readAttribute, readName_append hk rfl]
  simp only [dropWhile_isSpace_cons (rfl : isSpace '=' = false),
    dropWhile_isSpace_cons (rfl : isSpace '"' = false), toList_escapeAttribute]
  rw [if_pos (Or.inl trivial), readAttValue_text hv hn]
  simp

/-! ### Start tags -/

/-- How the writer ends a start tag: `>` before content, ` />` closing an empty element. -/
def tagClose (empty : Bool) : List Char := if empty then [' ', '/', '>'] else ['>']

theorem readAttributes_close (empty spaced : Bool) {n : Nat} (hn : (tagClose empty).length ≤ n)
    (s : List Char) : readAttributes n spaced (tagClose empty ++ s) = some ([], empty, s) := by
  cases empty with
  | false =>
    obtain ⟨k, rfl⟩ : ∃ k, n = k + 1 := ⟨n - 1, by simp [tagClose] at hn; omega⟩
    rfl
  | true =>
    obtain ⟨k, rfl⟩ : ∃ k, n = k + 2 := ⟨n - 2, by simp [tagClose] at hn; omega⟩
    rfl

theorem readAttributes_space (n : Nat) (spaced : Bool) (s : List Char) :
    readAttributes (n + 1) spaced (' ' :: s) = readAttributes n true s := rfl

theorem isNameChar_of_isNameStartChar {c : Char} (hc : isNameStartChar c = true) :
    isNameChar c = true := by
  simp [isNameChar, hc]

/-- Markup delimiters do not start names. -/
theorem ne_of_isNameStartChar {c : Char} (hc : isNameStartChar c = true) :
    c ≠ '>' ∧ c ≠ '/' ∧ c ≠ '#' ∧ isSpace c = false := by
  refine ⟨?_, ?_, ?_, ?_⟩
  · rintro rfl
    exact absurd hc (by decide)
  · rintro rfl
    exact absurd hc (by decide)
  · rintro rfl
    exact absurd hc (by decide)
  · cases hsp : isSpace c
    · rfl
    · simp only [isSpace, Bool.or_eq_true, decide_eq_true_eq] at hsp
      rcases hsp with ((rfl | rfl) | rfl) | rfl <;> exact absurd hc (by decide)

/-- After white space, a character that starts a name starts an attribute. -/
theorem readAttributes_attribute {n : Nat} {c : Char} {s s₁ : List Char} {a : String × String}
    (hc : isNameStartChar c = true) (h : readAttribute n (c :: s) = some (a, s₁)) :
    readAttributes (n + 1) true (c :: s) =
      (readAttributes n false s₁).map fun (as, e, s₂) => (a :: as, e, s₂) := by
  obtain ⟨h₁, h₂, -, hsp⟩ := ne_of_isNameStartChar hc
  rw [readAttributes.eq_def]
  split <;> simp_all

/-- A name has a first character, and it starts names. -/
theorem isName_cons {s : String} (hs : isName s = true) :
    ∃ c cs, s.toList = c :: cs ∧ isNameStartChar c = true := by
  unfold isName at hs
  cases h : s.toList with
  | nil => simp [h] at hs
  | cons c cs =>
    simp only [h, Bool.and_eq_true] at hs
    exact ⟨c, cs, rfl, hs.1⟩

/-- The attributes of a start tag, as the writer writes them, read back up to the end of
the tag. -/
theorem readAttributes_text {attrs : List (String × String)}
    (h : attrs.all (fun a => isName a.1 && a.2.toList.all isChar) = true) (empty spaced : Bool)
    {n : Nat} (hn : (attributesText attrs).toList.length + (tagClose empty).length ≤ n)
    (s : List Char) :
    readAttributes n spaced ((attributesText attrs).toList ++ tagClose empty ++ s) =
      some (attrs, empty, s) := by
  induction attrs generalizing n spaced with
  | nil => simpa [attributesText] using readAttributes_close empty spaced (by simpa [attributesText] using hn) s
  | cons a as ih =>
    obtain ⟨k, v⟩ := a
    simp only [List.all_cons, Bool.and_eq_true, List.all_eq_true] at h
    obtain ⟨⟨hk, hv⟩, has⟩ := h
    obtain ⟨c, cs, hcs, hc⟩ := isName_cons hk
    have htext : (attributesText ((k, v) :: as)).toList ++ tagClose empty ++ s =
        ' ' :: (k.toList ++ '=' :: '"' :: ((escapeAttribute v).toList ++ '"' ::
          ((attributesText as).toList ++ tagClose empty ++ s))) := by
      simp [attributesText]
    have hlen : (attributesText ((k, v) :: as)).toList.length =
        k.toList.length + (escapeAttribute v).toList.length + 4 + (attributesText as).toList.length := by
      simp [attributesText]
      omega
    have hv' := length_le_escapeAttribute v
    have hk' : k.toList.length = cs.length + 1 := by simp [hcs]
    obtain ⟨j, rfl⟩ : ∃ j, n = j + 2 := ⟨n - 2, by omega⟩
    -- a blank, then the attribute, then the others
    rw [htext, readAttributes_space, hcs, List.cons_append,
      readAttributes_attribute hc (by rw [← List.cons_append, ← hcs]; exact readAttribute_text hk (by simpa using hv) (by omega) _),
      ih (by simpa using has) false (by omega)]
    rfl

/-! ### Content -/

section Content

variable {n : Nat} {name : String} {s s₁ : List Char}

theorem readContent_char {c : Char} (hc : isChar c = true) (hlt : c ≠ '<') (hamp : c ≠ '&')
    (hend : ¬(c = ']' ∧ s.take 2 = [']', '>'])) :
    readContent (n + 1) name (c :: s) =
      (readContent n name s).map fun ((text, children), s₂) => ((c :: text, children), s₂) := by
  rw [readContent.eq_5 name n c s (fun _ h _ => hlt h) hlt hamp]
  simp [hc, hend]

theorem readContent_reference {c : Char} (h : readReference s = some (c, s₁)) :
    readContent (n + 1) name ('&' :: s) =
      (readContent n name s₁).map fun ((text, children), s₂) => ((c :: text, children), s₂) := by
  rw [readContent.eq_4, h]

theorem readContent_element {t : Tree} (hs : s.head? ≠ some '/')
    (h : readElement n ('<' :: s) = some (t, s₁)) :
    readContent (n + 1) name ('<' :: s) =
      (readContent n name s₁).map fun ((tail, children), s₂) =>
        (([], (t, String.ofList tail) :: children), s₂) := by
  rw [readContent.eq_3 name n s (fun s' hs' => hs (by simp [hs'])), h]

/-- The end tag of the element being read ends its content. -/
theorem readContent_end (hname : isName name = true) (rest : List Char) :
    readContent (n + 1) name ('<' :: '/' :: (name.toList ++ '>' :: rest)) = some (([], []), rest) := by
  rw [readContent.eq_2, @readName_append name hname ('>' :: rest) rfl]
  simp only [dropWhile_isSpace_cons (rfl : isSpace '>' = false)]
  simp

end Content

theorem toList_escapeText (t : String) :
    (escapeText t).toList = t.toList.flatMap fun c => (escapeTextChar c).toList := by
  simp [escapeText, List.flatMap_map]

/-- Escaping never shortens a text. -/
theorem length_le_flatMap_escapeTextChar (cs : List Char) :
    cs.length ≤ (cs.flatMap fun c => (escapeTextChar c).toList).length :=
  length_le_flatMap _ fun c => by
    unfold escapeTextChar
    split <;> simp

/-- A character of text is written as itself, or as a reference to it, which starts with
`&`. -/
theorem escapeTextChar_cases (c : Char) :
    ((escapeTextChar c).toList = [c] ∧ c ≠ '&' ∧ c ≠ '<' ∧ c ≠ '>') ∨
      ∃ r, (escapeTextChar c).toList = '&' :: r ∧ ∀ s, readReference (r ++ s) = some (c, s) := by
  unfold escapeTextChar
  split
  · exact .inr ⟨_, rfl, fun _ => rfl⟩
  · exact .inr ⟨_, rfl, fun _ => rfl⟩
  · exact .inr ⟨_, rfl, fun _ => rfl⟩
  · left
    simp_all

/-- Escaped text never shows a `>`: the first character it puts before markup is not one. -/
theorem head_escapeText {cs s : List Char} (hs : s.head? = some '<') :
    ((cs.flatMap fun c => (escapeTextChar c).toList) ++ s).head? ≠ some '>' := by
  cases cs with
  | nil => simp [hs]
  | cons c cs =>
    rcases escapeTextChar_cases c with ⟨h, -, -, hgt⟩ | ⟨r, h, -⟩
    · simp [h, hgt]
    · simp [h]

/-- So escaped text before markup never puts `]>` after a `]`. -/
theorem take_two_escapeText {cs s : List Char} (hs : s.head? = some '<') :
    ((cs.flatMap fun c => (escapeTextChar c).toList) ++ s).take 2 ≠ [']', '>'] := by
  cases cs with
  | nil =>
    cases s with
    | nil => simp at hs
    | cons d ds => simp_all
  | cons c cs =>
    have hhead := @head_escapeText cs s hs
    rcases escapeTextChar_cases c with ⟨h, -, -, -⟩ | ⟨r, h, -⟩
    · -- the character after a written `]` is not `>`
      cases hcs : (cs.flatMap fun c => (escapeTextChar c).toList) ++ s with
      | nil => simp [h, hcs]
      | cons d ds => simp_all
    · simp [h]

/-- Escaped text followed by markup reads back as the text, one step per character. -/
theorem readContent_escapeText {cs : List Char} (hcs : ∀ c ∈ cs, isTextChar c = true)
    {s : List Char} (hs : s.head? = some '<') (n : Nat) (name : String) :
    readContent (n + cs.length) name ((cs.flatMap fun c => (escapeTextChar c).toList) ++ s) =
      (readContent n name s).map fun ((text, children), s₂) => ((cs ++ text, children), s₂) := by
  induction cs with
  | nil => simp
  | cons c cs ih =>
    have hc : isChar c = true := by
      have := hcs c List.mem_cons_self
      simp only [isTextChar, Bool.and_eq_true] at this
      exact this.1
    have ih' := ih fun d hd => hcs d (List.mem_cons_of_mem c hd)
    rw [List.flatMap_cons, List.append_assoc,
      show n + (c :: cs).length = n + cs.length + 1 by simp; omega]
    rcases escapeTextChar_cases c with ⟨h, hamp, hlt, -⟩ | ⟨r, h, hr⟩
    · rw [h, List.singleton_append,
        readContent_char hc hlt hamp (fun h₂ => take_two_escapeText hs h₂.2), ih']
      simp [Option.map_map, Function.comp_def]
    · rw [h, List.cons_append, readContent_reference (hr _), ih']
      simp [Option.map_map, Function.comp_def]

/-! ## 5. Reading undoes writing -/

/-- Text without `&`, `<` or `>` is written as it is. -/
theorem flatMap_escapeTextChar_of_plain {cs : List Char}
    (h : ∀ c ∈ cs, c ≠ '&' ∧ c ≠ '<' ∧ c ≠ '>') :
    cs.flatMap (fun c => (escapeTextChar c).toList) = cs := by
  induction cs with
  | nil => rfl
  | cons c cs ih =>
    obtain ⟨h₁, h₂, h₃⟩ := h c List.mem_cons_self
    have hc : escapeTextChar c = c.toString := by
      unfold escapeTextChar
      split <;> simp_all
    simp [hc, ih fun d hd => h d (List.mem_cons_of_mem c hd)]

/-- Line breaks and indentation are plain text, written as they are. -/
theorem indent_plain (k : Nat) :
    (∀ c ∈ (indent k).toList, isTextChar c = true) ∧
      (indent k).toList.flatMap (fun c => (escapeTextChar c).toList) = (indent k).toList := by
  have h : ∀ c ∈ (indent k).toList, c = '\n' ∨ c = ' ' := by
    simp [indent]
  refine ⟨fun c hc => ?_, flatMap_escapeTextChar_of_plain fun c hc => ?_⟩
  · rcases h c hc with rfl | rfl <;> rfl
  · rcases h c hc with rfl | rfl <;> decide

theorem wellFormed_mk {textChar : Char → Bool} {name : String}
    {attrs : List (String × String)} {text : String} {cs : List Element} :
    (Element.mk name attrs text cs).wellFormed textChar = true ↔
      isName name = true ∧ (attrs.map Prod.fst).Nodup ∧
        attrs.all (fun a => isName a.1 && a.2.toList.all isChar) = true ∧
        text.toList.all textChar = true ∧ Element.wellFormedList textChar cs = true := by
  simp only [Element.wellFormed, Bool.and_eq_true, decide_eq_true_eq, and_assoc]

theorem Element.wellFormedList_iff {textChar : Char → Bool} (cs : List Element) :
    Element.wellFormedList textChar cs = true ↔ ∀ c ∈ cs, c.wellFormed textChar = true := by
  induction cs with
  | nil => simp [Element.wellFormedList]
  | cons c cs ih => simp [Element.wellFormedList, ih]

/-- After a name, the attributes start with a blank and the tag ends with `>` or ` />`:
neither goes on with the name. -/
theorem head_attributesText (attrs : List (String × String)) (empty : Bool) (rest : List Char) :
    ((attributesText attrs).toList ++ tagClose empty ++ rest).head?.any isNameChar = false := by
  cases attrs with
  | nil => cases empty <;> rfl
  | cons a as => simp [attributesText]; rfl

/-- A start tag as the writer writes it reads back: it closes an empty element, or the
content that follows is read up to the end tag. -/
theorem readElement_startTag {name : String} {attrs : List (String × String)}
    (hname : isName name = true) (hnodup : (attrs.map Prod.fst).Nodup)
    (hattrs : attrs.all (fun a => isName a.1 && a.2.toList.all isChar) = true) (empty : Bool)
    {k : Nat} (hk : (attributesText attrs).toList.length + (tagClose empty).length ≤ k)
    (s : List Char) :
    readElement (k + 1) ('<' :: (name.toList ++ ((attributesText attrs).toList ++ tagClose empty ++ s))) =
      if empty then some (.mk name attrs "" [], s)
      else (readContent k name s).map fun ((text, children), s₁) =>
        (.mk name attrs (String.ofList text) children, s₁) := by
  rw [readElement.eq_1, readName_append hname (head_attributesText attrs empty s)]
  dsimp only
  rw [readAttributes_text hattrs empty false hk s]
  simp only [hnodup, if_true]

/-- A written element starts with `<` and its name, so not with an end tag. -/
theorem write_head {e : Element} (he : e.readable = true) (level : Nat) :
    ∃ x xs, (e.write level).toList = '<' :: x :: xs ∧ x ≠ '/' := by
  obtain ⟨name, attrs, text, cs⟩ := e
  obtain ⟨hname, -⟩ := wellFormed_mk.mp he
  obtain ⟨x, xs, hxs, hx⟩ := isName_cons hname
  have hslash : x ≠ '/' := (ne_of_isNameStartChar hx).2.1
  cases cs with
  | nil =>
    by_cases ht : text = ""
    · simp [Element.write, ht, hxs, hslash]
    · simp [Element.write, ht, hxs, hslash]
  | cons c cs => simp [Element.write, hxs, hslash]

/-- Indentation followed by markup reads back as itself. -/
theorem readContent_indent (k : Nat) {s : List Char} (hs : s.head? = some '<') (n : Nat)
    (name : String) :
    readContent (n + (indent k).toList.length) name ((indent k).toList ++ s) =
      (readContent n name s).map fun ((text, children), s₂) =>
        (((indent k).toList ++ text, children), s₂) := by
  have h := readContent_escapeText (indent_plain k).1 hs n name
  rwa [(indent_plain k).2] at h

/-- Written children start with the first child's start tag. -/
theorem writeChildren_cons (level : Nat) (c : Element) (cs : List Element) :
    ∃ t, (Element.writeChildren level (c :: cs)).toList = (c.write level).toList ++ t := by
  cases cs with
  | nil => exact ⟨[], by simp [Element.writeChildren]⟩
  | cons c' cs =>
    exact ⟨(indent level).toList ++ (Element.writeChildren level (c' :: cs)).toList,
      by simp [Element.writeChildren]⟩

mutual
/-- **Reading undoes writing.** A readable element written at any level, followed by
anything, reads back as the element with the writer's layout, given fuel for the length
of its written form. -/
theorem readElement_write : ∀ (e : Element) (level n : Nat) (rest : List Char),
    e.readable = true → (e.write level).toList.length ≤ n →
    readElement n ((e.write level).toList ++ rest) = some (e.indented level, rest)
  | .mk name attrs text [], level, n, rest => by
    -- the hypotheses stay out of the patterns: matching on them unfolds the written text
    intro he hn
    obtain ⟨hname, hnodup, hattrs, htext, -⟩ := wellFormed_mk.mp he
    by_cases ht : text = ""
    · -- an element with neither text nor children closes its start tag
      have hw : (Element.write level (.mk name attrs text [])).toList ++ rest =
          '<' :: (name.toList ++ ((attributesText attrs).toList ++ tagClose true ++ rest)) := by
        simp [Element.write, ht, tagClose]
      have hlen := congrArg List.length hw
      simp only [List.length_append, List.length_cons, tagClose, if_true, List.length_nil] at hlen
      obtain ⟨k, rfl⟩ : ∃ k, n = k + 1 := ⟨n - 1, by omega⟩
      rw [hw, readElement_startTag hname hnodup hattrs true (by simp [tagClose]; omega)]
      simp [Element.indented, ht]
    · -- a text between the tags, read as character data up to the end tag
      have hw : (Element.write level (.mk name attrs text [])).toList ++ rest =
          '<' :: (name.toList ++ ((attributesText attrs).toList ++ tagClose false ++
            ((text.toList.flatMap fun c => (escapeTextChar c).toList) ++
              '<' :: '/' :: (name.toList ++ '>' :: rest)))) := by
        simp [Element.write, ht, tagClose, toList_escapeText]
      have hlen := congrArg List.length hw
      simp only [List.length_append, List.length_cons, tagClose, Bool.false_eq_true, if_false,
        List.length_nil] at hlen
      have htl := length_le_flatMap_escapeTextChar text.toList
      obtain ⟨k, rfl⟩ : ∃ k, n = k + 1 := ⟨n - 1, by omega⟩
      rw [hw, readElement_startTag hname hnodup hattrs false (by simp [tagClose]; omega)]
      obtain ⟨m, rfl⟩ : ∃ m, k = m + 1 + text.toList.length := ⟨k - 1 - text.toList.length, by omega⟩
      simp only [Bool.false_eq_true, if_false]
      rw [readContent_escapeText (List.all_eq_true.mp htext) rfl (m + 1) name,
        readContent_end hname]
      simp [Element.indented]
  | .mk name attrs text (c :: cs), level, n, rest => by
    intro he hn
    obtain ⟨hname, hnodup, hattrs, htext, hcs⟩ := wellFormed_mk.mp he
    -- the text before the first child: the layout when the element's own text is blank
    obtain ⟨T, hT, hTchars, hTesc⟩ : ∃ T : String,
        T = (if isBlank text then indent (level + 1) else text) ∧
        (∀ d ∈ T.toList, isTextChar d = true) ∧
        (if isBlank text then indent (level + 1) else escapeText text).toList =
          T.toList.flatMap fun d => (escapeTextChar d).toList := by
      by_cases hb : isBlank text
      · exact ⟨_, rfl, by simpa [hb] using (indent_plain (level + 1)).1,
          by simp [hb, (indent_plain (level + 1)).2]⟩
      · exact ⟨_, rfl, by simpa [hb] using htext, by simp [hb, toList_escapeText]⟩
    have hw : (Element.write level (.mk name attrs text (c :: cs))).toList ++ rest =
        '<' :: (name.toList ++ ((attributesText attrs).toList ++ tagClose false ++
          ((T.toList.flatMap fun d => (escapeTextChar d).toList) ++
            ((Element.writeChildren (level + 1) (c :: cs)).toList ++
              ((indent level).toList ++ '<' :: '/' :: (name.toList ++ '>' :: rest)))))) := by
      rw [← hTesc]
      simp [Element.write, tagClose]
    have hlen := congrArg List.length hw
    simp only [List.length_append, List.length_cons, tagClose, Bool.false_eq_true, if_false,
      List.length_nil] at hlen
    have hTl := length_le_flatMap_escapeTextChar T.toList
    obtain ⟨t, ht⟩ := writeChildren_cons (level + 1) c cs
    obtain ⟨x, xs, hxs, -⟩ := write_head (Bool.and_eq_true _ _ ▸ hcs).1 (level + 1)
    have hhead : ((Element.writeChildren (level + 1) (c :: cs)).toList ++
        ((indent level).toList ++ '<' :: '/' :: (name.toList ++ '>' :: rest))).head? = some '<' := by
      simp [ht, hxs]
    obtain ⟨k, rfl⟩ : ∃ k, n = k + 1 := ⟨n - 1, by omega⟩
    rw [hw, readElement_startTag hname hnodup hattrs false (by simp [tagClose]; omega)]
    obtain ⟨m, rfl⟩ : ∃ m, k = m + T.toList.length := ⟨k - T.toList.length, by omega⟩
    simp only [Bool.false_eq_true, if_false]
    rw [readContent_escapeText hTchars hhead m name,
      readContent_children (c :: cs) (level + 1) level name m rest (List.cons_ne_nil _ _) hcs
        hname (by omega)]
    simp [Element.indented, hT]

theorem readContent_children : ∀ (cs : List Element) (level k : Nat) (name : String) (n : Nat)
    (rest : List Char), cs ≠ [] → Element.wellFormedList isTextChar cs = true → isName name = true →
    (Element.writeChildren level cs).toList.length + (indent k).toList.length +
      name.toList.length + 3 ≤ n →
    readContent n name ((Element.writeChildren level cs).toList ++
        ((indent k).toList ++ '<' :: '/' :: (name.toList ++ '>' :: rest))) =
      some (([], Element.indentedChildren level (indent k) cs), rest)
  | [], _, _, _, _, _, hne, _, _, _ => absurd rfl hne
  | [c], level, k, name, n, rest, _, hcs, hname, hn => by
    have hc : c.readable = true := (Bool.and_eq_true _ _ ▸ hcs).1
    obtain ⟨x, xs, hxs, hx⟩ := write_head hc level
    have hwc : (Element.writeChildren level [c]).toList = (c.write level).toList := by
      simp [Element.writeChildren]
    rw [hwc] at hn ⊢
    obtain ⟨j, rfl⟩ : ∃ j, n = j + 1 := ⟨n - 1, by omega⟩
    -- the child, then the indentation before the end tag
    have hel := readElement_write c level j
      ((indent k).toList ++ '<' :: '/' :: (name.toList ++ '>' :: rest)) hc (by omega)
    rw [hxs, List.cons_append] at hel
    rw [hxs, List.cons_append, readContent_element (by simp [hx]) hel]
    obtain ⟨m, rfl⟩ : ∃ m, j = m + 1 + (indent k).toList.length :=
      ⟨j - 1 - (indent k).toList.length, by omega⟩
    rw [readContent_indent k rfl (m + 1) name, readContent_end hname]
    simp [Element.indentedChildren]
  | c :: c' :: cs, level, k, name, n, rest, _, hcs, hname, hn => by
    obtain ⟨hc, hcs'⟩ := (Bool.and_eq_true _ _).mp hcs
    obtain ⟨x, xs, hxs, hx⟩ := write_head hc level
    have hwc : (Element.writeChildren level (c :: c' :: cs)).toList =
        (c.write level).toList ++ ((indent level).toList ++
          (Element.writeChildren level (c' :: cs)).toList) := by
      simp [Element.writeChildren]
    obtain ⟨t, ht⟩ := writeChildren_cons level c' cs
    obtain ⟨y, ys, hys, -⟩ := write_head (Bool.and_eq_true _ _ ▸ hcs').1 level
    have hcl : 2 ≤ (c.write level).toList.length := by simp [hxs]
    rw [hwc] at hn ⊢
    simp only [List.length_append] at hn
    obtain ⟨j, rfl⟩ : ∃ j, n = j + 1 := ⟨n - 1, by omega⟩
    -- the first child, the indentation before the next one, and the others
    have hel := readElement_write c level j
      ((indent level).toList ++ ((Element.writeChildren level (c' :: cs)).toList ++
        ((indent k).toList ++ '<' :: '/' :: (name.toList ++ '>' :: rest)))) hc (by omega)
    rw [hxs, List.cons_append] at hel
    rw [List.append_assoc, List.append_assoc, hxs, List.cons_append,
      readContent_element (by simp [hx]) hel]
    obtain ⟨m, rfl⟩ : ∃ m, j = m + (indent level).toList.length :=
      ⟨j - (indent level).toList.length, by omega⟩
    rw [readContent_indent level (by simp [ht, hys]) m name,
      readContent_children (c' :: cs) level k name m rest (List.cons_ne_nil _ _) hcs' hname
        (by omega)]
    simp [Element.indentedChildren]
end

/-! ## 6. Carriage returns occur only in texts -/

theorem isTextChar_of_isNameChar {c : Char} (hc : isNameChar c = true) : isTextChar c = true := by
  simp only [isNameChar, isNameStartChar, inRanges, List.any_cons, List.any_nil, Bool.or_false,
    Bool.or_eq_true, decide_eq_true_eq] at hc
  have hne : c ≠ '\r' := by
    rintro rfl
    simp at hc
  simp only [isTextChar, isChar, inRanges, List.any_cons, List.any_nil, Bool.or_false,
    Bool.and_eq_true, Bool.or_eq_true, decide_eq_true_eq, bne_iff_ne, ne_eq, hne,
    not_false_eq_true, and_true]
  omega

theorem isName_isTextChar {s : String} (hs : isName s = true) :
    ∀ c ∈ s.toList, isTextChar c = true := by
  unfold isName at hs
  cases h : s.toList with
  | nil => simp
  | cons c cs =>
    simp only [h, Bool.and_eq_true, List.all_eq_true] at hs
    intro d hd
    rcases List.mem_cons.mp hd with rfl | hd
    · exact isTextChar_of_isNameChar (isNameChar_of_isNameStartChar hs.1)
    · exact isTextChar_of_isNameChar (hs.2 d hd)

/-- An attribute value is written in characters other than a carriage return, which it
writes as a reference. -/
theorem isTextChar_escapeAttributeChar {c : Char} (hc : isChar c = true) :
    ∀ d ∈ (escapeAttributeChar c).toList, isTextChar d = true := by
  unfold escapeAttributeChar
  split
  case h_8 _ _ _ _ hcr _ _ =>
    -- a character written as itself is no carriage return
    simpa [isTextChar, hc] using hcr
  -- a reference is written in printable ASCII
  all_goals
    simp only [String.reduceToList, List.forall_mem_cons, List.not_mem_nil, IsEmpty.forall_iff,
      forall_const, and_true]
    decide

/-- Attributes with XML names and values in XML characters are written in characters of
text: the carriage returns of their values become references. -/
theorem isTextChar_attributesText {attrs : List (String × String)}
    (h : attrs.all (fun a => isName a.1 && a.2.toList.all isChar) = true) :
    (attributesText attrs).toList.all isTextChar = true := by
  refine List.all_eq_true.mpr fun d hd => ?_
  simp only [attributesText, escapeAttribute, String.toList_join, List.mem_flatMap, List.mem_map,
    Prod.exists, ↓existsAndEq, and_true, String.toList_append, String.reduceToList,
    List.cons_append, ↓Char.isValue, List.nil_append, List.append_assoc, List.mem_cons,
    List.mem_append, exists_exists_and_eq_and, List.not_mem_nil, or_false] at hd
  obtain ⟨k, v, hkv, hd⟩ := hd
  have hkv' := List.all_eq_true.mp h (k, v) hkv
  simp only [Bool.and_eq_true, List.all_eq_true] at hkv'
  rcases hd with rfl | hd | rfl | rfl | ⟨c, hc, hd⟩ | rfl
  · rfl
  · exact isName_isTextChar hkv'.1 d hd
  · rfl
  · rfl
  · exact isTextChar_escapeAttributeChar (hkv'.2 c hc) d hd
  · rfl

theorem normalizeLineEnds_cons {c : Char} (hc : c ≠ '\r') (s : List Char) :
    normalizeLineEnds (c :: s) = c :: normalizeLineEnds s :=
  normalizeLineEnds.eq_3 c s (fun _ h _ => hc h) hc

/-- Characters other than a carriage return pass through line-end handling. -/
theorem normalizeLineEnds_append_of_ne {a : List Char} (ha : ∀ c ∈ a, c ≠ '\r')
    (b : List Char) : normalizeLineEnds (a ++ b) = a ++ normalizeLineEnds b := by
  induction a with
  | nil => rfl
  | cons c a ih =>
    rw [List.cons_append, normalizeLineEnds_cons (ha c List.mem_cons_self),
      ih fun d hd => ha d (List.mem_cons_of_mem c hd), List.cons_append]

theorem ne_of_isTextChar {c : Char} (hc : isTextChar c = true) : c ≠ '\r' := by
  simp only [isTextChar, Bool.and_eq_true, bne_iff_ne] at hc
  exact hc.2

/-- Escaped text starts with its first character or with the `&` of a reference. -/
theorem head_flatMap_escapeTextChar {s b : List Char} (hs : ∀ t, s ≠ '\n' :: t)
    (hb : b.head? ≠ some '\n') :
    ((s.flatMap fun c => (escapeTextChar c).toList) ++ b).head? ≠ some '\n' := by
  cases s with
  | nil => simpa using hb
  | cons d s =>
    have hd : d ≠ '\n' := fun h => hs s (h ▸ rfl)
    rcases escapeTextChar_cases d with ⟨h, -⟩ | ⟨r, h, -⟩
    · simp [h, hd]
    · simp [h]

theorem escapeTextChar_cr : (escapeTextChar '\r').toList = ['\r'] := rfl

theorem escapeTextChar_lf : (escapeTextChar '\n').toList = ['\n'] := rfl

/-- Line-end handling commutes with escaping text, when no line feed follows it. -/
theorem normalizeLineEnds_escapeText {b : List Char} (hb : b.head? ≠ some '\n')
    (cs : List Char) :
    normalizeLineEnds ((cs.flatMap fun c => (escapeTextChar c).toList) ++ b) =
      ((normalizeLineEnds cs).flatMap fun c => (escapeTextChar c).toList) ++
        normalizeLineEnds b := by
  induction cs using normalizeLineEnds.induct with
  | case1 s ih =>
    -- a carriage return and a line feed become one line feed
    rw [List.flatMap_cons, List.flatMap_cons, escapeTextChar_cr, escapeTextChar_lf,
      List.singleton_append, List.singleton_append, List.cons_append, List.cons_append,
      normalizeLineEnds.eq_1, ih, normalizeLineEnds.eq_1, List.flatMap_cons, escapeTextChar_lf,
      List.singleton_append, List.cons_append]
  | case2 s hs ih =>
    -- a carriage return alone becomes a line feed
    have hhead := head_flatMap_escapeTextChar (fun t h => hs t h) hb
    rw [List.flatMap_cons, escapeTextChar_cr, List.singleton_append, List.cons_append,
      normalizeLineEnds.eq_2 _ (fun t h => hhead (by simp [h])), ih, normalizeLineEnds.eq_2 s hs,
      List.flatMap_cons, escapeTextChar_lf, List.singleton_append, List.cons_append]
  | case3 c s _ hc ih =>
    have hesc : ∀ d ∈ (escapeTextChar c).toList, d ≠ '\r' := by
      unfold escapeTextChar
      split <;> simp_all
    rw [List.flatMap_cons, List.append_assoc, normalizeLineEnds_append_of_ne hesc, ih,
      normalizeLineEnds_cons hc, List.flatMap_cons, List.append_assoc]
  | case4 => rfl


theorem length_normalizeLineEnds_le (cs : List Char) :
    (normalizeLineEnds cs).length ≤ cs.length := by
  induction cs using normalizeLineEnds.induct with
  | case1 s ih => rw [normalizeLineEnds.eq_1]; simp only [List.length_cons]; omega
  | case2 s hs ih => rw [normalizeLineEnds.eq_2 s hs]; simp only [List.length_cons]; omega
  | case3 c s _ hc ih => rw [normalizeLineEnds_cons hc]; simp only [List.length_cons]; omega
  | case4 => rfl

/-- Line-end handling of XML characters leaves characters of text. -/
theorem isTextChar_normalizeLineEnds {cs : List Char} (h : cs.all isChar = true) :
    (normalizeLineEnds cs).all isTextChar = true := by
  induction cs using normalizeLineEnds.induct with
  | case1 s ih =>
    rw [normalizeLineEnds.eq_1, List.all_cons, ih (by simp_all)]
    rfl
  | case2 s hs ih =>
    rw [normalizeLineEnds.eq_2 s hs, List.all_cons, ih (by simp_all)]
    rfl
  | case3 c s _ hc ih =>
    simp only [List.all_cons, Bool.and_eq_true] at h
    rw [normalizeLineEnds_cons hc, List.all_cons, ih h.2]
    simpa [isTextChar, h.1] using hc
  | case4 => rfl

theorem normalizeLineEnds_eq_nil {cs : List Char} : normalizeLineEnds cs = [] ↔ cs = [] := by
  induction cs using normalizeLineEnds.induct with
  | case1 s ih => simp [normalizeLineEnds.eq_1]
  | case2 s hs ih => simp [normalizeLineEnds.eq_2 s hs]
  | case3 c s _ hc ih => simp [normalizeLineEnds_cons hc]
  | case4 => simp [normalizeLineEnds.eq_4]

/-- A test that does not tell a carriage return from a line feed holds of a text after
line-end handling exactly when it holds of the text. -/
theorem all_normalizeLineEnds {p : Char → Bool} (hp : p '\r' = p '\n') (cs : List Char) :
    (normalizeLineEnds cs).all p = cs.all p := by
  induction cs using normalizeLineEnds.induct with
  | case1 s ih => simp [normalizeLineEnds.eq_1, ih, hp]
  | case2 s hs ih => simp [normalizeLineEnds.eq_2 s hs, ih, hp]
  | case3 c s _ hc ih => simp [normalizeLineEnds_cons hc, ih]
  | case4 => rfl

/-- Line-end handling keeps a text blank, or not blank. -/
theorem isBlank_normalizeText (t : String) : isBlank (normalizeText t) = isBlank t := by
  rw [isBlank, isBlank, String.all_prop_eq, String.all_prop_eq, normalizeText, String.toList_ofList]
  exact all_normalizeLineEnds (by decide) _

theorem not_mem_normalizeLineEnds (cs : List Char) : '\r' ∉ normalizeLineEnds cs := by
  induction cs using normalizeLineEnds.induct with
  | case1 s ih => simp [normalizeLineEnds.eq_1, ih]
  | case2 s hs ih => simp [normalizeLineEnds.eq_2 s hs, ih]
  | case3 c s _ hc ih => simp [normalizeLineEnds_cons hc, ih, Ne.symm hc]
  | case4 => simp [normalizeLineEnds.eq_4]

/-- A text reads back as written exactly when it holds no carriage return. -/
theorem normalizeText_eq_self_iff (s : String) : normalizeText s = s ↔ '\r' ∉ s.toList := by
  constructor
  · -- the normalized text holds no carriage return
    intro h hr
    have hn := not_mem_normalizeLineEnds s.toList
    rw [← @String.toList_ofList (normalizeLineEnds s.toList), ← normalizeText, h] at hn
    exact hn hr
  · intro h
    have hs := normalizeLineEnds_append_of_ne (fun c hc hcr => h (hcr ▸ hc)) []
    rw [List.append_nil, normalizeLineEnds.eq_4, List.append_nil] at hs
    rw [normalizeText, hs, String.ofList_toList]

/-- Every written element starts with `<`. -/
theorem write_eq_lt_cons (e : Element) (level : Nat) : ∃ t, (e.write level).toList = '<' :: t := by
  obtain ⟨name, attrs, text, cs⟩ := e
  cases cs with
  | nil =>
    by_cases ht : text = ""
    · simp [Element.write, ht]
    · simp [Element.write, ht]
  | cons c cs => simp [Element.write]

/-- A start tag holds no carriage return: its names are XML names, and its attribute
values write theirs as references. -/
theorem ne_cr_startTag {name : String} {attrs : List (String × String)}
    (hname : isName name = true)
    (hattrs : attrs.all (fun a => isName a.1 && a.2.toList.all isChar) = true) (empty : Bool) :
    ∀ c ∈ '<' :: (name.toList ++ ((attributesText attrs).toList ++ tagClose empty)), c ≠ '\r' := by
  intro c hc
  simp only [List.mem_cons, List.mem_append] at hc
  rcases hc with rfl | hc | hc | hc
  · decide
  · exact ne_of_isTextChar (isName_isTextChar hname c hc)
  · exact ne_of_isTextChar (List.all_eq_true.mp (isTextChar_attributesText hattrs) c hc)
  · have hclose : c = ' ' ∨ c = '/' ∨ c = '>' := by cases empty <;> simp_all [tagClose]
    rcases hclose with rfl | rfl | rfl <;> decide

/-- An end tag holds no carriage return. -/
theorem ne_cr_endTag {name : String} (hname : isName name = true) :
    ∀ c ∈ '<' :: '/' :: (name.toList ++ ['>']), c ≠ '\r' := by
  intro c hc
  simp only [List.mem_cons, List.mem_append, List.not_mem_nil, or_false] at hc
  rcases hc with rfl | rfl | hc | rfl
  · decide
  · decide
  · exact ne_of_isTextChar (isName_isTextChar hname c hc)
  · decide

theorem ne_cr_indent (k : Nat) : ∀ c ∈ (indent k).toList, c ≠ '\r' :=
  fun c hc => ne_of_isTextChar ((indent_plain k).1 c hc)

/-- The text before the first child goes through line-end handling as the normalized
text does. -/
theorem normalizeLineEnds_leadingText (text : String) (k : Nat) {x : List Char}
    (hx : x.head? ≠ some '\n') :
    normalizeLineEnds ((if isBlank text then indent k else escapeText text).toList ++ x) =
      (if isBlank (normalizeText text) then indent k else escapeText (normalizeText text)).toList ++
        normalizeLineEnds x := by
  rw [isBlank_normalizeText]
  split
  · exact normalizeLineEnds_append_of_ne (ne_cr_indent k) x
  · rw [toList_escapeText, toList_escapeText, normalizeLineEnds_escapeText hx, normalizeText,
      String.toList_ofList]

mutual
/-- **Line-end handling of a written element** is the written form of the element with
its texts normalized: carriage returns occur only in texts, raw. -/
theorem normalizeLineEnds_write : ∀ (e : Element) (level : Nat) (rest : List Char),
    e.writable = true →
    normalizeLineEnds ((e.write level).toList ++ rest) =
      (e.normalized.write level).toList ++ normalizeLineEnds rest
  | .mk name attrs text [], level, rest, he => by
    obtain ⟨hname, -, hattrs, -, -⟩ := wellFormed_mk.mp he
    by_cases ht : text = ""
    · have hw : ∀ (t : String) (r : List Char), t = "" →
          (Element.write level (.mk name attrs t [])).toList ++ r =
            '<' :: (name.toList ++ ((attributesText attrs).toList ++ tagClose true)) ++ r := by
        intro t r h
        simp [Element.write, h, tagClose]
      have hnt : normalizeText text = "" := by simp [normalizeText, ht, normalizeLineEnds.eq_4]
      rw [hw text rest ht, Element.normalized, Element.normalizedList, hw _ _ hnt,
        normalizeLineEnds_append_of_ne (ne_cr_startTag hname hattrs true)]
    · have hnt : normalizeText text ≠ "" := by
        simpa [normalizeText, normalizeLineEnds_eq_nil, String.toList_eq_nil_iff] using ht
      have hw : ∀ (t : String) (r : List Char), t ≠ "" →
          (Element.write level (.mk name attrs t [])).toList ++ r =
            '<' :: (name.toList ++ ((attributesText attrs).toList ++ tagClose false)) ++
              ((t.toList.flatMap fun c => (escapeTextChar c).toList) ++
                ('<' :: '/' :: (name.toList ++ ['>']) ++ r)) := by
        intro t r h
        simp [Element.write, h, tagClose, toList_escapeText]
      rw [hw text rest ht, Element.normalized, Element.normalizedList, hw _ _ hnt,
        normalizeLineEnds_append_of_ne (ne_cr_startTag hname hattrs false),
        normalizeLineEnds_escapeText (by simp),
        normalizeLineEnds_append_of_ne (ne_cr_endTag hname), normalizeText, String.toList_ofList]
  | .mk name attrs text (c :: cs), level, rest, he => by
    obtain ⟨hname, -, hattrs, -, hcs⟩ := wellFormed_mk.mp he
    have hw : ∀ (t : String) (ds : List Element) (r : List Char), ds ≠ [] →
        (Element.write level (.mk name attrs t ds)).toList ++ r =
          '<' :: (name.toList ++ ((attributesText attrs).toList ++ tagClose false)) ++
            ((if isBlank t then indent (level + 1) else escapeText t).toList ++
              ((Element.writeChildren (level + 1) ds).toList ++
                ((indent level).toList ++ ('<' :: '/' :: (name.toList ++ ['>']) ++ r)))) := by
      intro t ds r h
      obtain ⟨d, ds, rfl⟩ := List.exists_cons_of_ne_nil h
      simp [Element.write, tagClose]
    obtain ⟨t, ht⟩ := writeChildren_cons (level + 1) c cs
    obtain ⟨u, hu⟩ := write_eq_lt_cons c (level + 1)
    rw [hw text (c :: cs) rest (List.cons_ne_nil _ _), Element.normalized,
      hw _ _ _ (by simp [Element.normalizedList]),
      normalizeLineEnds_append_of_ne (ne_cr_startTag hname hattrs false),
      normalizeLineEnds_leadingText text (level + 1) (by simp [ht, hu]),
      normalizeLineEnds_writeChildren (c :: cs) (level + 1) _ hcs,
      normalizeLineEnds_append_of_ne (ne_cr_indent level),
      normalizeLineEnds_append_of_ne (ne_cr_endTag hname)]

theorem normalizeLineEnds_writeChildren : ∀ (cs : List Element) (level : Nat) (rest : List Char),
    Element.wellFormedList isChar cs = true →
    normalizeLineEnds ((Element.writeChildren level cs).toList ++ rest) =
      (Element.writeChildren level (Element.normalizedList cs)).toList ++ normalizeLineEnds rest
  | [], _, _, _ => rfl
  | [c], level, rest, h => by
    rw [Element.normalizedList, Element.normalizedList, Element.writeChildren,
      Element.writeChildren]
    exact normalizeLineEnds_write c level rest (Bool.and_eq_true _ _ ▸ h).1
  | c :: c' :: cs, level, rest, h => by
    obtain ⟨hc, hcs⟩ := (Bool.and_eq_true _ _).mp h
    have hw : ∀ (d d' : Element) (ds : List Element) (r : List Char),
        (Element.writeChildren level (d :: d' :: ds)).toList ++ r =
          (d.write level).toList ++ ((indent level).toList ++
            ((Element.writeChildren level (d' :: ds)).toList ++ r)) := by
      intro d d' ds r
      simp [Element.writeChildren]
    rw [Element.normalizedList, Element.normalizedList, hw, hw,
      normalizeLineEnds_write c level _ hc, normalizeLineEnds_append_of_ne (ne_cr_indent level),
      ← Element.normalizedList, normalizeLineEnds_writeChildren (c' :: cs) level rest hcs]
end

mutual
/-- Normalizing the line ends of a writable element makes it readable. -/
theorem Element.readable_normalized :
    ∀ e : Element, e.writable = true → e.normalized.readable = true
  | .mk name attrs text cs, he => by
    obtain ⟨hname, hnodup, hattrs, htext, hcs⟩ := wellFormed_mk.mp he
    have htext' : (normalizeText text).toList.all isTextChar = true := by
      rw [normalizeText, String.toList_ofList]
      exact isTextChar_normalizeLineEnds htext
    rw [Element.normalized, Element.readable, wellFormed_mk]
    exact ⟨hname, hnodup, hattrs, htext', Element.wellFormedList_normalizedList cs hcs⟩

theorem Element.wellFormedList_normalizedList :
    ∀ cs : List Element, Element.wellFormedList isChar cs = true →
      Element.wellFormedList isTextChar (Element.normalizedList cs) = true
  | [], _ => rfl
  | c :: cs, h => by
    obtain ⟨hc, hcs⟩ := (Bool.and_eq_true _ _).mp h
    rw [Element.normalizedList, Element.wellFormedList, ← Element.readable,
      Element.readable_normalized c hc, Element.wellFormedList_normalizedList cs hcs,
      Bool.and_self]
end

/-! ## 7. Reading a written document -/

/-- **A written document reads back.** The text of a writable element is a well-formed
XML document, and an XML processor reads it back as the element with its texts' line
ends normalized and the layout the writer adds. -/
theorem Element.read_toText {e : Element} (he : e.writable = true) :
    read e.toText = some (e.normalized.indented 0) := by
  have hnorm : normalizeLineEnds e.toText.toList = e.normalized.toText.toList := by
    simpa [normalizeLineEnds.eq_4, Element.toText] using normalizeLineEnds_write e 0 [] he
  obtain ⟨t, ht⟩ := write_eq_lt_cons e.normalized 0
  have hdrop : e.normalized.toText.toList.dropWhile isSpace = e.normalized.toText.toList := by
    rw [Element.toText, ht]
    exact dropWhile_isSpace_cons rfl _
  have hlen : e.normalized.toText.toList.length ≤ e.toText.length + 1 := by
    rw [← hnorm]
    exact Nat.le_succ_of_le ((length_normalizeLineEnds_le _).trans String.length_toList.le)
  have hread : readElement (e.toText.length + 1) (e.normalized.toText.toList ++ []) =
      some (e.normalized.indented 0, []) :=
    readElement_write e.normalized 0 _ [] (Element.readable_normalized e he) hlen
  rw [List.append_nil] at hread
  rw [read, readDocument, hnorm, hdrop, hread]
  rfl

/-! ## 8. What a reader sees of a written element

Normalizing line ends and adding layout change neither an element's name nor its
attributes, and leave an element without children as it is but for its text; so the
children a reader finds are the written children, in order. -/

@[simp] theorem Element.normalizedList_eq_map (cs : List Element) :
    Element.normalizedList cs = cs.map Element.normalized := by
  induction cs with
  | nil => rfl
  | cons c cs ih => rw [Element.normalizedList, ih, List.map_cons]

@[simp] theorem Element.name_normalized (e : Element) : e.normalized.name = e.name := by
  cases e
  rfl

@[simp] theorem Element.attributes_normalized (e : Element) :
    e.normalized.attributes = e.attributes := by
  cases e
  rfl

@[simp] theorem Element.children_normalized (e : Element) :
    e.normalized.children = e.children.map Element.normalized := by
  cases e
  simp [Element.normalized, Element.children]

@[simp] theorem Element.name_indented (level : Nat) (e : Element) :
    (e.indented level).name = e.name := by
  obtain ⟨name, attrs, text, _ | ⟨c, cs⟩⟩ := e <;> rfl

@[simp] theorem Element.attributes_indented (level : Nat) (e : Element) :
    (e.indented level).attributes = e.attributes := by
  obtain ⟨name, attrs, text, _ | ⟨c, cs⟩⟩ := e <;> rfl

/-- An element without children reads back with its own text. -/
@[simp] theorem Element.indented_mk_nil (level : Nat) (name : String)
    (attrs : List (String × String)) (text : String) :
    (Element.mk name attrs text []).indented level = .mk name attrs text [] := rfl

theorem Element.map_fst_indentedChildren (level : Nat) (tail : String) (cs : List Element) :
    (Element.indentedChildren level tail cs).map Prod.fst = cs.map (Element.indented level) := by
  induction cs with
  | nil => rfl
  | cons c cs ih =>
    cases cs with
    | nil => rfl
    | cons c' cs => simp [Element.indentedChildren, ih]

/-- The children a reader finds are the written children, in order. -/
theorem Element.map_fst_children_indented (level : Nat) (e : Element) :
    (e.indented level).children.map Prod.fst = e.children.map (Element.indented (level + 1)) := by
  obtain ⟨name, attrs, text, _ | ⟨c, cs⟩⟩ := e
  · rfl
  · exact Element.map_fst_indentedChildren _ _ _

/-- The child elements of a name that a reader finds in a written, normalized element. -/
theorem Element.childrenNamed_indented_normalized (e : Element) (n : String) :
    (e.normalized.indented 0).childrenNamed n =
      (e.children.filter fun c => c.name == n).map fun c => c.normalized.indented 1 := by
  rw [Tree.childrenNamed, Element.map_fst_children_indented, Element.children_normalized,
    List.map_map, List.filter_map]
  congr 2
  funext c
  simp

end PatternChart.Xml
