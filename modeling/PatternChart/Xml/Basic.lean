/-!
# XML elements and their text

An XML element here has a name, attributes in the order they were given, a text, and
child elements; an element has either children or text, never both in one drawing,
but the writer handles both.

The written form is indented two spaces per level: an element with children has each
child on a line of its own, one level deeper, and its closing tag on a line of its
own at its own level; a text that is only blanks is replaced by that layout. An
element with neither text nor children is closed in its start tag, after a space:
`<rect x="1" />`. In text, `&`, `<` and `>` are escaped; in an attribute value also
`"`, and tab, newline and carriage return are written as character references, so
that an attribute value reads back exactly.
-/

set_option autoImplicit false

namespace PatternChart.Xml

/-- An XML element. -/
inductive Element where
  | mk (name : String) (attributes : List (String × String)) (text : String)
      (children : List Element)

namespace Element

/-- The element's name. -/
def name : Element → String
  | .mk n _ _ _ => n

/-- The element's attributes, in the order they are written. -/
def attributes : Element → List (String × String)
  | .mk _ attrs _ _ => attrs

/-- The element's text. -/
def text : Element → String
  | .mk _ _ t _ => t

/-- The element's children, in order. -/
def children : Element → List Element
  | .mk _ _ _ cs => cs

end Element

/-- How a character of text is written. -/
def escapeTextChar : Char → String
  | '&' => "&amp;"
  | '<' => "&lt;"
  | '>' => "&gt;"
  | c => c.toString

/-- How a character of an attribute value is written. -/
def escapeAttributeChar : Char → String
  | '&' => "&amp;"
  | '<' => "&lt;"
  | '>' => "&gt;"
  | '"' => "&quot;"
  | '\r' => "&#13;"
  | '\n' => "&#10;"
  | '\t' => "&#09;"
  | c => c.toString

/-- Escaped text. -/
def escapeText (s : String) : String := String.join (s.toList.map escapeTextChar)

/-- An escaped attribute value. -/
def escapeAttribute (s : String) : String := String.join (s.toList.map escapeAttributeChar)

/-- The attributes as written in a start tag, each after a space. -/
def attributesText (attrs : List (String × String)) : String :=
  String.join (attrs.map fun (k, v) => " " ++ k ++ "=\"" ++ escapeAttribute v ++ "\"")

/-- A line break followed by the indentation of a level. -/
def indent (level : Nat) : String := "\n" ++ String.join (List.replicate level "  ")

/-- Whether a text holds only blanks. -/
def isBlank (s : String) : Bool := s.all fun c => c = ' ' ∨ c = '\t' ∨ c = '\n' ∨ c = '\r'

mutual
/-- The written form of an element at an indentation level. -/
def Element.write (level : Nat) : Element → String
  | .mk name attrs text [] =>
    if text = "" then "<" ++ name ++ attributesText attrs ++ " />"
    else "<" ++ name ++ attributesText attrs ++ ">" ++ escapeText text ++ "</" ++ name ++ ">"
  | .mk name attrs text (c :: cs) =>
    "<" ++ name ++ attributesText attrs ++ ">" ++
      (if isBlank text then indent (level + 1) else escapeText text) ++
      Element.writeChildren (level + 1) (c :: cs) ++ indent level ++ "</" ++ name ++ ">"

/-- Children written one per line at a level. -/
def Element.writeChildren (level : Nat) : List Element → String
  | [] => ""
  | [c] => c.write level
  | c :: cs => c.write level ++ indent level ++ Element.writeChildren level cs
end

/-- The written form of a document's root element. -/
def Element.toText (e : Element) : String := e.write 0

end PatternChart.Xml
