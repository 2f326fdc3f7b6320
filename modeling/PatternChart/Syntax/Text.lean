import PatternChart.Syntax.Basic
/-!
# The pattern text of a syntax tree

Writes a syntax tree back in the usual notation: alternatives joined by `|`, an atom
followed by its quantifier and a `?` when the quantifier is lazy, escapes after a
backslash, sets in brackets with `^` for negation, and `(…)`, `(?:…)`, `(?=…)`,
`(?!…)` for the parenthesised forms. Ids are not part of the text.
-/

set_option autoImplicit false

namespace PatternChart

/-- The quantifier's suffix: `*`, `+`, `?`, `{n}`, `{n,}` or `{m,n}`. -/
def Quantifier.text : Quantifier → String
  | .star => "*"
  | .plus => "+"
  | .optional => "?"
  | .exactly n => "\x7b" ++ toString n ++ "\x7d"
  | .atLeast n => "\x7b" ++ toString n ++ ",\x7d"
  | .between lo hi => "\x7b" ++ toString lo ++ "," ++ toString hi ++ "\x7d"

/-- The anchor's text: `^`, `$`, `\b` or `\B`. -/
def Anchor.text : Anchor → String
  | .start => "^"
  | .finish => "$"
  | .wordBoundary => "\\b"
  | .notWordBoundary => "\\B"

/-- Reads an anchor from its name, the way trees name them. -/
def Anchor.ofKind? : String → Option Anchor
  | "start" => some .start
  | "end" => some .finish
  | "word_boundary" => some .wordBoundary
  | "not_word_boundary" => some .notWordBoundary
  | _ => none

/-- A set member's text: a range is its two ends around a hyphen. -/
def SetItem.text : SetItem → String
  | .char v => v
  | .escaped v => "\\" ++ v
  | .classEscape l => "\\" ++ l
  | .range a b => a.text ++ "-" ++ b.text

/-- A bracketed set: its members written one after another. -/
def charSetText (negated : Bool) (items : List SetItem) : String :=
  (if negated then "[^" else "[") ++ String.join (items.map SetItem.text) ++ "]"

mutual
/-- An atom's text. -/
def Atom.text : Atom → String
  | .char v _ => v
  | .any _ => "."
  | .classEscape l _ => "\\" ++ l
  | .escaped v _ => "\\" ++ v
  | .backReference i _ => "\\" ++ toString i
  | .charSet neg items _ => charSetText neg items
  | .group r _ _ => "(" ++ r.text ++ ")"
  | .nonCapturing r _ => "(?:" ++ r.text ++ ")"
  | .lookahead r neg _ => "(" ++ (if neg then "?!" else "?=") ++ r.text ++ ")"

/-- A term's text: an anchor, or an atom, its quantifier, and `?` when lazy. -/
def Term.text : Term → String
  | .assertion a _ => a.text
  | .quantified atom none _ => atom.text
  | .quantified atom (some q) greedy => atom.text ++ q.text ++ (if greedy then "" else "?")

/-- The terms' texts, one after another. -/
def Term.listText : List Term → String
  | [] => ""
  | t :: ts => t.text ++ Term.listText ts

/-- An alternative's text. -/
def Alternative.text : Alternative → String
  | .mk ts => Term.listText ts

/-- The alternatives' texts joined by `|`. -/
def Alternative.listText : List Alternative → String
  | [] => ""
  | [a] => a.text
  | a :: as => a.text ++ "|" ++ Alternative.listText as

/-- A regex's text. -/
def Regex.text : Regex → String
  | .mk alts => Alternative.listText alts
end

end PatternChart
