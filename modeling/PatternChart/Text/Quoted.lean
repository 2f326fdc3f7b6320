import PatternChart.Text.Printable
/-!
# Quoted string literals

The quoted form of a string, as messages show a value: single quotes, unless the
string holds a single quote and no double quote, in which case double quotes. Inside,
a backslash and the chosen quote are written after a backslash; tab, newline and
carriage return as `\t`, `\n`, `\r`; every other character that is not printable as
a hexadecimal escape of two, four or eight lowercase digits (`\x..`, `\u....`,
`\U........`), the shortest that holds its code point; and all else as itself.
-/

set_option autoImplicit false

namespace PatternChart.Text

/-- The lowercase hexadecimal digits of `n`, padded with zeros to `width`. -/
def hexDigits (width n : Nat) : String :=
  let ds := Nat.toDigits 16 n
  String.ofList (List.replicate (width - ds.length) '0' ++ ds)

/-- How one character is written inside a literal quoted with `quote`. -/
def escapeChar (quote : Char) (c : Char) : String :=
  if c = '\\' ∨ c = quote then "\\" ++ c.toString
  else if c = '\t' then "\\t"
  else if c = '\n' then "\\n"
  else if c = '\r' then "\\r"
  else if isPrintable c then c.toString
  else if c.toNat ≤ 0xff then "\\x" ++ hexDigits 2 c.toNat
  else if c.toNat ≤ 0xffff then "\\u" ++ hexDigits 4 c.toNat
  else "\\U" ++ hexDigits 8 c.toNat

/-- The quote a string is written in: double only when that avoids escaping a
single quote. -/
def quoteFor (s : String) : Char :=
  if s.contains '\'' && !s.contains '"' then '"' else '\''

/-- The quoted literal of a string. -/
def quoted (s : String) : String :=
  let q := quoteFor s
  q.toString ++ String.join (s.toList.map (escapeChar q)) ++ q.toString

end PatternChart.Text
