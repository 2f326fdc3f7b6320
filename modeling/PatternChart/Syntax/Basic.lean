/-!
# Regular expression syntax

The syntax tree of a regular expression as this library draws it. A regex is a list
of alternatives, an alternative a list of terms, and a term either a zero-width
anchor or an atom with an optional quantifier. Atoms are literal characters and
escapes, character sets, back references, and the three kinds of parenthesised
subexpression. Nodes that a diagram can point at carry a numeric id, chosen by
whoever built the tree and copied into the drawing.

A character set's members are characters, escapes and ranges; a range's ends are
members in turn, which is what the notation `a-b` allows a reader of it to nest.
-/

set_option autoImplicit false

namespace PatternChart

/-- How often a quantified atom may repeat. Bounds are kept as given, without any
check that they are ordered or non-negative. -/
inductive Quantifier where
  | star
  | plus
  | optional
  | exactly (count : Int)
  | atLeast (count : Int)
  | between (low high : Int)
  deriving DecidableEq, Repr

/-- A zero-width test: the start or end of input, or a word boundary or its absence. -/
inductive Anchor where
  | start
  | finish
  | wordBoundary
  | notWordBoundary
  deriving DecidableEq, Repr

/-- A member of a character set. -/
inductive SetItem where
  | char (value : String)
  | escaped (value : String)
  | classEscape (letter : String)
  | range (first last : SetItem)
  deriving DecidableEq, Repr

mutual
/-- A single matchable unit. -/
inductive Atom where
  | char (value : String) (id : Int)
  | any (id : Int)
  | classEscape (letter : String) (id : Int)
  | escaped (value : String) (id : Int)
  | backReference (index : Int) (id : Int)
  | charSet (negated : Bool) (items : List SetItem) (id : Int)
  | group (body : Regex) (index : Int) (id : Int)
  | nonCapturing (body : Regex) (id : Int)
  | lookahead (body : Regex) (negated : Bool) (id : Int)

/-- One step of an alternative: an anchor, or an atom with an optional quantifier
that is greedy unless marked lazy. -/
inductive Term where
  | assertion (anchor : Anchor) (id : Int)
  | quantified (atom : Atom) (quantifier : Option Quantifier) (greedy : Bool)

/-- A sequence of terms, matched one after another. -/
inductive Alternative where
  | mk (terms : List Term)

/-- A choice between alternatives. -/
inductive Regex where
  | mk (alternatives : List Alternative)
end

end PatternChart
