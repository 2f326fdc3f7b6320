import PatternChart.Node.Literal
/-!
# Why a diagram cannot be made

The causes for which reading, drawing or rasterizing a diagram stops, and the one
function that words them. A node that does not fit its place is named with its kind
and its literal; the place is one of the six kinds of slot a tree has.
-/

set_option autoImplicit false

namespace PatternChart

/-- The kinds of slot a node can be found unfit for. -/
inductive Place where
  | term
  | atom
  | quantifier
  | assertion
  | charSet
  | visual
  deriving DecidableEq, Repr

/-- How a message names a place. -/
def Place.name : Place → String
  | .term => "term"
  | .atom => "atom"
  | .quantifier => "quantifier"
  | .assertion => "assertion"
  | .charSet => "character set"
  | .visual => "visual"

/-- Why the bitmap library refuses to make a bitmap of the size asked for, as it reports
it: the kind of error it raises and its message. Which sizes it refuses is the library's
own affair, so rendering takes the library's check as a parameter. -/
structure BitmapFault where
  kind : String
  message : String
  deriving DecidableEq, Repr

/-- A reason why a diagram cannot be made. -/
inductive DiagramError where
  /-- A regex to be drawn has no alternatives. -/
  | emptyRegex
  /-- A node stands in a slot that does not take its kind. -/
  | unsupported (place : Place) (node : Node)
  /-- A node was asked for a field that its kind lacks. -/
  | missingField (node : Node) (field : String)
  /-- A bitmap was asked for at a scale that is not positive. -/
  | badScale (scale : Measure)
  /-- Arithmetic on a caller's numbers, or writing one, cannot go on. -/
  | number (fault : NumberFault)
  /-- A bitmap of the asked size cannot be made. -/
  | bitmap (fault : BitmapFault)

/-- The code that names the error's family, for the three families that have one. -/
def DiagramError.code? : DiagramError → Option String
  | .emptyRegex => some "E_AST_EMPTY"
  | .unsupported .. => some "E_AST_UNSUPPORTED"
  | .missingField .. => none
  | .badScale .. => some "E_RENDER_ARGS"
  | .number .. => none
  | .bitmap .. => none

/-- The error's message. -/
def DiagramError.message : DiagramError → String
  | .emptyRegex => "regex has no alternatives"
  | .unsupported p n => "unsupported " ++ p.name ++ " node " ++ n.typeName ++ ": " ++ n.literal
  | .missingField n f => "'" ++ n.typeName ++ "' object has no attribute '" ++ f ++ "'"
  | .badScale s => "scale must be > 0, got " ++ s.literal
  | .number .wholeTooLarge => "int too large to convert to float"
  | .number .quotientTooLarge => "integer division result too large for a float"
  | .number .infiniteToWhole => "cannot convert float infinity to integer"
  | .number .nanToWhole => "cannot convert float NaN to integer"
  | .bitmap f => f.message

end PatternChart
