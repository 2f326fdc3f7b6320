import PatternChart.Number.Measure
import PatternChart.Diagram.Basic
/-!
# Nodes as a caller hands them over

Callers build syntax trees and diagrams out of nodes, and nothing stops them from
putting any node, or a bare value, in any place. A `Node` is such a value before it
has been checked: every kind of syntax node, every kind of diagram element with its
frame as given, a missing value, and a bare string, whole number, truth value or
float. Reading a node as a regex or as a diagram (in `Node.Read`) either gives the
typed tree or names the first node that does not fit.
-/

set_option autoImplicit false

namespace PatternChart

/-- A value where a syntax node or a diagram element is expected. -/
inductive Node where
  | regex (alternatives : List Node)
  | alternative (terms : List Node)
  | quantified (atom quantifier : Node) (greedy : Bool)
  | assertion (kind : String) (id : Int)
  | char (value : String) (id : Int)
  | any (id : Int)
  | classEscape (letter : String) (id : Int)
  | escaped (value : String) (id : Int)
  | backReference (index id : Int)
  | charSet (negated : Bool) (items : List Node) (id : Int)
  | range (first last : Node)
  | group (regex : Node) (index id : Int)
  | nonCapturing (regex : Node) (id : Int)
  | lookahead (regex : Node) (negated : Bool) (id : Int)
  | star
  | plus
  | optional
  | exactly (count : Int)
  | atLeast (count : Int)
  | between (low high : Int)
  | leaf (frame : Frame Measure) (leaf : Leaf)
  | seq (frame : Frame Measure) (info : Sequence) (children : List Node)
  | choice (frame : Frame Measure) (children : List Node)
  | null
  | text (value : String)
  | integer (value : Int)
  | boolean (value : Bool)
  | real (value : Float)

instance : Inhabited Node := ⟨.null⟩

namespace Node

/-- The name of the node's kind, as messages print it. -/
def typeName : Node → String
  | .regex .. => "Regex"
  | .alternative .. => "Alternative"
  | .quantified .. => "Quantified"
  | .assertion .. => "Assertion"
  | .char .. => "Char"
  | .any .. => "AnyChar"
  | .classEscape .. => "ClassEscape"
  | .escaped .. => "EscapedChar"
  | .backReference .. => "BackReference"
  | .charSet .. => "CharSet"
  | .range .. => "CharRange"
  | .group .. => "Group"
  | .nonCapturing .. => "NonCapturingGroup"
  | .lookahead .. => "Lookahead"
  | .star => "Star"
  | .plus => "Plus"
  | .optional => "QuestionMark"
  | .exactly .. => "Exactly"
  | .atLeast .. => "AtLeast"
  | .between .. => "Between"
  | .leaf .. => "Leaf"
  | .seq .. => "Sequence"
  | .choice .. => "Choice"
  | .null => "NoneType"
  | .text .. => "str"
  | .integer .. => "int"
  | .boolean .. => "bool"
  | .real .. => "float"

end Node

end PatternChart
