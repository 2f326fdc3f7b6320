import PatternChart.Node.Basic
import PatternChart.Text.Quoted
/-!
# The literal form of a node

How a message shows a node: its kind's name followed by every field as
`name=value` in the kind's field order, in parentheses. Strings are quoted
literals, whole numbers are decimal, truth values are `True` and `False`, a missing
value is `None`, a float is its shortest literal, and a list of nodes is written in
parentheses with a trailing comma when it has one member: `()`, `(x,)`, `(x, y)`.
-/

set_option autoImplicit false

namespace PatternChart

open Text

/-- The literal of a truth value. -/
def boolLiteral (b : Bool) : String := if b then "True" else "False"

/-- The literal of an optional value, `None` when absent. -/
def optionLiteral {α : Type} (f : α → String) : Option α → String
  | none => "None"
  | some a => f a

/-- The literal of a hook: a script shows as a script object, a plain value as itself. -/
def Hook.literal : Hook → String
  | .script s => "ScriptHook(script=" ++ quoted s ++ ")"
  | .plain v => quoted v

/-- Members written in parentheses, with a trailing comma for a single member. -/
def tupleLiteral : List String → String
  | [] => "()"
  | [x] => "(" ++ x ++ ",)"
  | xs => "(" ++ ", ".intercalate xs ++ ")"

/-- A kind's name with its fields. -/
def recordLiteral (kind : String) (fields : List (String × String)) : String :=
  kind ++ "(" ++ ", ".intercalate (fields.map fun (k, v) => k ++ "=" ++ v) ++ ")"

/-- The geometry fields of a frame, in field order. -/
def Frame.literalFields (f : Frame Measure) : List (String × String) :=
  [("width", f.width.literal), ("height", f.height.literal), ("x", f.x.literal),
    ("y", f.y.literal)]

/-- The hover fields shared by leaves and sequences. -/
def hookFields (nodeId : Option Int) (onEnter onLeave : Option Hook) : List (String × String) :=
  [("node_id", optionLiteral toString nodeId), ("on_enter", optionLiteral Hook.literal onEnter),
    ("on_leave", optionLiteral Hook.literal onLeave)]

mutual
/-- The literal of a node. -/
def Node.literal : Node → String
  | .regex alts => recordLiteral "Regex" [("alternatives", Node.listLiteral alts)]
  | .alternative ts => recordLiteral "Alternative" [("terms", Node.listLiteral ts)]
  | .quantified a q g =>
    recordLiteral "Quantified"
      [("atom", a.literal), ("quantifier", q.literal), ("greedy", boolLiteral g)]
  | .assertion k i => recordLiteral "Assertion" [("kind", quoted k), ("id", toString i)]
  | .char v i => recordLiteral "Char" [("value", quoted v), ("id", toString i)]
  | .any i => recordLiteral "AnyChar" [("id", toString i)]
  | .classEscape l i => recordLiteral "ClassEscape" [("letter", quoted l), ("id", toString i)]
  | .escaped v i => recordLiteral "EscapedChar" [("value", quoted v), ("id", toString i)]
  | .backReference n i => recordLiteral "BackReference" [("index", toString n), ("id", toString i)]
  | .charSet neg items i =>
    recordLiteral "CharSet"
      [("negated", boolLiteral neg), ("items", Node.listLiteral items), ("id", toString i)]
  | .range a b => recordLiteral "CharRange" [("first", a.literal), ("last", b.literal)]
  | .group r n i =>
    recordLiteral "Group" [("regex", r.literal), ("index", toString n), ("id", toString i)]
  | .nonCapturing r i =>
    recordLiteral "NonCapturingGroup" [("regex", r.literal), ("id", toString i)]
  | .lookahead r neg i =>
    recordLiteral "Lookahead"
      [("regex", r.literal), ("negated", boolLiteral neg), ("id", toString i)]
  | .star => "Star()"
  | .plus => "Plus()"
  | .optional => "QuestionMark()"
  | .exactly n => recordLiteral "Exactly" [("count", toString n)]
  | .atLeast n => recordLiteral "AtLeast" [("count", toString n)]
  | .between lo hi => recordLiteral "Between" [("low", toString lo), ("high", toString hi)]
  | .leaf f l =>
    recordLiteral "Leaf"
      ([("label", quoted l.label), ("annotation", quoted l.caption)] ++ f.literalFields ++
        [("border_color", quoted l.tone.tag)] ++ hookFields l.nodeId l.onEnter l.onLeave)
  | .seq f s cs =>
    recordLiteral "Sequence"
      ([("children", Node.listLiteral cs), ("group_label", optionLiteral quoted s.groupLabel),
        ("annotation", quoted s.caption), ("border", toString s.border)] ++ f.literalFields ++
        hookFields s.nodeId s.onEnter s.onLeave)
  | .choice f cs => recordLiteral "Choice" ([("children", Node.listLiteral cs)] ++ f.literalFields)
  | .null => "None"
  | .text s => quoted s
  | .integer n => toString n
  | .boolean b => boolLiteral b
  | .real x => floatLiteral x

/-- The literal of a list of nodes. -/
def Node.listLiteral (ns : List Node) : String :=
  tupleLiteral (Node.literals ns)

/-- The literals of the members of a list, in order. -/
def Node.literals : List Node → List String
  | [] => []
  | n :: ns => n.literal :: Node.literals ns
end

end PatternChart
