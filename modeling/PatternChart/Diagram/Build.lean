import PatternChart.Syntax.Text
import PatternChart.Diagram.Basic
/-!
# From a regex to its diagram

A regex becomes a choice with one child per alternative. An empty alternative is a
leaf showing `∅`; any other alternative is a sequence of its terms. An anchor is a
leaf in muted ink. An atom is a leaf labelled with its text (a space shows as `␣`),
in muted ink for the metacharacters `.`, class escapes and escapes, and in plain ink
otherwise; the parenthesised forms are group boxes around the diagram of their body,
labelled with the group's number, `?=` or `?!`. A quantifier becomes the caption
of its atom's box.

Every box made for an assertion or an atom carries the node's id and the hover hooks
that the hook factory gives for that id.
-/

set_option autoImplicit false

namespace PatternChart

/-- A hook factory: the hooks for entering and leaving the box of the node with a
given id. -/
abbrev Hooks := Int → Option Hook × Option Hook

namespace Hooks

/-- No hooks for any box. -/
def none : Hooks := fun _ => (Option.none, Option.none)

/-- Hooks that add a CSS class to the page element whose id is the prefix followed by
the node id when the pointer enters the box, and remove it when it leaves. -/
def highlight (idPrefix cssClass : String) : Hooks := fun id =>
  let target := "document.getElementById('" ++ idPrefix ++ toString id ++ "')"
  (some (.script (target ++ ".classList.add('" ++ cssClass ++ "')")),
    some (.script (target ++ ".classList.remove('" ++ cssClass ++ "')")))

end Hooks

/-! ## Quantifier captions -/

/-- The lower and upper repeat counts of a quantifier as text, `∞` for no bound. -/
def Quantifier.bounds : Quantifier → String × String
  | .star => ("0", "∞")
  | .plus => ("1", "∞")
  | .optional => ("0", "1")
  | .exactly n => (toString n, toString n)
  | .atLeast n => (toString n, "∞")
  | .between lo hi => (toString lo, toString hi)

/-- The caption over a quantified atom: `low-high` for a greedy quantifier and
`high-low` for a lazy one, the bare count for an exact repeat, and nothing without a
quantifier. -/
def Quantifier.caption : Option Quantifier → Bool → String
  | none, _ => ""
  | some (.exactly n), _ => toString n
  | some q, greedy =>
    let (lo, hi) := q.bounds
    if greedy then lo ++ "-" ++ hi else hi ++ "-" ++ lo

/-! ## Building -/

/-- The width a group box adds around its body. -/
def groupBorder : Int := 20

/-- The box for a node with an id. -/
def boxLeaf (hooks : Hooks) (label caption : String) (tone : Tone) (id : Int) : Element Int :=
  let (onEnter, onLeave) := hooks id
  .leaf .zero { label, caption, tone, nodeId := some id, onEnter, onLeave }

/-- The label a character shows: the visible space glyph for a space. -/
def charLabel (v : String) : String := if v = " " then "␣" else v

/-- A group box around a body. -/
def groupBox (hooks : Hooks) (label : Option String) (caption : String) (id : Int)
    (body : Element Int) : Element Int :=
  let (onEnter, onLeave) := hooks id
  .seq .zero
    { groupLabel := label, caption, border := groupBorder, nodeId := some id, onEnter, onLeave }
    [body]

mutual
/-- The diagram of a regex: a choice between its alternatives. -/
def Regex.build (hooks : Hooks) : Regex → Element Int
  | .mk alts => .choice .zero (Alternative.buildList hooks alts)

/-- The diagrams of alternatives, in order. -/
def Alternative.buildList (hooks : Hooks) : List Alternative → List (Element Int)
  | [] => []
  | a :: as => a.build hooks :: Alternative.buildList hooks as

/-- The diagram of an alternative: `∅` when empty, else the sequence of its terms. -/
def Alternative.build (hooks : Hooks) : Alternative → Element Int
  | .mk [] => .leaf .zero { label := "∅" }
  | .mk (t :: ts) => .seq .zero {} (Term.buildList hooks (t :: ts))

/-- The diagrams of terms, in order. -/
def Term.buildList (hooks : Hooks) : List Term → List (Element Int)
  | [] => []
  | t :: ts => t.build hooks :: Term.buildList hooks ts

/-- The diagram of a term: its atom annotated with its quantifier, or an anchor box. -/
def Term.build (hooks : Hooks) : Term → Element Int
  | .assertion a id => boxLeaf hooks a.text "" .muted id
  | .quantified atom q greedy => atom.build hooks (Quantifier.caption q greedy)

/-- The diagram of an atom carrying a given caption. -/
def Atom.build (hooks : Hooks) (caption : String) : Atom → Element Int
  | .char v id => boxLeaf hooks (charLabel v) caption .plain id
  | .any id => boxLeaf hooks "." caption .muted id
  | .classEscape l id => boxLeaf hooks ("\\" ++ l) caption .muted id
  | .escaped v id => boxLeaf hooks ("\\" ++ v) caption .muted id
  | .backReference n id => boxLeaf hooks ("\\" ++ toString n) caption .plain id
  | .charSet neg items id => boxLeaf hooks (charSetText neg items) caption .plain id
  | .group r n id => groupBox hooks (some (toString n)) caption id (r.build hooks)
  | .nonCapturing r id => groupBox hooks none caption id (r.build hooks)
  | .lookahead r neg id =>
    groupBox hooks (some (if neg then "?!" else "?=")) caption id (r.build hooks)

end

end PatternChart
