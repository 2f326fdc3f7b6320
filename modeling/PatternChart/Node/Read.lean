import PatternChart.Error
import PatternChart.Syntax.Text
/-!
# Reading nodes as regexes and diagrams

A node tree becomes a typed tree, or the reading stops at the first node that does
not fit, walking the tree depth first, left to right.

Two readings of a regex differ in order and strictness. Writing the pattern text
looks at a term's atom before its quantifier and accepts a regex with no
alternatives. Building a diagram looks at the quantifier first, since the
quantifier's caption is settled before the atom's box, and refuses a regex with
no alternatives, at the top and inside every group. A node in the place of a regex or
of an alternative is asked for its alternatives or terms; any other misplaced node
is reported as unsupported in its place.

A diagram is read the same way, except for resizing, which asks each child of a
sequence for its width and each child of a choice for its height before anything
else, so that a non-element child is reported as lacking that field.
-/

set_option autoImplicit false

namespace PatternChart

/-- The two ways of reading a regex. -/
inductive Reading where
  /-- For writing text: an atom before its quantifier; empty regexes allowed. -/
  | text
  /-- For building a diagram: a quantifier before its atom; empty regexes refused. -/
  | diagram
  deriving DecidableEq, Repr

namespace Node

/-- Reads a quantifier slot; a missing value means no quantifier. -/
def readQuantifier : Node → Except DiagramError (Option Quantifier)
  | .null => pure none
  | .star => pure (some .star)
  | .plus => pure (some .plus)
  | .optional => pure (some .optional)
  | .exactly n => pure (some (.exactly n))
  | .atLeast n => pure (some (.atLeast n))
  | .between lo hi => pure (some (.between lo hi))
  | n => throw (.unsupported .quantifier n)

/-- Reads a member of a character set; a range reads its first end, then its last. -/
def readSetItem : Node → Except DiagramError SetItem
  | .range a b => do
    let first ← readSetItem a
    let last ← readSetItem b
    pure (.range first last)
  | .char v _ => pure (.char v)
  | .escaped v _ => pure (.escaped v)
  | .classEscape l _ => pure (.classEscape l)
  | n => throw (.unsupported .charSet n)

/-- Reads the members of a character set in order. -/
def readSetItems : List Node → Except DiagramError (List SetItem)
  | [] => pure []
  | n :: ns => do
    let i ← readSetItem n
    let is ← readSetItems ns
    pure (i :: is)

mutual
/-- Reads a regex. -/
def readRegex (rd : Reading) : Node → Except DiagramError Regex
  | .regex alts =>
    if rd = .diagram ∧ alts = [] then throw .emptyRegex
    else do
      let as ← readAlternatives rd alts
      pure (.mk as)
  | n => throw (.missingField n "alternatives")

/-- Reads the alternatives of a regex in order. -/
def readAlternatives (rd : Reading) : List Node → Except DiagramError (List Alternative)
  | [] => pure []
  | n :: ns => do
    let a ← readAlternative rd n
    let as ← readAlternatives rd ns
    pure (a :: as)

/-- Reads an alternative. -/
def readAlternative (rd : Reading) : Node → Except DiagramError Alternative
  | .alternative ts => do
    let ts ← readTerms rd ts
    pure (.mk ts)
  | n => throw (.missingField n "terms")

/-- Reads the terms of an alternative in order. -/
def readTerms (rd : Reading) : List Node → Except DiagramError (List Term)
  | [] => pure []
  | n :: ns => do
    let t ← readTerm rd n
    let ts ← readTerms rd ns
    pure (t :: ts)

/-- Reads a term: an assertion of a known kind, or a quantified atom. -/
def readTerm (rd : Reading) : Node → Except DiagramError Term
  | .assertion kind id =>
    match Anchor.ofKind? kind with
    | some a => pure (.assertion a id)
    | none => throw (.unsupported .assertion (.assertion kind id))
  | .quantified atom q greedy =>
    match rd with
    | .text => do
      let a ← readAtom rd atom
      let q ← readQuantifier q
      pure (.quantified a q greedy)
    | .diagram => do
      let q ← readQuantifier q
      let a ← readAtom rd atom
      pure (.quantified a q greedy)
  | n => throw (.unsupported .term n)

/-- Reads an atom. -/
def readAtom (rd : Reading) : Node → Except DiagramError Atom
  | .char v id => pure (.char v id)
  | .any id => pure (.any id)
  | .classEscape l id => pure (.classEscape l id)
  | .escaped v id => pure (.escaped v id)
  | .backReference n id => pure (.backReference n id)
  | .charSet neg items id => do
    let is ← readSetItems items
    pure (.charSet neg is id)
  | .group r n id => do
    let body ← readRegex rd r
    pure (.group body n id)
  | .nonCapturing r id => do
    let body ← readRegex rd r
    pure (.nonCapturing body id)
  | .lookahead r neg id => do
    let body ← readRegex rd r
    pure (.lookahead body neg id)
  | n => throw (.unsupported .atom n)
end

/-- The pattern text of a node tree, or why it has none. -/
def patternText (n : Node) : Except DiagramError String :=
  (readRegex .text n).map Regex.text

/-! ## Diagrams -/

mutual
/-- Reads a diagram element whose frames are kept as given. -/
def readElement : Node → Except DiagramError (Element Measure)
  | .leaf f l => pure (.leaf f l)
  | .seq f s cs => do
    let es ← readElements cs
    pure (.seq f s es)
  | .choice f cs => do
    let es ← readElements cs
    pure (.choice f es)
  | n => throw (.unsupported .visual n)

/-- Reads a list of elements in order. -/
def readElements : List Node → Except DiagramError (List (Element Measure))
  | [] => pure []
  | n :: ns => do
    let e ← readElement n
    let es ← readElements ns
    pure (e :: es)
end

/-- Whether a node is a diagram element. -/
def isElement : Node → Bool
  | .leaf .. | .seq .. | .choice .. => true
  | _ => false

mutual
/-- Reads an element for resizing: a non-element child of a sequence lacks a width,
and one of a choice lacks a height. -/
def readResizable : Node → Except DiagramError (Element Measure)
  | .leaf f l => pure (.leaf f l)
  | .seq f s cs => do
    let es ← readResizableChildren "width" cs
    pure (.seq f s es)
  | .choice f cs => do
    let es ← readResizableChildren "height" cs
    pure (.choice f es)
  | n => throw (.unsupported .visual n)

/-- Reads the children of a container that asks each child for `field` first. -/
def readResizableChildren (field : String) :
    List Node → Except DiagramError (List (Element Measure))
  | [] => pure []
  | n :: ns => do
    let e ← if n.isElement then readResizable n else throw (.missingField n field)
    let es ← readResizableChildren field ns
    pure (e :: es)
end

end Node

/-- A frame whose four numbers are whole, or `none`. -/
def Frame.toWhole? (f : Frame Measure) : Option (Frame Int) :=
  match f.width, f.height, f.x, f.y with
  | .whole w, .whole h, .whole x, .whole y => some ⟨w, h, x, y⟩
  | _, _, _, _ => none

mutual
/-- An element whose frames all hold whole numbers, or `none`. -/
def Element.toWhole? : Element Measure → Option (Element Int)
  | .leaf f l => return .leaf (← f.toWhole?) l
  | .seq f s cs => return .seq (← f.toWhole?) s (← Element.listToWhole? cs)
  | .choice f cs => return .choice (← f.toWhole?) (← Element.listToWhole? cs)

/-- The elements of a list with whole frames, or `none`. -/
def Element.listToWhole? : List (Element Measure) → Option (List (Element Int))
  | [] => some []
  | e :: es => return (← Element.toWhole? e) :: (← Element.listToWhole? es)
end

end PatternChart
