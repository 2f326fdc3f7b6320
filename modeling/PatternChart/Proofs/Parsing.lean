import Mathlib
import PatternChart.Syntax.Text
/-!
# Reading pattern text back

The pattern text of a regex writes its nodes one after another with no separators, so it
says which regex it came from only as far as every junction of two written nodes can be
told apart again. This module reads pattern text back and proves that reading undoes
writing on the regexes a parser gives, so that the text decides the regex up to what it
does not write.

What the text does not write: node ids, and the number of a capturing group, which the
notation leaves to the group's place. So equal texts give equal regexes once ids and
group numbers are set to zero (`Regex.erase`). There is one junction the text cannot
tell apart: a back reference without a quantifier written before a digit, as in `\1`
followed by `0`, reads as the back reference `\10`. With that junction excluded
(`Regex.separated`), equal texts give regexes equal up to ids and group numbers
(`Regex.text_eq_iff_erase_eq`); `Regex.text_merges_group_numbers_and_digit_runs` shows that
neither exclusion can be dropped.

The trees a parser gives (`Regex.wellFormed`) are the ones whose every regex node has an
alternative, every character is one code point that is not a metacharacter (nor, in a
set, a hyphen), every escape escapes one metacharacter, every class escape is one of
`\d \D \w \W \s \S`, every back reference is at least `\1`, every count is at least zero,
every range runs between two single members, and no term without a quantifier is lazy.

The reader (`parseRegex` and its siblings) follows the notation: alternatives split at
`|`; a term is an anchor, or an atom followed by an optional quantifier and, after a
quantifier, an optional `?` marking it lazy; a backslash is followed by a class letter,
a metacharacter or the digits of a back reference; a set runs from `[` to `]`; a
parenthesis opens a group, `(?:`, `(?=` or `(?!`. Nesting is bounded by a fuel argument;
`Regex.weight` is the fuel a regex needs.
-/

set_option autoImplicit false

namespace PatternChart

/-! ## 1. The trees a parser gives -/

/-- The metacharacters of the notation. -/
def metaChars : List Char :=
  ['\\', '^', '$', '.', '|', '?', '*', '+', '(', ')', '[', ']', '\x7b', '\x7d']

/-- The letters of the class escapes. -/
def classLetters : List Char := ['d', 'D', 'w', 'W', 's', 'S']

/-- The character a text holds, when it holds exactly one. -/
def soleChar (s : String) : Option Char :=
  match s.toList with
  | [c] => some c
  | _ => none

/-- Whether a text is one character from a list. -/
def isOneOf (s : String) (cs : List Char) : Bool :=
  match soleChar s with
  | some c => cs.contains c
  | none => false

/-- Whether a text is one character outside a list. -/
def isOneOutside (s : String) (cs : List Char) : Bool :=
  match soleChar s with
  | some c => !cs.contains c
  | none => false

/-- A set member as a parser gives it: a character that is neither a metacharacter nor a
hyphen, an escaped metacharacter, or a class escape. -/
def SetItem.isMember : SetItem → Bool
  | .char v => isOneOutside v ('-' :: metaChars)
  | .escaped v => isOneOf v metaChars
  | .classEscape l => isOneOf l classLetters
  | .range _ _ => false

/-- A set item as a parser gives it: a member, or a range between two members. -/
def SetItem.wellFormed : SetItem → Bool
  | .range a b => a.isMember && b.isMember
  | i => i.isMember

/-- A quantifier as a parser gives it: no count below zero. -/
def Quantifier.wellFormed : Quantifier → Bool
  | .exactly n => decide (0 ≤ n)
  | .atLeast n => decide (0 ≤ n)
  | .between lo hi => decide (0 ≤ lo) && decide (0 ≤ hi)
  | _ => true

mutual
/-- A regex as a parser gives it: every regex node has an alternative, and every node
below is as a parser gives it. -/
def Regex.wellFormed : Regex → Bool
  | .mk alts => !alts.isEmpty && Alternative.wellFormedList alts

/-- Whether every alternative of a list is as a parser gives it. -/
def Alternative.wellFormedList : List Alternative → Bool
  | [] => true
  | a :: as => a.wellFormed && Alternative.wellFormedList as

/-- Whether every term of an alternative is as a parser gives it. -/
def Alternative.wellFormed : Alternative → Bool
  | .mk ts => Term.wellFormedList ts

/-- Whether every term of a list is as a parser gives it. -/
def Term.wellFormedList : List Term → Bool
  | [] => true
  | t :: ts => t.wellFormed && Term.wellFormedList ts

/-- A term as a parser gives it: a well-formed atom and quantifier, greedy when there is
no quantifier. -/
def Term.wellFormed : Term → Bool
  | .assertion _ _ => true
  | .quantified a none greedy => a.wellFormed && greedy
  | .quantified a (some q) _ => a.wellFormed && q.wellFormed

/-- An atom as a parser gives it. -/
def Atom.wellFormed : Atom → Bool
  | .char v _ => isOneOutside v metaChars
  | .any _ => true
  | .classEscape l _ => isOneOf l classLetters
  | .escaped v _ => isOneOf v metaChars
  | .backReference i _ => decide (1 ≤ i)
  | .charSet _ items _ => items.all SetItem.wellFormed
  | .group r _ _ => r.wellFormed
  | .nonCapturing r _ => r.wellFormed
  | .lookahead r _ _ => r.wellFormed
end

/-! ## 2. The junction the text cannot tell apart -/

/-- Whether an atom's text ends in a number that a following digit would run on: it is
a back reference. -/
def Atom.endsInNumber : Atom → Bool
  | .backReference _ _ => true
  | _ => false

/-- Whether a term's text ends in a number: a back reference without a quantifier. -/
def Term.endsInNumber : Term → Bool
  | .quantified a none _ => a.endsInNumber
  | _ => false

/-- Whether a term's text starts with a decimal digit. -/
def Term.leadsWithDigit (t : Term) : Bool := t.text.toList.head?.any Char.isDigit

mutual
/-- Whether no back reference without a quantifier is followed, in its alternative, by a
term whose text starts with a digit. -/
def Regex.separated : Regex → Bool
  | .mk alts => Alternative.separatedList alts

/-- Whether every alternative of a list is separated. -/
def Alternative.separatedList : List Alternative → Bool
  | [] => true
  | a :: as => a.separated && Alternative.separatedList as

/-- Whether the terms of an alternative are separated. -/
def Alternative.separated : Alternative → Bool
  | .mk ts => Term.separatedList ts

/-- Whether each term of a list is separated and no unquantified back reference is
followed by a term that starts with a digit. -/
def Term.separatedList : List Term → Bool
  | [] => true
  | t :: ts =>
    t.separated && !(t.endsInNumber && ts.head?.any Term.leadsWithDigit) &&
      Term.separatedList ts

/-- Whether the body of a term's atom, if parenthesised, is separated. -/
def Term.separated : Term → Bool
  | .assertion _ _ => true
  | .quantified a _ _ => a.separated

/-- Whether the body of a parenthesised atom is separated. -/
def Atom.separated : Atom → Bool
  | .group r _ _ => r.separated
  | .nonCapturing r _ => r.separated
  | .lookahead r _ _ => r.separated
  | _ => true
end

/-! ## 3. What the text does not write -/

mutual
/-- A regex with every id and every group number set to zero. -/
def Regex.erase : Regex → Regex
  | .mk alts => .mk (Alternative.eraseList alts)

/-- Alternatives with ids and group numbers set to zero. -/
def Alternative.eraseList : List Alternative → List Alternative
  | [] => []
  | a :: as => a.erase :: Alternative.eraseList as

/-- An alternative with ids and group numbers set to zero. -/
def Alternative.erase : Alternative → Alternative
  | .mk ts => .mk (Term.eraseList ts)

/-- Terms with ids and group numbers set to zero. -/
def Term.eraseList : List Term → List Term
  | [] => []
  | t :: ts => t.erase :: Term.eraseList ts

/-- A term with ids and group numbers set to zero. -/
def Term.erase : Term → Term
  | .assertion a _ => .assertion a 0
  | .quantified a q greedy => .quantified a.erase q greedy

/-- An atom with ids and group numbers set to zero. -/
def Atom.erase : Atom → Atom
  | .char v _ => .char v 0
  | .any _ => .any 0
  | .classEscape l _ => .classEscape l 0
  | .escaped v _ => .escaped v 0
  | .backReference i _ => .backReference i 0
  | .charSet neg items _ => .charSet neg items 0
  | .group r _ _ => .group r.erase 0 0
  | .nonCapturing r _ => .nonCapturing r.erase 0
  | .lookahead r neg _ => .lookahead r.erase neg 0
end

/-! ## 4. The reader -/

/-- The value of a run of decimal digits. -/
def digitsValue (ds : List Char) : Nat :=
  ds.foldl (fun acc c => 10 * acc + (c.toNat - '0'.toNat)) 0

/-- Reads a number: a nonempty run of decimal digits, taken as long as it goes. -/
def parseNumber (s : List Char) : Option (Nat × List Char) :=
  match s.span Char.isDigit with
  | ([], _) => none
  | (ds, s') => some (digitsValue ds, s')

/-- Reads what follows `{` in a counted quantifier: `n}`, `n,}` or `m,n}`. -/
def parseBraces (s : List Char) : Option (Quantifier × List Char) :=
  match parseNumber s with
  | some (n, '\x7d' :: s₁) => some (.exactly n, s₁)
  | some (n, ',' :: '\x7d' :: s₁) => some (.atLeast n, s₁)
  | some (n, ',' :: s₁) =>
    match parseNumber s₁ with
    | some (m, '\x7d' :: s₂) => some (.between n m, s₂)
    | _ => none
  | _ => none

/-- Reads an optional quantifier. -/
def parseQuantifier : List Char → Option (Option Quantifier × List Char)
  | '*' :: s => some (some .star, s)
  | '+' :: s => some (some .plus, s)
  | '?' :: s => some (some .optional, s)
  | '\x7b' :: s => (parseBraces s).map fun (q, s') => (some q, s')
  | s => some (none, s)

/-- Reads an anchor: `^`, `$`, `\b` or `\B`. -/
def parseAnchor : List Char → Option (Anchor × List Char)
  | '^' :: s => some (.start, s)
  | '$' :: s => some (.finish, s)
  | '\\' :: 'b' :: s => some (.wordBoundary, s)
  | '\\' :: 'B' :: s => some (.notWordBoundary, s)
  | _ => none

/-- Reads what follows a backslash in an atom: a class letter, a metacharacter, or the
digits of a back reference. -/
def parseEscape : List Char → Option (Atom × List Char)
  | c :: s =>
    if classLetters.contains c then some (.classEscape c.toString 0, s)
    else if metaChars.contains c then some (.escaped c.toString 0, s)
    else (parseNumber (c :: s)).map fun (n, s') => (.backReference n 0, s')
  | [] => none

/-- Reads a member of a set. -/
def parseMember : List Char → Option (SetItem × List Char)
  | '\\' :: c :: s =>
    if classLetters.contains c then some (.classEscape c.toString, s)
    else if metaChars.contains c then some (.escaped c.toString, s)
    else none
  | c :: s => if ('-' :: metaChars).contains c then none else some (.char c.toString, s)
  | [] => none

/-- Reads an item of a set: a member, or two members around a hyphen. -/
def parseItem (s : List Char) : Option (SetItem × List Char) :=
  match parseMember s with
  | some (a, '-' :: s₁) => (parseMember s₁).map fun (b, s₂) => (.range a b, s₂)
  | r => r

/-- Whether the input ends an alternative: it is used up, or goes on with `|` or `)`. -/
def endsAlternative : List Char → Bool
  | [] => true
  | '|' :: _ => true
  | ')' :: _ => true
  | _ => false

/-- Whether the input ends a regex: it is used up, or goes on with `)`. -/
def endsRegex : List Char → Bool
  | [] => true
  | ')' :: _ => true
  | _ => false

/-- Whether a character starts a quantifier. -/
def startsQuantifier (c : Char) : Bool := ['*', '+', '?', '\x7b'].contains c

mutual
/-- Reads a regex, up to the end of the input or a closing parenthesis. -/
def parseRegex : Nat → List Char → Option (Regex × List Char)
  | 0, _ => none
  | n + 1, s => (parseAlternatives n s).map fun (as, s') => (.mk as, s')

/-- Reads alternatives separated by `|`. -/
def parseAlternatives : Nat → List Char → Option (List Alternative × List Char)
  | 0, _ => none
  | n + 1, s =>
    match parseTerms n s with
    | some (ts, '|' :: s₁) => (parseAlternatives n s₁).map fun (as, s₂) => (.mk ts :: as, s₂)
    | some (ts, s₁) => some ([.mk ts], s₁)
    | none => none

/-- Reads the terms of an alternative. -/
def parseTerms : Nat → List Char → Option (List Term × List Char)
  | 0, _ => none
  | n + 1, s =>
    if endsAlternative s then some ([], s)
    else
      match parseTerm n s with
      | some (t, s₁) => (parseTerms n s₁).map fun (ts, s₂) => (t :: ts, s₂)
      | none => none

/-- Reads a term: an anchor, or an atom with its quantifier and laziness. -/
def parseTerm : Nat → List Char → Option (Term × List Char)
  | 0, _ => none
  | n + 1, s =>
    match parseAnchor s with
    | some (a, s₁) => some (.assertion a 0, s₁)
    | none =>
      match parseAtom n s with
      | some (a, s₁) =>
        match parseQuantifier s₁ with
        | some (none, s₂) => some (.quantified a none true, s₂)
        | some (some q, '?' :: s₂) => some (.quantified a (some q) false, s₂)
        | some (some q, s₂) => some (.quantified a (some q) true, s₂)
        | none => none
      | none => none

/-- Reads an atom. -/
def parseAtom : Nat → List Char → Option (Atom × List Char)
  | 0, _ => none
  | n + 1, s =>
    match s with
    | '.' :: s₁ => some (.any 0, s₁)
    | '\\' :: s₁ => parseEscape s₁
    | '[' :: '^' :: s₁ => (parseItems n s₁).map fun (is, s₂) => (.charSet true is 0, s₂)
    | '[' :: s₁ => (parseItems n s₁).map fun (is, s₂) => (.charSet false is 0, s₂)
    | '(' :: '?' :: ':' :: s₁ => (parseGroup n s₁).map fun (r, s₂) => (.nonCapturing r 0, s₂)
    | '(' :: '?' :: '=' :: s₁ => (parseGroup n s₁).map fun (r, s₂) => (.lookahead r false 0, s₂)
    | '(' :: '?' :: '!' :: s₁ => (parseGroup n s₁).map fun (r, s₂) => (.lookahead r true 0, s₂)
    | '(' :: s₁ => (parseGroup n s₁).map fun (r, s₂) => (.group r 0 0, s₂)
    | c :: s₁ => if metaChars.contains c then none else some (.char c.toString 0, s₁)
    | [] => none

/-- Reads the body of a parenthesised atom and its closing parenthesis. -/
def parseGroup : Nat → List Char → Option (Regex × List Char)
  | 0, _ => none
  | n + 1, s =>
    match parseRegex n s with
    | some (r, ')' :: s₁) => some (r, s₁)
    | _ => none

/-- Reads the items of a set and its closing bracket. -/
def parseItems : Nat → List Char → Option (List SetItem × List Char)
  | 0, _ => none
  | n + 1, s =>
    match s with
    | ']' :: s₁ => some ([], s₁)
    | _ =>
      match parseItem s with
      | some (i, s₁) => (parseItems n s₁).map fun (is, s₂) => (i :: is, s₂)
      | none => none
end

/-! ## 5. The fuel a regex needs

Each level of the reader takes one unit of fuel, and each item of a set one more. -/

mutual
/-- The fuel that reading a regex back takes. -/
def Regex.weight : Regex → Nat
  | .mk alts => Alternative.weightList alts + 1

/-- The fuel that reading alternatives back takes. -/
def Alternative.weightList : List Alternative → Nat
  | [] => 0
  | a :: as => a.weight + Alternative.weightList as + 1

/-- The fuel that reading an alternative's terms back takes. -/
def Alternative.weight : Alternative → Nat
  | .mk ts => Term.weightList ts

/-- The fuel that reading terms back takes, up to the end of their alternative. -/
def Term.weightList : List Term → Nat
  | [] => 1
  | t :: ts => t.weight + Term.weightList ts + 1

/-- The fuel that reading a term back takes. -/
def Term.weight : Term → Nat
  | .assertion _ _ => 1
  | .quantified a _ _ => a.weight + 1

/-- The fuel that reading an atom back takes. -/
def Atom.weight : Atom → Nat
  | .charSet _ items _ => items.length + 2
  | .group r _ _ => r.weight + 2
  | .nonCapturing r _ => r.weight + 2
  | .lookahead r _ _ => r.weight + 2
  | _ => 1
end

theorem endsRegex_iff {s : List Char} : endsRegex s = true ↔ s = [] ∨ ∃ s₁, s = ')' :: s₁ := by
  unfold endsRegex
  split <;> simp_all

/-! ## 6. One lemma per reading step

Each lemma says what one function of the reader does on input of a given form, so that
the round trip below never unfolds the reader. -/

section Steps

variable {n : Nat} {s s₁ s₂ : List Char}

theorem parseRegex_succ (n : Nat) (s : List Char) :
    parseRegex (n + 1) s = (parseAlternatives n s).map fun (as, s') => (.mk as, s') := rfl

theorem parseAlternatives_bar {ts : List Term} (h : parseTerms n s = some (ts, '|' :: s₁)) :
    parseAlternatives (n + 1) s =
      (parseAlternatives n s₁).map fun (as, s₂) => (.mk ts :: as, s₂) := by
  simp [parseAlternatives, h]

theorem parseAlternatives_last {ts : List Term} (h : parseTerms n s = some (ts, s₁))
    (h₁ : endsRegex s₁ = true) : parseAlternatives (n + 1) s = some ([.mk ts], s₁) := by
  obtain rfl | ⟨s₂, rfl⟩ := endsRegex_iff.mp h₁ <;> simp [parseAlternatives, h]

theorem parseTerms_end (h : endsAlternative s = true) : parseTerms (n + 1) s = some ([], s) := by
  simp [parseTerms, h]

theorem parseTerms_term {t : Term} (h : endsAlternative s = false)
    (ht : parseTerm n s = some (t, s₁)) :
    parseTerms (n + 1) s = (parseTerms n s₁).map fun (ts, s₂) => (t :: ts, s₂) := by
  simp [parseTerms, h, ht]

/-- Only `^`, `$` and a backslash can open an anchor. -/
theorem parseAnchor_other {c : Char} (hc : c ∉ ['^', '$', '\\']) : parseAnchor (c :: s) = none := by
  simp only [List.mem_cons, List.not_mem_nil, or_false, not_or] at hc
  simp only [parseAnchor]
  split <;> simp_all

/-- After a backslash, only `b` and `B` make an anchor. -/
theorem parseAnchor_escape {c : Char} (hc : c ∉ ['b', 'B']) :
    parseAnchor ('\\' :: c :: s) = none := by
  simp only [List.mem_cons, List.not_mem_nil, or_false, not_or] at hc
  simp only [parseAnchor]
  split <;> simp_all

theorem parseTerm_anchor {a : Anchor} (h : parseAnchor s = some (a, s₁)) :
    parseTerm (n + 1) s = some (.assertion a 0, s₁) := by
  simp [parseTerm, h]

section Atom

variable {a : Atom} (h₀ : parseAnchor s = none) (h₁ : parseAtom n s = some (a, s₁))
include h₀ h₁

theorem parseTerm_plain (h₂ : parseQuantifier s₁ = some (none, s₂)) :
    parseTerm (n + 1) s = some (.quantified a none true, s₂) := by
  simp [parseTerm, h₀, h₁, h₂]

theorem parseTerm_lazy {q : Quantifier} (h₂ : parseQuantifier s₁ = some (some q, '?' :: s₂)) :
    parseTerm (n + 1) s = some (.quantified a (some q) false, s₂) := by
  simp [parseTerm, h₀, h₁, h₂]

theorem parseTerm_greedy {q : Quantifier} (h₂ : parseQuantifier s₁ = some (some q, s₂))
    (h₃ : s₂.head? ≠ some '?') :
    parseTerm (n + 1) s = some (.quantified a (some q) true, s₂) := by
  simp only [parseTerm, h₀, h₁, h₂]
  split <;> simp_all

end Atom

theorem parseAtom_plain {c : Char} (hc : metaChars.contains c = false) :
    parseAtom (n + 1) (c :: s) = some (.char c.toString 0, s) := by
  -- a plain character opens none of the other kinds of atom
  have hopen : c ≠ '.' ∧ c ≠ '\\' ∧ c ≠ '[' ∧ c ≠ '(' := by
    simp [metaChars] at hc
    tauto
  simp only [parseAtom]
  split <;> simp_all

theorem parseAtom_set (hs : s.head? ≠ some '^') :
    parseAtom (n + 1) ('[' :: s) = (parseItems n s).map fun (is, s₂) => (.charSet false is 0, s₂) := by
  rcases s with _ | ⟨c, s⟩
  · rfl
  · simp only [List.head?_cons, ne_eq, Option.some.injEq] at hs
    simp [parseAtom, hs]

theorem parseAtom_group (hs : s.head? ≠ some '?') :
    parseAtom (n + 1) ('(' :: s) = (parseGroup n s).map fun (r, s₂) => (.group r 0 0, s₂) := by
  rcases s with _ | ⟨c, s⟩
  · rfl
  · simp only [List.head?_cons, ne_eq, Option.some.injEq] at hs
    simp [parseAtom, hs]

theorem parseAtom_escape : parseAtom (n + 1) ('\\' :: s) = parseEscape s := rfl

theorem parseAtom_nonCapturing :
    parseAtom (n + 1) ('(' :: '?' :: ':' :: s) =
      (parseGroup n s).map fun (r, s₂) => (.nonCapturing r 0, s₂) := rfl

theorem parseAtom_lookahead (neg : Bool) :
    parseAtom (n + 1) ('(' :: '?' :: (if neg then '!' else '=') :: s) =
      (parseGroup n s).map fun (r, s₂) => (.lookahead r neg 0, s₂) := by
  cases neg <;> rfl

theorem parseGroup_close {r : Regex} (h : parseRegex n s = some (r, ')' :: s₁)) :
    parseGroup (n + 1) s = some (r, s₁) := by
  simp [parseGroup, h]

theorem parseItem_range {a : SetItem} (h : parseMember s = some (a, '-' :: s₁)) :
    parseItem s = (parseMember s₁).map fun (b, s₂) => (.range a b, s₂) := by
  simp [parseItem, h]

theorem parseItem_member {a : SetItem} (h : parseMember s = some (a, s₁))
    (h₁ : s₁.head? ≠ some '-') : parseItem s = some (a, s₁) := by
  simp only [parseItem, h]
  split <;> simp_all

theorem parseItems_close : parseItems (n + 1) (']' :: s) = some ([], s) := rfl

theorem parseItems_item {i : SetItem} (hs : s.head? ≠ some ']') (h : parseItem s = some (i, s₁)) :
    parseItems (n + 1) s = (parseItems n s₁).map fun (is, s₂) => (i :: is, s₂) := by
  simp only [parseItems]
  split <;> simp_all

end Steps

/-! ## 7. Reading single tokens -/

theorem soleChar_eq_some {s : String} {c : Char} : soleChar s = some c ↔ s.toList = [c] := by
  unfold soleChar
  split <;> simp_all

/-- A text of one character is that character. -/
theorem eq_toString_of_toList {s : String} {c : Char} (h : s.toList = [c]) : s = c.toString :=
  String.ext (by simpa using h)

theorem isOneOf_iff {s : String} {cs : List Char} :
    isOneOf s cs = true ↔ ∃ c, s.toList = [c] ∧ c ∈ cs := by
  unfold isOneOf
  cases h : soleChar s with
  | none =>
    simp only [Bool.false_eq_true, false_iff, not_exists, not_and]
    intro c hc
    simp [soleChar_eq_some.mpr hc] at h
  | some c => simp [(soleChar_eq_some.mp h)]

theorem isOneOutside_iff {s : String} {cs : List Char} :
    isOneOutside s cs = true ↔ ∃ c, s.toList = [c] ∧ c ∉ cs := by
  unfold isOneOutside
  cases h : soleChar s with
  | none =>
    simp only [Bool.false_eq_true, false_iff, not_exists, not_and]
    intro c hc
    simp [soleChar_eq_some.mpr hc] at h
  | some c => simp [(soleChar_eq_some.mp h)]

/-! ### Numbers -/

/-- A run of digits is taken whole, and stops where a non-digit begins. -/
theorem span_digits {ds rest : List Char} (hds : ∀ c ∈ ds, c.isDigit = true)
    (hrest : rest.head?.any Char.isDigit = false) :
    (ds ++ rest).span Char.isDigit = (ds, rest) := by
  rw [List.span_eq_takeWhile_dropWhile, List.takeWhile_append_of_pos hds,
    List.dropWhile_append_of_pos hds]
  cases rest with
  | nil => simp
  | cons c cs =>
    have hc : c.isDigit = false := by simpa using hrest
    simp [hc]

theorem digitsValue_append_digit (ds : List Char) (c : Char) :
    digitsValue (ds ++ [c]) = 10 * digitsValue ds + (c.toNat - '0'.toNat) := by
  simp [digitsValue, List.foldl_append]

theorem digitChar_value {d : Nat} (hd : d < 10) : (Nat.digitChar d).toNat - '0'.toNat = d := by
  interval_cases d <;> rfl

/-- The digits `toString` writes for a number read back as that number. -/
theorem digitsValue_toDigits (n : Nat) : digitsValue (Nat.toDigits 10 n) = n := by
  induction n using Nat.strong_induction_on with
  | _ n ih =>
    rcases Nat.lt_or_ge n 10 with hn | hn
    · rw [Nat.toDigits_of_lt_base hn]
      simpa [digitsValue] using digitChar_value hn
    · -- a number of two digits or more is its leading digits followed by its last digit
      have hsplit : Nat.toDigits 10 n = Nat.toDigits 10 (n / 10) ++ [Nat.digitChar (n % 10)] := by
        rw [← Nat.toDigits_of_lt_base (Nat.mod_lt n (by decide)),
          Nat.toDigits_append_toDigits (by decide) (by omega) (Nat.mod_lt n (by decide)),
          Nat.div_add_mod]
      rw [hsplit, digitsValue_append_digit, ih (n / 10) (by omega),
        digitChar_value (Nat.mod_lt n (by decide))]
      omega

theorem parseNumber_toDigits (n : Nat) {rest : List Char}
    (hrest : rest.head?.any Char.isDigit = false) :
    parseNumber (Nat.toDigits 10 n ++ rest) = some (n, rest) := by
  have hds : ∀ c ∈ Nat.toDigits 10 n, c.isDigit = true := fun c hc =>
    Nat.isDigit_of_mem_toDigits (by decide) (by decide) hc
  unfold parseNumber
  rw [span_digits hds hrest]
  cases hdd : Nat.toDigits 10 n with
  | nil => exact absurd hdd Nat.toDigits_ne_nil
  | cons d ds =>
    show some (digitsValue (d :: ds), rest) = some (n, rest)
    rw [← hdd, digitsValue_toDigits]

/-- The text of a number that is not negative is its decimal digits. -/
theorem toList_repr_of_nonneg {n : Int} (hn : 0 ≤ n) :
    n.repr.toList = Nat.toDigits 10 n.toNat := by
  obtain ⟨m, rfl⟩ := Int.eq_ofNat_of_zero_le hn
  simp [Int.repr]

theorem parseNumber_repr {n : Int} (hn : 0 ≤ n) {rest : List Char}
    (hrest : rest.head?.any Char.isDigit = false) :
    parseNumber (n.repr.toList ++ rest) = some (n.toNat, rest) := by
  rw [toList_repr_of_nonneg hn, parseNumber_toDigits _ hrest]

/-- The text of a number that is not negative starts with a digit. -/
theorem repr_eq_digit_cons {n : Int} (hn : 0 ≤ n) :
    ∃ d ds, n.repr.toList = d :: ds ∧ d.isDigit = true := by
  rw [toList_repr_of_nonneg hn]
  have hne : Nat.toDigits 10 n.toNat ≠ [] := Nat.toDigits_ne_nil
  obtain ⟨d, ds, h⟩ := List.exists_cons_of_ne_nil hne
  have hmem : d ∈ Nat.toDigits 10 n.toNat := by
    rw [h]
    exact List.mem_cons_self
  exact ⟨d, ds, h, Nat.isDigit_of_mem_toDigits (by decide) (by decide) hmem⟩

/-! ### Quantifiers -/

theorem parseQuantifier_text (q : Quantifier) (hq : q.wellFormed = true) (rest : List Char) :
    parseQuantifier (q.text.toList ++ rest) = some (some q, rest) := by
  cases q with
  | star => rfl
  | plus => rfl
  | optional => rfl
  | exactly n =>
    have hn : 0 ≤ n := by simpa [Quantifier.wellFormed] using hq
    have ht : (Quantifier.exactly n).text.toList ++ rest = '\x7b' :: (n.repr.toList ++ '\x7d' :: rest) := by
      simp [Quantifier.text]
    rw [ht]
    simp only [parseQuantifier, parseBraces, @parseNumber_repr n hn ('\x7d' :: rest) rfl]
    simp [Int.toNat_of_nonneg hn]
  | atLeast n =>
    have hn : 0 ≤ n := by simpa [Quantifier.wellFormed] using hq
    have ht : (Quantifier.atLeast n).text.toList ++ rest = '\x7b' :: (n.repr.toList ++ ',' :: '\x7d' :: rest) := by
      simp [Quantifier.text]
    rw [ht]
    simp only [parseQuantifier, parseBraces, @parseNumber_repr n hn (',' :: '\x7d' :: rest) rfl]
    simp [Int.toNat_of_nonneg hn]
  | between lo hi =>
    obtain ⟨hlo, hhi⟩ : 0 ≤ lo ∧ 0 ≤ hi := by simpa [Quantifier.wellFormed] using hq
    have ht : (Quantifier.between lo hi).text.toList ++ rest =
        '\x7b' :: (lo.repr.toList ++ ',' :: (hi.repr.toList ++ '\x7d' :: rest)) := by
      simp [Quantifier.text]
    obtain ⟨d, ds, hds, hd⟩ := repr_eq_digit_cons hhi
    have hne : d ≠ '\x7d' := by
      rintro rfl
      exact absurd hd (by decide)
    have hhi' := @parseNumber_repr hi hhi ('\x7d' :: rest) rfl
    rw [ht]
    simp only [parseQuantifier, parseBraces,
      @parseNumber_repr lo hlo (',' :: (hi.repr.toList ++ '\x7d' :: rest)) rfl]
    -- the upper count starts with a digit, so the text is not the one of {n,}
    rw [hds, List.cons_append] at hhi' ⊢
    simp [hne, hhi', Int.toNat_of_nonneg hlo, Int.toNat_of_nonneg hhi]

/-- Counts start with a symbol, never with a digit. -/
theorem head_quantifier_text (q : Quantifier) (rest : List Char) :
    (q.text.toList ++ rest).head?.any Char.isDigit = false := by
  cases q <;> simp [Quantifier.text]

/-- Input that does not start a quantifier has none. -/
theorem parseQuantifier_none {s : List Char} (hs : s.head?.any startsQuantifier = false) :
    parseQuantifier s = some (none, s) := by
  rcases s with _ | ⟨c, s⟩
  · rfl
  · simp only [List.head?_cons, Option.any_some, startsQuantifier] at hs
    simp only [parseQuantifier]
    split <;> simp_all

/-! ### Anchors and escapes -/

theorem parseAnchor_text (a : Anchor) (rest : List Char) :
    parseAnchor (a.text.toList ++ rest) = some (a, rest) := by
  cases a <;> rfl

/-- No digit is a metacharacter or a class letter. -/
theorem not_mem_of_isDigit {d : Char} (hd : d.isDigit = true) {cs : List Char}
    (hcs : cs.all (fun c => !c.isDigit) = true) : d ∉ cs := by
  intro hmem
  have := List.all_eq_true.mp hcs d hmem
  simp [hd] at this

theorem parseEscape_class {c : Char} (hc : c ∈ classLetters) (rest : List Char) :
    parseEscape (c :: rest) = some (.classEscape c.toString 0, rest) := by
  simp [parseEscape, hc]

/-- No class letter is a metacharacter. -/
theorem not_mem_classLetters {c : Char} (hc : c ∈ metaChars) : c ∉ classLetters := by
  intro h
  simp only [classLetters, List.mem_cons, List.not_mem_nil, or_false] at h
  rcases h with rfl | rfl | rfl | rfl | rfl | rfl <;> simp [metaChars] at hc

theorem parseEscape_meta {c : Char} (hc : c ∈ metaChars) (rest : List Char) :
    parseEscape (c :: rest) = some (.escaped c.toString 0, rest) := by
  simp [parseEscape, hc, not_mem_classLetters hc]

theorem parseEscape_backReference {i : Int} (hi : 0 ≤ i) {rest : List Char}
    (hrest : rest.head?.any Char.isDigit = false) :
    parseEscape (i.repr.toList ++ rest) = some (.backReference i 0, rest) := by
  obtain ⟨d, ds, hds, hd⟩ := repr_eq_digit_cons hi
  have hnum := parseNumber_repr hi hrest
  rw [hds, List.cons_append] at hnum
  rw [hds, List.cons_append]
  have hl : d ∉ classLetters := not_mem_of_isDigit hd (by decide)
  have hm : d ∉ metaChars := not_mem_of_isDigit hd (by decide)
  simp [parseEscape, hl, hm, hnum, Int.toNat_of_nonneg hi]

/-! ### Sets -/

theorem parseMember_text {i : SetItem} (hi : i.isMember = true) (rest : List Char) :
    parseMember (i.text.toList ++ rest) = some (i, rest) := by
  cases i with
  | char v =>
    obtain ⟨c, hv, hc⟩ := isOneOutside_iff.mp hi
    rw [eq_toString_of_toList hv]
    simp only [SetItem.text, List.mem_cons, not_or] at hc ⊢
    simp only [Char.toString, String.toList_singleton, List.singleton_append, parseMember]
    split <;> simp_all [metaChars]
  | escaped v =>
    obtain ⟨c, hv, hc⟩ := isOneOf_iff.mp hi
    rw [eq_toString_of_toList hv]
    simp [SetItem.text, parseMember, hc, not_mem_classLetters hc]
  | classEscape l =>
    obtain ⟨c, hl, hc⟩ := isOneOf_iff.mp hi
    rw [eq_toString_of_toList hl]
    simp [SetItem.text, parseMember, hc]
  | range => simp [SetItem.isMember] at hi

/-- A member's text starts with neither a hyphen, a closing bracket nor a caret. -/
theorem SetItem.head_text_of_isMember {i : SetItem} (hi : i.isMember = true) :
    ∃ c cs, i.text.toList = c :: cs ∧ c ∉ ['-', ']', '^'] := by
  cases i with
  | char v =>
    obtain ⟨c, hv, hc⟩ := isOneOutside_iff.mp hi
    refine ⟨c, [], hv, fun h => hc ?_⟩
    simp only [List.mem_cons, List.not_mem_nil, or_false] at h
    rcases h with rfl | rfl | rfl <;> simp [metaChars]
  | escaped v => exact ⟨'\\', v.toList, by simp [SetItem.text], by decide⟩
  | classEscape l => exact ⟨'\\', l.toList, by simp [SetItem.text], by decide⟩
  | range => simp [SetItem.isMember] at hi

/-- An item's text starts with neither a hyphen, a closing bracket nor a caret. -/
theorem SetItem.head_text {i : SetItem} (hi : i.wellFormed = true) :
    ∃ c cs, i.text.toList = c :: cs ∧ c ∉ ['-', ']', '^'] := by
  cases i with
  | range a b =>
    obtain ⟨ha, -⟩ : a.isMember = true ∧ b.isMember = true := by
      simpa [SetItem.wellFormed] using hi
    obtain ⟨c, cs, hcs, hc⟩ := head_text_of_isMember ha
    exact ⟨c, cs ++ '-' :: b.text.toList, by simp [SetItem.text, hcs], hc⟩
  | char v => exact head_text_of_isMember hi
  | escaped v => exact head_text_of_isMember hi
  | classEscape l => exact head_text_of_isMember hi

theorem parseItem_text {i : SetItem} (hi : i.wellFormed = true) {rest : List Char}
    (hrest : rest.head? ≠ some '-') : parseItem (i.text.toList ++ rest) = some (i, rest) := by
  cases i with
  | range a b =>
    obtain ⟨ha, hb⟩ : a.isMember = true ∧ b.isMember = true := by
      simpa [SetItem.wellFormed] using hi
    have htext : (SetItem.range a b).text.toList ++ rest =
        a.text.toList ++ '-' :: (b.text.toList ++ rest) := by
      simp [SetItem.text]
    rw [htext, parseItem_range (parseMember_text ha _), parseMember_text hb]
    rfl
  | char v => exact parseItem_member (@parseMember_text (.char v) hi rest) hrest
  | escaped v => exact parseItem_member (@parseMember_text (.escaped v) hi rest) hrest
  | classEscape l => exact parseItem_member (@parseMember_text (.classEscape l) hi rest) hrest

/-- The items of a set followed by its closing bracket start with neither a hyphen nor
a caret. -/
theorem head_itemsText {items : List SetItem} (h : items.all SetItem.wellFormed = true)
    (rest : List Char) :
    ((String.join (items.map SetItem.text)).toList ++ ']' :: rest).head? ≠ some '-' ∧
      ((String.join (items.map SetItem.text)).toList ++ ']' :: rest).head? ≠ some '^' := by
  cases items with
  | nil => simp
  | cons i is =>
    obtain ⟨c, cs, hcs, hc⟩ := SetItem.head_text (List.all_eq_true.mp h i List.mem_cons_self)
    simp only [List.mem_cons, List.not_mem_nil, or_false, not_or] at hc
    simp [hcs, hc.1, hc.2.2]

theorem parseItems_text (items : List SetItem) (h : items.all SetItem.wellFormed = true)
    (n : Nat) (hn : items.length + 1 ≤ n) (rest : List Char) :
    parseItems n ((String.join (items.map SetItem.text)).toList ++ ']' :: rest) =
      some (items, rest) := by
  induction items generalizing n with
  | nil =>
    obtain ⟨k, rfl⟩ : ∃ k, n = k + 1 := ⟨n - 1, by simp at hn; omega⟩
    exact parseItems_close
  | cons i is ih =>
    obtain ⟨k, rfl⟩ : ∃ k, n = k + 1 := ⟨n - 1, by simp at hn; omega⟩
    simp only [List.all_cons, Bool.and_eq_true] at h
    obtain ⟨c, cs, hcs, hc⟩ := SetItem.head_text h.1
    have hhead : (i.text.toList ++ ((String.join (is.map SetItem.text)).toList ++ ']' :: rest)).head? ≠ some ']' := by
      simp only [List.mem_cons, List.not_mem_nil, or_false, not_or] at hc
      simp [hcs, hc.2.1]
    have htext : (String.join ((i :: is).map SetItem.text)).toList ++ ']' :: rest =
        i.text.toList ++ ((String.join (is.map SetItem.text)).toList ++ ']' :: rest) := by
      simp
    rw [htext, parseItems_item hhead (parseItem_text h.1 (head_itemsText h.2 rest).1),
      ih h.2 k (by simp at hn; omega)]
    rfl

/-! ## 8. How texts start -/

/-- The characters a term's text can start with: an anchor's, a wildcard, a backslash, a
bracket, a parenthesis, or a character that is not a metacharacter. -/
def opensTerm (c : Char) : Bool :=
  !metaChars.contains c || ['^', '$', '\\', '.', '[', '('].contains c

/-- What opens a term neither ends an alternative nor starts a quantifier. -/
theorem opensTerm_spec {c : Char} (hc : opensTerm c = true) (s : List Char) :
    endsAlternative (c :: s) = false ∧ startsQuantifier c = false := by
  have hne : c ≠ '|' ∧ c ≠ ')' ∧ c ≠ '*' ∧ c ≠ '+' ∧ c ≠ '?' ∧ c ≠ '\x7b' := by
    refine ⟨?_, ?_, ?_, ?_, ?_, ?_⟩ <;> rintro rfl <;> simp [opensTerm, metaChars] at hc
  obtain ⟨h1, h2, h3, h4, h5, h6⟩ := hne
  constructor
  · simp only [endsAlternative]
    split <;> simp_all
  · simp [startsQuantifier, h3, h4, h5, h6]

/-- Whatever ends an alternative starts neither a quantifier nor a number. -/
theorem head_of_endsAlternative {s : List Char} (h : endsAlternative s = true) :
    s.head?.any startsQuantifier = false ∧ s.head?.any Char.isDigit = false := by
  unfold endsAlternative at h
  split at h <;> simp_all [startsQuantifier]

theorem ne_question_of_head {s : List Char} (h : s.head?.any startsQuantifier = false) :
    s.head? ≠ some '?' := by
  intro hq
  simp [hq, startsQuantifier] at h

theorem Atom.head_text {a : Atom} (ha : a.wellFormed = true) :
    ∃ c cs, a.text.toList = c :: cs ∧ opensTerm c = true := by
  cases a with
  | char v _ =>
    obtain ⟨c, hv, hc⟩ := isOneOutside_iff.mp ha
    exact ⟨c, [], hv, by simp [opensTerm, hc]⟩
  | any _ => exact ⟨'.', [], by simp [Atom.text], by decide⟩
  | classEscape l _ => exact ⟨'\\', l.toList, by simp [Atom.text], by decide⟩
  | escaped v _ => exact ⟨'\\', v.toList, by simp [Atom.text], by decide⟩
  | backReference i _ => exact ⟨'\\', i.repr.toList, by simp [Atom.text], by decide⟩
  | charSet neg items _ =>
    cases neg with
    | true =>
      exact ⟨'[', '^' :: ((String.join (items.map SetItem.text)).toList ++ [']']),
        by simp [Atom.text, charSetText], by decide⟩
    | false =>
      exact ⟨'[', (String.join (items.map SetItem.text)).toList ++ [']'],
        by simp [Atom.text, charSetText], by decide⟩
  | group r _ _ => exact ⟨'(', r.text.toList ++ [')'], by simp [Atom.text], by decide⟩
  | nonCapturing r _ =>
    exact ⟨'(', '?' :: ':' :: (r.text.toList ++ [')']), by simp [Atom.text], by decide⟩
  | lookahead r neg _ =>
    cases neg with
    | true => exact ⟨'(', '?' :: '!' :: (r.text.toList ++ [')']), by simp [Atom.text], by decide⟩
    | false => exact ⟨'(', '?' :: '=' :: (r.text.toList ++ [')']), by simp [Atom.text], by decide⟩

theorem Term.head_text {t : Term} (ht : t.wellFormed = true) :
    ∃ c cs, t.text.toList = c :: cs ∧ opensTerm c = true := by
  cases t with
  | assertion a _ =>
    cases a with
    | start => exact ⟨'^', [], by simp [Term.text, Anchor.text], by decide⟩
    | finish => exact ⟨'$', [], by simp [Term.text, Anchor.text], by decide⟩
    | wordBoundary => exact ⟨'\\', ['b'], by simp [Term.text, Anchor.text], by decide⟩
    | notWordBoundary => exact ⟨'\\', ['B'], by simp [Term.text, Anchor.text], by decide⟩
  | quantified a q g =>
    have ha : a.wellFormed = true := by
      cases q <;> simp_all [Term.wellFormed]
    obtain ⟨c, cs, hcs, hc⟩ := Atom.head_text ha
    cases q with
    | none => exact ⟨c, cs, by simp [Term.text, hcs], hc⟩
    | some q =>
      exact ⟨c, cs ++ (q.text ++ if g then "" else "?").toList, by simp [Term.text, hcs], hc⟩

/-- After an alternative's terms, a quantifier starts only if one starts after them. -/
theorem head_listText {ts : List Term} (hts : Term.wellFormedList ts = true) {rest : List Char}
    (hrest : rest.head?.any startsQuantifier = false) :
    ((Term.listText ts).toList ++ rest).head?.any startsQuantifier = false := by
  cases ts with
  | nil => simpa [Term.listText] using hrest
  | cons t ts =>
    simp only [Term.wellFormedList, Bool.and_eq_true] at hts
    obtain ⟨c, cs, hcs, hc⟩ := Term.head_text hts.1
    simp [Term.listText, hcs, (opensTerm_spec hc []).2]

/-- After an alternative's terms, a digit comes next only if the first term leads with one
or, with no terms, the rest does. -/
theorem head_listText_digit {ts : List Term} (hts : Term.wellFormedList ts = true)
    (hlead : ts.head?.any Term.leadsWithDigit = false) {rest : List Char}
    (hrest : rest.head?.any Char.isDigit = false) :
    ((Term.listText ts).toList ++ rest).head?.any Char.isDigit = false := by
  cases ts with
  | nil => simpa [Term.listText] using hrest
  | cons t ts =>
    simp only [Term.wellFormedList, Bool.and_eq_true] at hts
    obtain ⟨c, cs, hcs, -⟩ := Term.head_text hts.1
    simpa [Term.listText, Term.leadsWithDigit, hcs] using hlead

/-- After alternatives, a quantifier starts only if one starts after them. -/
theorem head_alternativesText {as : List Alternative} (has : Alternative.wellFormedList as = true)
    {rest : List Char} (hrest : rest.head?.any startsQuantifier = false) :
    ((Alternative.listText as).toList ++ rest).head?.any startsQuantifier = false := by
  match as, has with
  | [], _ => simpa [Alternative.listText] using hrest
  | [.mk ts], has =>
    simp only [Alternative.wellFormedList, Alternative.wellFormed, Bool.and_true] at has
    simpa [Alternative.listText, Alternative.text] using head_listText has hrest
  | .mk ts :: b :: bs, has =>
    -- the first alternative is followed by a bar
    simp only [Alternative.wellFormedList, Alternative.wellFormed, Bool.and_eq_true] at has
    have hbar :=
      @head_listText ts has.1 ('|' :: ((Alternative.listText (b :: bs)).toList ++ rest)) rfl
    simpa [Alternative.listText, Alternative.text] using hbar

theorem Regex.head_text {r : Regex} (hr : r.wellFormed = true) {rest : List Char}
    (hrest : rest.head?.any startsQuantifier = false) :
    (r.text.toList ++ rest).head?.any startsQuantifier = false := by
  obtain ⟨as⟩ := r
  simp only [Regex.wellFormed, Bool.and_eq_true] at hr
  exact head_alternativesText hr.2 hrest

/-- No atom's text reads as an anchor. -/
theorem parseAnchor_atom {a : Atom} (ha : a.wellFormed = true) (rest : List Char) :
    parseAnchor (a.text.toList ++ rest) = none := by
  cases a with
  | char v _ =>
    obtain ⟨c, hv, hc⟩ := isOneOutside_iff.mp ha
    have hc' : c ∉ ['^', '$', '\\'] := by
      intro h
      simp only [List.mem_cons, List.not_mem_nil, or_false] at h
      rcases h with rfl | rfl | rfl <;> simp [metaChars] at hc
    simpa [Atom.text, hv] using parseAnchor_other hc'
  | classEscape l _ =>
    obtain ⟨c, hl, hc⟩ := isOneOf_iff.mp ha
    have hc' : c ∉ ['b', 'B'] := by
      intro h
      simp only [List.mem_cons, List.not_mem_nil, or_false] at h
      rcases h with rfl | rfl <;> simp [classLetters] at hc
    simpa [Atom.text, hl] using parseAnchor_escape hc'
  | escaped v _ =>
    obtain ⟨c, hv, hc⟩ := isOneOf_iff.mp ha
    have hc' : c ∉ ['b', 'B'] := by
      intro h
      simp only [List.mem_cons, List.not_mem_nil, or_false] at h
      rcases h with rfl | rfl <;> simp [metaChars] at hc
    simpa [Atom.text, hv] using parseAnchor_escape hc'
  | backReference i _ =>
    obtain ⟨d, ds, hds, hd⟩ := repr_eq_digit_cons (show 0 ≤ i by simp [Atom.wellFormed] at ha; omega)
    simpa [Atom.text, hds] using parseAnchor_escape (not_mem_of_isDigit hd (by decide))
  | any _ => simpa [Atom.text] using parseAnchor_other (by decide)
  | charSet neg _ _ => cases neg <;> simpa [Atom.text, charSetText] using parseAnchor_other (by decide)
  | group r _ _ => simpa [Atom.text] using parseAnchor_other (by decide)
  | nonCapturing r _ => simpa [Atom.text] using parseAnchor_other (by decide)
  | lookahead r neg _ => simpa [Atom.text] using parseAnchor_other (by decide)

/-! ## 9. Reading undoes writing

One theorem per function of the reader, by recursion on the syntax: with fuel enough, a
node's text followed by what may follow it reads back as the node with ids and group
numbers erased, and leaves what followed. What may follow is said only of its first
character. -/

theorem endsAlternative_of_endsRegex {s : List Char} (h : endsRegex s = true) :
    endsAlternative s = true := by
  obtain rfl | ⟨s₁, rfl⟩ := endsRegex_iff.mp h <;> rfl

mutual
theorem parseRegex_text : ∀ (r : Regex) (n : Nat) (rest : List Char),
    r.wellFormed = true → r.separated = true → r.weight ≤ n → endsRegex rest = true →
    parseRegex n (r.text.toList ++ rest) = some (r.erase, rest)
  | .mk as, n, rest, hw, hs, hn, hrest => by
    simp only [Regex.wellFormed, Bool.and_eq_true, Bool.not_eq_true', List.isEmpty_eq_false_iff]
      at hw
    obtain ⟨k, rfl⟩ : ∃ k, n = k + 1 := ⟨n - 1, by simp only [Regex.weight] at hn; omega⟩
    simp only [Regex.weight] at hn
    rw [parseRegex_succ]
    rw [show (Regex.mk as).text = Alternative.listText as from rfl,
      parseAlternatives_text as k rest hw.1 hw.2 hs (by omega) hrest]
    rfl

theorem parseAlternatives_text : ∀ (as : List Alternative) (n : Nat) (rest : List Char),
    as ≠ [] → Alternative.wellFormedList as = true → Alternative.separatedList as = true →
    Alternative.weightList as ≤ n → endsRegex rest = true →
    parseAlternatives n ((Alternative.listText as).toList ++ rest) =
      some (Alternative.eraseList as, rest)
  | [], _, _, hne, _, _, _, _ => absurd rfl hne
  | [.mk ts], n, rest, _, hw, hs, hn, hrest => by
    simp only [Alternative.wellFormedList, Alternative.wellFormed, Bool.and_true] at hw
    simp only [Alternative.separatedList, Alternative.separated, Bool.and_true] at hs
    simp only [Alternative.weightList, Alternative.weight] at hn
    obtain ⟨k, rfl⟩ : ∃ k, n = k + 1 := ⟨n - 1, by omega⟩
    exact parseAlternatives_last
      (parseTerms_text ts k rest hw hs (by omega) (endsAlternative_of_endsRegex hrest)) hrest
  | .mk ts :: b :: bs, n, rest, _, hw, hs, hn, hrest => by
    -- the first alternative against the rest, which are read by the recursive call
    obtain ⟨hw₁, hw₂⟩ := (Bool.and_eq_true _ _).mp hw
    obtain ⟨hs₁, hs₂⟩ := (Bool.and_eq_true _ _).mp hs
    have hn' : Term.weightList ts + Alternative.weightList (b :: bs) + 1 ≤ n := hn
    obtain ⟨k, rfl⟩ : ∃ k, n = k + 1 := ⟨n - 1, by omega⟩
    have htext : (Alternative.listText (.mk ts :: b :: bs)).toList ++ rest =
        (Term.listText ts).toList ++ '|' :: ((Alternative.listText (b :: bs)).toList ++ rest) := by
      simp [Alternative.listText, Alternative.text]
    rw [htext, parseAlternatives_bar (parseTerms_text ts k _ hw₁ hs₁ (by omega) rfl),
      parseAlternatives_text (b :: bs) k rest (List.cons_ne_nil _ _) hw₂ hs₂ (by omega) hrest]
    rfl

theorem parseTerms_text : ∀ (ts : List Term) (n : Nat) (rest : List Char),
    Term.wellFormedList ts = true → Term.separatedList ts = true → Term.weightList ts ≤ n →
    endsAlternative rest = true →
    parseTerms n ((Term.listText ts).toList ++ rest) = some (Term.eraseList ts, rest)
  | [], n, rest, _, _, hn, hrest => by
    obtain ⟨k, rfl⟩ : ∃ k, n = k + 1 := ⟨n - 1, by simp only [Term.weightList] at hn; omega⟩
    simpa [Term.listText, Term.eraseList] using parseTerms_end hrest
  | t :: ts, n, rest, hw, hs, hn, hrest => by
    simp only [Term.wellFormedList, Bool.and_eq_true] at hw
    simp only [Term.separatedList, Bool.and_eq_true, Bool.not_eq_true', Bool.and_eq_false_imp]
      at hs
    simp only [Term.weightList] at hn
    obtain ⟨k, rfl⟩ : ∃ k, n = k + 1 := ⟨n - 1, by omega⟩
    obtain ⟨c, cs, hcs, hc⟩ := Term.head_text hw.1
    -- the term is followed by the next term's text, or by what ends the alternative
    have hend := head_of_endsAlternative hrest
    have hdigit : t.endsInNumber = true →
        ((Term.listText ts).toList ++ rest).head?.any Char.isDigit = false :=
      fun h => head_listText_digit hw.2 (hs.1.2 h) hend.2
    have htext : (Term.listText (t :: ts)).toList ++ rest =
        t.text.toList ++ ((Term.listText ts).toList ++ rest) := by
      simp [Term.listText]
    have hopen : endsAlternative (t.text.toList ++ ((Term.listText ts).toList ++ rest)) = false := by
      rw [hcs]
      exact (opensTerm_spec hc _).1
    rw [htext, parseTerms_term hopen
        (parseTerm_text t k _ hw.1 hs.1.1 (by omega) (head_listText hw.2 hend.1) hdigit),
      parseTerms_text ts k rest hw.2 hs.2 (by omega) hrest]
    rfl

theorem parseTerm_text : ∀ (t : Term) (n : Nat) (rest : List Char),
    t.wellFormed = true → t.separated = true → t.weight ≤ n →
    rest.head?.any startsQuantifier = false →
    (t.endsInNumber = true → rest.head?.any Char.isDigit = false) →
    parseTerm n (t.text.toList ++ rest) = some (t.erase, rest)
  | .assertion a _, n, rest, _, _, hn, _, _ => by
    obtain ⟨k, rfl⟩ : ∃ k, n = k + 1 := ⟨n - 1, by simp only [Term.weight] at hn; omega⟩
    exact parseTerm_anchor (parseAnchor_text a rest)
  | .quantified a none g, n, rest, hw, hs, hn, hq, hd => by
    obtain ⟨ha, rfl⟩ : a.wellFormed = true ∧ g = true := by simpa [Term.wellFormed] using hw
    simp only [Term.weight] at hn
    obtain ⟨k, rfl⟩ : ∃ k, n = k + 1 := ⟨n - 1, by omega⟩
    exact parseTerm_plain (parseAnchor_atom ha rest)
      (parseAtom_text a k rest ha hs (by omega) hd) (parseQuantifier_none hq)
  | .quantified a (some q) g, n, rest, hw, hs, hn, hq, _ => by
    obtain ⟨ha, hqw⟩ : a.wellFormed = true ∧ q.wellFormed = true := by
      simpa [Term.wellFormed] using hw
    simp only [Term.weight] at hn
    obtain ⟨k, rfl⟩ : ∃ k, n = k + 1 := ⟨n - 1, by omega⟩
    -- a count never starts with a digit, so a back reference before it ends where it should
    have hatom := fun s => parseAtom_text a k (q.text.toList ++ s) ha hs (by omega)
      (fun _ => head_quantifier_text q s)
    cases g with
    | false =>
      have htext : (Term.quantified a (some q) false).text.toList ++ rest =
          a.text.toList ++ (q.text.toList ++ '?' :: rest) := by
        simp [Term.text]
      rw [htext]
      exact parseTerm_lazy (parseAnchor_atom ha _) (hatom _) (parseQuantifier_text q hqw _)
    | true =>
      have htext : (Term.quantified a (some q) true).text.toList ++ rest =
          a.text.toList ++ (q.text.toList ++ rest) := by
        simp [Term.text]
      rw [htext]
      exact parseTerm_greedy (parseAnchor_atom ha _) (hatom _) (parseQuantifier_text q hqw _)
        (ne_question_of_head hq)

theorem parseAtom_text : ∀ (a : Atom) (n : Nat) (rest : List Char),
    a.wellFormed = true → a.separated = true → a.weight ≤ n →
    (a.endsInNumber = true → rest.head?.any Char.isDigit = false) →
    parseAtom n (a.text.toList ++ rest) = some (a.erase, rest)
  | .char v _, n, rest, hw, _, hn, _ => by
    obtain ⟨c, hv, hc⟩ := isOneOutside_iff.mp hw
    obtain ⟨k, rfl⟩ : ∃ k, n = k + 1 := ⟨n - 1, by simp only [Atom.weight] at hn; omega⟩
    rw [eq_toString_of_toList hv]
    simpa [Atom.text, Atom.erase] using parseAtom_plain (n := k) (s := rest) (by simpa using hc)
  | .any _, n, rest, _, _, hn, _ => by
    obtain ⟨k, rfl⟩ : ∃ k, n = k + 1 := ⟨n - 1, by simp only [Atom.weight] at hn; omega⟩
    simp [Atom.text, Atom.erase, parseAtom]
  | .classEscape l _, n, rest, hw, _, hn, _ => by
    obtain ⟨c, hl, hc⟩ := isOneOf_iff.mp hw
    obtain ⟨k, rfl⟩ : ∃ k, n = k + 1 := ⟨n - 1, by simp only [Atom.weight] at hn; omega⟩
    rw [eq_toString_of_toList hl]
    simpa [Atom.text, Atom.erase, parseAtom_escape] using parseEscape_class hc rest
  | .escaped v _, n, rest, hw, _, hn, _ => by
    obtain ⟨c, hv, hc⟩ := isOneOf_iff.mp hw
    obtain ⟨k, rfl⟩ : ∃ k, n = k + 1 := ⟨n - 1, by simp only [Atom.weight] at hn; omega⟩
    rw [eq_toString_of_toList hv]
    simpa [Atom.text, Atom.erase, parseAtom_escape] using parseEscape_meta hc rest
  | .backReference i _, n, rest, hw, _, hn, hd => by
    have hi : 0 ≤ i := by simp [Atom.wellFormed] at hw; omega
    obtain ⟨k, rfl⟩ : ∃ k, n = k + 1 := ⟨n - 1, by simp only [Atom.weight] at hn; omega⟩
    simpa [Atom.text, Atom.erase, parseAtom_escape] using parseEscape_backReference hi (hd rfl)
  | .charSet neg items id, n, rest, hw, _, hn, _ => by
    simp only [Atom.wellFormed] at hw
    simp only [Atom.weight] at hn
    obtain ⟨k, rfl⟩ : ∃ k, n = k + 1 := ⟨n - 1, by omega⟩
    have hitems := parseItems_text items hw k (by omega) rest
    cases neg with
    | true => simpa [Atom.text, Atom.erase, charSetText, parseAtom] using hitems
    | false =>
      -- an unnegated set does not start with a caret, so it is not read as negated
      have htext : (Atom.charSet false items id).text.toList ++ rest =
          '[' :: ((String.join (items.map SetItem.text)).toList ++ ']' :: rest) := by
        simp [Atom.text, charSetText]
      rw [htext, parseAtom_set (head_itemsText hw rest).2, hitems]
      rfl
  | .group r g id, n, rest, hw, hs, hn, _ => by
    simp only [Atom.weight] at hn
    obtain ⟨k, rfl⟩ : ∃ k, n = k + 2 := ⟨n - 2, by omega⟩
    have htext : (Atom.group r g id).text.toList ++ rest = '(' :: (r.text.toList ++ ')' :: rest) := by
      simp [Atom.text]
    -- the body does not start with a question mark, so the group is read as capturing
    rw [htext, parseAtom_group (ne_question_of_head (Regex.head_text hw rfl)),
      parseGroup_close (parseRegex_text r k (')' :: rest) hw hs (by omega) rfl)]
    rfl
  | .nonCapturing r id, n, rest, hw, hs, hn, _ => by
    simp only [Atom.weight] at hn
    obtain ⟨k, rfl⟩ : ∃ k, n = k + 2 := ⟨n - 2, by omega⟩
    have htext : (Atom.nonCapturing r id).text.toList ++ rest =
        '(' :: '?' :: ':' :: (r.text.toList ++ ')' :: rest) := by
      simp [Atom.text]
    rw [htext, parseAtom_nonCapturing,
      parseGroup_close (parseRegex_text r k (')' :: rest) hw hs (by omega) rfl)]
    rfl
  | .lookahead r neg id, n, rest, hw, hs, hn, _ => by
    simp only [Atom.weight] at hn
    obtain ⟨k, rfl⟩ : ∃ k, n = k + 2 := ⟨n - 2, by omega⟩
    have htext : (Atom.lookahead r neg id).text.toList ++ rest =
        '(' :: '?' :: (if neg then '!' else '=') :: (r.text.toList ++ ')' :: rest) := by
      cases neg <;> simp [Atom.text]
    rw [htext, parseAtom_lookahead,
      parseGroup_close (parseRegex_text r k (')' :: rest) hw hs (by omega) rfl)]
    rfl
end

/-! ## 10. The text decides the regex up to ids and group numbers -/

mutual
/-- Ids and group numbers are not part of a regex's text. -/
theorem Regex.text_erase : ∀ r : Regex, r.erase.text = r.text
  | .mk as => Alternative.listText_eraseList as

theorem Alternative.listText_eraseList :
    ∀ as : List Alternative, Alternative.listText (Alternative.eraseList as) = Alternative.listText as
  | [] => rfl
  | [a] => a.text_erase
  | a :: b :: bs => by
    have h := Alternative.listText_eraseList (b :: bs)
    simp only [Alternative.eraseList, Alternative.listText] at h ⊢
    rw [a.text_erase, h]

theorem Alternative.text_erase : ∀ a : Alternative, a.erase.text = a.text
  | .mk ts => Term.listText_eraseList ts

theorem Term.listText_eraseList : ∀ ts : List Term, Term.listText (Term.eraseList ts) = Term.listText ts
  | [] => rfl
  | t :: ts => by
    simp only [Term.eraseList, Term.listText]
    rw [t.text_erase, Term.listText_eraseList ts]

theorem Term.text_erase : ∀ t : Term, t.erase.text = t.text
  | .assertion _ _ => rfl
  | .quantified a none _ => a.text_erase
  | .quantified a (some q) g => by
    simp only [Term.erase, Term.text]
    rw [a.text_erase]

theorem Atom.text_erase : ∀ a : Atom, a.erase.text = a.text
  | .char _ _ => rfl
  | .any _ => rfl
  | .classEscape _ _ => rfl
  | .escaped _ _ => rfl
  | .backReference _ _ => rfl
  | .charSet _ _ _ => rfl
  | .group r _ _ => by simp only [Atom.erase, Atom.text]; rw [r.text_erase]
  | .nonCapturing r _ => by simp only [Atom.erase, Atom.text]; rw [r.text_erase]
  | .lookahead r _ _ => by simp only [Atom.erase, Atom.text]; rw [r.text_erase]
end

/-- **Pattern text decides the regex, up to ids and group numbers.** Two regexes as a
parser gives them, in which no back reference without a quantifier is followed by a term
that starts with a digit, have the same text exactly when they agree once ids and group
numbers are set to zero. -/
theorem Regex.text_eq_iff_erase_eq {r₁ r₂ : Regex} (hw₁ : r₁.wellFormed = true)
    (hw₂ : r₂.wellFormed = true) (hs₁ : r₁.separated = true) (hs₂ : r₂.separated = true) :
    r₁.text = r₂.text ↔ r₁.erase = r₂.erase := by
  constructor
  · intro h
    -- reading the one text back gives both erased regexes
    have h₁ := parseRegex_text r₁ (r₁.weight + r₂.weight) [] hw₁ hs₁ (by omega) rfl
    have h₂ := parseRegex_text r₂ (r₁.weight + r₂.weight) [] hw₂ hs₂ (by omega) rfl
    rw [h, h₂] at h₁
    exact (Prod.mk.inj (Option.some.inj h₁)).1.symm
  · intro h
    rw [← r₁.text_erase, h, r₂.text_erase]

/-- The regex `(a)\1*` with the group numbered 1, as a parser gives it. -/
def groupAndBackReference : Regex :=
  .mk [.mk [.quantified (.group (.mk [.mk [.quantified (.char "a" 1) none true]]) 1 2) none true,
    .quantified (.backReference 1 3) (some .star) true]]

/-- The same regex with other ids and the group numbered 7. -/
def groupAndBackReferenceRenumbered : Regex :=
  .mk [.mk [.quantified (.group (.mk [.mk [.quantified (.char "a" 5) none true]]) 7 6) none true,
    .quantified (.backReference 1 4) (some .star) true]]

theorem Regex.text_eq_iff_erase_eq_renumbered :
    groupAndBackReference.wellFormed = true ∧ groupAndBackReferenceRenumbered.wellFormed = true ∧
      groupAndBackReference.separated = true ∧ groupAndBackReferenceRenumbered.separated = true ∧
      (groupAndBackReference.text = groupAndBackReferenceRenumbered.text ↔
        groupAndBackReference.erase = groupAndBackReferenceRenumbered.erase) :=
  ⟨by decide, by decide, by decide, by decide,
    Regex.text_eq_iff_erase_eq (by decide) (by decide) (by decide) (by decide)⟩

/-- The back reference `\1` followed by the character `0`. -/
def backReferenceThenZero : Regex :=
  .mk [.mk [.quantified (.backReference 1 0) none true, .quantified (.char "0" 0) none true]]

/-- The back reference `\10`. -/
def backReferenceTen : Regex := .mk [.mk [.quantified (.backReference 10 0) none true]]

/-- The group `(a)` numbered `i`, with every id zero. -/
def groupNumbered (i : Int) : Regex :=
  .mk [.mk [.quantified (.group (.mk [.mk [.quantified (.char "a" 0) none true]]) i 0) none true]]

/-- **Neither exclusion can be dropped.** A back reference without a quantifier runs on
into a following digit, and a group's number is not written: in both pairs the regexes
are as a parser gives them, have every id zero and differ, yet have the same text. -/
theorem Regex.text_merges_group_numbers_and_digit_runs :
    backReferenceThenZero.wellFormed = true ∧ backReferenceTen.wellFormed = true ∧
      backReferenceThenZero ≠ backReferenceTen ∧
      backReferenceThenZero.text = backReferenceTen.text ∧
    (groupNumbered 1).wellFormed = true ∧ (groupNumbered 2).wellFormed = true ∧
      groupNumbered 1 ≠ groupNumbered 2 ∧ (groupNumbered 1).text = (groupNumbered 2).text := by
  refine ⟨by decide, by decide, ?_, by decide, by decide, by decide, ?_, by decide⟩
  · intro h
    simp [backReferenceThenZero, backReferenceTen] at h
  · intro h
    simp [groupNumbered] at h

end PatternChart
