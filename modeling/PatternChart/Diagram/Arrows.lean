import PatternChart.Diagram.Basic
/-!
# Arrows between leaves

A diagram is read left to right: an arrow joins every leaf that can end what comes
before a point to every leaf that can start what follows it. Threading a *frontier*
(the leaves that end what has been read so far) through the tree finds them all. A
leaf receives an arrow from each leaf of the frontier and becomes the frontier alone;
a sequence threads the frontier through its children in turn; a choice threads the
same frontier through each child and ends with all of their frontiers together.

Leaves are named by their index in the pre-order walk, so arrows are pairs of
indices, in the order the walk meets their targets, and within one target in the
order of the frontier.
-/

set_option autoImplicit false

namespace PatternChart

/-- What threading a frontier through part of a diagram gives: the arrows, the new
frontier, and the index of the next leaf. -/
structure Thread where
  arrows : List (Nat × Nat)
  frontier : List Nat
  next : Nat
  deriving DecidableEq, Repr

namespace Element

variable {α : Type}

mutual
/-- Threads the frontier through an element whose first leaf has index `next`. -/
def thread (frontier : List Nat) (next : Nat) : Element α → Thread
  | .leaf _ _ => ⟨frontier.map fun f => (f, next), [next], next + 1⟩
  | .seq _ _ cs => threadRow frontier next cs
  | .choice _ cs => threadStack frontier next cs

/-- Threads the frontier through elements one after another. -/
def threadRow (frontier : List Nat) (next : Nat) : List (Element α) → Thread
  | [] => ⟨[], frontier, next⟩
  | c :: cs =>
    let t := thread frontier next c
    let u := threadRow t.frontier t.next cs
    ⟨t.arrows ++ u.arrows, u.frontier, u.next⟩

/-- Threads the same frontier through each of several alternatives. -/
def threadStack (frontier : List Nat) (next : Nat) : List (Element α) → Thread
  | [] => ⟨[], [], next⟩
  | c :: cs =>
    let t := thread frontier next c
    let u := threadStack frontier t.next cs
    ⟨t.arrows ++ u.arrows, t.frontier ++ u.frontier, u.next⟩
end

/-! ## One list of arrows for the whole walk

Threading as callers ask for it: the walk adds the arrows into each leaf, as it meets
the leaf, to one list that starts with whatever arrows the caller hands over, and a
choice collects its alternatives' frontiers one after another. -/

mutual
/-- Threads the frontier through an element whose first leaf has index `next`, adding
the arrows into its leaves to `pairs`. -/
def threadOnto (pairs : List (Nat × Nat)) (frontier : List Nat) (next : Nat) :
    Element α → Thread
  | .leaf _ _ => ⟨pairs ++ frontier.map fun f => (f, next), [next], next + 1⟩
  | .seq _ _ cs => threadRowOnto pairs frontier next cs
  | .choice _ cs => threadStackOnto pairs frontier [] next cs

/-- Threads the frontier through elements one after another, adding to `pairs`. -/
def threadRowOnto (pairs : List (Nat × Nat)) (frontier : List Nat) (next : Nat) :
    List (Element α) → Thread
  | [] => ⟨pairs, frontier, next⟩
  | c :: cs =>
    let t := threadOnto pairs frontier next c
    threadRowOnto t.arrows t.frontier t.next cs

/-- Threads the same frontier through each alternative, adding to `pairs` and
collecting the alternatives' frontiers after `outgoing`. -/
def threadStackOnto (pairs : List (Nat × Nat)) (frontier outgoing : List Nat) (next : Nat) :
    List (Element α) → Thread
  | [] => ⟨pairs, outgoing, next⟩
  | c :: cs =>
    let t := threadOnto pairs frontier next c
    threadStackOnto t.arrows frontier (outgoing ++ t.frontier) t.next cs
end

/-- Threads a frontier through a diagram whose leaves are numbered from zero, after the
arrows `pairs`: the outgoing frontier, and `pairs` with the arrows into the diagram's
leaves added. Neither argument is changed. -/
def threadAfter (e : Element α) (frontier : List Nat) (pairs : List (Nat × Nat)) :
    List Nat × List (Nat × Nat) :=
  let t := e.threadOnto pairs frontier 0
  (t.frontier, t.arrows)

/-- The arrows of a diagram, as pairs of leaf indices. -/
def arrowPairs (e : Element α) : List (Nat × Nat) := (e.thread [] 0).arrows

/-- The leaves that end a diagram. -/
def frontierOf (e : Element α) : List Nat := (e.thread [] 0).frontier

end Element

end PatternChart
