import PatternChart.Proofs.Paths
/-!
# The walk that threads a frontier, on any diagram

Callers thread a frontier through a diagram after arrows they already have
(`Element.threadAfter`): the walk adds the arrows into each leaf to one list as it
meets the leaf. This module says what that walk gives on every diagram and from every
frontier and list of arrows, not only from the empty ones that `arrowPairs` starts
with.

* `Element.threadOnto_eq`: the walk only adds at the end of the list it is handed,
  and what it adds is what the compositional `Element.thread` computes.
* `Element.targets_sorted_thread`: on every diagram, dead ends and empty sequences
  included, the arrows come grouped by the leaf they lead into, leaves in pre-order.
  A frontier may bring a leaf back after later ones (an empty alternative passes the
  frontier through), so the sources are in no order; the targets always are.
* `Element.threadAfter_follows_paths`: together with `Proofs.Paths`, the arrows and
  the outgoing frontier are the ones the paths of the diagram call for whenever every
  choice has an alternative, and on every diagram the arrows of `arrowPairs` lead
  forward in pre-order.
-/

set_option autoImplicit false

namespace PatternChart

namespace Element

variable {α : Type}

/-! ## 1. The walk adds to the end of its list -/

mutual
/-- The walk through an element adds `thread`'s arrows after the ones it is handed. -/
theorem threadOnto_eq (P : List (Nat × Nat)) (F : List Nat) (n : Nat) :
    ∀ e : Element α, e.threadOnto P F n =
      ⟨P ++ (e.thread F n).arrows, (e.thread F n).frontier, (e.thread F n).next⟩
  | .leaf _ _ => rfl
  | .seq _ _ cs => threadRowOnto_eq P F n cs
  | .choice _ cs => by
    simpa [threadOnto, thread] using threadStackOnto_eq P F [] n cs

/-- The walk through a row adds `threadRow`'s arrows after the ones it is handed. -/
theorem threadRowOnto_eq (P : List (Nat × Nat)) (F : List Nat) (n : Nat) :
    ∀ cs : List (Element α), threadRowOnto P F n cs =
      ⟨P ++ (threadRow F n cs).arrows, (threadRow F n cs).frontier, (threadRow F n cs).next⟩
  | [] => by simp [threadRowOnto, threadRow]
  | c :: cs => by
    -- the rest of the row is walked with the list the first element left
    simp only [threadRowOnto, threadRow, threadOnto_eq P F n c,
      threadRowOnto_eq _ (c.thread F n).frontier (c.thread F n).next cs, List.append_assoc]

/-- The walk through alternatives adds `threadStack`'s arrows after the ones it is
handed, and its frontiers after the ones collected so far. -/
theorem threadStackOnto_eq (P : List (Nat × Nat)) (F O : List Nat) (n : Nat) :
    ∀ cs : List (Element α), threadStackOnto P F O n cs =
      ⟨P ++ (threadStack F n cs).arrows, O ++ (threadStack F n cs).frontier,
        (threadStack F n cs).next⟩
  | [] => by simp [threadStackOnto, threadStack]
  | c :: cs => by
    simp only [threadStackOnto, threadStack, threadOnto_eq P F n c,
      threadStackOnto_eq _ F _ (c.thread F n).next cs, List.append_assoc]
end

/-- Threading after some arrows keeps them, adds the arrows of `thread` behind them, and
gives `thread`'s frontier. -/
theorem threadAfter_eq (e : Element α) (F : List Nat) (P : List (Nat × Nat)) :
    e.threadAfter F P = ((e.thread F 0).frontier, P ++ (e.thread F 0).arrows) := by
  simp [threadAfter, threadOnto_eq]

/-! ## 2. Arrows come grouped by their target, on every diagram -/

/-- An arrow leads into the same leaf as another or into an earlier one. -/
def TargetLE (p q : Nat × Nat) : Prop := p.2 ≤ q.2

/-- All arrows of a thread lead into leaves before those of a thread started where the
first one ends, so the two lists join in target order. -/
theorem targets_sorted_append {F G : List Nat} {n m m' : Nat} {t u : Thread}
    (ht : Bounded F n m t) (hu : Bounded G m m' u) (hts : t.arrows.Pairwise TargetLE)
    (hus : u.arrows.Pairwise TargetLE) : (t.arrows ++ u.arrows).Pairwise TargetLE := by
  refine List.pairwise_append.mpr ⟨hts, hus, fun p hp q hq => ?_⟩
  have hp2 : p.2 < m := (ht.arrows p hp).2.1
  have hq2 : m ≤ q.2 := (hu.arrows q hq).1
  exact Nat.le_of_lt (Nat.lt_of_lt_of_le hp2 hq2)

mutual
/-- **Arrows come grouped by target.** On every element, with any incoming frontier,
the arrows are sorted by the leaf they lead into. -/
theorem targets_sorted_thread (F : List Nat) (n : Nat) :
    ∀ e : Element α, (e.thread F n).arrows.Pairwise TargetLE
  | .leaf _ _ => by
    -- every arrow into a leaf has that leaf as its target
    simp only [thread, List.pairwise_map]
    exact List.pairwise_of_forall fun _ _ => Nat.le_refl n
  | .seq _ _ cs => targets_sorted_threadRow F n cs
  | .choice _ cs => targets_sorted_threadStack F n cs

/-- Arrows into a row come grouped by target. -/
theorem targets_sorted_threadRow (F : List Nat) (n : Nat) :
    ∀ cs : List (Element α), (threadRow F n cs).arrows.Pairwise TargetLE
  | [] => List.Pairwise.nil
  | c :: cs =>
    targets_sorted_append (bounded_thread F n c) (bounded_threadRow _ _ cs)
      (targets_sorted_thread F n c) (targets_sorted_threadRow _ _ cs)

/-- Arrows into alternatives come grouped by target. -/
theorem targets_sorted_threadStack (F : List Nat) (n : Nat) :
    ∀ cs : List (Element α), (threadStack F n cs).arrows.Pairwise TargetLE
  | [] => List.Pairwise.nil
  | c :: cs =>
    targets_sorted_append (bounded_thread F n c) (bounded_threadStack _ _ cs)
      (targets_sorted_thread F n c) (targets_sorted_threadStack _ _ cs)
end

/-- Every arrow of a thread leads into a leaf of the element. -/
theorem target_lt_thread {F : List Nat} {n : Nat} (e : Element α) :
    ∀ p ∈ (e.thread F n).arrows, n ≤ p.2 ∧ p.2 < n + e.leaves.length := fun p hp => by
  have hb := (bounded_thread F n e).arrows p hp
  rw [next_thread] at hb
  exact ⟨hb.1, hb.2.1⟩

/-- Every arrow of a diagram leads from one of its leaves forward to a later one. -/
theorem arrowPairs_forward (e : Element α) :
    ∀ p ∈ e.arrowPairs, p.1 < p.2 ∧ p.2 < e.leaves.length := fun p hp => by
  -- no frontier comes in, so an arrow starts at one of the diagram's own leaves
  obtain ⟨-, hlt, h | h⟩ := (bounded_thread [] 0 e).arrows p hp
  · simp at h
  · rw [next_thread, Nat.zero_add] at hlt
    exact ⟨h.2, hlt⟩

/-! ## 3. What threading after some arrows gives -/

/-- **Threading after some arrows.** Threading a frontier `F` through a diagram after
the arrows `P` gives `P` followed by arrows `N`, and a new frontier. When every choice of
the diagram has an alternative, `N` joins each leaf of `F` to each leaf that starts a
path and each leaf of a path to the next, and the frontier holds the leaves that end a
path, with `F` when some path is empty. On every diagram, `N` leads only into the
diagram's leaves and comes grouped by them in pre-order; the diagram's own arrows each
lead forward, from a leaf to a later one, in the same order. -/
theorem threadAfter_follows_paths (e : Element α) (F : List Nat) (P : List (Nat × Nat)) :
    ∃ N, (e.threadAfter F P).2 = P ++ N ∧
      (e.noDeadEnd →
        (∀ i j, (i, j) ∈ N ↔ (i ∈ F ∧ Starts (e.paths 0) j) ∨ Steps (e.paths 0) i j) ∧
        ∀ k, k ∈ (e.threadAfter F P).1 ↔ Ends (e.paths 0) k ∨ ([] ∈ e.paths 0 ∧ k ∈ F)) ∧
      (∀ p ∈ N, p.2 < e.leaves.length) ∧ N.Pairwise TargetLE ∧
      (∀ p ∈ e.arrowPairs, p.1 < p.2 ∧ p.2 < e.leaves.length) ∧
      e.arrowPairs.Pairwise TargetLE := by
  refine ⟨(e.thread F 0).arrows, by rw [threadAfter_eq], fun h => ?_, fun p hp => ?_,
    targets_sorted_thread F 0 e, arrowPairs_forward e, targets_sorted_thread [] 0 e⟩
  · have hs := threads_thread F 0 e h
    rw [threadAfter_eq]
    exact ⟨hs.arrows_iff, hs.frontier_iff⟩
  · simpa using (target_lt_thread e p hp).2

/-- The row of two leaves `a` and `b`. -/
def twoLeafRow : Element Int :=
  .seq .zero {} [.leaf .zero { label := "a" }, .leaf .zero { label := "b" }]

/-- Threading `[7]` through the row of two leaves after the arrow `(5, 6)`. -/
theorem threadAfter_follows_paths_row :
    twoLeafRow.noDeadEnd = true ∧
    ∃ N, (twoLeafRow.threadAfter [7] [(5, 6)]).2 = [(5, 6)] ++ N ∧
      (twoLeafRow.noDeadEnd →
        (∀ i j, (i, j) ∈ N ↔
          (i ∈ [7] ∧ Starts (twoLeafRow.paths 0) j) ∨ Steps (twoLeafRow.paths 0) i j) ∧
        ∀ k, k ∈ (twoLeafRow.threadAfter [7] [(5, 6)]).1 ↔
          Ends (twoLeafRow.paths 0) k ∨ ([] ∈ twoLeafRow.paths 0 ∧ k ∈ [7])) ∧
      (∀ p ∈ N, p.2 < twoLeafRow.leaves.length) ∧ N.Pairwise TargetLE ∧
      (∀ p ∈ twoLeafRow.arrowPairs, p.1 < p.2 ∧ p.2 < twoLeafRow.leaves.length) ∧
      twoLeafRow.arrowPairs.Pairwise TargetLE :=
  ⟨by decide, threadAfter_follows_paths twoLeafRow [7] [(5, 6)]⟩

/-- The arrow handed over stays first; `7` leads into `a`, `a` into `b`, and `b` alone
ends the row. -/
example : twoLeafRow.threadAfter [7] [(5, 6)] = ([1], [(5, 6), (7, 0), (0, 1)]) := by decide

end Element

end PatternChart
