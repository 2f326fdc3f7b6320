import Mathlib.Computability.Language
import PatternChart.Diagram.Arrows
/-!
# Paths through a diagram, and what threading a frontier computes

A diagram is read left to right along *paths*: a leaf is read alone, a sequence reads
a path through each child one after another, and a choice reads a path through any
one child. Naming leaves by their pre-order index, the paths of an element form a
language over the leaf indices (`Element.paths`), and an arrow belongs between two
leaves exactly when one is read right after the other on some path.

The main statements are that threading a frontier computes exactly this:

* `Element.threads_thread`: the arrows are the pairs read one after another on a path,
  together with the arrows from each leaf of the incoming frontier to each leaf that
  starts a path; the outgoing frontier is the set of leaves that end a path, and also
  the incoming frontier when some path is empty. This holds for every element whose
  choices all have an alternative: a choice without one is a dead end that no path
  crosses, though the leaves before it still receive arrows.
* `Element.orderly_thread`: on an element whose sequences and choices are never empty,
  started from a frontier of earlier leaves in increasing order, the arrows come out
  sorted by their target leaf and then by their source leaf, each once, and the
  frontier comes out increasing.

The first is a set equation, proved constructor by constructor through the laws of
`Threads`: one law says what a leaf does, and one law each says how the threads of two
parts combine when the parts are read one after the other or as alternatives.
-/

set_option autoImplicit false

namespace PatternChart

/-! ## 1. Reading a language -/

/-- Some word of `L` reads `j` right after `i`. -/
def Steps (L : Language Nat) (i j : Nat) : Prop := ∃ w ∈ L, [i, j] <:+: w

/-- Some word of `L` starts with `j`. -/
def Starts (L : Language Nat) (j : Nat) : Prop := ∃ w ∈ L, w.head? = some j

/-- Some word of `L` ends with `k`. -/
def Ends (L : Language Nat) (k : Nat) : Prop := ∃ w ∈ L, w.getLast? = some k

@[simp] theorem mem_singleton_language {w v : List Nat} :
    w ∈ ({v} : Language Nat) ↔ w = v := Iff.rfl

/-- Two letters are read one after the other in a concatenation when they are in one
part, or when the first ends the left part and the second starts the right part. -/
theorem pair_infix_append {i j : Nat} {u v : List Nat} :
    [i, j] <:+: u ++ v ↔
      [i, j] <:+: u ∨ [i, j] <:+: v ∨ (u.getLast? = some i ∧ v.head? = some j) := by
  rw [List.infix_append_iff_ne_nil]
  refine or_congr_right (or_congr_right ⟨?_, ?_⟩)
  · rintro ⟨l₁, l₂, h₁, h₂, h, hu, hv⟩
    match l₁, l₂, h₁, h₂, h with
    | [a], [b], _, _, h =>
      simp only [List.cons_append, List.nil_append, List.cons.injEq, and_true] at h
      obtain ⟨rfl, rfl⟩ := h
      exact ⟨List.singleton_suffix_iff_getLast?_eq_some.mp hu,
        List.singleton_prefix_iff_head?_eq_some.mp hv⟩
    | [], _, h₁, _, _ => exact absurd rfl h₁
    | _, [], _, h₂, _ => exact absurd rfl h₂
    | _ :: _ :: _, _ :: _, _, _, h => simp at h
    | [_], _ :: _ :: _, _, _, h => simp at h
  · rintro ⟨hu, hv⟩
    exact ⟨[i], [j], by simp, by simp, rfl,
      List.singleton_suffix_iff_getLast?_eq_some.mpr hu,
      List.singleton_prefix_iff_head?_eq_some.mpr hv⟩

section Laws

variable {L M : Language Nat} {i j k n : Nat}

@[simp] theorem starts_singleton : Starts {[n]} j ↔ j = n := by
  simp [Starts, eq_comm]

@[simp] theorem ends_singleton : Ends {[n]} k ↔ k = n := by
  simp [Ends, eq_comm]

@[simp] theorem not_steps_singleton : ¬ Steps {[n]} i j := by
  rintro ⟨w, hw, h⟩
  rw [mem_singleton_language.mp hw] at h
  simpa using h.length_le

@[simp] theorem not_starts_one : ¬ Starts 1 j := by
  simp [Starts, Language.mem_one]

@[simp] theorem not_ends_one : ¬ Ends 1 k := by
  simp [Ends, Language.mem_one]

@[simp] theorem not_steps_one : ¬ Steps 1 i j := by
  rintro ⟨w, hw, h⟩
  rw [(Language.mem_one w).mp hw] at h
  simpa using h.length_le

@[simp] theorem not_starts_zero : ¬ Starts 0 j := fun ⟨w, hw, _⟩ => Language.notMem_zero w hw

@[simp] theorem not_ends_zero : ¬ Ends 0 k := fun ⟨w, hw, _⟩ => Language.notMem_zero w hw

@[simp] theorem not_steps_zero : ¬ Steps 0 i j := fun ⟨w, hw, _⟩ => Language.notMem_zero w hw

theorem starts_add : Starts (L + M) j ↔ Starts L j ∨ Starts M j := by
  simp only [Starts, Language.mem_add, or_and_right, exists_or]

theorem ends_add : Ends (L + M) k ↔ Ends L k ∨ Ends M k := by
  simp only [Ends, Language.mem_add, or_and_right, exists_or]

theorem steps_add : Steps (L + M) i j ↔ Steps L i j ∨ Steps M i j := by
  simp only [Steps, Language.mem_add, or_and_right, exists_or]

theorem nil_mem_mul : [] ∈ L * M ↔ [] ∈ L ∧ [] ∈ M := by
  rw [Language.mem_mul]
  constructor
  · rintro ⟨u, hu, v, hv, h⟩
    obtain ⟨rfl, rfl⟩ := List.append_eq_nil_iff.mp h
    exact ⟨hu, hv⟩
  · rintro ⟨hu, hv⟩
    exact ⟨[], hu, [], hv, rfl⟩

/-- A word of a concatenation starts where its left part starts, or, when the left part
may be empty, where its right part starts. The right part must have some word. -/
theorem starts_mul (hM : ∃ v, v ∈ M) :
    Starts (L * M) j ↔ Starts L j ∨ ([] ∈ L ∧ Starts M j) := by
  constructor
  · rintro ⟨w, hw, hj⟩
    obtain ⟨u, hu, v, hv, rfl⟩ := Language.mem_mul.mp hw
    cases u with
    | nil => exact .inr ⟨hu, v, hv, by simpa using hj⟩
    | cons a u => exact .inl ⟨a :: u, hu, by simpa using hj⟩
  · rintro (⟨u, hu, hj⟩ | ⟨hnil, v, hv, hj⟩)
    · obtain ⟨v, hv⟩ := hM
      exact ⟨u ++ v, Language.append_mem_mul hu hv, by simp [hj]⟩
    · exact ⟨[] ++ v, Language.append_mem_mul hnil hv, hj⟩

/-- A word of a concatenation ends where its right part ends, or, when the right part
may be empty, where its left part ends. The left part must have some word. -/
theorem ends_mul (hL : ∃ u, u ∈ L) :
    Ends (L * M) k ↔ Ends M k ∨ ([] ∈ M ∧ Ends L k) := by
  constructor
  · rintro ⟨w, hw, hk⟩
    obtain ⟨u, hu, v, hv, rfl⟩ := Language.mem_mul.mp hw
    cases v using List.reverseRecOn with
    | nil => exact .inr ⟨hv, u, hu, by simpa using hk⟩
    | append_singleton v a => exact .inl ⟨v ++ [a], hv, by simpa using hk⟩
  · rintro (⟨v, hv, hk⟩ | ⟨hnil, u, hu, hk⟩)
    · obtain ⟨u, hu⟩ := hL
      exact ⟨u ++ v, Language.append_mem_mul hu hv, by simp [hk]⟩
    · exact ⟨u ++ [], Language.append_mem_mul hu hnil, by simpa using hk⟩

/-- A concatenation reads `j` right after `i` within its left part, within its right
part, or across the seam. Both parts must have some word. -/
theorem steps_mul (hL : ∃ u, u ∈ L) (hM : ∃ v, v ∈ M) :
    Steps (L * M) i j ↔ Steps L i j ∨ Steps M i j ∨ (Ends L i ∧ Starts M j) := by
  constructor
  · rintro ⟨w, hw, hij⟩
    obtain ⟨u, hu, v, hv, rfl⟩ := Language.mem_mul.mp hw
    rcases pair_infix_append.mp hij with h | h | ⟨hi, hj⟩
    · exact .inl ⟨u, hu, h⟩
    · exact .inr (.inl ⟨v, hv, h⟩)
    · exact .inr (.inr ⟨⟨u, hu, hi⟩, ⟨v, hv, hj⟩⟩)
  · rintro (⟨u, hu, h⟩ | ⟨v, hv, h⟩ | ⟨⟨u, hu, hi⟩, ⟨v, hv, hj⟩⟩)
    · obtain ⟨v, hv⟩ := hM
      exact ⟨u ++ v, Language.append_mem_mul hu hv, pair_infix_append.mpr (.inl h)⟩
    · obtain ⟨u, hu⟩ := hL
      exact ⟨u ++ v, Language.append_mem_mul hu hv, pair_infix_append.mpr (.inr (.inl h))⟩
    · exact ⟨u ++ v, Language.append_mem_mul hu hv, pair_infix_append.mpr (.inr (.inr ⟨hi, hj⟩))⟩

end Laws

/-! ## 2. The paths of an element -/

namespace Element

variable {α : Type}

mutual
/-- The paths through an element whose first leaf has index `n`, as words of leaf
indices. -/
def paths (n : Nat) : Element α → Language Nat
  | .leaf _ _ => {[n]}
  | .seq _ _ cs => pathsRow n cs
  | .choice _ cs => pathsStack n cs

/-- The paths through elements read one after another, the first leaf having index `n`. -/
def pathsRow (n : Nat) : List (Element α) → Language Nat
  | [] => 1
  | c :: cs => paths n c * pathsRow (n + c.leaves.length) cs

/-- The paths through any one of several alternatives, the first leaf having index `n`. -/
def pathsStack (n : Nat) : List (Element α) → Language Nat
  | [] => 0
  | c :: cs => paths n c + pathsStack (n + c.leaves.length) cs
end

mutual
/-- Whether every choice of an element has an alternative. A choice without one is a
dead end: no path crosses it. -/
def noDeadEnd : Element α → Bool
  | .leaf _ _ => true
  | .seq _ _ cs => noDeadEndList cs
  | .choice _ cs => !cs.isEmpty && noDeadEndList cs

/-- Whether no element of a list has a dead end. -/
def noDeadEndList : List (Element α) → Bool
  | [] => true
  | c :: cs => c.noDeadEnd && noDeadEndList cs
end

mutual
/-- Whether every sequence and every choice of an element has a child, so that every
path is a nonempty word. -/
def filled : Element α → Bool
  | .leaf _ _ => true
  | .seq _ _ cs => !cs.isEmpty && filledList cs
  | .choice _ cs => !cs.isEmpty && filledList cs

/-- Whether every element of a list is filled. -/
def filledList : List (Element α) → Bool
  | [] => true
  | c :: cs => c.filled && filledList cs
end

mutual
/-- An element without dead ends has a path. -/
theorem exists_mem_paths (n : Nat) :
    ∀ e : Element α, e.noDeadEnd → ∃ w, w ∈ e.paths n
  | .leaf _ _, _ => ⟨[n], rfl⟩
  | .seq _ _ cs, h => exists_mem_pathsRow n cs (by simpa [noDeadEnd] using h)
  | .choice _ [], h => by simp [noDeadEnd] at h
  | .choice _ (c :: cs), h => by
    simp only [noDeadEnd, noDeadEndList, List.isEmpty_cons, Bool.not_false, Bool.true_and,
      Bool.and_eq_true] at h
    obtain ⟨w, hw⟩ := exists_mem_paths n c h.1
    exact ⟨w, Language.mem_add _ _ _ |>.mpr (.inl hw)⟩

/-- Elements without dead ends, read one after another, have a path. -/
theorem exists_mem_pathsRow (n : Nat) :
    ∀ cs : List (Element α), noDeadEndList cs → ∃ w, w ∈ pathsRow n cs
  | [], _ => ⟨[], Language.nil_mem_one⟩
  | c :: cs, h => by
    simp only [noDeadEndList, Bool.and_eq_true] at h
    obtain ⟨u, hu⟩ := exists_mem_paths n c h.1
    obtain ⟨v, hv⟩ := exists_mem_pathsRow (n + c.leaves.length) cs h.2
    exact ⟨u ++ v, Language.append_mem_mul hu hv⟩
end

/-- A filled element has no dead ends. -/
theorem noDeadEnd_of_filled : ∀ e : Element α, e.filled → e.noDeadEnd
  | .leaf _ _, _ => rfl
  | .seq _ _ cs, h => by
    simp only [filled, Bool.and_eq_true] at h
    simpa [noDeadEnd] using noDeadEndList_of_filledList cs h.2
  | .choice _ cs, h => by
    simp only [filled, Bool.and_eq_true] at h
    simpa [noDeadEnd, h.1] using noDeadEndList_of_filledList cs h.2
where
  noDeadEndList_of_filledList : ∀ cs : List (Element α), filledList cs → noDeadEndList cs
    | [], _ => rfl
    | c :: cs, h => by
      simp only [filledList, Bool.and_eq_true] at h
      simp [noDeadEndList, noDeadEnd_of_filled c h.1, noDeadEndList_of_filledList cs h.2]

end Element

/-! ## 3. What a thread must be -/

/-- What threading the frontier `F` through a part whose paths are `L` must give: an
arrow from each leaf of `F` to each leaf that starts a path, and from each leaf of a path
to the next one on it; as the new frontier, the leaves that end a path, and `F` itself
when some path is empty. Only memberships count, not order or repetition. -/
structure Threads (F : List Nat) (L : Language Nat) (t : Thread) : Prop where
  arrows_iff : ∀ i j, (i, j) ∈ t.arrows ↔ (i ∈ F ∧ Starts L j) ∨ Steps L i j
  frontier_iff : ∀ k, k ∈ t.frontier ↔ Ends L k ∨ ([] ∈ L ∧ k ∈ F)

namespace Threads

variable {F : List Nat} {L M : Language Nat} {t u : Thread}

/-- A leaf receives an arrow from each leaf of the frontier and becomes the frontier. -/
theorem leaf (F : List Nat) (n m : Nat) : Threads F {[n]} ⟨F.map fun f => (f, n), [n], m⟩ where
  arrows_iff i j := by simp [eq_comm]
  frontier_iff k := by simp

/-- Reading nothing passes the frontier through. -/
theorem one (F : List Nat) (m : Nat) : Threads F 1 ⟨[], F, m⟩ where
  arrows_iff i j := by simp
  frontier_iff k := by simp

/-- A choice without alternatives ends every path. -/
theorem zero (F : List Nat) (m : Nat) : Threads F 0 ⟨[], [], m⟩ where
  arrows_iff i j := by simp
  frontier_iff k := by simp [Language.notMem_zero]

/-- Threading through two parts one after the other: the second part starts from the
frontier the first leaves. Both parts must have a path, or arrows into the first would
lead nowhere. -/
theorem mul (ht : Threads F L t) (hu : Threads t.frontier M u) (hL : ∃ w, w ∈ L)
    (hM : ∃ w, w ∈ M) (m : Nat) : Threads F (L * M) ⟨t.arrows ++ u.arrows, u.frontier, m⟩ where
  arrows_iff i j := by
    simp only [List.mem_append, ht.arrows_iff, hu.arrows_iff, ht.frontier_iff,
      starts_mul hM, steps_mul hL hM]
    tauto
  frontier_iff k := by
    simp only [hu.frontier_iff, ht.frontier_iff, ends_mul hL, nil_mem_mul]
    tauto

/-- Threading the same frontier through two alternatives. -/
theorem add (ht : Threads F L t) (hu : Threads F M u) (m : Nat) :
    Threads F (L + M) ⟨t.arrows ++ u.arrows, t.frontier ++ u.frontier, m⟩ where
  arrows_iff i j := by
    simp only [List.mem_append, ht.arrows_iff, hu.arrows_iff, starts_add, steps_add]
    tauto
  frontier_iff k := by
    simp only [List.mem_append, ht.frontier_iff, hu.frontier_iff, ends_add, Language.mem_add]
    tauto

end Threads

/-! ## 4. Threading computes the paths' arrows and ends -/

namespace Element

variable {α : Type}

mutual
/-- Threading through an element passes over exactly its leaves. -/
theorem next_thread (F : List Nat) (n : Nat) :
    ∀ e : Element α, (e.thread F n).next = n + e.leaves.length
  | .leaf _ _ => rfl
  | .seq _ _ cs => next_threadRow F n cs
  | .choice _ cs => next_threadStack F n cs

/-- Threading through elements in a row passes over exactly their leaves. -/
theorem next_threadRow (F : List Nat) (n : Nat) :
    ∀ cs : List (Element α), (threadRow F n cs).next = n + (leavesOfList cs).length
  | [] => rfl
  | c :: cs => by
    simp only [threadRow, leavesOfList, List.length_append,
      next_threadRow _ _ cs, next_thread F n c]
    omega

/-- Threading through alternatives passes over exactly their leaves. -/
theorem next_threadStack (F : List Nat) (n : Nat) :
    ∀ cs : List (Element α), (threadStack F n cs).next = n + (leavesOfList cs).length
  | [] => rfl
  | c :: cs => by
    simp only [threadStack, leavesOfList, List.length_append,
      next_threadStack _ _ cs, next_thread F n c]
    omega
end

mutual
/-- **Threading computes the paths.** On an element without dead ends, the arrows are
those from the frontier into the leaves that start a path and those between
consecutive leaves of a path, and the new frontier is made of the leaves that end a
path, with the old frontier kept when some path is empty. -/
theorem threads_thread (F : List Nat) (n : Nat) :
    ∀ e : Element α, e.noDeadEnd → Threads F (e.paths n) (e.thread F n)
  | .leaf _ _, _ => Threads.leaf F n (n + 1)
  | .seq _ _ cs, h => threads_threadRow F n cs (by simpa [noDeadEnd] using h)
  | .choice _ cs, h => threads_threadStack F n cs (by simp_all [noDeadEnd])

/-- Threading through a row of elements without dead ends computes their paths. -/
theorem threads_threadRow (F : List Nat) (n : Nat) :
    ∀ cs : List (Element α), noDeadEndList cs → Threads F (pathsRow n cs) (threadRow F n cs)
  | [], _ => Threads.one F n
  | c :: cs, h => by
    simp only [noDeadEndList, Bool.and_eq_true] at h
    -- the rest of the row is numbered from where the first element's leaves end
    rw [pathsRow, ← next_thread F n c]
    exact (threads_thread F n c h.1).mul (threads_threadRow _ _ cs h.2)
      (exists_mem_paths n c h.1) (exists_mem_pathsRow _ cs h.2) _

/-- Threading through alternatives without dead ends computes their paths. -/
theorem threads_threadStack (F : List Nat) (n : Nat) :
    ∀ cs : List (Element α), noDeadEndList cs →
      Threads F (pathsStack n cs) (threadStack F n cs)
  | [], _ => Threads.zero F n
  | c :: cs, h => by
    simp only [noDeadEndList, Bool.and_eq_true] at h
    rw [pathsStack, ← next_thread F n c]
    exact (threads_thread F n c h.1).add (threads_threadStack F _ cs h.2) _
end

end Element

/-! ## 5. Where arrows and frontiers lie -/

/-- The leaves a thread may name, when it starts from the frontier `F` at a part whose
leaves are those from `n` up to `m`: every arrow ends at one of those leaves and comes
from `F` or from an earlier leaf of the part, and every leaf of the new frontier is in
`F` or in the part. -/
structure Bounded (F : List Nat) (n m : Nat) (t : Thread) : Prop where
  le : n ≤ m
  arrows : ∀ p ∈ t.arrows, n ≤ p.2 ∧ p.2 < m ∧ (p.1 ∈ F ∨ n ≤ p.1 ∧ p.1 < p.2)
  frontier : ∀ k ∈ t.frontier, k ∈ F ∨ n ≤ k ∧ k < m

namespace Bounded

variable {F : List Nat} {n m m' : Nat} {t u : Thread}

theorem leaf (F : List Nat) (n m : Nat) :
    Bounded F n (n + 1) ⟨F.map fun f => (f, n), [n], m⟩ where
  le := Nat.le_succ n
  arrows p hp := by
    obtain ⟨f, hf, rfl⟩ := List.mem_map.mp hp
    exact ⟨le_rfl, Nat.lt_succ_self n, .inl hf⟩
  frontier k hk := .inr (by simp at hk; omega)

theorem one (F : List Nat) (n m : Nat) : Bounded F n n ⟨[], F, m⟩ where
  le := le_rfl
  arrows p hp := by simp at hp
  frontier k hk := .inl hk

theorem zero (F : List Nat) (n m : Nat) : Bounded F n n ⟨[], [], m⟩ where
  le := le_rfl
  arrows p hp := by simp at hp
  frontier k hk := by simp at hk

/-- The second of two parts read one after the other starts from the first one's
frontier, whose leaves come before its own. -/
theorem row (ht : Bounded F n m t) (hu : Bounded t.frontier m m' u) (next : Nat) :
    Bounded F n m' ⟨t.arrows ++ u.arrows, u.frontier, next⟩ where
  le := ht.le.trans hu.le
  arrows p hp := by
    have := ht.le
    have := hu.le
    rcases List.mem_append.mp hp with hp | hp
    · obtain ⟨h₁, h₂, h₃⟩ := ht.arrows p hp
      exact ⟨h₁, by omega, h₃⟩
    · obtain ⟨h₁, h₂, h₃ | h₃⟩ := hu.arrows p hp
      · rcases ht.frontier p.1 h₃ with h | h
        · exact ⟨by omega, h₂, .inl h⟩
        · exact ⟨by omega, h₂, .inr (by omega)⟩
      · exact ⟨by omega, h₂, .inr (by omega)⟩
  frontier k hk := by
    have := ht.le
    have := hu.le
    rcases hu.frontier k hk with h | h
    · rcases ht.frontier k h with h' | h'
      · exact .inl h'
      · exact .inr (by omega)
    · exact .inr (by omega)

/-- Two alternatives start from the same frontier, the second one's leaves after the
first one's. -/
theorem stack (ht : Bounded F n m t) (hu : Bounded F m m' u) (next : Nat) :
    Bounded F n m' ⟨t.arrows ++ u.arrows, t.frontier ++ u.frontier, next⟩ where
  le := ht.le.trans hu.le
  arrows p hp := by
    have := ht.le
    have := hu.le
    rcases List.mem_append.mp hp with hp | hp
    · obtain ⟨h₁, h₂, h₃⟩ := ht.arrows p hp
      exact ⟨h₁, by omega, h₃⟩
    · obtain ⟨h₁, h₂, h₃ | h₃⟩ := hu.arrows p hp
      · exact ⟨by omega, h₂, .inl h₃⟩
      · exact ⟨by omega, h₂, .inr (by omega)⟩
  frontier k hk := by
    have := ht.le
    have := hu.le
    rcases List.mem_append.mp hk with hk | hk
    · rcases ht.frontier k hk with h | h
      · exact .inl h
      · exact .inr (by omega)
    · rcases hu.frontier k hk with h | h
      · exact .inl h
      · exact .inr (by omega)

end Bounded

/-- An arrow comes before another when it ends at an earlier leaf, or at the same leaf
from an earlier one. -/
def ByTarget (p q : Nat × Nat) : Prop := p.2 < q.2 ∨ p.2 = q.2 ∧ p.1 < q.1

namespace Element

variable {α : Type}

mutual
/-- Threading through an element names only its own leaves and those of the frontier. -/
theorem bounded_thread (F : List Nat) (n : Nat) :
    ∀ e : Element α, Bounded F n (e.thread F n).next (e.thread F n)
  | .leaf _ _ => Bounded.leaf F n (n + 1)
  | .seq _ _ cs => bounded_threadRow F n cs
  | .choice _ cs => bounded_threadStack F n cs

/-- Threading through a row names only the row's leaves and those of the frontier. -/
theorem bounded_threadRow (F : List Nat) (n : Nat) :
    ∀ cs : List (Element α), Bounded F n (threadRow F n cs).next (threadRow F n cs)
  | [] => Bounded.one F n n
  | c :: cs => (bounded_thread F n c).row (bounded_threadRow _ _ cs) _

/-- Threading through alternatives names only their leaves and those of the frontier. -/
theorem bounded_threadStack (F : List Nat) (n : Nat) :
    ∀ cs : List (Element α), Bounded F n (threadStack F n cs).next (threadStack F n cs)
  | [] => Bounded.zero F n n
  | c :: cs => (bounded_thread F n c).stack (bounded_threadStack _ _ cs) _
end

/-- The frontier after an element lies below the element's last leaf, when the incoming
frontier lies below its first. -/
theorem frontier_thread_lt {F : List Nat} {n : Nat} (hFn : ∀ f ∈ F, f < n) (e : Element α) :
    ∀ k ∈ (e.thread F n).frontier, k < (e.thread F n).next := fun k hk => by
  have hb := bounded_thread F n e
  rcases hb.frontier k hk with h | h
  · exact lt_of_lt_of_le (hFn k h) hb.le
  · exact h.2

mutual
/-- **Arrows come in order.** Threading an increasing frontier of earlier leaves through a
filled element gives the arrows sorted by target and then by source, each once, and an
increasing frontier of the element's own leaves. -/
theorem orderly_thread (F : List Nat) (n : Nat) :
    ∀ e : Element α, e.filled → F.Pairwise (· < ·) → (∀ f ∈ F, f < n) →
      (e.thread F n).arrows.Pairwise ByTarget ∧ (e.thread F n).frontier.Pairwise (· < ·) ∧
        ∀ k ∈ (e.thread F n).frontier, n ≤ k
  | .leaf _ _, _, hF, _ =>
    ⟨List.pairwise_map.mpr (hF.imp fun h => .inr ⟨rfl, h⟩), by simp [thread], by simp [thread]⟩
  | .seq _ _ cs, h, hF, hFn => by
    simp only [filled, Bool.and_eq_true, Bool.not_eq_true', List.isEmpty_eq_false_iff] at h
    obtain ⟨ha, hf, hn⟩ := orderly_threadRow F n cs h.2 hF hFn
    exact ⟨ha, hf, hn h.1⟩
  | .choice _ cs, h, hF, hFn => by
    simp only [filled, Bool.and_eq_true] at h
    exact orderly_threadStack F n cs h.2 hF hFn

/-- Threading through a row keeps arrows and frontier in order; a row with an element
leaves a frontier of its own leaves. -/
theorem orderly_threadRow (F : List Nat) (n : Nat) :
    ∀ cs : List (Element α), filledList cs → F.Pairwise (· < ·) → (∀ f ∈ F, f < n) →
      (threadRow F n cs).arrows.Pairwise ByTarget ∧
        (threadRow F n cs).frontier.Pairwise (· < ·) ∧
        (cs ≠ [] → ∀ k ∈ (threadRow F n cs).frontier, n ≤ k)
  | [], _, hF, _ => ⟨List.Pairwise.nil, hF, fun h => absurd rfl h⟩
  | c :: cs, h, hF, hFn => by
    simp only [filledList, Bool.and_eq_true] at h
    obtain ⟨hca, hcf, hcn⟩ := orderly_thread F n c h.1 hF hFn
    have hcb := bounded_thread F n c
    obtain ⟨hua, huf, -⟩ :=
      orderly_threadRow _ _ cs h.2 hcf (frontier_thread_lt hFn c)
    have hub := bounded_threadRow (c.thread F n).frontier (c.thread F n).next cs
    refine ⟨List.pairwise_append.mpr ⟨hca, hua, fun p hp q hq => .inl ?_⟩, huf, fun _ k hk => ?_⟩
    · exact lt_of_lt_of_le (hcb.arrows p hp).2.1 (hub.arrows q hq).1
    · rcases hub.frontier k hk with h' | h'
      · exact hcn k h'
      · exact le_trans hcb.le h'.1

/-- Threading through alternatives keeps arrows and frontier in order, each
alternative's frontier after the one before. -/
theorem orderly_threadStack (F : List Nat) (n : Nat) :
    ∀ cs : List (Element α), filledList cs → F.Pairwise (· < ·) → (∀ f ∈ F, f < n) →
      (threadStack F n cs).arrows.Pairwise ByTarget ∧
        (threadStack F n cs).frontier.Pairwise (· < ·) ∧
        ∀ k ∈ (threadStack F n cs).frontier, n ≤ k
  | [], _, _, _ => ⟨List.Pairwise.nil, List.Pairwise.nil, by simp [threadStack]⟩
  | c :: cs, h, hF, hFn => by
    simp only [filledList, Bool.and_eq_true] at h
    obtain ⟨hca, hcf, hcn⟩ := orderly_thread F n c h.1 hF hFn
    have hcb := bounded_thread F n c
    have hFn' : ∀ f ∈ F, f < (c.thread F n).next := fun f hf => lt_of_lt_of_le (hFn f hf) hcb.le
    obtain ⟨hua, huf, hun⟩ := orderly_threadStack F _ cs h.2 hF hFn'
    have hub := bounded_threadStack F (c.thread F n).next cs
    refine ⟨List.pairwise_append.mpr ⟨hca, hua, fun p hp q hq => .inl ?_⟩,
      List.pairwise_append.mpr ⟨hcf, huf, fun a ha b hb => ?_⟩, fun k hk => ?_⟩
    · exact lt_of_lt_of_le (hcb.arrows p hp).2.1 (hub.arrows q hq).1
    · exact lt_of_lt_of_le (frontier_thread_lt hFn c a ha) (hun b hb)
    · rcases List.mem_append.mp hk with hk | hk
      · exact hcn k hk
      · exact le_trans hcb.le (hun k hk)
end

/-- **The arrows and the frontier of a filled diagram.** The arrows join exactly the
leaves read one right after the other on some path, sorted by target and then by source,
each once; the frontier holds exactly the leaves that end a path, in increasing order. -/
theorem arrowPairs_frontierOf_of_filled (e : Element α) (he : e.filled) :
    (∀ i j, (i, j) ∈ e.arrowPairs ↔ Steps (e.paths 0) i j) ∧
      e.arrowPairs.Pairwise ByTarget ∧
      (∀ k, k ∈ e.frontierOf ↔ Ends (e.paths 0) k) ∧
      e.frontierOf.Pairwise (· < ·) := by
  have hs := threads_thread [] 0 e (noDeadEnd_of_filled e he)
  obtain ⟨ha, hf, -⟩ := orderly_thread [] 0 e he List.Pairwise.nil (by simp)
  refine ⟨fun i j => ?_, ha, fun k => ?_, hf⟩
  · simpa [arrowPairs] using hs.arrows_iff i j
  · simpa [frontierOf] using hs.frontier_iff k

end Element

end PatternChart
