import PatternChart.Proofs.Rendering
import PatternChart.Proofs.Sharing
/-!
# Leaves in reading order

A diagram is read left to right along its sequences and top to bottom along its choices.
This module says what a layout must do for every arrow to run forward and for no two
leaves to collide, before any geometry: it is enough that in every sequence the leaves of
each part stand in one relation, `across`, to the leaves of every later part, and in every
choice in another relation, `down` (`Element.InOrder`).

* `Element.arrowPairs_inOrder`: the arrows of such a tree join only leaves in `across`. An
  arrow enters a leaf from the frontier, and the frontier holds leaves of earlier parts of
  the sequences around it, never of a later part or of another alternative.
* `Element.pairwise_framedLeaves_inOrder`: of any two leaves, the first in pre-order stands
  in `across` or in `down` to the second.
-/

set_option autoImplicit false

namespace PatternChart

namespace Element

variable {α : Type} (across down : Frame α × Leaf → Frame α × Leaf → Prop)

/-! ## 1. Containers whose parts stand in order -/

/-- Whether the parts of a container stand in order: in a sequence the leaves of each part
stand in `across` to those of every later part, in a choice in `down`. -/
def PartsInOrder : Element α → Prop
  | .leaf _ _ => True
  | .seq _ _ cs => cs.Pairwise fun c d => ∀ p ∈ c.framedLeaves, ∀ q ∈ d.framedLeaves, across p q
  | .choice _ cs => cs.Pairwise fun c d => ∀ p ∈ c.framedLeaves, ∀ q ∈ d.framedLeaves, down p q

/-- Whether the parts of every container of a tree stand in order. -/
def InOrder (t : Element α) : Prop := ∀ u ∈ t.subtrees, u.PartsInOrder across down

variable {across down}

theorem subtreesOfList_eq_flatMap (es : List (Element α)) :
    subtreesOfList es = es.flatMap subtrees := by
  induction es with
  | nil => rfl
  | cons e es ih => simp [subtreesOfList, ih]

theorem inOrder_leaf (f : Frame α) (l : Leaf) : (Element.leaf f l).InOrder across down := by
  intro u hu
  simp only [subtrees, List.mem_singleton] at hu
  subst hu
  trivial

theorem inOrder_seq {f : Frame α} {s : Sequence} {cs : List (Element α)} :
    (Element.seq f s cs).InOrder across down ↔
      (cs.Pairwise fun c d => ∀ p ∈ c.framedLeaves, ∀ q ∈ d.framedLeaves, across p q) ∧
        ∀ c ∈ cs, c.InOrder across down := by
  simp only [InOrder, subtrees, List.mem_cons, forall_eq_or_imp, subtreesOfList_eq_flatMap,
    List.mem_flatMap, forall_exists_index, and_imp]
  exact and_congr Iff.rfl ⟨fun h c hc u hu => h u c hc hu, fun h u c hc hu => h c hc u hu⟩

theorem inOrder_choice {f : Frame α} {cs : List (Element α)} :
    (Element.choice f cs).InOrder across down ↔
      (cs.Pairwise fun c d => ∀ p ∈ c.framedLeaves, ∀ q ∈ d.framedLeaves, down p q) ∧
        ∀ c ∈ cs, c.InOrder across down := by
  simp only [InOrder, subtrees, List.mem_cons, forall_eq_or_imp, subtreesOfList_eq_flatMap,
    List.mem_flatMap, forall_exists_index, and_imp]
  exact and_congr Iff.rfl ⟨fun h c hc u hu => h u c hc hu, fun h u c hc hu => h c hc u hu⟩

/-! ## 2. Any two leaves stand in order -/

mutual
/-- **Any two leaves stand in order.** In a tree whose containers have their parts in
order, the first of any two leaves in pre-order stands in `across` or in `down` to the
second: they are in different parts of the innermost container that holds both. -/
theorem pairwise_framedLeaves_inOrder :
    ∀ e : Element α, e.InOrder across down →
      e.framedLeaves.Pairwise fun p q => across p q ∨ down p q
  | .leaf _ _, _ => List.pairwise_singleton _ _
  | .seq _ _ cs, h => by
    obtain ⟨hparts, hcs⟩ := inOrder_seq.mp h
    rw [framedLeaves, framedLeavesOfList_eq_flatMap, List.pairwise_flatMap]
    exact ⟨pairwise_framedLeavesOfList_inOrder cs hcs,
      hparts.imp fun h p hp q hq => .inl (h p hp q hq)⟩
  | .choice _ cs, h => by
    obtain ⟨hparts, hcs⟩ := inOrder_choice.mp h
    rw [framedLeaves, framedLeavesOfList_eq_flatMap, List.pairwise_flatMap]
    exact ⟨pairwise_framedLeavesOfList_inOrder cs hcs,
      hparts.imp fun h p hp q hq => .inr (h p hp q hq)⟩

theorem pairwise_framedLeavesOfList_inOrder :
    ∀ cs : List (Element α), (∀ c ∈ cs, c.InOrder across down) →
      ∀ c ∈ cs, c.framedLeaves.Pairwise fun p q => across p q ∨ down p q
  | [], _ => fun _ hc => absurd hc List.not_mem_nil
  | d :: ds, h => by
    rw [List.forall_mem_cons] at h ⊢
    exact ⟨pairwise_framedLeaves_inOrder d h.1, pairwise_framedLeavesOfList_inOrder ds h.2⟩
end

/-! ## 3. Arrows run in order -/

/-- The leaf at index `i` of the leaf list `G` stands in `rel` to the leaf at index `j`. -/
def AtIndices (G : List (Frame α × Leaf)) (rel : Frame α × Leaf → Frame α × Leaf → Prop)
    (i j : Nat) : Prop :=
  ∃ p q, G[i]? = some p ∧ G[j]? = some q ∧ rel p q

/-- The leaves of a part found at index `n` of the leaf list `G`, followed by those of the
rest of a list of parts, leave the rest at index `n` plus the part's leaf count. -/
theorem prefix_drop_of_append {G rest : List (Frame α × Leaf)} {c : Element α} {n : Nat}
    (h : c.framedLeaves ++ rest <+: G.drop n) : rest <+: G.drop (n + c.leaves.length) := by
  obtain ⟨tail, htail⟩ := h
  refine ⟨tail, ?_⟩
  rw [← List.drop_drop, ← htail, ← length_framedLeaves, List.append_assoc,
    List.drop_left]

variable (G : List (Frame α × Leaf))

/-- Every leaf of the frontier `F`, found by its index in `G`, stands in `rel` to each of the
leaves `ps`: the frontier may lead into them. -/
def LeadsInto (rel : Frame α × Leaf → Frame α × Leaf → Prop) (F : List Nat)
    (ps : List (Frame α × Leaf)) : Prop :=
  ∀ f ∈ F, ∃ p, G[f]? = some p ∧ ∀ q ∈ ps, rel p q

/-- A leaf index of a new frontier is one of the old frontier `F`, or names in `G` one of the
leaves `ps`. -/
def FromLeaves (F : List Nat) (ps : List (Frame α × Leaf)) (k : Nat) : Prop :=
  k ∈ F ∨ ∃ p ∈ ps, G[k]? = some p

variable {G}

theorem LeadsInto.mono {rel : Frame α × Leaf → Frame α × Leaf → Prop} {F : List Nat}
    {ps qs : List (Frame α × Leaf)} (h : LeadsInto G rel F ps) (hsub : qs ⊆ ps) :
    LeadsInto G rel F qs := fun f hf => by
  obtain ⟨p, hp, hrel⟩ := h f hf
  exact ⟨p, hp, fun q hq => hrel q (hsub hq)⟩

theorem FromLeaves.mono {F : List Nat} {ps qs : List (Frame α × Leaf)} {k : Nat}
    (h : FromLeaves G F ps k) (hsub : ps ⊆ qs) : FromLeaves G F qs k :=
  h.imp_right fun ⟨p, hp, hpG⟩ => ⟨p, hsub hp, hpG⟩

/-- A leaf that comes from a frontier whose leaves come from `F` or `ps`, or from `qs`, comes
from `F`, `ps` or `qs`. -/
theorem FromLeaves.trans {F F' : List Nat} {ps qs : List (Frame α × Leaf)} {k : Nat}
    (h : FromLeaves G F' qs k) (hF' : ∀ k ∈ F', FromLeaves G F ps k) :
    FromLeaves G F (ps ++ qs) k := by
  rcases h with hk | hk
  · exact (hF' k hk).mono (List.subset_append_left _ _)
  · exact Or.inr (hk.imp fun _ ⟨hp, hpG⟩ => ⟨List.mem_append_right _ hp, hpG⟩)

variable (G)

mutual
/-- **Threading keeps to the order.** Threading a frontier through a tree whose leaves stand
at index `n` of `G` onward, and whose containers have their parts in order, draws arrows
only between leaves in `across`, when the frontier leads into all of the tree's leaves; and
the new frontier holds leaves of the old one or of the tree. -/
theorem arrows_thread_inOrder :
    ∀ (e : Element α) (F : List Nat) (n : Nat), e.InOrder across down →
      e.framedLeaves <+: G.drop n → LeadsInto G across F e.framedLeaves →
      (∀ a ∈ (e.thread F n).arrows, AtIndices G across a.1 a.2) ∧
        ∀ k ∈ (e.thread F n).frontier, FromLeaves G F e.framedLeaves k
  | .leaf f l, F, n, _, hG, hF => by
    -- the leaf itself stands at index `n`
    have hn : G[n]? = some (f, l) := by
      obtain ⟨tail, htail⟩ := hG
      have := congrArg (·[0]?) htail
      simpa [framedLeaves, List.getElem?_drop] using this.symm
    refine ⟨fun a ha => ?_, fun k hk => ?_⟩
    · obtain ⟨f', hf', rfl⟩ := List.mem_map.mp ha
      obtain ⟨p, hp, hacross⟩ := hF f' hf'
      exact ⟨p, (f, l), hp, hn, hacross _ (List.mem_singleton_self _)⟩
    · simp only [thread, List.mem_singleton] at hk
      subst hk
      exact .inr ⟨(f, l), List.mem_singleton_self _, hn⟩
  | .seq _ _ cs, F, n, h, hG, hF => by
    obtain ⟨hparts, hcs⟩ := inOrder_seq.mp h
    exact arrows_threadRow_inOrder cs F n hcs hparts hG hF
  | .choice _ cs, F, n, h, hG, hF => by
    obtain ⟨-, hcs⟩ := inOrder_choice.mp h
    exact arrows_threadStack_inOrder cs F n hcs hG hF

/-- Threading through the parts of a sequence keeps to the order: each part receives the
frontier the earlier parts leave, which leads into the later parts. -/
theorem arrows_threadRow_inOrder :
    ∀ (cs : List (Element α)) (F : List Nat) (n : Nat), (∀ c ∈ cs, c.InOrder across down) →
      (cs.Pairwise fun c d => ∀ p ∈ c.framedLeaves, ∀ q ∈ d.framedLeaves, across p q) →
      framedLeavesOfList cs <+: G.drop n → LeadsInto G across F (framedLeavesOfList cs) →
      (∀ a ∈ (threadRow F n cs).arrows, AtIndices G across a.1 a.2) ∧
        ∀ k ∈ (threadRow F n cs).frontier, FromLeaves G F (framedLeavesOfList cs) k
  | [], F, _, _, _, _, _ => ⟨fun a ha => by simp [threadRow] at ha, fun k hk => .inl hk⟩
  | c :: cs, F, n, hcs, hparts, hG, hF => by
    obtain ⟨hfirst, hrest⟩ := List.pairwise_cons.mp hparts
    rw [framedLeavesOfList] at hG hF
    obtain ⟨harrows, hfront⟩ := arrows_thread_inOrder c F n (hcs c List.mem_cons_self)
      ((List.prefix_append _ _).trans hG) (hF.mono (List.subset_append_left _ _))
    -- the frontier the first part leaves leads into all later parts
    have hF' : LeadsInto G across (c.thread F n).frontier (framedLeavesOfList cs) := by
      intro f hf
      rcases hfront f hf with hf | ⟨p, hp, hpG⟩
      · exact hF.mono (List.subset_append_right _ _) f hf
      · refine ⟨p, hpG, fun q hq => ?_⟩
        obtain ⟨d, hd, hq⟩ := mem_framedLeavesOfList.mp hq
        exact hfirst d hd p hp q hq
    have hGcs : framedLeavesOfList cs <+: G.drop (c.thread F n).next := by
      rw [next_thread]
      exact prefix_drop_of_append hG
    obtain ⟨harrows', hfront'⟩ := arrows_threadRow_inOrder cs _ _
      (fun d hd => hcs d (List.mem_cons_of_mem c hd)) hrest hGcs hF'
    simp only [threadRow, framedLeavesOfList]
    exact ⟨fun a ha => (List.mem_append.mp ha).elim (harrows a) (harrows' a),
      fun k hk => (hfront' k hk).trans hfront⟩

/-- Threading through the alternatives of a choice keeps to the order: each receives the
frontier the choice does. -/
theorem arrows_threadStack_inOrder :
    ∀ (cs : List (Element α)) (F : List Nat) (n : Nat), (∀ c ∈ cs, c.InOrder across down) →
      framedLeavesOfList cs <+: G.drop n → LeadsInto G across F (framedLeavesOfList cs) →
      (∀ a ∈ (threadStack F n cs).arrows, AtIndices G across a.1 a.2) ∧
        ∀ k ∈ (threadStack F n cs).frontier, FromLeaves G F (framedLeavesOfList cs) k
  | [], _, _, _, _, _ => ⟨fun a ha => by simp [threadStack] at ha,
      fun k hk => by simp [threadStack] at hk⟩
  | c :: cs, F, n, hcs, hG, hF => by
    rw [framedLeavesOfList] at hG hF
    obtain ⟨harrows, hfront⟩ := arrows_thread_inOrder c F n (hcs c List.mem_cons_self)
      ((List.prefix_append _ _).trans hG) (hF.mono (List.subset_append_left _ _))
    have hGcs : framedLeavesOfList cs <+: G.drop (c.thread F n).next := by
      rw [next_thread]
      exact prefix_drop_of_append hG
    obtain ⟨harrows', hfront'⟩ := arrows_threadStack_inOrder cs F _
      (fun d hd => hcs d (List.mem_cons_of_mem c hd)) hGcs
      (hF.mono (List.subset_append_right _ _))
    simp only [threadStack, framedLeavesOfList]
    exact ⟨fun a ha => (List.mem_append.mp ha).elim (harrows a) (harrows' a),
      fun k hk => (List.mem_append.mp hk).elim
        (fun hk => (hfront k hk).mono (List.subset_append_left _ _))
        (fun hk => (hfront' k hk).mono (List.subset_append_right _ _))⟩
end

/-- **Arrows run in order.** Every arrow of a tree whose containers have their parts in
order joins a leaf to one it stands in `across` to. -/
theorem arrowPairs_inOrder {t : Element α} (h : t.InOrder across down) :
    ∀ a ∈ t.arrowPairs, AtIndices t.framedLeaves across a.1 a.2 :=
  (arrows_thread_inOrder t.framedLeaves t [] 0 h (by simp)
    fun _ hf => absurd hf List.not_mem_nil).1

end Element

end PatternChart
