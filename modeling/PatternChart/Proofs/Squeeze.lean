import PatternChart.Proofs.Placement
import PatternChart.Diagram.Build
import Mathlib
/-!
# What resizing guarantees

Resizing hands every part of a diagram a target size from above. A choice shares the
difference between its target height and its own among its children; a sequence shares
the difference between its target width and its own, less its border, among its
children. A share is truncated toward zero, so when a container is squeezed its
children together come out larger than it by the remainder of the division: the
overshoot `n · share - surplus` is at most `n - 1`, and never more than the shortfall
(`evenShare_overshoot`).

This file states what resizing guarantees of a tree in the form the layout of a whole
diagram is assembled from. `Element.Fits k dx dy e` says that the sizes and borders of `e`
are at least zero, that its group boxes hold their rows, that its parts reach no more
than `dx` past its width and `dy` past its height, and that each of its leaves is at most
`20·k` narrower and `10·k` shorter than a leaf's natural size. Four ways to build a tree
keep it: a leaf of enough size; a sequence without border whose children fit exactly,
with the overshoot of their widths; a choice whose children share its width, with the
overshoot of their heights; and a group box whose body overhangs it by no more than half
its border, which then fits exactly (`Fits.leaf`, `Fits.row`, `Fits.stack`, `Fits.group`).
-/

set_option autoImplicit false

namespace PatternChart

/-! ## 1. Truncated shares -/

@[simp] theorem evenShare_one (s : Int) : evenShare s 1 = s := by
  simp [evenShare]

/-- A share of a surplus of at least zero is the surplus divided, rounded down. -/
theorem evenShare_of_nonneg {s : Int} (hs : 0 ≤ s) (n : Nat) : evenShare s n = s / n := by
  unfold evenShare
  split
  · next hn => rw [hn, Int.natCast_zero, Int.ediv_zero]
  · exact Int.tdiv_eq_ediv_of_nonneg hs

/-- A share of a shortfall is the shortfall divided, rounded down, and taken away. -/
theorem evenShare_of_nonpos {s : Int} (hs : s ≤ 0) (n : Nat) : evenShare s n = -((-s) / n) := by
  have h := evenShare_of_nonneg (Int.neg_nonneg_of_nonpos hs) n
  unfold evenShare at h ⊢
  split
  · next hn => rw [hn, Int.natCast_zero, Int.ediv_zero, Int.neg_zero]
  · next hn => rw [if_neg hn, Int.neg_tdiv] at h; rw [← h, Int.neg_neg]

theorem evenShare_nonneg {s : Int} (hs : 0 ≤ s) (n : Nat) : 0 ≤ evenShare s n := by
  rw [evenShare_of_nonneg hs]
  exact Int.ediv_nonneg hs (Int.natCast_nonneg n)

/-- Shares of a surplus hand out all of it but the remainder of the division. -/
theorem mul_evenShare_of_nonneg {s : Int} (hs : 0 ≤ s) (n : Nat) :
    n * evenShare s n = s - s % n := by
  have h := Int.mul_ediv_add_emod s n
  rw [evenShare_of_nonneg hs]
  omega

/-- Shares of a shortfall take out all of it but the remainder of the division. -/
theorem mul_evenShare_of_nonpos {s : Int} (hs : s ≤ 0) (n : Nat) :
    n * evenShare s n = s + (-s) % n := by
  have h := Int.mul_ediv_add_emod (-s) n
  rw [evenShare_of_nonpos hs, Int.mul_neg]
  omega

theorem evenShare_nonpos {s : Int} (hs : s ≤ 0) (n : Nat) : evenShare s n ≤ 0 := by
  rw [evenShare_of_nonpos hs]
  have := Int.ediv_nonneg (Int.neg_nonneg_of_nonpos hs) (Int.natCast_nonneg n)
  omega

/-- **Overshoot of a truncated share.** Giving each of `n` parts the share of a surplus `s`
(a shortfall when negative) hands out at most `n - 1` more than `s`, never more than the
shortfall, and nothing below the shortfall to any one part. -/
theorem evenShare_overshoot (s : Int) (n : Nat) (hn : 0 < n) :
    n * evenShare s n - s ≤ n - 1 ∧ n * evenShare s n - s ≤ max (-s) 0 ∧
      min s 0 ≤ evenShare s n := by
  have hn' : (0 : Int) < n := by omega
  rcases Int.le_total 0 s with hs | hs
  · -- a surplus is handed out but for the remainder of its division
    have hmul := mul_evenShare_of_nonneg hs n
    have hmod := Int.emod_nonneg s (Int.ne_of_gt hn')
    have := evenShare_nonneg hs n
    omega
  · -- a shortfall is taken out but for the remainder of its size's division, less than a part
    have hmul := mul_evenShare_of_nonpos hs n
    have hlt := Int.emod_lt_of_pos (-s) hn'
    have hout := Int.mul_nonpos_of_nonneg_of_nonpos (Int.natCast_nonneg n) (evenShare_nonpos hs n)
    have hshare := evenShare_of_nonpos hs n
    have hdiv := Int.ediv_le_self n (Int.neg_nonneg_of_nonpos hs)
    omega

/-- A share squeezes a part by no more than the whole shortfall. -/
theorem max_neg_evenShare_le (s : Int) (n : Nat) : max (-evenShare s n) 0 ≤ max (-s) 0 := by
  rcases Nat.eq_zero_or_pos n with rfl | hn
  · simp [evenShare]
  · obtain ⟨-, -, h⟩ := evenShare_overshoot s n hn
    omega

/-- The shares of a surplus hand out no more than the surplus, and of a shortfall nothing. -/
theorem mul_max_evenShare_le (s : Int) (n : Nat) : n * max (evenShare s n) 0 ≤ max s 0 := by
  rcases Nat.eq_zero_or_pos n with rfl | hn
  · simp
  rcases Int.le_total 0 s with hs | hs
  · obtain ⟨-, h, -⟩ := evenShare_overshoot s n hn
    rw [Int.max_eq_left (evenShare_nonneg hs n)]
    omega
  · rw [Int.max_eq_right (evenShare_nonpos hs n)]
    omega

/-- The shares of a shortfall squeeze the parts by no more than the shortfall together, and
of a surplus not at all. -/
theorem mul_max_neg_evenShare_le (s : Int) (n : Nat) :
    n * max (-evenShare s n) 0 ≤ max (-s) 0 := by
  rcases Nat.eq_zero_or_pos n with rfl | hn
  · simp
  rcases Int.le_total 0 s with hs | hs
  · have := evenShare_nonneg hs n
    rw [Int.max_eq_right (by omega)]
    omega
  · have h := mul_evenShare_of_nonpos hs n
    have hmod := Int.emod_nonneg (-s) (Int.natCast_ne_zero.mpr (Nat.pos_iff_ne_zero.mp hn))
    have := evenShare_nonpos hs n
    rw [Int.max_eq_left (by omega), Int.mul_neg]
    omega

/-- Two parts or more sharing a shortfall are each squeezed by at most half of it. -/
theorem two_mul_max_neg_evenShare_le (s : Int) {n : Nat} (hn : 1 < n) :
    2 * max (-evenShare s n) 0 ≤ max (-s) 0 := by
  have h := mul_max_neg_evenShare_le s n
  have htwo : 2 * max (-evenShare s n) 0 ≤ n * max (-evenShare s n) 0 :=
    Int.mul_le_mul_of_nonneg_right (by omega) (Int.le_max_right _ _)
  omega

/-! ## 2. The greatest of a list -/

theorem le_greatest {x : Int} : ∀ {xs : List Int}, x ∈ xs → x ≤ greatest xs
  | [_], h => by
    rw [List.mem_singleton] at h
    subst h
    exact Int.le_refl _
  | y :: z :: zs, h => by
    rw [greatest]
    rcases List.mem_cons.mp h with rfl | h
    · exact Int.le_max_left _ _
    · exact Int.le_trans (le_greatest h) (Int.le_max_right _ _)

theorem greatest_nonneg : ∀ {xs : List Int}, (∀ x ∈ xs, 0 ≤ x) → 0 ≤ greatest xs
  | [], _ => Int.le_refl 0
  | x :: _, h => Int.le_trans (h x List.mem_cons_self) (le_greatest List.mem_cons_self)

theorem greatest_le {b : Int} (hb : 0 ≤ b) : ∀ {xs : List Int}, (∀ x ∈ xs, x ≤ b) → greatest xs ≤ b
  | [], _ => hb
  | [x], h => h x List.mem_cons_self
  | x :: y :: ys, h => by
    rw [greatest]
    have hrest := greatest_le hb fun z hz => h z (List.mem_cons_of_mem x hz)
    exact Int.max_le.mpr ⟨h x List.mem_cons_self, hrest⟩

theorem greatest_le_greatest_cons (x : Int) {xs : List Int} (h : ∀ y ∈ x :: xs, 0 ≤ y) :
    greatest xs ≤ greatest (x :: xs) :=
  greatest_le (greatest_nonneg h) fun _ hy => le_greatest (List.mem_cons_of_mem x hy)

namespace Element

/-! ## 3. Sizes stay at least zero -/

theorem sizedList_iff : ∀ {cs : List (Element Int)}, SizedList cs ↔ ∀ c ∈ cs, c.Sized
  | [] => by simp [SizedList]
  | c :: cs => by simp [SizedList, sizedList_iff]

theorem tightList_iff : ∀ {cs : List (Element Int)}, TightList cs ↔ ∀ c ∈ cs, c.Tight
  | [] => by simp [TightList]
  | c :: cs => by simp [TightList, tightList_iff]

mutual
/-- Resizing keeps borders and clamps every size at zero. -/
theorem sized_resize (w h : Int) : ∀ e : Element Int, e.Sized → (e.resize w h).Sized
  | .leaf _ _, _ => ⟨Int.le_max_right _ _, Int.le_max_right _ _⟩
  | .seq _ _ cs, ⟨_, _, hb, hcs⟩ =>
    ⟨Int.le_max_right _ _, Int.le_max_right _ _, hb, sized_resizeRow _ _ cs hcs⟩
  | .choice _ cs, ⟨_, _, hcs⟩ =>
    ⟨Int.le_max_right _ _, Int.le_max_right _ _, sized_resizeStack _ _ cs hcs⟩

theorem sized_resizeRow (share h : Int) :
    ∀ cs : List (Element Int), SizedList cs → SizedList (resizeRow share h cs)
  | [], _ => trivial
  | c :: cs, ⟨hc, hcs⟩ => ⟨sized_resize _ _ c hc, sized_resizeRow share h cs hcs⟩

theorem sized_resizeStack (w share : Int) :
    ∀ cs : List (Element Int), SizedList cs → SizedList (resizeStack w share cs)
  | [], _ => trivial
  | c :: cs, ⟨hc, hcs⟩ => ⟨sized_resize _ _ c hc, sized_resizeStack w share cs hcs⟩
end

mutual
/-- Inference keeps borders, and sizes that start at zero or more stay so. -/
theorem sized_infer : ∀ e : Element Int, e.Sized → e.infer.Sized
  | .leaf f l, _ => by
    refine ⟨?_, ?_⟩ <;> simp only [leafWidth, leafHeight] <;> omega
  | .seq f s cs, ⟨_, _, hb, hcs⟩ => by
    have hcs' := sizedList_iff.mp (sized_inferList cs hcs)
    have hhalf : 0 ≤ s.border / 2 := Int.ediv_nonneg hb (by decide)
    refine ⟨?_, ?_, hb, sized_inferList cs hcs⟩
    · exact List.sum_nonneg (by simpa [widths] using fun c hc => (hcs' c hc).size_nonneg.1)
    · have := greatest_nonneg (show ∀ x ∈ heights (inferList cs), 0 ≤ x by
        simpa [heights] using fun c hc => (hcs' c hc).size_nonneg.2)
      exact Int.add_nonneg this hhalf
  | .choice f cs, ⟨_, _, hcs⟩ => by
    have hcs' := sizedList_iff.mp (sized_inferList cs hcs)
    refine ⟨?_, ?_, sized_inferList cs hcs⟩
    · exact greatest_nonneg (by simpa [widths] using fun c hc => (hcs' c hc).size_nonneg.1)
    · exact List.sum_nonneg (by simpa [heights] using fun c hc => (hcs' c hc).size_nonneg.2)

theorem sized_inferList : ∀ cs : List (Element Int), SizedList cs → SizedList (inferList cs)
  | [], _ => trivial
  | c :: cs, ⟨hc, hcs⟩ => ⟨sized_infer c hc, sized_inferList cs hcs⟩
end

/-! ## 4. Rows and stacks after resizing -/

@[simp] theorem frame_leaf (f : Frame Int) (l : Leaf) : (Element.leaf f l).frame = f := rfl

@[simp] theorem frame_seq (f : Frame Int) (s : Sequence) (cs : List (Element Int)) :
    (Element.seq f s cs).frame = f := rfl

@[simp] theorem frame_choice (f : Frame Int) (cs : List (Element Int)) :
    (Element.choice f cs).frame = f := rfl

@[simp] theorem infer_leaf (f : Frame Int) (l : Leaf) :
    (Element.leaf f l).infer = .leaf { f with width := leafWidth l.label, height := leafHeight } l :=
  rfl

@[simp] theorem infer_seq (f : Frame Int) (s : Sequence) (cs : List (Element Int)) :
    (Element.seq f s cs).infer =
      .seq
        { f with
          width := (widths (inferList cs)).sum
          height := greatest (heights (inferList cs)) + s.border / 2 }
        s (inferList cs) := rfl

@[simp] theorem infer_choice (f : Frame Int) (cs : List (Element Int)) :
    (Element.choice f cs).infer =
      .choice
        { f with
          width := greatest (widths (inferList cs))
          height := (heights (inferList cs)).sum }
        (inferList cs) := rfl

@[simp] theorem length_inferList : ∀ cs : List (Element Int), (inferList cs).length = cs.length
  | [] => rfl
  | c :: cs => by simp [inferList, length_inferList cs]

@[simp] theorem widths_cons (c : Element Int) (cs : List (Element Int)) :
    widths (c :: cs) = c.frame.width :: widths cs := rfl

@[simp] theorem heights_cons (c : Element Int) (cs : List (Element Int)) :
    heights (c :: cs) = c.frame.height :: heights cs := rfl

theorem width_le_greatest {c : Element Int} {cs : List (Element Int)} (hc : c ∈ cs) :
    c.frame.width ≤ greatest (widths cs) :=
  le_greatest (List.mem_map_of_mem hc)

theorem height_le_greatest {c : Element Int} {cs : List (Element Int)} (hc : c ∈ cs) :
    c.frame.height ≤ greatest (heights cs) :=
  le_greatest (List.mem_map_of_mem hc)

theorem frame_mem_resizeRow (share h : Int) :
    ∀ {cs : List (Element Int)}, ∀ c ∈ resizeRow share h cs, c.frame.height = max h 0
  | [], _, hc => by simp [resizeRow] at hc
  | d :: ds, c, hc => by
    rcases List.mem_cons.mp hc with rfl | hc
    · simp
    · exact frame_mem_resizeRow share h c hc

theorem frame_mem_resizeStack (w share : Int) :
    ∀ {cs : List (Element Int)}, ∀ c ∈ resizeStack w share cs, c.frame.width = max w 0
  | [], _, hc => by simp [resizeStack] at hc
  | d :: ds, c, hc => by
    rcases List.mem_cons.mp hc with rfl | hc
    · simp
    · exact frame_mem_resizeStack w share c hc

/-- A row of children that each keep their width plus the share, none below zero, is as
wide as the children were plus one share per child. -/
theorem sum_widths_resizeRow (share h : Int) :
    ∀ {cs : List (Element Int)}, (∀ c ∈ cs, 0 ≤ c.frame.width + share) →
      (widths (resizeRow share h cs)).sum = (widths cs).sum + cs.length * share
  | [], _ => by simp [resizeRow]
  | c :: cs, hcs => by
    have hc := hcs c List.mem_cons_self
    have ih := sum_widths_resizeRow share h fun d hd => hcs d (List.mem_cons_of_mem c hd)
    simp only [resizeRow, widths_cons, List.sum_cons, frame_resize, ih, List.length_cons,
      Int.natCast_add, Int.natCast_one, Int.add_mul, Int.one_mul]
    omega

/-- A stack of children that each keep their height plus the share, none below zero, is
as tall as the children were plus one share per child. -/
theorem sum_heights_resizeStack (w share : Int) :
    ∀ {cs : List (Element Int)}, (∀ c ∈ cs, 0 ≤ c.frame.height + share) →
      (heights (resizeStack w share cs)).sum = (heights cs).sum + cs.length * share
  | [], _ => by simp [resizeStack]
  | c :: cs, hcs => by
    have hc := hcs c List.mem_cons_self
    have ih := sum_heights_resizeStack w share fun d hd => hcs d (List.mem_cons_of_mem c hd)
    simp only [resizeStack, heights_cons, List.sum_cons, frame_resize, ih, List.length_cons,
      Int.natCast_add, Int.natCast_one, Int.add_mul, Int.one_mul]
    omega

/-- A row reaches as far as its children's widths together when no child reaches past its
own width, and no lower than a height that every child keeps within. -/
theorem reachRow_le {h : Int} (h0 : 0 ≤ h) :
    ∀ {cs : List (Element Int)},
      (∀ c ∈ cs, c.reach.1 ≤ c.frame.width ∧ c.reach.2 ≤ h ∧ 0 ≤ c.frame.width) →
      (reachRow cs).1 ≤ (widths cs).sum ∧ (reachRow cs).2 ≤ h
  | [], _ => by simp [reachRow, widths, h0]
  | c :: cs, hcs => by
    obtain ⟨hw, hh, hw0⟩ := hcs c List.mem_cons_self
    have hrest : ∀ d ∈ cs, d.reach.1 ≤ d.frame.width ∧ d.reach.2 ≤ h ∧ 0 ≤ d.frame.width :=
      fun d hd => hcs d (List.mem_cons_of_mem c hd)
    obtain ⟨ih₁, ih₂⟩ := reachRow_le h0 hrest
    -- the later children start where the first one ends, at a width of zero or more
    have hsum : 0 ≤ (widths cs).sum :=
      List.sum_nonneg (by simpa [widths] using fun d hd => (hrest d hd).2.2)
    simp only [reachRow, widths_cons, List.sum_cons]
    omega

/-- A stack reaches no wider than a width that every child keeps within, and as far down
as its children's heights together when no child reaches below its own height. -/
theorem reachStack_le {w : Int} (w0 : 0 ≤ w) :
    ∀ {cs : List (Element Int)},
      (∀ c ∈ cs, c.reach.1 ≤ w ∧ c.reach.2 ≤ c.frame.height ∧ 0 ≤ c.frame.height) →
      (reachStack cs).1 ≤ w ∧ (reachStack cs).2 ≤ (heights cs).sum
  | [], _ => by simp [reachStack, heights, w0]
  | c :: cs, hcs => by
    obtain ⟨hw, hh, hh0⟩ := hcs c List.mem_cons_self
    have hrest : ∀ d ∈ cs, d.reach.1 ≤ w ∧ d.reach.2 ≤ d.frame.height ∧ 0 ≤ d.frame.height :=
      fun d hd => hcs d (List.mem_cons_of_mem c hd)
    obtain ⟨ih₁, ih₂⟩ := reachStack_le w0 hrest
    have hsum : 0 ≤ (heights cs).sum :=
      List.sum_nonneg (by simpa [heights] using fun d hd => (hrest d hd).2.2)
    simp only [reachStack, heights_cons, List.sum_cons]
    omega

theorem mem_framedLeavesOfList {α : Type} {p : Frame α × Leaf} {cs : List (Element α)} :
    p ∈ framedLeavesOfList cs ↔ ∃ c ∈ cs, p ∈ c.framedLeaves := by
  rw [framedLeavesOfList_eq_flatMap, List.mem_flatMap]

/-! ## 5. Fitting trees -/

/-- What resizing guarantees of a tree: its sizes and borders are at least zero, its group
boxes hold their rows, its parts reach no more than `dx` past its width and `dy` past its
height, and each of its leaves is at most `20·k` narrower and `10·k` shorter than its
natural size. -/
structure Fits (k : Nat) (dx dy : Int) (e : Element Int) : Prop where
  sized : e.Sized
  tight : e.Tight
  reach_width : e.reach.1 ≤ e.frame.width + dx
  reach_height : e.reach.2 ≤ e.frame.height + dy
  leaves : ∀ p ∈ e.framedLeaves,
    leafWidth p.2.label - 20 * k ≤ p.1.width ∧ leafHeight - 10 * k ≤ p.1.height

variable {k : Nat} {dx dy : Int}

/-- A leaf fits when its size is at least zero and within the squeeze allowed. -/
theorem Fits.leaf {f : Frame Int} {l : Leaf} (hw : 0 ≤ f.width) (hh : 0 ≤ f.height)
    (hlw : leafWidth l.label - 20 * k ≤ f.width) (hlh : leafHeight - 10 * k ≤ f.height)
    (hdx : 0 ≤ dx) (hdy : 0 ≤ dy) : Fits k dx dy (.leaf f l) where
  sized := ⟨hw, hh⟩
  tight := trivial
  reach_width := by simp only [reach, frame]; omega
  reach_height := by simp only [reach, frame]; omega
  leaves := by
    intro p hp
    simp only [framedLeaves, List.mem_singleton] at hp
    subst hp
    exact ⟨hlw, hlh⟩

/-- **A row fits with the overshoot of its widths.** A sequence without border whose
children fit exactly and are as tall as it is reaches past its width by no more than its
children's widths together exceed it. -/
theorem Fits.row {f : Frame Int} {s : Sequence} {cs : List (Element Int)} (hb : s.border = 0)
    (hw : 0 ≤ f.width) (hh : 0 ≤ f.height) (hcs : ∀ c ∈ cs, Fits k 0 0 c)
    (hheights : ∀ c ∈ cs, c.frame.height = f.height) (hwidths : (widths cs).sum ≤ f.width + dx)
    (hdx : 0 ≤ dx) : Fits k dx 0 (.seq f s cs) := by
  -- each child reaches exactly its own frame, which is as tall as the row
  have hrow := reachRow_le hh fun c hc => by
    have hfit := hcs c hc
    have hw' := hfit.reach_width
    have hh' := hfit.reach_height
    have hc' := hheights c hc
    exact ⟨by omega, by omega, hfit.sized.size_nonneg.1⟩
  refine ⟨⟨hw, hh, by omega, sizedList_iff.mpr fun c hc => (hcs c hc).sized⟩,
    ⟨by omega, tightList_iff.mpr fun c hc => (hcs c hc).tight⟩, ?_, ?_, ?_⟩
  · simp only [reach, frame, hb]
    omega
  · simp only [reach, frame, hb]
    omega
  · intro p hp
    obtain ⟨c, hc, hp⟩ := mem_framedLeavesOfList.mp hp
    exact (hcs c hc).leaves p hp

/-- **A stack fits with the overshoot of its heights.** A choice whose children fit within
`dx` and are as wide as it is reaches past its height by no more than its children's
heights together exceed it. -/
theorem Fits.stack {f : Frame Int} {cs : List (Element Int)} (hw : 0 ≤ f.width)
    (hh : 0 ≤ f.height) (hcs : ∀ c ∈ cs, Fits k dx 0 c)
    (hwidths : ∀ c ∈ cs, c.frame.width = f.width) (hheights : (heights cs).sum ≤ f.height + dy)
    (hdx : 0 ≤ dx) (hdy : 0 ≤ dy) : Fits k dx dy (.choice f cs) := by
  -- each child reaches at most `dx` past the common width, and no lower than itself
  have hstack := reachStack_le (show 0 ≤ f.width + dx by omega) fun c hc => by
    have hfit := hcs c hc
    have hw' := hfit.reach_width
    have hh' := hfit.reach_height
    have hc' := hwidths c hc
    exact ⟨by omega, by omega, hfit.sized.size_nonneg.2⟩
  refine ⟨⟨hw, hh, sizedList_iff.mpr fun c hc => (hcs c hc).sized⟩,
    tightList_iff.mpr fun c hc => (hcs c hc).tight, ?_, ?_, ?_⟩
  · simp only [reach, frame]
    omega
  · simp only [reach, frame]
    omega
  · intro p hp
    obtain ⟨c, hc, hp⟩ := mem_framedLeavesOfList.mp hp
    exact (hcs c hc).leaves p hp

/-- **A group box fits exactly.** A group box whose body, with what it reaches past its width,
stays half the border inside it, and which is its border taller than its body and the half
border the body may overhang, holds its body and reaches no further than its own frame. -/
theorem Fits.group {f : Frame Int} {s : Sequence} {body : Element Int}
    (hb : s.border = groupBorder) (hbody : Fits k dx 10 body)
    (hw : body.frame.width + dx + 10 ≤ f.width) (hh : body.frame.height + 20 ≤ f.height) :
    Fits k 0 0 (.seq f s [body]) := by
  have hsize := hbody.sized.size_nonneg
  have hreach := le_reach body
  have hw' := hbody.reach_width
  have hh' := hbody.reach_height
  -- the body starts half the border in, and half the border is all it may overhang
  have hrow : s.border / 2 + (reachRow [body]).1 ≤ f.width ∧
      s.border / 2 + (reachRow [body]).2 ≤ f.height := by
    simp only [reachRow, hb, groupBorder]
    omega
  refine ⟨⟨by omega, by omega, by simp [hb, groupBorder], hbody.sized, trivial⟩,
    ⟨fun _ => hrow, hbody.tight, trivial⟩, ?_, ?_, ?_⟩
  · simp only [reach, frame]
    omega
  · simp only [reach, frame]
    omega
  · intro p hp
    simp only [framedLeaves, framedLeavesOfList, List.append_nil] at hp
    exact hbody.leaves p hp

/-! ## 6. Laid-out trees -/

/-- **No part starts outside the canvas or its group box.** Laying out a tree whose sizes
and borders are at least zero puts every part right of and below the canvas's corner and
the corner of every group box around it. -/
theorem layout_contained_startsWithin {e : Element Int} (he : e.Sized) :
    e.layout.contained Frame.startsWithin = true := by
  have hR := sized_resize e.infer.frame.width e.infer.frame.height _ (sized_infer e he)
  simp only [layout, contained, Bool.and_eq_true, List.all_eq_true]
  refine ⟨fun F hF => ?_, groupsHold_place_startsWithin _ _ _ hR⟩
  obtain ⟨h₁, h₂, -, -⟩ := frames_place _ _ _ hR F hF
  simp only [Frame.startsWithin_eq_true, canvasFrame, margin] at h₁ h₂ ⊢
  omega

/-- **A fitting root is laid out within its group boxes and the canvas.** When the tree a
diagram resizes to fits with nothing reaching past its root, every part of the laid-out
diagram lies inside the canvas and inside every group box around it. -/
theorem layout_contained_within {e : Element Int} {k : Nat}
    (hfit : (e.infer.resize e.infer.frame.width e.infer.frame.height).Fits k 0 0) :
    e.layout.contained Frame.within = true := by
  simp only [layout, contained, Bool.and_eq_true, List.all_eq_true]
  refine ⟨fun F hF => ?_, groupsHold_place_within _ _ _ hfit.sized hfit.tight⟩
  obtain ⟨h₁, h₂, h₃, h₄⟩ := frames_place _ _ _ hfit.sized F hF
  have hw := hfit.reach_width
  have hh := hfit.reach_height
  -- the canvas is the root's frame and a margin on each side
  simp only [Frame.within_eq_true, canvasFrame, canvas, frame_place, margin] at h₁ h₂ h₃ h₄ hw hh ⊢
  omega

end Element

end PatternChart
