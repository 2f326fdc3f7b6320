import PatternChart.Diagram.Layout
/-!
# Where placing puts the parts of a diagram

Placing is the last pass of the layout: it walks down a tree whose sizes are settled and
gives every element its corner, stacking the children of a choice from its corner down
and lining up the children of a sequence from half its border right and down of it. So
where the parts of a placed tree lie is decided by the sizes alone, relative to the
corner the tree is placed at.

This file says how far that is. `Element.reach` is the width and height, counted from
the corner, that the frames of a tree cover once placed: a leaf covers its frame; a
sequence covers its own frame and its row of children after half its border; a choice
its own frame and its stack of children. The placement theorem (`Element.frames_place`)
puts every frame of a placed tree right of and below the corner and inside the reach.

Two consequences are what a drawing cares about. A group box never has a part of it
start left of or above itself, whatever the sizes (`Element.groupsHold_place_startsWithin`);
and a group box holds every part of it whole exactly when its children do not reach past
it, a condition on sizes alone (`Element.groupsHold_place_within`).
-/

set_option autoImplicit false

namespace PatternChart

/-! ## 1. Rectangles inside rectangles -/

namespace Frame

/-- Whether a frame lies inside another, edges included. -/
def within (f b : Frame Int) : Bool :=
  decide (b.x ≤ f.x) && decide (b.y ≤ f.y) && decide (f.x + f.width ≤ b.x + b.width) &&
    decide (f.y + f.height ≤ b.y + b.height)

/-- Whether a frame starts inside another: it is neither left of it nor above it. -/
def startsWithin (f b : Frame Int) : Bool :=
  decide (b.x ≤ f.x) && decide (b.y ≤ f.y)

@[simp] theorem within_eq_true {f b : Frame Int} :
    f.within b = true ↔
      b.x ≤ f.x ∧ b.y ≤ f.y ∧ f.x + f.width ≤ b.x + b.width ∧
        f.y + f.height ≤ b.y + b.height := by
  simp [within, and_assoc]

@[simp] theorem startsWithin_eq_true {f b : Frame Int} :
    f.startsWithin b = true ↔ b.x ≤ f.x ∧ b.y ≤ f.y := by
  simp [startsWithin]

end Frame

namespace Element

variable {α : Type}

mutual
/-- The frames of every element of a tree, in pre-order. -/
def frames : Element α → List (Frame α)
  | .leaf f _ => [f]
  | .seq f _ cs => f :: framesOfList cs
  | .choice f cs => f :: framesOfList cs

/-- The frames of every element of a list of trees. -/
def framesOfList : List (Element α) → List (Frame α)
  | [] => []
  | e :: es => frames e ++ framesOfList es
end

mutual
/-- Whether every group box of a tree, a sequence with a positive border, stands in
`rel` to the frame of every element inside it. -/
def groupsHold (rel : Frame Int → Frame Int → Bool) : Element Int → Bool
  | .leaf _ _ => true
  | .seq f s cs =>
    (!decide (0 < s.border) || (framesOfList cs).all (rel · f)) && groupsHoldList rel cs
  | .choice _ cs => groupsHoldList rel cs

/-- Whether every group box inside a list of trees holds its parts. -/
def groupsHoldList (rel : Frame Int → Frame Int → Bool) : List (Element Int) → Bool
  | [] => true
  | e :: es => groupsHold rel e && groupsHoldList rel es
end

/-- The canvas of a laid-out tree as a frame at the origin. -/
def canvasFrame (t : Element Int) : Frame Int := ⟨t.canvas.1, t.canvas.2, 0, 0⟩

/-- Whether every element of a laid-out tree stands in `rel` to the canvas and to every
group box that encloses it. -/
def contained (rel : Frame Int → Frame Int → Bool) (t : Element Int) : Bool :=
  t.frames.all (rel · t.canvasFrame) && t.groupsHold rel

/-! ## 2. How far a placed tree reaches -/

mutual
/-- The width and height, counted from its corner, that the frames of a tree cover
once it is placed. -/
def reach : Element Int → Int × Int
  | .leaf f _ => (f.width, f.height)
  | .seq f s cs =>
    (max f.width (s.border / 2 + (reachRow cs).1), max f.height (s.border / 2 + (reachRow cs).2))
  | .choice f cs => (max f.width (reachStack cs).1, max f.height (reachStack cs).2)

/-- How far a row of trees lined up from one corner reaches. -/
def reachRow : List (Element Int) → Int × Int
  | [] => (0, 0)
  | c :: cs => (max c.reach.1 (c.frame.width + (reachRow cs).1), max c.reach.2 (reachRow cs).2)

/-- How far a stack of trees stacked down from one corner reaches. -/
def reachStack : List (Element Int) → Int × Int
  | [] => (0, 0)
  | c :: cs => (max c.reach.1 (reachStack cs).1, max c.reach.2 (c.frame.height + (reachStack cs).2))
end

mutual
/-- Whether every size in a tree and every border is at least zero, as resizing leaves
the sizes. -/
def Sized : Element Int → Prop
  | .leaf f _ => 0 ≤ f.width ∧ 0 ≤ f.height
  | .seq f s cs => 0 ≤ f.width ∧ 0 ≤ f.height ∧ 0 ≤ s.border ∧ SizedList cs
  | .choice f cs => 0 ≤ f.width ∧ 0 ≤ f.height ∧ SizedList cs

/-- Whether every tree of a list is `Sized`. -/
def SizedList : List (Element Int) → Prop
  | [] => True
  | e :: es => Sized e ∧ SizedList es
end

mutual
/-- Whether the children of every group box of a tree reach no further than the box. -/
def Tight : Element Int → Prop
  | .leaf _ _ => True
  | .seq f s cs =>
    (0 < s.border →
      s.border / 2 + (reachRow cs).1 ≤ f.width ∧ s.border / 2 + (reachRow cs).2 ≤ f.height) ∧
      TightList cs
  | .choice _ cs => TightList cs

/-- Whether every tree of a list is `Tight`. -/
def TightList : List (Element Int) → Prop
  | [] => True
  | e :: es => Tight e ∧ TightList es
end

theorem Sized.size_nonneg {e : Element Int} (h : e.Sized) :
    0 ≤ e.frame.width ∧ 0 ≤ e.frame.height := by
  cases e with
  | leaf f l => exact h
  | seq f s cs => exact ⟨h.1, h.2.1⟩
  | choice f cs => exact ⟨h.1, h.2.1⟩

/-- A tree reaches at least as far as its own frame. -/
theorem le_reach (e : Element Int) : e.frame.width ≤ e.reach.1 ∧ e.frame.height ≤ e.reach.2 := by
  cases e with
  | leaf f l => exact ⟨Int.le_refl _, Int.le_refl _⟩
  | seq f s cs => exact ⟨Int.le_max_left _ _, Int.le_max_left _ _⟩
  | choice f cs => exact ⟨Int.le_max_left _ _, Int.le_max_left _ _⟩

/-! ## 3. The placement theorem -/

/-- What placing at a corner guarantees of one frame: it starts right of and below the
corner and ends within the reach. -/
def Placed (x y : Int) (r : Int × Int) (F : Frame Int) : Prop :=
  x ≤ F.x ∧ y ≤ F.y ∧ F.x + F.width ≤ x + r.1 ∧ F.y + F.height ≤ y + r.2

theorem Placed.mono {x y x' y' : Int} {r r' : Int × Int} {F : Frame Int}
    (h : Placed x y r F) (hx : x' ≤ x) (hy : y' ≤ y) (hr₁ : x + r.1 ≤ x' + r'.1)
    (hr₂ : y + r.2 ≤ y' + r'.2) : Placed x' y' r' F := by
  obtain ⟨h₁, h₂, h₃, h₄⟩ := h
  exact ⟨by omega, by omega, by omega, by omega⟩

mutual
/-- **The placement theorem.** Every frame of a placed tree starts right of and below the
corner it is placed at and ends within the tree's reach from there. -/
theorem frames_place (x y : Int) :
    ∀ e : Element Int, e.Sized → ∀ F ∈ (e.place x y).frames, Placed x y e.reach F
  | .leaf f l, h, F, hF => by
    simp only [place, frames, List.mem_singleton] at hF
    subst hF
    exact ⟨Int.le_refl _, Int.le_refl _, Int.le_refl _, Int.le_refl _⟩
  | .seq f s cs, h, F, hF => by
    obtain ⟨hw, hh, hb, hcs⟩ := h
    simp only [place, frames, List.mem_cons] at hF
    have hhalf : 0 ≤ s.border / 2 := Int.ediv_nonneg hb (by decide)
    rcases hF with rfl | hF
    · refine ⟨Int.le_refl _, Int.le_refl _, ?_, ?_⟩ <;> simp only [reach] <;> omega
    · -- the row starts half the border in, and the reach counts that half
      refine (frames_placeAcross _ _ cs hcs F hF).mono (by omega) (by omega) ?_ ?_
      · simp only [reach]
        omega
      · simp only [reach]
        omega
  | .choice f cs, h, F, hF => by
    obtain ⟨hw, hh, hcs⟩ := h
    simp only [place, frames, List.mem_cons] at hF
    rcases hF with rfl | hF
    · refine ⟨Int.le_refl _, Int.le_refl _, ?_, ?_⟩ <;> simp only [reach] <;> omega
    · refine (frames_placeDown _ _ cs hcs F hF).mono (Int.le_refl _) (Int.le_refl _) ?_ ?_
      · simp only [reach]
        omega
      · simp only [reach]
        omega

/-- Every frame of a row lined up from a corner lies right of and below it and within
the row's reach. -/
theorem frames_placeAcross (x y : Int) :
    ∀ cs : List (Element Int), SizedList cs →
      ∀ F ∈ framesOfList (placeAcross x y cs), Placed x y (reachRow cs) F
  | [], _, F, hF => by simp [placeAcross, framesOfList] at hF
  | c :: cs, ⟨hc, hcs⟩, F, hF => by
    simp only [placeAcross, framesOfList, List.mem_append] at hF
    have hcw := hc.size_nonneg.1
    rcases hF with hF | hF
    · refine (frames_place x y c hc F hF).mono (Int.le_refl _) (Int.le_refl _) ?_ ?_
      · simp only [reachRow]
        omega
      · simp only [reachRow]
        omega
    · -- the rest of the row starts where the first child ends
      refine (frames_placeAcross _ y cs hcs F hF).mono (by omega) (Int.le_refl _) ?_ ?_
      · simp only [reachRow]
        omega
      · simp only [reachRow]
        omega

/-- Every frame of a stack placed down from a corner lies right of and below it and
within the stack's reach. -/
theorem frames_placeDown (x y : Int) :
    ∀ cs : List (Element Int), SizedList cs →
      ∀ F ∈ framesOfList (placeDown x y cs), Placed x y (reachStack cs) F
  | [], _, F, hF => by simp [placeDown, framesOfList] at hF
  | c :: cs, ⟨hc, hcs⟩, F, hF => by
    simp only [placeDown, framesOfList, List.mem_append] at hF
    have hch := hc.size_nonneg.2
    rcases hF with hF | hF
    · refine (frames_place x y c hc F hF).mono (Int.le_refl _) (Int.le_refl _) ?_ ?_
      · simp only [reachStack]
        omega
      · simp only [reachStack]
        omega
    · -- the rest of the stack starts where the first child ends
      refine (frames_placeDown x _ cs hcs F hF).mono (Int.le_refl _) (by omega) ?_ ?_
      · simp only [reachStack]
        omega
      · simp only [reachStack]
        omega
end

/-! ## 4. What a placed group box holds -/

mutual
/-- **No part starts outside its group box.** In a placed tree whose sizes and borders are
at least zero, every element inside a group box starts right of and below the box. -/
theorem groupsHold_place_startsWithin (x y : Int) :
    ∀ e : Element Int, e.Sized → (e.place x y).groupsHold Frame.startsWithin = true
  | .leaf _ _, _ => rfl
  | .seq f s cs, ⟨_, _, hb, hcs⟩ => by
    have hhalf : 0 ≤ s.border / 2 := Int.ediv_nonneg hb (by decide)
    simp only [place, groupsHold, Bool.and_eq_true, Bool.or_eq_true, List.all_eq_true]
    refine ⟨.inr fun F hF => ?_, groupsHoldList_placeAcross_startsWithin _ _ cs hcs⟩
    obtain ⟨h₁, h₂, -, -⟩ := frames_placeAcross _ _ cs hcs F hF
    simp only [Frame.startsWithin_eq_true]
    omega
  | .choice _ cs, ⟨_, _, hcs⟩ => groupsHoldList_placeDown_startsWithin _ _ cs hcs

theorem groupsHoldList_placeAcross_startsWithin (x y : Int) :
    ∀ cs : List (Element Int), SizedList cs →
      groupsHoldList Frame.startsWithin (placeAcross x y cs) = true
  | [], _ => rfl
  | c :: cs, ⟨hc, hcs⟩ => by
    simp only [placeAcross, groupsHoldList, Bool.and_eq_true]
    exact ⟨groupsHold_place_startsWithin x y c hc,
      groupsHoldList_placeAcross_startsWithin _ y cs hcs⟩

theorem groupsHoldList_placeDown_startsWithin (x y : Int) :
    ∀ cs : List (Element Int), SizedList cs →
      groupsHoldList Frame.startsWithin (placeDown x y cs) = true
  | [], _ => rfl
  | c :: cs, ⟨hc, hcs⟩ => by
    simp only [placeDown, groupsHoldList, Bool.and_eq_true]
    exact ⟨groupsHold_place_startsWithin x y c hc,
      groupsHoldList_placeDown_startsWithin x _ cs hcs⟩
end

mutual
/-- **A tight group box holds its parts.** In a placed tree whose sizes and borders are at
least zero, every group box holds every element inside it whole when the children of
every group box reach no further than the box. -/
theorem groupsHold_place_within (x y : Int) :
    ∀ e : Element Int, e.Sized → e.Tight → (e.place x y).groupsHold Frame.within = true
  | .leaf _ _, _, _ => rfl
  | .seq f s cs, ⟨_, _, hb, hcs⟩, ⟨htight, htcs⟩ => by
    have hhalf : 0 ≤ s.border / 2 := Int.ediv_nonneg hb (by decide)
    simp only [place, groupsHold, Bool.and_eq_true, Bool.or_eq_true, Bool.not_eq_true',
      decide_eq_false_iff_not, List.all_eq_true]
    refine ⟨?_, groupsHoldList_placeAcross_within _ _ cs hcs htcs⟩
    by_cases hpos : 0 < s.border
    · -- a group box: its row starts half the border in and reaches no further than it
      obtain ⟨hw, hh⟩ := htight hpos
      refine .inr fun F hF => ?_
      obtain ⟨h₁, h₂, h₃, h₄⟩ := frames_placeAcross _ _ cs hcs F hF
      simp only [Frame.within_eq_true]
      omega
    · exact .inl hpos
  | .choice _ cs, ⟨_, _, hcs⟩, htcs => groupsHoldList_placeDown_within _ _ cs hcs htcs

theorem groupsHoldList_placeAcross_within (x y : Int) :
    ∀ cs : List (Element Int), SizedList cs → TightList cs →
      groupsHoldList Frame.within (placeAcross x y cs) = true
  | [], _, _ => rfl
  | c :: cs, ⟨hc, hcs⟩, ⟨htc, htcs⟩ => by
    simp only [placeAcross, groupsHoldList, Bool.and_eq_true]
    exact ⟨groupsHold_place_within x y c hc htc,
      groupsHoldList_placeAcross_within _ y cs hcs htcs⟩

theorem groupsHoldList_placeDown_within (x y : Int) :
    ∀ cs : List (Element Int), SizedList cs → TightList cs →
      groupsHoldList Frame.within (placeDown x y cs) = true
  | [], _, _ => rfl
  | c :: cs, ⟨hc, hcs⟩, ⟨htc, htcs⟩ => by
    simp only [placeDown, groupsHoldList, Bool.and_eq_true]
    exact ⟨groupsHold_place_within x y c hc htc,
      groupsHoldList_placeDown_within x _ cs hcs htcs⟩
end

end Element

end PatternChart
