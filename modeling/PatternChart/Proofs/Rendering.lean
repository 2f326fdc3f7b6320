import PatternChart.Proofs.Positions
import PatternChart.Proofs.Walk
import PatternChart.Render
/-!
# Rendering fails only where reading the regex does

A node tree is read twice on the way to a drawing: once for the diagram, and once for the
pattern text that becomes the drawing's title. The two readings walk every node with
separate case analyses, in different orders (the diagram looks at a quantifier before its
atom, the text at the atom first), and the diagram reading alone refuses a regex without
alternatives. Still, the diagram reading is the stricter one: whatever it reads, the text
reading reads too, to the same regex, and the regex is one a diagram can be built of
(`Node.readRegex_alike`). So the title never fails where the diagram does not.

Every later stage is total on what building gives: laying out, threading arrows and
writing the document are total functions, and the one lookup that could fail, finding the
leaves at both ends of each arrow, always succeeds, since an arrow only joins leaves of the
diagram (`Element.arrowEnds_drawn_isSome`). Rendering a node tree therefore fails exactly
when building its diagram does, with the same error (`Node.render_eq_map`).

A bitmap adds its scale and the bitmap library, whose check of the size is a parameter.
After the same errors as building, and with a library that makes every bitmap it is asked
for, the scale is refused exactly when it is not positive. A positive scale gives the
bitmap of the two scaled canvas sides, and fails exactly when one of them has no nearest
integer (a product that is no finite float); a whole scale always succeeds
(`Node.bitmapSize_of_positive`).
-/

set_option autoImplicit false

namespace PatternChart

/-! ## 1. Sequencing computations that may fail -/

section Except

variable {ε ε' α β : Type}

/-- A sequenced computation succeeds exactly when each step succeeds in turn. -/
theorem Except.bind_eq_ok_iff {x : Except ε α} {f : α → Except ε β} {b : β} :
    x >>= f = .ok b ↔ ∃ a, x = .ok a ∧ f a = .ok b := by
  cases x with
  | error e => exact ⟨fun h => (nomatch h), fun ⟨_, ha, _⟩ => (nomatch ha)⟩
  | ok a => exact ⟨fun h => ⟨a, rfl, h⟩, fun ⟨_, ha, h⟩ => by cases ha; exact h⟩

/-- A sequenced computation fails when its first step does, or when the first step
succeeds and the rest fails. -/
theorem Except.bind_eq_error_iff {x : Except ε α} {f : α → Except ε β} {e : ε} :
    x >>= f = .error e ↔ x = .error e ∨ ∃ a, x = .ok a ∧ f a = .error e := by
  cases x with
  | error e' =>
    change Except.error e' = .error e ↔ _
    simp
  | ok a =>
    change f a = .error e ↔ _
    simp

theorem Except.bind_of_ok {x : Except ε α} {a : α} (h : x = .ok a) (f : α → Except ε β) :
    x >>= f = f a := by
  rw [h]
  rfl

theorem Except.bind_of_error {x : Except ε α} {e : ε} (h : x = .error e)
    (f : α → Except ε β) : x >>= f = .error e := by
  rw [h]
  rfl

theorem Except.map_eq_error_iff {x : Except ε α} {f : α → β} {e : ε} :
    x.map f = .error e ↔ x = .error e := by
  cases x <;> simp [Except.map]

theorem Except.map_eq_ok_iff {x : Except ε α} {f : α → β} {b : β} :
    x.map f = .ok b ↔ ∃ a, x = .ok a ∧ f a = b := by
  cases x <;> simp [Except.map]

/-- An error passed through `mapError` is one the map gives. -/
theorem Except.mapError_eq_error {x : Except ε α} {g : ε → ε'} {e : ε'}
    (h : x.mapError g = .error e) : ∃ f, e = g f := by
  cases x with
  | error f =>
    injection h with h
    exact ⟨f, h.symm⟩
  | ok a => cases h

end Except

/-! ## 2. Reading for a diagram is stricter than reading for text -/

/-- What one node reads to under the two readings agrees: whatever the diagram reading
gives, the text reading gives too, and it `fits` a diagram. -/
def ReadsAlike {α : Type} (diagram text : Except DiagramError α) (fits : α → Bool) : Prop :=
  ∀ a, diagram = .ok a → text = .ok a ∧ fits a = true

namespace ReadsAlike

variable {α β : Type} {x y : Except DiagramError α} {fits : α → Bool}

/-- A node that both readings read the same way. -/
theorem of_same (h : ∀ a, x = .ok a → fits a = true) : ReadsAlike x x fits :=
  fun a ha => ⟨ha, h a ha⟩

/-- A node that both readings read to one value at once, which fits. -/
theorem of_pure {a : α} (h : fits a = true) : ReadsAlike (pure a) (pure a) fits :=
  of_same fun b hb => by
    injection hb with hb
    exact hb ▸ h

/-- Wrapping what both readings read in one constructor keeps them alike. -/
theorem map {fits' : β → Bool} (h : ReadsAlike x y fits) (g : α → β)
    (hg : ∀ a, fits' (g a) = fits a) :
    ReadsAlike (x >>= fun a => pure (g a)) (y >>= fun a => pure (g a)) fits' := by
  intro b hb
  obtain ⟨a, ha, hb⟩ := Except.bind_eq_ok_iff.mp hb
  injection hb with hb
  subst hb
  obtain ⟨hy, hfits⟩ := h a ha
  exact ⟨by rw [Except.bind_of_ok hy]; rfl, (hg a).trans hfits⟩

/-- A head and a tail read alike read alike as a list, when a list fits exactly when its
head and its tail do. -/
theorem cons {xs ys : Except DiagramError (List α)} {fitsList : List α → Bool}
    (h : ReadsAlike x y fits) (hs : ReadsAlike xs ys fitsList)
    (hfits : ∀ a as, fitsList (a :: as) = (fits a && fitsList as)) :
    ReadsAlike (do let a ← x; let as ← xs; pure (a :: as))
      (do let a ← y; let as ← ys; pure (a :: as)) fitsList := by
  intro l hl
  obtain ⟨a, ha, hl⟩ := Except.bind_eq_ok_iff.mp hl
  obtain ⟨as, has, hl⟩ := Except.bind_eq_ok_iff.mp hl
  injection hl with hl
  subst hl
  obtain ⟨hy, hfa⟩ := h a ha
  obtain ⟨hys, hfas⟩ := hs as has
  refine ⟨?_, by rw [hfits, hfa, hfas, Bool.and_self]⟩
  rw [Except.bind_of_ok hy, Except.bind_of_ok hys]
  rfl

end ReadsAlike

namespace Node

/-- A regex has as many alternatives as its node lists. -/
theorem length_readAlternatives (rd : Reading) :
    ∀ (ns : List Node) (as : List Alternative), readAlternatives rd ns = .ok as →
      as.length = ns.length
  | [], as, h => by
    cases h
    rfl
  | n :: ns, as, h => by
    obtain ⟨a, -, h⟩ := Except.bind_eq_ok_iff.mp h
    obtain ⟨as', has', h⟩ := Except.bind_eq_ok_iff.mp h
    cases h
    simp [length_readAlternatives rd ns as' has']

/-- **The diagram reading is the stricter one.** Whatever a node tree reads to for a
diagram, it reads to the same regex for text, and that regex has an alternative at the
top and inside every group. The induction follows the readers themselves, one case per
case of their definitions: the two readings differ only in a quantified term, where each
reads the same two parts in its own order, and in a regex without alternatives, which
only the text reading accepts. -/
theorem readRegex_alike (n : Node) :
    ReadsAlike (readRegex .diagram n) (readRegex .text n) Regex.drawable := by
  refine readRegex.induct .diagram
    (fun n => ReadsAlike (readRegex .diagram n) (readRegex .text n) Regex.drawable)
    (fun ns => ReadsAlike (readAlternatives .diagram ns) (readAlternatives .text ns)
      Alternative.drawableList)
    (fun n => ReadsAlike (readAlternative .diagram n) (readAlternative .text n)
      Alternative.drawable)
    (fun ns => ReadsAlike (readTerms .diagram ns) (readTerms .text ns) Term.drawableList)
    (fun n => ReadsAlike (readTerm .diagram n) (readTerm .text n) Term.drawable)
    (fun n => ReadsAlike (readAtom .diagram n) (readAtom .text n) Atom.drawable)
    ?emptyRegex ?regex ?notRegex ?alternative ?notAlternative ?anchor ?badAnchor ?textOrder
    ?quantified ?notTerm ?char ?any ?classEscape ?escaped ?backReference ?charSet ?group
    ?nonCapturing ?lookahead ?notAtom ?noAlternatives ?alternatives ?noTerms ?terms n
  case emptyRegex =>
    rintro alts ⟨-, rfl⟩ r h
    simp [readRegex] at h
  case regex =>
    intro alts hne ih r h
    have hne : alts ≠ [] := fun h => hne ⟨rfl, h⟩
    rw [readRegex, if_neg (by simpa using hne)] at h
    obtain ⟨as, has, h⟩ := Except.bind_eq_ok_iff.mp h
    injection h with h
    subst h
    obtain ⟨htext, hfits⟩ := ih as has
    refine ⟨by rw [readRegex, if_neg (by simp), Except.bind_of_ok htext]; rfl, ?_⟩
    simp only [Regex.drawable, hfits, Bool.and_true, Bool.not_eq_true',
      List.isEmpty_eq_false_iff]
    -- as many alternatives are read as there are nodes, so at least one
    rintro rfl
    exact hne (List.length_eq_zero_iff.mp (length_readAlternatives _ alts [] has).symm)
  case notRegex =>
    intro n hn r h
    rw [readRegex.eq_2 _ _ hn] at h
    cases h
  case alternative => exact fun _ ih => ih.map _ fun _ => rfl
  case notAlternative =>
    intro n hn a h
    rw [readAlternative.eq_2 _ _ hn] at h
    cases h
  case anchor =>
    intro kind id a ha
    rw [readTerm, readTerm, ha]
    exact ReadsAlike.of_pure rfl
  case badAnchor =>
    intro kind id ha t h
    rw [readTerm, ha] at h
    cases h
  case textOrder =>
    intro _ _ _ h
    cases h
  case quantified =>
    intro atom q greedy _ ih t h
    -- the diagram reads the quantifier first, the text the atom first: both succeed
    obtain ⟨q', hq, h⟩ := Except.bind_eq_ok_iff.mp h
    obtain ⟨a, ha, h⟩ := Except.bind_eq_ok_iff.mp h
    injection h with h
    subst h
    obtain ⟨htext, hfits⟩ := ih a ha
    refine ⟨?_, hfits⟩
    rw [readTerm.eq_2, Except.bind_of_ok htext, Except.bind_of_ok hq]
    rfl
  case notTerm =>
    intro n hn hn' t h
    rw [readTerm.eq_4 _ _ hn hn'] at h
    cases h
  case char | any | classEscape | escaped | backReference =>
    intros
    exact ReadsAlike.of_pure rfl
  case charSet =>
    intro neg items id
    refine ReadsAlike.of_same fun a h => ?_
    obtain ⟨is, -, h⟩ := Except.bind_eq_ok_iff.mp h
    injection h with h
    subst h
    rfl
  case group => exact fun _ _ _ ih => ih.map _ fun _ => rfl
  case nonCapturing => exact fun _ _ ih => ih.map _ fun _ => rfl
  case lookahead => exact fun _ _ _ ih => ih.map _ fun _ => rfl
  case notAtom =>
    intro n h₁ h₂ h₃ h₄ h₅ h₆ h₇ h₈ h₉ a h
    rw [readAtom.eq_10 _ _ h₁ h₂ h₃ h₄ h₅ h₆ h₇ h₈ h₉] at h
    cases h
  case noAlternatives | noTerms =>
    intro as h
    injection h with h
    subst h
    exact ⟨rfl, rfl⟩
  case alternatives =>
    intro n ns ihn ihns
    rw [readAlternatives, readAlternatives]
    exact ihn.cons ihns fun _ _ => rfl
  case terms =>
    intro n ns ihn ihns
    rw [readTerms, readTerms]
    exact ihn.cons ihns fun _ _ => rfl

/-- A regex read for a diagram can be drawn: every regex node in it has an alternative. -/
theorem drawable_of_readRegex {n : Node} {r : Regex} (h : readRegex .diagram n = .ok r) :
    r.drawable = true :=
  (readRegex_alike n r h).2

/-- A node tree read for a diagram has the pattern text of the regex it reads to. -/
theorem patternText_of_readRegex {n : Node} {r : Regex} (h : readRegex .diagram n = .ok r) :
    n.patternText = .ok r.text := by
  rw [patternText, (readRegex_alike n r h).1]
  rfl

end Node

/-! ## 3. Every arrow finds its leaves -/

namespace Element

variable {α β : Type}

mutual
/-- Rewriting the frames of an element rewrites those of its framed leaves. -/
theorem framedLeaves_mapFrames (g : α → β) :
    ∀ e : Element α,
      (e.mapFrames g).framedLeaves = e.framedLeaves.map fun p => (p.1.map g, p.2)
  | .leaf _ _ => rfl
  | .seq _ _ cs => framedLeavesOfList_mapFrames g cs
  | .choice _ cs => framedLeavesOfList_mapFrames g cs

theorem framedLeavesOfList_mapFrames (g : α → β) :
    ∀ es : List (Element α), framedLeavesOfList (mapFramesOfList g es) =
      (framedLeavesOfList es).map fun p => (p.1.map g, p.2)
  | [] => rfl
  | e :: es => by
    rw [mapFramesOfList, framedLeavesOfList, framedLeavesOfList, List.map_append,
      framedLeaves_mapFrames g e, framedLeavesOfList_mapFrames g es]
end

mutual
/-- The framed leaves are the leaves, each with its frame. -/
theorem map_snd_framedLeaves : ∀ e : Element α, e.framedLeaves.map Prod.snd = e.leaves
  | .leaf _ _ => rfl
  | .seq _ _ cs => map_snd_framedLeavesOfList cs
  | .choice _ cs => map_snd_framedLeavesOfList cs

theorem map_snd_framedLeavesOfList :
    ∀ es : List (Element α), (framedLeavesOfList es).map Prod.snd = leavesOfList es
  | [] => rfl
  | e :: es => by
    rw [framedLeavesOfList, leavesOfList, List.map_append, map_snd_framedLeaves e,
      map_snd_framedLeavesOfList es]
end

theorem length_framedLeaves (e : Element α) : e.framedLeaves.length = e.leaves.length := by
  rw [← map_snd_framedLeaves e, List.length_map]

/-- The leaves at both ends of every pair of leaf indices in range are found. -/
theorem arrowEnds_isSome {γ : Type} [Coordinate γ] (e : Element γ) :
    ∀ pairs : List (Nat × Nat),
      (∀ p ∈ pairs, p.1 < e.framedLeaves.length ∧ p.2 < e.framedLeaves.length) →
        (e.arrowEnds (pairs.map fun (a, b) => ((a : Int), (b : Int)))).isSome
  | [], _ => rfl
  | (a, b) :: pairs, h => by
    have hab := h (a, b) List.mem_cons_self
    obtain ⟨x, hx⟩ : ∃ x, e.leafAt? a = some x := by simp [leafAt?, listAt?, hab.1]
    obtain ⟨y, hy⟩ : ∃ y, e.leafAt? b = some y := by simp [leafAt?, listAt?, hab.2]
    obtain ⟨zs, hzs⟩ := Option.isSome_iff_exists.mp
      (arrowEnds_isSome e pairs fun p hp => h p (List.mem_cons_of_mem _ hp))
    simp only [arrowEnds] at hzs ⊢
    rw [List.map_cons, List.mapM_cons, hzs]
    simp [hx, hy]

/-- **Every arrow is drawn.** Drawing a laid-out diagram finds the leaves at both ends of
each of its arrows. -/
theorem arrowEnds_drawn_isSome (tree : Element Int) :
    (tree.drawn.arrowEnds (tree.arrowPairs.map fun (a, b) => ((a : Int), (b : Int)))).isSome := by
  apply arrowEnds_isSome
  intro p hp
  have hlen : tree.drawn.framedLeaves.length = tree.leaves.length := by
    rw [drawn, framedLeaves_mapFrames, List.length_map, length_framedLeaves]
  obtain ⟨hlt, hin⟩ := arrowPairs_forward tree p hp
  rw [hlen]
  exact ⟨hlt.trans hin, hin⟩

end Element

/-! ## 4. Rendering and bitmaps -/

namespace Node

/-- **Rendering is building, drawn.** A node tree renders to the drawing of the regex it
reads to for a diagram, under that regex's own pattern text, and fails exactly as that
reading does. -/
theorem render_eq_map (hooks : Hooks) (n : Node) :
    n.render hooks = (readRegex .diagram n).map (Regex.render hooks) := by
  cases hr : readRegex .diagram n with
  | error e => rw [render, Except.bind_of_error hr]; rfl
  | ok r => rw [render, Except.bind_of_ok hr, patternText_of_readRegex hr]; rfl

theorem render_eq_error_iff (hooks : Hooks) (n : Node) (e : DiagramError) :
    n.render hooks = .error e ↔ n.diagram hooks = .error e := by
  rw [render_eq_map, diagram, Except.map_eq_error_iff, Except.map_eq_error_iff]

theorem render_of_readRegex {n : Node} {r : Regex} (hr : readRegex .diagram n = .ok r)
    (hooks : Hooks) : n.render hooks = .ok (r.render hooks) := by
  rw [render_eq_map, hr]
  rfl

/-- A side of a bitmap fails only for a reason of arithmetic. -/
theorem scaledSide_error {side : Int} {s : Measure} {e : DiagramError}
    (h : scaledSide side s = .error e) : ∃ f, e = .number f := by
  rcases Except.bind_eq_error_iff.mp h with h | ⟨_, -, h⟩
  · exact Except.mapError_eq_error h
  rcases Except.bind_eq_error_iff.mp h with h | ⟨_, -, h⟩
  · exact Except.mapError_eq_error h
  · cases h

/-- A whole scale multiplies a side exactly. -/
theorem scaledSide_whole (side k : Int) :
    scaledSide side (.whole k) = .ok (max 1 (side * k)) := rfl

theorem bitmapSize_of_render_error {n : Node} {e : DiagramError}
    (h : n.render Hooks.none = .error e) (newImage : Int → Int → Option BitmapFault)
    (s : Measure) : n.bitmapSize newImage s = .error e := by
  rw [bitmapSize, Except.bind_of_error h]

theorem bitmapSize_of_nonPositive {n : Node} {r : Rendering} (h : n.render Hooks.none = .ok r)
    (newImage : Int → Int → Option BitmapFault) {s : Measure} (hs : s.isNonPositive = true) :
    n.bitmapSize newImage s = .error (.badScale s) := by
  rw [bitmapSize, Except.bind_of_ok h]
  simp only [hs, if_true]
  rfl

/-- **A bitmap at a positive scale has the two scaled sides.** With a library that makes
every bitmap it is asked for, the bitmap of a rendering at a positive scale is the pair of
its canvas sides scaled, and fails where scaling one of them fails. -/
theorem bitmapSize_of_positive {n : Node} {r : Rendering} (h : n.render Hooks.none = .ok r)
    {newImage : Int → Int → Option BitmapFault} (hnew : ∀ w h, newImage w h = none)
    {s : Measure} (hs : s.isNonPositive = false) :
    n.bitmapSize newImage s =
      scaledSide r.canvas.1 s >>= fun w => (scaledSide r.canvas.2 s).map fun h => (w, h) := by
  rw [bitmapSize, Except.bind_of_ok h]
  simp only [hs, Bool.false_eq_true, if_false, hnew]
  cases scaledSide r.canvas.1 s <;> cases scaledSide r.canvas.2 s <;> rfl

section Positive

variable {n : Node} {r : Rendering} (h : n.render Hooks.none = .ok r)
  {newImage : Int → Int → Option BitmapFault} (hnew : ∀ w h, newImage w h = none)
  {s : Measure} (hs : s.isNonPositive = false)

include h hnew hs

/-- At a positive scale, with a library that makes every bitmap, a bitmap is made exactly
when both scaled sides round, and has them as its size. -/
theorem bitmapSize_eq_ok_iff (w h' : Int) :
    n.bitmapSize newImage s = .ok (w, h') ↔
      scaledSide r.canvas.1 s = .ok w ∧ scaledSide r.canvas.2 s = .ok h' := by
  rw [bitmapSize_of_positive h hnew hs, Except.bind_eq_ok_iff]
  constructor
  · rintro ⟨w', hw', hpair⟩
    obtain ⟨h'', hh', hpair⟩ := Except.map_eq_ok_iff.mp hpair
    obtain ⟨rfl, rfl⟩ := Prod.mk.inj hpair
    exact ⟨hw', hh'⟩
  · rintro ⟨hw, hh⟩
    exact ⟨w, hw, Except.map_eq_ok_iff.mpr ⟨h', hh, rfl⟩⟩

/-- At a positive scale, with a library that makes every bitmap, a bitmap fails only where
scaling one side fails, for a fault of arithmetic. -/
theorem bitmapSize_eq_error {e : DiagramError} (he : n.bitmapSize newImage s = .error e) :
    (scaledSide r.canvas.1 s = .error e ∨ scaledSide r.canvas.2 s = .error e) ∧
      ∃ f, e = .number f := by
  rw [bitmapSize_of_positive h hnew hs] at he
  rcases Except.bind_eq_error_iff.mp he with he | ⟨_, -, he⟩
  · exact ⟨.inl he, scaledSide_error he⟩
  · have he := Except.map_eq_error_iff.mp he
    exact ⟨.inr he, scaledSide_error he⟩

end Positive

end Node

/-! ## 5. What rendering promises -/

/-- **Rendering fails exactly where building does.** For every node tree, all hooks, every
bitmap library and every scale: rendering fails exactly when building the diagram fails,
with the same error; when building succeeds, the title is the pattern text of the regex
read, the rendering is that regex's, and the leaves at both ends of every arrow are found.
A bitmap fails with building's error when building fails. Otherwise, with a library that
makes every bitmap it is asked for, its scale is refused exactly when it is not positive;
at a positive scale the bitmap has the two canvas sides scaled whenever both round, and
fails only where one does not, for a fault of arithmetic; at a positive whole scale it
always succeeds. -/
theorem Node.render_fails_exactly_when_diagram_fails (hooks : Hooks) (n : Node)
    (newImage : Int → Int → Option BitmapFault) (s : Measure) :
    (∀ e, n.render hooks = .error e ↔ n.diagram hooks = .error e) ∧
    (∀ t, n.diagram hooks = .ok t →
      ∃ r, readRegex .diagram n = .ok r ∧ t = r.build hooks ∧
        n.patternText = .ok r.text ∧ n.render hooks = .ok (r.render hooks) ∧
        ((r.render hooks).tree.drawn.arrowEnds
          ((r.render hooks).pairs.map fun (a, b) => ((a : Int), (b : Int)))).isSome) ∧
    (∀ e, n.diagram Hooks.none = .error e → n.bitmapSize newImage s = .error e) ∧
    (∀ t, n.diagram Hooks.none = .ok t → (∀ w h, newImage w h = none) →
      (n.bitmapSize newImage s = .error (.badScale s) ↔ s.isNonPositive = true) ∧
      (s.isNonPositive = false →
        (∀ w h, n.bitmapSize newImage s = .ok (w, h) ↔
          Node.scaledSide t.layout.canvas.1 s = .ok w ∧
            Node.scaledSide t.layout.canvas.2 s = .ok h) ∧
        ∀ e, n.bitmapSize newImage s = .error e →
          (Node.scaledSide t.layout.canvas.1 s = .error e ∨
            Node.scaledSide t.layout.canvas.2 s = .error e) ∧ ∃ f, e = .number f) ∧
      ∀ k : Int, 0 < k → n.bitmapSize newImage (.whole k) =
        .ok (max 1 (t.layout.canvas.1 * k), max 1 (t.layout.canvas.2 * k))) := by
  refine ⟨Node.render_eq_error_iff hooks n, fun t ht => ?_, fun e he => ?_, fun t ht hnew => ?_⟩
  · obtain ⟨r, hr, rfl⟩ := Except.map_eq_ok_iff.mp ht
    exact ⟨r, hr, rfl, Node.patternText_of_readRegex hr, Node.render_of_readRegex hr hooks,
      Element.arrowEnds_drawn_isSome _⟩
  · exact Node.bitmapSize_of_render_error ((Node.render_eq_error_iff _ n e).mpr he) newImage s
  · obtain ⟨r, hr, rfl⟩ := Except.map_eq_ok_iff.mp ht
    have hrender := Node.render_of_readRegex hr Hooks.none
    refine ⟨⟨fun he => ?_, Node.bitmapSize_of_nonPositive hrender newImage⟩,
      fun hs => ⟨Node.bitmapSize_eq_ok_iff hrender hnew hs,
        fun e he => Node.bitmapSize_eq_error hrender hnew hs he⟩, fun k hk => ?_⟩
    · -- refusing the scale is no fault of arithmetic, so the scale is not positive
      cases hs : s.isNonPositive with
      | true => rfl
      | false =>
        obtain ⟨-, f, hf⟩ := Node.bitmapSize_eq_error hrender hnew hs he
        cases hf
    · have hs : (Measure.whole k).isNonPositive = false := by
        simp [Measure.isNonPositive]
        omega
      rw [Node.bitmapSize_of_positive hrender hnew hs]
      rfl

/-- The diagram of `ab`, its canvas 182 by 82 pixels, at scale two and with a library that
makes every bitmap, is a bitmap of 364 by 164 pixels. -/
theorem Node.render_fails_exactly_when_diagram_fails_ab :
    (Node.regex [.alternative [.quantified (.char "a" 0) .null true,
        .quantified (.char "b" 0) .null true]]).bitmapSize (fun _ _ => none) (.whole 2) =
      .ok (364, 164) := by
  have h := ((Node.render_fails_exactly_when_diagram_fails Hooks.none
    (Node.regex [.alternative [.quantified (.char "a" 0) .null true,
      .quantified (.char "b" 0) .null true]]) (fun _ _ => none) (.whole 2)).2.2.2 _ rfl
    fun _ _ => rfl).2.2 2 (by decide)
  rw [h]
  rfl

/-- At the scale `1e307`, positive and finite, the diagram of `ab` builds, and with a bitmap
library that refuses no size its bitmap still has no size: the canvas width times the scale
overflows to infinity, which has no nearest integer. -/
theorem Node.bitmapSize_overflows_at_positive_scale :
    (∃ t, (Node.regex [.alternative [.quantified (.char "a" 0) .null true,
        .quantified (.char "b" 0) .null true]]).diagram Hooks.none = .ok t) ∧
    (Measure.float (Float.ofBits 0x7fac7b1f3cac7433)).isNonPositive = false ∧
    (Node.regex [.alternative [.quantified (.char "a" 0) .null true,
        .quantified (.char "b" 0) .null true]]).bitmapSize (fun _ _ => none)
      (.float (Float.ofBits 0x7fac7b1f3cac7433)) = .error (.number .infiniteToWhole) :=
  ⟨⟨_, rfl⟩, by decide, rfl⟩

end PatternChart
