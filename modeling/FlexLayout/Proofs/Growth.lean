/-
# FlexLayout.Proofs.Growth -- a growing line takes all of its free space

A line that is smaller than the available size ends no larger than that, and if it ends
smaller, none of its items could have grown any further (`flex_fills_room`).  So no pixel is
lost, in whichever order passes freeze items at their minimum and at their maximum.

The state that the passes keep is that of `Line.Rising`; here its sums need no bound, since
they are known to stay in the range.  Limits have to be in order and grow factors must not
be fractions: below a sum of one, a line hands out that fraction of its space.
-/
import FlexLayout.Proofs.Flexing.Filling
import FlexLayout.Proofs.Flexing.Ranged

namespace FlexLayout

set_option autoImplicit false

namespace Line

variable {room initial : Int} {line : Line} {items : List Item}

/-- **A pass within the range freezes an item, and fills the line or leaves one that
grows.** -/
theorem Rising.flexPass (state : Rising room items) (some : ∃ item ∈ items, item.frozen = false)
    (unclipped : UnclippedPass true initial room line items) (whole : 1024 ≤ factorSum true items) :
    line.frozen < (Line.flexPass true initial room line items).1.frozen ∧
      (Rising room (Line.flexPass true initial room line items).2 ∨
        sumInFlow Item.target (Line.flexPass true initial room line items).2 = room ∧
          ∀ item ∈ (Line.flexPass true initial room line items).2, item.frozen = true) := by
  have less := state.claim_lt
  have free := unclipped.free
  have fills := unclipped.sumInFlow_handOut whole
    (fun item member open_ =>
      ⟨((state.each item member).open_ open_).1, (state.each item member).weight⟩)
    (Int.lt_of_lt_of_le (by decide) whole) (by rwa [if_pos rfl])
  have positive : 0 ≤ freeSpace room items := by omega
  have raised := state.handOut positive
  obtain ⟨mid, above⟩ := state.raised raised
  obtain ⟨pass, total⟩ := unclipped.flexPass_eq whole (by omega) (.inl rfl)
  have adjusted : Adjusted (Line.handOut true (shareOf true (freeSpace room items) items) items) := by
    refine ⟨fun item member open_ => ?_, .inl total⟩
    obtain ⟨inFlow, bounded, -, -⟩ := (mid.each item member).open_ open_
    exact ⟨inFlow, bounded⟩
  rw [pass]
  have opens := exists_open raised (fun item after step => by cases step <;> rfl) some
  exact ⟨frozen_lt_settled adjusted opens, mid.settled adjusted line above fills⟩

/-- **A line that grows takes all of its free space**: it ends no larger than the available
size, and if it ends smaller, every item in flow cannot grow, was cut by its maximum, or
has grown to it. -/
theorem flex_fills_room {filled : FilledLine} {gap size : Int} (gathered : Gathered gap filled)
    (bounded : ∀ item ∈ filled.items, item.outOfFlow = false → item.Bounded)
    (whole : ∀ item ∈ filled.items, item.outOfFlow = false →
      item.grow.raw = 0 ∨ 1024 ≤ item.grow.raw)
    (unclipped : Unclipped filled (some size) gap) (smaller : filled.line.main < size) :
    let flexed := filled.line.flex filled.items (some size) gap
    flexed.1.used ≤ size ∧
      (flexed.1.used < size → List.Forall₂ (fun item after =>
        after.unflexed = item.unflexed ∧ (item.outOfFlow = false →
          item.grow.raw = 0 ∨ item.hypothetical < item.base ∨ item.maxMain = some after.target))
        filled.items flexed.2) := by
  obtain ⟨line, items⟩ := filled
  dsimp only at bounded whole smaller ⊢
  have grows : line.grows (some size) gap = true := by
    rw [unclipped.grows_eq]
    exact decide_eq_true smaller
  have room : line.roomFor (some size) gap = size - Pixel.gapsBetween line.inFlow gap :=
    unclipped.room
  have used : (line.flex items (some size) gap).1.used =
      sumInFlow Item.target (line.flex items (some size) gap).2 +
        Pixel.gapsBetween line.inFlow gap := unclipped.used
  have asked : sumInFlow Item.hypothetical items = line.main - Pixel.gapsBetween line.inFlow gap :=
    gathered.sum_eq
  have same := map_unflexed_flex line items (some size) gap
  have whole' : Whole (line.flex items (some size) gap).2 := by
    refine .inl fun after member inFlow => ?_
    obtain ⟨item, among, kept⟩ := exists_of_mem_right same member
    have grow : after.grow = item.grow := (congrArg Item.grow kept :)
    have flow : after.outOfFlow = item.outOfFlow := (congrArg Item.outOfFlow kept :)
    rw [grow]
    exact whole item among (flow.symm.trans inFlow)
  rw [flex_snd] at whole'
  have begins : Rising (line.roomFor (some size) gap) (started true items) :=
    rising_started (gathered.flexible bounded) (by omega)
  -- Each pass fills the room or leaves the line `Rising`, as no open item grows by a fraction.
  obtain ⟨frozen, rising | full⟩ := unclipped.flex_ends grows _
    (fun after => sumInFlow Item.target after = line.roomFor (some size) gap) begins
    fun _ _ _ _ opens state stays pass =>
      state.flexPass opens pass (state.factorSum_le opens stays (whole_of_frozen whole'))
  · have less := rising.less
    rw [sumInFlow_sure frozen] at less
    refine ⟨by omega, fun _ => ?_⟩
    refine (forall₂_and_right same (rising.all_full frozen)).imp ?_
    rintro item after ⟨kept, full⟩
    have grow : after.grow = item.grow := (congrArg Item.grow kept :)
    have flow : after.outOfFlow = item.outOfFlow := (congrArg Item.outOfFlow kept :)
    have maxMain : after.maxMain = item.maxMain := (congrArg Item.maxMain kept :)
    refine ⟨kept, fun inFlow => ?_⟩
    rw [Item.Full, grow, maxMain, flow] at full
    exact (full inFlow).imp id .inr
  · exact ⟨by omega, fun less => by omega⟩

/-- Two items reach their maximum in one pass, a third one, which was raised to its minimum,
in the next, and the last one cannot grow: fifty pixels are left. -/
theorem flex_fills_room_capped :
    let items : List Item :=
      [{ grow := 1, minMain := 60, maxMain := some 70, hypothetical := 60 },
        { grow := 1, maxMain := some 25 }, { grow := 1, maxMain := some 30 },
        { base := 10, hypothetical := 10 }]
    let filled : FilledLine := ⟨{ count := 4, inFlow := 4, main := 85 }, items⟩
    let flexed := filled.line.flex items (some 200) 5
    Gathered 5 filled ∧ (∀ item ∈ items, item.outOfFlow = false → item.Bounded) ∧
      (∀ item ∈ items, item.outOfFlow = false → item.grow.raw = 0 ∨ 1024 ≤ item.grow.raw) ∧
      Unclipped filled (some 200) 5 ∧ filled.line.main < 200 ∧ flexed.1.used = 150 ∧
      List.Forall₂ (fun item after =>
        after.unflexed = item.unflexed ∧ (item.outOfFlow = false →
          item.grow.raw = 0 ∨ item.hypothetical < item.base ∨ item.maxMain = some after.target))
        items flexed.2 := by
  intro items filled flexed
  have gathered : Gathered 5 filled := by decide
  have bounded : ∀ item ∈ items, item.outOfFlow = false → item.Bounded := by decide
  have whole : ∀ item ∈ items, item.outOfFlow = false →
      item.grow.raw = 0 ∨ 1024 ≤ item.grow.raw := by decide
  have unclipped : Unclipped filled (some 200) 5 := Ranged.unclipped (by decide +kernel)
  have used : flexed.1.used = 150 := by decide +kernel
  obtain ⟨-, full⟩ := flex_fills_room gathered bounded whole unclipped (by decide)
  exact ⟨gathered, bounded, whole, unclipped, by decide, used, full (by rw [used]; decide)⟩

end Line

end FlexLayout
