/-
# FlexLayout.Proofs.Fitting -- when a line that fits is left as it is

A line that is resolved against its own size has no space to hand out, and nothing should
flex on it.  But items claim their base sizes while they are open, so if a maximum cuts the
base size of one of them, the first pass takes the difference from all, and freezes the
item that was cut.  What the others gave is not returned: the next pass finds no space and
freezes them where they are (`flex_shrinks_fitting`).

The line is left as it is if no item gives anything for good (`Keeps`): no maximum cuts a
base size, or nothing can shrink, or whatever can shrink is cut itself, has no size to take
from, or is at its minimum (`flex_keeps_fitting`).
-/
import FlexLayout.Proofs.Shrinkage
import FlexLayout.Proofs.Stages.Definite

namespace FlexLayout

set_option autoImplicit false

namespace Item

/-- The item gives nothing for good: its limits are in order, its factor is no fraction, and
a maximum cuts its base size, or there is no size to take from, or it is at its minimum. -/
structure Firm (item : Item) : Prop where
  bounded : item.Bounded
  whole : 1024 ≤ item.shrink.raw
  keeps : item.hypothetical < item.base ∨ item.base ≤ 0 ∨ item.hypothetical = item.minMain

instance (item : Item) : Decidable item.Firm :=
  decidable_of_iff (item.Bounded ∧ 1024 ≤ item.shrink.raw ∧
      (item.hypothetical < item.base ∨ item.base ≤ 0 ∨ item.hypothetical = item.minMain))
    ⟨fun ⟨bounded, whole, keeps⟩ => ⟨bounded, whole, keeps⟩,
      fun ⟨bounded, whole, keeps⟩ => ⟨bounded, whole, keeps⟩⟩

/-- An item of a line that fits: what is frozen has its hypothetical size, and so has what is
open, unless a maximum cuts its base size. -/
structure Fitting (item : Item) : Prop where
  fit : item.Fit
  weight : 0 ≤ item.shrink.raw
  frozen : item.frozen = true → item.target = item.hypothetical
  open_ : item.frozen = false → item.outOfFlow = false ∧ item.hypothetical ≤ item.base ∧
    (item.base ≤ item.hypothetical → item.target = item.hypothetical)

theorem Fitting.sure_eq {item : Item} (fitting : item.Fitting) : item.sure = item.hypothetical := by
  cases done : item.frozen with
  | true => exact (if_pos done).trans (fitting.frozen done)
  | false => exact if_neg (by simp [done])

theorem Fitting.le_claim {item : Item} (fitting : item.Fitting) : item.hypothetical ≤ item.claim := by
  cases done : item.frozen with
  | true => simp [claim, done, fitting.frozen done]
  | false =>
      have := (fitting.open_ done).2.1
      simpa [claim, done] using this

theorem fitting_start {item : Item} (fit : item.Fit) (weight : 0 ≤ item.shrink.raw) :
    (item.start false).Fitting := by
  rcases item.start_cases false with ⟨-, same⟩ | ⟨inFlow, flexes, same⟩
  · rw [same]
    exact ⟨⟨fit.base, fit.hypothetical⟩, weight, fun _ => rfl, fun open_ => Bool.noConfusion open_⟩
  · simp only [inflexible, Bool.false_eq_true, if_false, Bool.or_eq_false_iff,
      decide_eq_false_iff_not] at flexes
    have less : item.hypothetical ≤ item.base := by omega
    rw [same]
    refine ⟨⟨fit.base, fit.hypothetical⟩, weight, fun frozen => Bool.noConfusion frozen,
      fun _ => ⟨inFlow, less, fun uncut => ?_⟩⟩
    have uncut : item.base ≤ item.hypothetical := uncut
    show item.base = item.hypothetical
    omega

end Item

namespace Line

/-- The state of a line that fits, between passes. -/
structure Still (room : Int) (items : List Item) : Prop where
  each : ∀ item ∈ items, item.Fitting
  asked : sumInFlow Item.hypothetical items = room
  firm : (∀ item ∈ items, item.frozen = false → item.base ≤ item.hypothetical) ∨
    ∀ item ∈ items, item.frozen = false → item.Firm

/-- Every item has its hypothetical size. -/
def Measured (items : List Item) : Prop := ∀ item ∈ items, item.target = item.hypothetical

variable {room initial : Int} {line : Line} {items mid : List Item}

/-! ## One pass -/

/-- Without a maximum in the way, the items claim no more than the room, and a pass freezes
them where they are. -/
theorem Still.flexPass_of_uncut (state : Still room items) (tallied : Tallied line items)
    (some : ∃ item ∈ items, item.frozen = false)
    (uncut : ∀ item ∈ items, item.frozen = false → item.base ≤ item.hypothetical)
    (free : freeSpace room items = room - sumInFlow Item.claim items) :
    line.frozen < (Line.flexPass false initial room line items).1.frozen ∧
      Measured (Line.flexPass false initial room line items).2 ∧
      ∀ item ∈ (Line.flexPass false initial room line items).2, item.frozen = true := by
  have kept : ∀ item ∈ items, item.target = item.hypothetical := by
    intro item member
    cases done : item.frozen with
    | true => exact (state.each item member).frozen done
    | false => exact ((state.each item member).open_ done).2.2 (uncut item member done)
  have claims : sumInFlow Item.claim items ≤ sumInFlow Item.hypothetical items := by
    refine sumInFlow_mono fun item member _ => ?_
    cases done : item.frozen with
    | true => simp [Item.claim, done, kept item member]
    | false => simpa [Item.claim, done] using uncut item member done
  have least : sumInFlow Item.hypothetical items ≤ sumInFlow Item.claim items :=
    sumInFlow_mono fun item member _ => (state.each item member).le_claim
  have nothing : passSpace false initial room items = 0 := by
    have bound := natAbs_passSpace_le false initial room items
    have asked := state.asked
    omega
  have held : ∀ item ∈ items, item.frozen = false → item.Held := by
    intro item member _
    rw [Item.Held, kept item member]
    exact (state.each item member).fit.limited
  obtain ⟨more, still, frozen⟩ := flexPass_of_held tallied some nothing held
  refine ⟨more, fun after member => ?_, frozen⟩
  obtain ⟨item, among, same, target⟩ := exists_of_mem_right still member
  have hypothetical : after.hypothetical = item.hypothetical := (congrArg Item.hypothetical same :)
  rw [target, hypothetical]
  exact kept item among

/-- What is taken from the items of a line that fits. -/
structure Pressed (room : Int) (mid : List Item) : Prop where
  each : ∀ item ∈ mid, item.Fit ∧ 0 ≤ item.shrink.raw ∧
    (item.frozen = true → item.target = item.hypothetical)
  open_ : ∀ item ∈ mid, item.frozen = false → item.outOfFlow = false ∧
    item.hypothetical ≤ item.base ∧ item.target ≤ item.base ∧
    (item.base ≤ 0 → item.target = item.base) ∧ item.Firm
  asked : sumInFlow Item.hypothetical mid = room

theorem Still.pressed (state : Still room items)
    (firm : ∀ item ∈ items, item.frozen = false → item.Firm)
    (drained : List.Forall₂ Item.Drained items mid) : Pressed room mid := by
  refine ⟨fun after member => ?_, fun after member open_ => ?_, ?_⟩
  · obtain ⟨item, among, from_⟩ := exists_of_mem_right drained member
    obtain ⟨fit, weight, frozen, -⟩ := state.each item among
    cases from_ with
    | frozen => exact ⟨fit, weight, frozen⟩
    | drained open_ =>
        exact ⟨⟨fit.base, fit.hypothetical⟩, weight, fun frozen => by simp [open_] at frozen⟩
  · obtain ⟨item, among, from_⟩ := exists_of_mem_right drained member
    cases from_ with
    | frozen done => simp [done] at open_
    | drained _ less empty =>
        obtain ⟨inFlow, base, -⟩ := (state.each item among).open_ open_
        obtain ⟨bounded, whole, keeps⟩ := firm item among open_
        exact ⟨inFlow, base, less, empty, bounded, whole, keeps⟩
  · rw [sumInFlow_of_unflexed (drained.imp fun _ _ step => step.unflexed_eq) fun _ => rfl]
    exact state.asked

theorem Pressed.held_le (pressed : Pressed room mid) :
    ∀ item ∈ mid, item.held ≤ item.hypothetical := by
  intro item member
  obtain ⟨fit, -, frozen⟩ := pressed.each item member
  cases done : item.frozen with
  | true => exact Int.le_of_eq ((held_frozen done).trans (frozen done))
  | false =>
      obtain ⟨-, -, less, -⟩ := pressed.open_ item member done
      rw [held_open done, fit.hypothetical]
      exact item.hold_mono less

/-- Items that are held to all of the room have their hypothetical sizes. -/
theorem Pressed.held_eq (pressed : Pressed room mid) (all : sumInFlow Item.held mid = room) :
    ∀ item ∈ mid, item.held = item.hypothetical := by
  intro item member
  cases out : item.outOfFlow with
  | true =>
      cases done : item.frozen with
      | true => exact (held_frozen done).trans ((pressed.each item member).2.2 done)
      | false =>
          have := (pressed.open_ item member done).1
          simp [out] at this
  | false =>
      have nonneg : ∀ other ∈ mid, other.outOfFlow = false →
          0 ≤ other.hypothetical - other.held := by
        intro other among _
        have := pressed.held_le other among
        omega
      have above := le_sumInFlow nonneg member out
      rw [sumInFlow_sub, pressed.asked, all] at above
      have := pressed.held_le item member
      omega

/-- **A pass over a line that fits ends it as it was measured, or leaves one that fits.** -/
theorem Pressed.settled (pressed : Pressed room mid) (adjusted : Adjusted mid) (line : Line)
    (fills : sumInFlow Item.target mid = room) :
    Still room (Line.settled (line, mid)).2 ∨
      Measured (Line.settled (line, mid)).2 ∧
        ∀ item ∈ (Line.settled (line, mid)).2, item.frozen = true := by
  obtain ⟨total', settles, -, total, still⟩ := adjusted.settles line
  generalize (Line.settled (line, mid)).2 = after at settles still ⊢
  have most : sumInFlow Item.held mid ≤ room := by
    rw [← pressed.asked]
    exact sumInFlow_mono fun item member _ => pressed.held_le item member
  -- Held targets ask for no more than the room, so the total adjustment is not positive.
  rcases Int.lt_trichotomy total' 0 with falls | zero | rises
  · left
    refine ⟨fun last member => ?_, ?_, .inr fun last member open_ => ?_⟩
    · obtain ⟨item, among, step⟩ := exists_of_mem_right settles member
      obtain ⟨fit, weight, frozen⟩ := pressed.each item among
      cases step with
      | frozen done => exact ⟨fit, weight, frozen, fun open_ => by simp [done] at open_⟩
      | held was violation =>
          obtain ⟨inFlow, base, less, empty, firm⟩ := pressed.open_ item among was
          refine ⟨⟨fit.base, fit.hypothetical⟩, weight, fun stops => ?_,
            fun _ => ⟨inFlow, base, fun uncut => ?_⟩⟩
          · -- The maximum that lowered the item had cut its base size.
            show item.hold item.target = item.hypothetical
            rcases Item.stops_cases stops with none | ⟨rises, -⟩ | ⟨-, limit, limited, above⟩
            · omega
            · omega
            · rw [Item.hold_of_limit_lt firm.bounded limited above, fit.hypothetical,
                Item.hold_of_limit_lt firm.bounded limited (Int.lt_of_lt_of_le above less)]
          · -- An item that was not cut gave nothing, or got it back.
            show item.hold item.target = item.hypothetical
            have uncut : item.base ≤ item.hypothetical := uncut
            rcases firm.keeps with cut | none | least
            · omega
            · rw [empty none]
              exact fit.hypothetical.symm
            · have held := pressed.held_le item among
              rw [held_open was] at held
              have above := item.minMain_le_hold item.target
              omega
    · rw [sumInFlow_of_unflexed (settles.imp fun _ _ step => step.unflexed_eq) fun _ => rfl]
      exact pressed.asked
    · obtain ⟨item, among, step⟩ := exists_of_mem_right settles member
      cases step with
      | frozen done => simp [done] at open_
      | held was =>
          obtain ⟨-, -, -, -, bounded, whole, keeps⟩ := pressed.open_ item among was
          exact ⟨bounded, whole, keeps⟩
  · right
    have all : sumInFlow Item.held mid = room := by omega
    refine ⟨fun last member => ?_, still zero⟩
    obtain ⟨item, among, step⟩ := exists_of_mem_right settles member
    have hypothetical : last.hypothetical = item.hypothetical :=
      (congrArg Item.hypothetical step.unflexed_eq :)
    rw [← step.held_eq, hypothetical]
    exact pressed.held_eq all item among
  · omega

/-- If a maximum cuts the base size of an item, the items claim more than the room. -/
theorem Still.lt_claim (state : Still room items) {item : Item} (member : item ∈ items)
    (open_ : item.frozen = false) (cut : item.hypothetical < item.base) :
    room < sumInFlow Item.claim items := by
  have nonneg : ∀ other ∈ items, other.outOfFlow = false → 0 ≤ other.claim - other.hypothetical := by
    intro other among _
    have := (state.each other among).le_claim
    omega
  have above := le_sumInFlow nonneg member ((state.each item member).open_ open_).1
  rw [sumInFlow_sub, state.asked] at above
  have claim : item.claim = item.base := if_neg (by simp [open_])
  omega

/-- **A pass within the range freezes an item, and ends the line as it was measured or leaves
one that fits.** -/
theorem Still.flexPass (state : Still room items) (tallied : Tallied line items)
    (some : ∃ item ∈ items, item.frozen = false)
    (unclipped : UnclippedPass false initial room line items) :
    line.frozen < (Line.flexPass false initial room line items).1.frozen ∧
      (Still room (Line.flexPass false initial room line items).2 ∨
        Measured (Line.flexPass false initial room line items).2 ∧
          ∀ item ∈ (Line.flexPass false initial room line items).2, item.frozen = true) := by
  have free := unclipped.free
  -- Space is taken only where a maximum has cut the base size of an open item.
  by_cases cut : ∃ item ∈ items, item.frozen = false ∧ item.hypothetical < item.base
  · obtain ⟨item, member, open_, cut⟩ := cut
    have firm : ∀ item ∈ items, item.frozen = false → item.Firm := by
      refine state.firm.resolve_left fun uncut => ?_
      have := uncut item member open_
      omega
    have beyond := state.lt_claim member open_ cut
    have factor : item.shrink.raw ≤ factorSum false items :=
      le_factorSum false (fun item member open_ => ((state.each item member).open_ open_).1)
        (fun item member => (state.each item member).weight) member open_
    have whole : 1024 ≤ factorSum false items :=
      Int.le_trans (firm item member open_).whole factor
    by_cases weighty : Weighty false items
    · have fills := unclipped.sumInFlow_handOut whole
        (fun item member open_ => ⟨((state.each item member).open_ open_).1,
          Int.mul_nonneg (state.each item member).weight (Int.le_max_right _ _)⟩)
        (weighty.resolve_left Bool.false_ne_true) (by rwa [if_neg Bool.false_ne_true])
      have drained := handOut_drained (fun item member => (state.each item member).fit)
        (freeSpace room items)
      have pressed := state.pressed firm drained
      obtain ⟨pass, total⟩ := unclipped.flexPass_eq whole (by omega) weighty
      have adjusted :
          Adjusted (handOut false (shareOf false (freeSpace room items) items) items) := by
        refine ⟨fun item member open_ => ?_, .inl total⟩
        obtain ⟨inFlow, -, -, -, firm⟩ := pressed.open_ item member open_
        exact ⟨inFlow, firm.bounded⟩
      have opens := exists_open drained (fun item after step => step.frozen_eq) some
      rw [pass]
      exact ⟨frozen_lt_settled adjusted opens, pressed.settled adjusted line fills⟩
    · rw [flexPass_eq, passSpace_of_whole initial room whole, dealt, if_neg (by omega)]
      obtain ⟨more, all⟩ := settled_of_weightless weighty (freeSpace room items) tallied some
      refine ⟨more, .inr ?_⟩
      rw [all]
      exact ⟨List.forall_mem_map.2 fun item member => (state.each item member).sure_eq,
        List.forall_mem_map.2 fun _ _ => rfl⟩
  · have uncut : ∀ item ∈ items, item.frozen = false → item.base ≤ item.hypothetical := by
      intro item member open_
      by_contra above
      exact cut ⟨item, member, open_, by omega⟩
    exact (state.flexPass_of_uncut tallied some uncut free).imp_right .inr

/-! ## All passes -/

/-- What the items of a line must be like for it to be left as it is when it fits. -/
def Keeps (items : List Item) : Prop :=
  (∀ item ∈ items, item.Uncut) ∨ (∀ item ∈ items, item.Rigid) ∨
    ∀ item ∈ items, (item.outOfFlow || item.inflexible false) = true ∨ item.Firm

/-- A line begins as one that fits. -/
theorem still_started (fit : ∀ item ∈ items, item.Fit) (weight : ∀ item ∈ items, 0 ≤ item.shrink.raw)
    (asked : sumInFlow Item.hypothetical items = room)
    (keeps : (∀ item ∈ items, item.Uncut) ∨
      ∀ item ∈ items, (item.outOfFlow || item.inflexible false) = true ∨ item.Firm) :
    Still room (started false items) := by
  refine ⟨fun after member => ?_, ?_, keeps.imp (fun uncut after member => ?_)
    fun firm after member => ?_⟩
  · obtain ⟨item, among, rfl⟩ := List.mem_map.1 member
    exact Item.fitting_start (fit item among) (weight item among)
  · rwa [sumInFlow_started items fun item =>
      (congrArg Item.hypothetical (item.unflexed_start false) :)]
  · intro open_
    obtain ⟨item, among, rfl⟩ := List.mem_map.1 member
    have base : (item.start false).claim = (item.start false).base := if_neg (by simp [open_])
    have hypothetical : (item.start false).hypothetical = item.hypothetical :=
      (congrArg Item.hypothetical (item.unflexed_start false) :)
    rw [← base, hypothetical]
    exact Int.le_of_eq (uncut item among).start.2
  · intro open_
    obtain ⟨item, among, rfl⟩ := List.mem_map.1 member
    obtain ⟨inFlow, flexes, same⟩ := Item.start_open open_
    rw [same]
    obtain ⟨bounded, whole, keeps⟩ := (firm item among).resolve_left (by simp [inFlow, flexes])
    exact ⟨bounded, whole, keeps⟩

/-- Items that nothing is taken from for good end at their hypothetical sizes. -/
theorem Unclipped.measured_flex_of_fits {available : Option Int} {gap : Int}
    (unclipped : Unclipped ⟨line, items⟩ available gap)
    (shrinks : line.grows available gap = false) (fit : ∀ item ∈ items, item.Fit)
    (weight : ∀ item ∈ items, 0 ≤ item.shrink.raw)
    (asked : sumInFlow Item.hypothetical items = line.roomFor available gap)
    (keeps : (∀ item ∈ items, item.Uncut) ∨
      ∀ item ∈ items, (item.outOfFlow || item.inflexible false) = true ∨ item.Firm) :
    Measured (line.flex items available gap).2 := by
  have begins := still_started fit weight asked keeps
  obtain ⟨frozen, still | measured⟩ := unclipped.flex_ends shrinks _ Measured begins
    fun _ _ _ tallied opens state _ pass => state.flexPass tallied opens pass
  · exact fun item member => (still.each item member).frozen (frozen item member)
  · exact measured

theorem forall₂_of_measured {available : Option Int} {gap : Int}
    (measured : Measured (line.flex items available gap).2) :
    List.Forall₂ (fun item after =>
        after.unflexed = item.unflexed ∧ after.target = item.hypothetical)
      items (line.flex items available gap).2 := by
  refine (forall₂_and_right (map_unflexed_flex line items available gap) measured).imp ?_
  rintro item after ⟨kept, target⟩
  have hypothetical : after.hypothetical = item.hypothetical := (congrArg Item.hypothetical kept :)
  exact ⟨kept, target.trans hypothetical⟩

/-- **A line that fits is left as it is**, if no item gives anything for good: resolved
against its own size, every item ends at its hypothetical size and the line is used up
exactly. -/
theorem flex_keeps_fitting {filled : FilledLine} {gap : Int} {available : Option Int}
    (gathered : Gathered gap filled)
    (fits : available = none ∨ available = some filled.line.main)
    (unclipped : Unclipped filled available gap) (keeps : Keeps filled.items) :
    let flexed := filled.line.flex filled.items available gap
    List.Forall₂ (fun item after =>
        after.unflexed = item.unflexed ∧ after.target = item.hypothetical)
      filled.items flexed.2 ∧
    flexed.1.used = filled.line.main := by
  obtain ⟨line, items⟩ := filled
  dsimp only at fits keeps ⊢
  have own : available.getD line.main = line.main := by
    rcases fits with rfl | rfl <;> rfl
  have shrinks : line.grows available gap = false := grows_of_le line gap (Int.le_of_eq own)
  have room : line.roomFor available gap = line.main - Pixel.gapsBetween line.inFlow gap := by
    rw [← own]
    exact unclipped.room
  have used : (line.flex items available gap).1.used =
      sumInFlow Item.target (line.flex items available gap).2 +
        Pixel.gapsBetween line.inFlow gap := unclipped.used
  have asked : sumInFlow Item.hypothetical items = line.main - Pixel.gapsBetween line.inFlow gap :=
    gathered.sum_eq
  have still : List.Forall₂ (fun item after =>
      after.unflexed = item.unflexed ∧ after.target = item.hypothetical)
      items (line.flex items available gap).2 := by
    have asks : sumInFlow Item.hypothetical items = line.roomFor available gap := by omega
    have weight := fun item member => (gathered.factors item member).2
    rcases keeps with uncut | rigid | firm
    · exact forall₂_of_measured
        (unclipped.measured_flex_of_fits shrinks gathered.fit weight asks (.inl uncut))
    · exact target_flex_of_rigid line shrinks gathered.fit rigid
    · exact forall₂_of_measured
        (unclipped.measured_flex_of_fits shrinks gathered.fit weight asks (.inr firm))
  refine ⟨still, ?_⟩
  have sizes : sumInFlow Item.hypothetical items =
      sumInFlow Item.target (line.flex items available gap).2 :=
    sumInFlow_congr still (fun item after step => (congrArg Item.outOfFlow step.1 :))
      fun item after step _ => step.2.symm
  omega

/-- One item is cut by its maximum, one is at its minimum, one has no size to take from and
one cannot shrink: the line that fits them keeps them as they are. -/
theorem flex_keeps_fitting_firm :
    let items : List Item :=
      [{ shrink := 1, maxMain := some 50, base := 100, hypothetical := 50 },
        { shrink := 1, minMain := 20, base := 20, hypothetical := 20 },
        { shrink := 1 }, { base := 30, hypothetical := 30 }]
    let filled : FilledLine := ⟨{ count := 4, inFlow := 4, main := 115 }, items⟩
    let flexed := filled.line.flex items (some 115) 5
    Gathered 5 filled ∧ some (115 : Int) = some filled.line.main ∧
      Unclipped filled (some 115) 5 ∧ Keeps items ∧
      List.Forall₂ (fun item after =>
          after.unflexed = item.unflexed ∧ after.target = item.hypothetical) items flexed.2 ∧
      flexed.1.used = 115 := by
  intro items filled flexed
  have gathered : Gathered 5 filled := by decide
  have fits : some (115 : Int) = some filled.line.main := rfl
  have unclipped : Unclipped filled (some 115) 5 := Ranged.unclipped (by decide +kernel)
  have keeps : Keeps items := .inr (.inr (by decide))
  obtain ⟨still, used⟩ := flex_keeps_fitting gathered (.inr fits) unclipped keeps
  exact ⟨gathered, fits, unclipped, keeps, still, used⟩

/-- **A line that fits is flexed** if a maximum cuts the base size of one item and another
one can shrink: the fifty pixels that are cut off the first are taken from both, and the
second never gets its part back. -/
theorem flex_shrinks_fitting :
    let items : List Item :=
      [{ shrink := 1, maxMain := some 50, base := 100, hypothetical := 50 },
        { shrink := 1, base := 50, hypothetical := 50 }]
    let filled : FilledLine := ⟨{ count := 2, inFlow := 2, main := 100 }, items⟩
    Gathered 0 filled ∧
      ∀ available ∈ [none, some filled.line.main],
        let flexed := filled.line.flex items available 0
        Unclipped filled available 0 ∧ flexed.2.map Item.target = [50, 33] ∧
          flexed.1.used = 83 ∧ ¬(flexed.2.map Item.target = items.map Item.hypothetical ∧
            flexed.1.used = filled.line.main) := by
  decide +kernel

end Line

end FlexLayout
