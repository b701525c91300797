/-
# FlexLayout.Proofs.Shrinkage -- a shrinking line gives up exactly its overflow

A line that is larger than the available size ends no smaller than that, and if it still ends
larger, none of its items could have given way any further (`flex_gives_overflow`).

This mirrors growth.  What the passes keep (`Line.Falling`) is that the items ask for more
than the room, and that either whatever is frozen has shrunk as far as it can, or the items
could still do with the room.  The second begins to hold when a pass freezes items at their
maximum, since then the others were held to more than they have to keep.

There is one step that growth does not have: when none of the items that are left has a size
to take from, a pass freezes all of them where they were measured.  Those have shrunk as far
as they can, so the state of the line stays what it was.
-/
import FlexLayout.Proofs.Flexing.Ranged
import FlexLayout.Proofs.Flexing.Yielding

namespace FlexLayout

set_option autoImplicit false

namespace Item

/-- The item cannot shrink, or it has shrunk as far as it can. -/
def Spent (item : Item) : Prop :=
  item.shrink.raw = 0 ∨ item.base < item.hypothetical ∨ item.base ≤ 0 ∨ item.target = item.minMain

/-- What is taken from an item by weight: nothing, if it has no size to take from. -/
inductive Drained (item : Item) : Item → Prop where
  | frozen (done : item.frozen = true) : Drained item item
  | drained (open_ : item.frozen = false) {size : Int} (less : size ≤ item.base)
      (empty : item.base ≤ 0 → size = item.base) : Drained item { item with target := size }

/-- An item can do with this size in the end. -/
structure Sinks (item : Item) (size : Int) : Prop where
  out : item.outOfFlow = true → size = 0
  frozen : item.outOfFlow = false → item.frozen = true → item.target ≤ size
  open_ : item.outOfFlow = false → item.frozen = false →
    item.minMain ≤ size ∧ (item.base ≤ 0 → item.hypothetical ≤ size)

theorem Drained.unflexed_eq {item after : Item} (drained : item.Drained after) :
    after.unflexed = item.unflexed := by
  cases drained <;> rfl

theorem Drained.frozen_eq {item after : Item} (drained : item.Drained after) :
    after.frozen = item.frozen := by
  cases drained <;> rfl

theorem spent_start (item : Item) :
    (item.start false).frozen = true → (item.start false).outOfFlow = false →
      (item.start false).Spent := by
  intro frozen inFlow
  rcases item.start_cases false with ⟨rigid, same⟩ | ⟨-, -, same⟩
  · rw [same] at inFlow ⊢
    have flow : item.outOfFlow = false := inFlow
    simp only [flow, inflexible, Factor.isZero, Bool.false_or, Bool.false_eq_true, if_false,
      Bool.or_eq_true, beq_iff_eq, decide_eq_true_eq] at rigid
    rcases rigid with none | raised
    · exact .inl none
    · exact .inr (.inl raised)
  · rw [same] at frozen
    cases frozen

/-- Raised items that are frozen are at their minimum. -/
theorem Shrinking.spent_of_raised {total : Int} {item after : Item} (shrinks : item.Shrinking)
    (rises : 0 < total) (settles : item.Settles total after)
    (spent : item.frozen = true → item.outOfFlow = false → item.Spent) :
    after.frozen = true → after.outOfFlow = false → after.Spent := by
  cases settles with
  | frozen => exact spent
  | held open_ violation =>
      intro stops _
      obtain ⟨-, bounded, -⟩ := shrinks.open_ open_
      rcases stops_cases stops with zero | ⟨-, below⟩ | ⟨falls, -⟩
      · omega
      · exact .inr (.inr (.inr (hold_of_lt_minMain bounded below)))
      · omega

/-- Raising an item takes no more than it can do with. -/
theorem Shrinking.sinks_of_raised {total : Int} {item after : Item} {size : Int}
    (shrinks : item.Shrinking) (rises : 0 < total) (settles : item.Settles total after)
    (sinks : item.Sinks size) : after.Sinks size := by
  cases settles with
  | frozen => exact sinks
  | held open_ violation =>
      refine ⟨sinks.out, fun inFlow stops => ?_, fun inFlow _ => sinks.open_ inFlow open_⟩
      obtain ⟨-, bounded, -⟩ := shrinks.open_ open_
      rcases stops_cases stops with zero | ⟨-, below⟩ | ⟨falls, -⟩
      · omega
      · show item.hold item.target ≤ size
        rw [hold_of_lt_minMain bounded below]
        exact (sinks.open_ inFlow open_).1
      · omega

/-- An item can do with what it was held to. -/
theorem Shrinking.sinks_held {total : Int} {item after : Item} (shrinks : item.Shrinking)
    (empty : item.frozen = false → item.base ≤ 0 → item.target = item.base)
    (settles : item.Settles total after) :
    after.Sinks (if item.outOfFlow then 0 else item.held) := by
  cases settles with
  | frozen done =>
      refine ⟨fun out => if_pos out, fun inFlow _ => ?_, fun _ open_ => by simp [done] at open_⟩
      simp [inFlow, held, done]
  | held open_ violation =>
      have inFlow := (shrinks.open_ open_).1
      have size : (if item.outOfFlow then 0 else item.held) = item.hold item.target := by
        simp [inFlow, held, open_]
      rw [size]
      refine ⟨fun out => ?_, fun _ _ => Int.le_refl _, fun _ _ =>
        ⟨item.minMain_le_hold item.target, fun none => ?_⟩⟩
      · have : item.outOfFlow = true := out
        simp [inFlow] at this
      · show item.hypothetical ≤ item.hold item.target
        rw [empty open_ none]
        exact Int.le_of_eq shrinks.fit.hypothetical

end Item

namespace Line

/-- The state of a line that shrinks by all of its overflow, between passes. -/
structure Falling (room : Int) (items : List Item) : Prop where
  each : ∀ item ∈ items, item.Shrinking
  whole : ∀ item ∈ items, item.frozen = false → 1024 ≤ item.shrink.raw
  more : room < sumInFlow Item.sure items
  spent : (∀ item ∈ items, item.frozen = true → item.outOfFlow = false → item.Spent) ∨
    ∃ sizes : List Int, List.Forall₂ Item.Sinks items sizes ∧ sizes.sum ≤ room

variable {room initial : Int} {line : Line} {items mid after : List Item}

/-! ## One pass -/

/-- The items claim more than the room. -/
theorem Falling.lt_claim (state : Falling room items) : room < sumInFlow Item.claim items :=
  Int.lt_of_lt_of_le state.more (sure_le_claim state.each)

/-- **No pass takes a fraction only.** -/
theorem Falling.factorSum_le (state : Falling room items)
    (some : ∃ item ∈ items, item.frozen = false) : 1024 ≤ factorSum false items := by
  obtain ⟨item, member, open_⟩ := some
  exact Int.le_trans (state.whole item member open_) (shrink_le_factorSum state.each member open_)

/-- What a pass takes by weight leaves items without a size as they are. -/
theorem handOut_drained (fit : ∀ item ∈ items, item.Fit) (free : Int) :
    List.Forall₂ Item.Drained items (handOut false (shareOf false free items) items) := by
  have dealt : List.Forall₂ _ items (handOut false (shareOf false free items) items) :=
    Share.forall₂_deal Share.Fair (fun claim share => 0 ≤ share ∧ (claim ≤ 0 → share = 0))
      (fun _ claim fair =>
        ⟨⟨(fair.next claim).1, fun none => Share.next_weightless fair none⟩, (fair.next claim).2⟩)
      (Share.fair_start (magnitude_nonneg free)) items
  refine ((List.forall₂_and_left _ _).2 ⟨fit, dealt⟩).imp ?_
  rintro item after ⟨fit, ⟨frozen, rfl⟩ | ⟨open_, share, ⟨nonneg, weightless⟩, rfl⟩⟩
  · exact .frozen (by simpa using frozen)
  · refine .drained (by simpa using open_) (Item.sub_le_of_nonneg fit.base nonneg) ?_
    intro empty
    have none : item.weight false = 0 := by
      show item.shrink.raw * max item.base 0 = 0
      rw [show max item.base 0 = 0 by omega, Int.mul_zero]
    show Pixel.sub item.base share = item.base
    rw [weightless (Int.le_of_eq none), Pixel.sub, Int.sub_zero]
    exact Pixel.saturate_of_inRange fit.base

/-- What is taken changes nothing that the state of the line depends on. -/
theorem Falling.drained (state : Falling room items) (drained : List.Forall₂ Item.Drained items mid) :
    Falling room mid ∧ ∀ item ∈ mid, item.frozen = false →
      item.target ≤ item.base ∧ (item.base ≤ 0 → item.target = item.base) := by
  refine ⟨⟨fun after member => ?_, fun after member open_ => ?_, ?_, ?_⟩, fun after member open_ => ?_⟩
  · obtain ⟨item, among, from_⟩ := exists_of_mem_right drained member
    obtain ⟨fit, weight, opens, least⟩ := state.each item among
    cases from_ with
    | frozen => exact ⟨fit, weight, opens, least⟩
    | drained open_ =>
        exact ⟨⟨fit.base, fit.hypothetical⟩, weight, opens, fun frozen => by simp [open_] at frozen⟩
  · obtain ⟨item, among, from_⟩ := exists_of_mem_right drained member
    cases from_ with
    | frozen => exact state.whole _ among open_
    | drained open_ => exact state.whole item among open_
  · rw [← sumInFlow_congr drained (fun _ _ step => (congrArg Item.outOfFlow step.unflexed_eq :))
      fun item after step _ => ?_]
    · exact state.more
    · cases step with
      | frozen => rfl
      | drained open_ => simp [Item.sure, open_]
  · rcases state.spent with all | ⟨sizes, sinks, enough⟩
    · left
      intro after member frozen
      obtain ⟨item, among, from_⟩ := exists_of_mem_right drained member
      cases from_ with
      | frozen => exact all _ among frozen
      | drained open_ => simp [open_] at frozen
    · right
      refine ⟨sizes, forall₂_trans ?_ drained.flip sinks, enough⟩
      rintro after item size from_ ⟨out, frozen, opens⟩
      cases from_ with
      | frozen => exact ⟨out, frozen, opens⟩
      | drained open_ => exact ⟨out, fun _ frozen => by simp [open_] at frozen, opens⟩
  · obtain ⟨item, among, from_⟩ := exists_of_mem_right drained member
    cases from_ with
    | frozen done => simp [done] at open_
    | drained _ less empty => exact ⟨less, empty⟩

/-- **A pass over a shrinking line fills it, or leaves a line that shrinks.** -/
theorem Falling.settled (state : Falling room mid) (adjusted : Adjusted mid) (line : Line)
    (lowered : ∀ item ∈ mid, item.frozen = false →
      item.target ≤ item.base ∧ (item.base ≤ 0 → item.target = item.base))
    (fills : sumInFlow Item.target mid = room) :
    Falling room (Line.settled (line, mid)).2 ∨
      sumInFlow Item.target (Line.settled (line, mid)).2 = room ∧
        ∀ item ∈ (Line.settled (line, mid)).2, item.frozen = true := by
  obtain ⟨total', settles, held, total, still⟩ := adjusted.settles line
  generalize (Line.settled (line, mid)).2 = after at settles held still ⊢
  have settles' := (List.forall₂_and_left _ _).2 ⟨fun item member =>
    And.intro (state.each item member) (lowered item member), settles⟩
  have each := shrinking_of_settles settles state.each
  have whole := whole_of_settles settles state.whole
  have below (item : Item) (member : item ∈ mid) (open_ : item.frozen = false) :=
    (lowered item member open_).1
  have more := state.more
  rcases Int.lt_trichotomy total' 0 with falls | zero | rises
  · left
    have sure := sure_of_settles settles state.each below falls
    refine ⟨each, whole, by omega, .inr ?_⟩
    -- All could still do with what they were held to.
    refine ⟨mid.map fun item => if item.outOfFlow then 0 else item.held, ?_, ?_⟩
    · rw [List.forall₂_map_right_iff]
      exact settles'.flip.imp fun last item both =>
        both.1.1.sinks_held (fun open_ => (both.1.2 open_).2) both.2
    · show sumInFlow Item.held mid ≤ room
      omega
  · exact .inr ⟨by omega, still zero⟩
  · left
    have sure := held_le_sure_of_settles settles state.each below
    refine ⟨each, whole, by omega, state.spent.imp (fun all last member => ?_) ?_⟩
    · obtain ⟨item, among, ⟨shrinks, -⟩, step⟩ := exists_of_mem_right settles' member
      exact shrinks.spent_of_raised rises step (all item among)
    · rintro ⟨sizes, sinks, enough⟩
      refine ⟨sizes, forall₂_trans (fun last item size both sinks => ?_) settles'.flip sinks,
        enough⟩
      exact both.1.1.sinks_of_raised rises both.2 sinks

/-- Without any weight, the items that are left have no size to take from. -/
theorem Falling.base_nonpos (state : Falling room items) (weightless : ¬Weighty false items) :
    ∀ item ∈ items, item.frozen = false → item.base ≤ 0 := by
  intro item member open_
  have total := (not_or.1 weightless).2
  have nonneg : ((items.filter fun item => !item.frozen).map Item.shrinkWeight).map (max 0) =
      (items.filter fun item => !item.frozen).map Item.shrinkWeight := by
    refine (List.map_congr_left fun weight inside => ?_).trans (List.map_id _)
    obtain ⟨other, among, rfl⟩ := List.mem_map.1 inside
    have factor := (state.each other (List.mem_filter.1 among).1).weight
    have : 0 ≤ other.shrinkWeight := Int.mul_nonneg factor (Int.le_max_right _ _)
    exact Int.max_eq_right this
  have inside : item ∈ items.filter fun item => !item.frozen :=
    List.mem_filter.2 ⟨member, by simp [open_]⟩
  have above := Pixel.le_sum_map_max (List.mem_map_of_mem (f := Item.shrinkWeight) inside)
  rw [nonneg] at above
  have factor := state.whole item member open_
  have none : item.shrink.raw * max item.base 0 ≤ 0 := by
    have : item.shrinkWeight ≤ 0 := by omega
    exact this
  by_contra positive
  have := Int.mul_pos (a := item.shrink.raw) (b := max item.base 0) (by omega) (by omega)
  omega

/-- **Freezing all items where they were measured leaves a line that shrinks**, if none of
those that are left has a size to take from. -/
theorem Falling.frozen (state : Falling room items)
    (empty : ∀ item ∈ items, item.frozen = false → item.base ≤ 0) :
    Falling room (items.map fun item => { item with target := item.sure, frozen := true }) := by
  refine ⟨List.forall_mem_map.2 fun item member => ?_,
    List.forall_mem_map.2 fun item member => fun open_ => Bool.noConfusion open_, ?_, ?_⟩
  · obtain ⟨fit, weight, -, least⟩ := state.each item member
    refine ⟨⟨fit.base, fit.hypothetical⟩, weight, fun open_ => Bool.noConfusion open_, fun _ => ?_⟩
    show item.minMain ≤ item.sure
    cases done : item.frozen with
    | true =>
        rw [Item.sure, if_pos done]
        exact least done
    | false =>
        rw [Item.sure, if_neg (by simp [done])]
        exact fit.minMain_le
  · rw [sumInFlow, List.map_map]
    exact state.more
  · rcases state.spent with all | ⟨sizes, sinks, enough⟩
    · left
      refine List.forall_mem_map.2 fun item member => fun _ inFlow => ?_
      cases done : item.frozen with
      | true =>
          have target : item.sure = item.target := if_pos done
          rw [target]
          exact all item member done inFlow
      | false => exact .inr (.inr (.inl (empty item member done)))
    · right
      refine ⟨sizes, List.forall₂_map_left_iff.2 ?_, enough⟩
      refine ((List.forall₂_and_left _ _).2 ⟨empty, sinks⟩).imp ?_
      rintro item size ⟨none, out, frozen, opens⟩
      refine ⟨out, fun inFlow _ => ?_, fun _ open_ => Bool.noConfusion open_⟩
      show item.sure ≤ size
      cases done : item.frozen with
      | true =>
          rw [Item.sure, if_pos done]
          exact frozen inFlow done
      | false =>
          rw [Item.sure, if_neg (by simp [done])]
          exact (opens inFlow done).2 (none done)

/-- **A pass within the range freezes an item, and fills the line or leaves one that
shrinks.** -/
theorem Falling.flexPass (state : Falling room items) (tallied : Tallied line items)
    (some : ∃ item ∈ items, item.frozen = false)
    (unclipped : UnclippedPass false initial room line items) :
    line.frozen < (Line.flexPass false initial room line items).1.frozen ∧
      (Falling room (Line.flexPass false initial room line items).2 ∨
        sumInFlow Item.target (Line.flexPass false initial room line items).2 = room ∧
          ∀ item ∈ (Line.flexPass false initial room line items).2, item.frozen = true) := by
  have more := state.lt_claim
  have free := unclipped.free
  have whole := state.factorSum_le some
  by_cases weighty : Weighty false items
  · have fills := unclipped.sumInFlow_handOut whole
      (fun item member open_ => ⟨((state.each item member).open_ open_).1,
        Int.mul_nonneg (state.each item member).weight (Int.le_max_right _ _)⟩)
      (weighty.resolve_left Bool.false_ne_true) (by rwa [if_neg Bool.false_ne_true])
    have drained := handOut_drained (fun item member => (state.each item member).fit)
      (freeSpace room items)
    obtain ⟨mid, lowered⟩ := state.drained drained
    obtain ⟨pass, total⟩ := unclipped.flexPass_eq whole (by omega) weighty
    have adjusted :
        Adjusted (Line.handOut false (shareOf false (freeSpace room items) items) items) := by
      refine ⟨fun item member open_ => ?_, .inl total⟩
      obtain ⟨inFlow, bounded, -⟩ := (mid.each item member).open_ open_
      exact ⟨inFlow, bounded⟩
    have opens := exists_open drained (fun item after step => step.frozen_eq) some
    rw [pass]
    exact ⟨frozen_lt_settled adjusted opens, mid.settled adjusted line lowered fills⟩
  · rw [flexPass_eq, passSpace_of_whole initial room whole, dealt, if_neg (by omega)]
    obtain ⟨more, all⟩ := settled_of_weightless weighty (freeSpace room items) tallied some
    refine ⟨more, .inl ?_⟩
    rw [all]
    exact state.frozen (state.base_nonpos weighty)

/-! ## All passes -/

theorem falling_started (flexible : ∀ item ∈ items, item.Flexible)
    (whole : ∀ item ∈ items, item.outOfFlow = false →
      item.shrink.raw = 0 ∨ 1024 ≤ item.shrink.raw)
    (more : room < sumInFlow Item.hypothetical items) : Falling room (started false items) := by
  refine ⟨fun after member => ?_, fun after member open_ => ?_, ?_, .inl fun after member => ?_⟩
  · obtain ⟨item, among, rfl⟩ := List.mem_map.1 member
    exact (flexible item among).shrinking_start.1
  · obtain ⟨item, among, rfl⟩ := List.mem_map.1 member
    obtain ⟨inFlow, shrinks, -, -, same⟩ := (flexible item among).shrinking_start.2 open_
    have shrink : (item.start false).shrink = item.shrink := (congrArg Item.shrink same :)
    rw [shrink]
    exact (whole item among inFlow).resolve_left shrinks
  · rwa [sumInFlow_started items (Item.sure_start false)]
  · obtain ⟨item, -, rfl⟩ := List.mem_map.1 member
    exact item.spent_start

/-- Frozen items take no more than they can do with. -/
theorem sum_le_of_sinks {sizes : List Int} (sinks : List.Forall₂ Item.Sinks items sizes)
    (frozen : ∀ item ∈ items, item.frozen = true) : sumInFlow Item.sure items ≤ sizes.sum := by
  have each := (List.forall₂_and_left _ _).2 ⟨frozen, sinks⟩
  refine List.Forall₂.sum_le_sum (List.forall₂_map_left_iff.2 (each.imp ?_))
  rintro item size ⟨done, sinks⟩
  cases out : item.outOfFlow with
  | true => exact Int.le_of_eq (sinks.out out).symm
  | false =>
      rw [if_neg Bool.false_ne_true, Item.sure, if_pos done]
      exact sinks.frozen out done

/-- **Items that still ask for more than the room are as small as they can be**, once all of
them are frozen. -/
theorem Falling.all_spent (state : Falling room items) (frozen : ∀ item ∈ items, item.frozen = true) :
    ∀ item ∈ items, item.outOfFlow = false → item.Spent := by
  rcases state.spent with all | ⟨sizes, sinks, enough⟩
  · exact fun item member => all item member (frozen item member)
  · -- The items could have done with the room, but they ask for more.
    have least := sum_le_of_sinks sinks frozen
    have := state.more
    omega

/-- **A line that overflows gives up exactly its overflow**: it ends no smaller than the
available size, and if it ends larger, every item in flow cannot shrink, was raised by its
minimum, has no size to take from, or is at its minimum. -/
theorem flex_gives_overflow {filled : FilledLine} {gap size : Int} (gathered : Gathered gap filled)
    (bounded : ∀ item ∈ filled.items, item.outOfFlow = false → item.Bounded)
    (whole : ∀ item ∈ filled.items, item.outOfFlow = false →
      item.shrink.raw = 0 ∨ 1024 ≤ item.shrink.raw)
    (unclipped : Unclipped filled (some size) gap) (larger : size < filled.line.main) :
    let flexed := filled.line.flex filled.items (some size) gap
    size ≤ flexed.1.used ∧
      (size < flexed.1.used → List.Forall₂ (fun item after =>
        after.unflexed = item.unflexed ∧ (item.outOfFlow = false →
          item.shrink.raw = 0 ∨ item.base < item.hypothetical ∨ item.base ≤ 0 ∨
            after.target = item.minMain))
        filled.items flexed.2) := by
  obtain ⟨line, items⟩ := filled
  dsimp only at bounded whole larger ⊢
  have shrinks : line.grows (some size) gap = false := by
    rw [unclipped.grows_eq]
    refine decide_eq_false ?_
    show ¬line.main < size
    omega
  have room : line.roomFor (some size) gap = size - Pixel.gapsBetween line.inFlow gap :=
    unclipped.room
  have used : (line.flex items (some size) gap).1.used =
      sumInFlow Item.target (line.flex items (some size) gap).2 +
        Pixel.gapsBetween line.inFlow gap := unclipped.used
  have asked : sumInFlow Item.hypothetical items = line.main - Pixel.gapsBetween line.inFlow gap :=
    gathered.sum_eq
  have begins : Falling (line.roomFor (some size) gap) (started false items) :=
    falling_started (gathered.flexible bounded) whole (by omega)
  -- Each pass fills the room or leaves the line `Falling`, with the factors it began with.
  obtain ⟨frozen, falling | full⟩ := unclipped.flex_ends shrinks _
    (fun after => sumInFlow Item.target after = line.roomFor (some size) gap) begins
    fun _ _ _ tallied opens state _ pass => state.flexPass tallied opens pass
  · have more := falling.more
    rw [sumInFlow_sure frozen] at more
    refine ⟨by omega, fun _ => ?_⟩
    have same := map_unflexed_flex line items (some size) gap
    refine (forall₂_and_right same (falling.all_spent frozen)).imp ?_
    rintro item after ⟨kept, spent⟩
    have shrink : after.shrink = item.shrink := (congrArg Item.shrink kept :)
    have flow : after.outOfFlow = item.outOfFlow := (congrArg Item.outOfFlow kept :)
    have base : after.base = item.base := (congrArg Item.base kept :)
    have hypothetical : after.hypothetical = item.hypothetical :=
      (congrArg Item.hypothetical kept :)
    have minMain : after.minMain = item.minMain := (congrArg Item.minMain kept :)
    refine ⟨kept, fun inFlow => ?_⟩
    rw [Item.Spent, shrink, flow, base, hypothetical, minMain] at spent
    exact spent inFlow
  · exact ⟨by omega, fun less => by omega⟩

/-- Two items are raised to their minimum in one pass, a third has no size to take from and
is frozen in the next, and the last one cannot shrink: the line overflows by thirty pixels. -/
theorem flex_gives_overflow_raised :
    let items : List Item :=
      [{ shrink := 1, minMain := 40, maxMain := some 50, base := 100, hypothetical := 50 },
        { shrink := 1, minMain := 25, base := 30, hypothetical := 30 },
        { base := 10, hypothetical := 10 }, { shrink := 1 }]
    let filled : FilledLine := ⟨{ count := 4, inFlow := 4, main := 105 }, items⟩
    let flexed := filled.line.flex items (some 60) 5
    Gathered 5 filled ∧ (∀ item ∈ items, item.outOfFlow = false → item.Bounded) ∧
      (∀ item ∈ items, item.outOfFlow = false → item.shrink.raw = 0 ∨ 1024 ≤ item.shrink.raw) ∧
      Unclipped filled (some 60) 5 ∧ 60 < filled.line.main ∧ flexed.1.used = 90 ∧
      List.Forall₂ (fun item after =>
        after.unflexed = item.unflexed ∧ (item.outOfFlow = false →
          item.shrink.raw = 0 ∨ item.base < item.hypothetical ∨ item.base ≤ 0 ∨
            after.target = item.minMain))
        items flexed.2 := by
  intro items filled flexed
  have gathered : Gathered 5 filled := by decide
  have bounded : ∀ item ∈ items, item.outOfFlow = false → item.Bounded := by decide
  have whole : ∀ item ∈ items, item.outOfFlow = false →
      item.shrink.raw = 0 ∨ 1024 ≤ item.shrink.raw := by decide
  have unclipped : Unclipped filled (some 60) 5 := Ranged.unclipped (by decide +kernel)
  have used : flexed.1.used = 90 := by decide +kernel
  obtain ⟨-, spent⟩ := flex_gives_overflow gathered bounded whole unclipped (by decide)
  exact ⟨gathered, bounded, whole, unclipped, by decide, used, spent (by rw [used]; decide)⟩

end Line

end FlexLayout
