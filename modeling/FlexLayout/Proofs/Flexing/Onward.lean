/-
# FlexLayout.Proofs.Flexing.Onward -- a line flexes in one direction

A line that grows makes items larger than their base sizes and a line that shrinks makes them
smaller, and no pass goes back (`Onward`).  What carries this through the passes is
`Line.Advancing`: every item is on its way from its base size (`Item.Advancing`), and as long
as one of them is open, the items that are settled leave the line on the side of the room that
it was on in the beginning.

A pass ends on the other side only if its total adjustment is against the direction of the line.
But then the items were held to less of a change than they were handed, and that was no more than
the space that was free.  An adjustment in the direction of the line freezes items at a bound that
already cut their base sizes, so they take what they were measured with.

No limits are in order here.
-/
import FlexLayout.Proofs.Flexing.Visits

namespace FlexLayout

set_option autoImplicit false

variable {growing : Bool}

/-- One size is where another is, or further in the direction that a line flexes. -/
def Onward (growing : Bool) (v w : Int) : Prop := if growing then v ≤ w else w ≤ v

instance (growing : Bool) (v w : Int) : Decidable (Onward growing v w) :=
  inferInstanceAs (Decidable (if growing then v ≤ w else w ≤ v))

theorem onward_refl (growing : Bool) (v : Int) : Onward growing v v := by
  cases growing
  · exact Int.le_refl v
  · exact Int.le_refl v

theorem Onward.trans {u v w : Int} (first : Onward growing u v) (then_ : Onward growing v w) :
    Onward growing u w := by
  cases growing
  · exact Int.le_trans then_ first
  · exact Int.le_trans first then_

namespace Item

theorem onward_hold (item : Item) {v w : Int} (onward : Onward growing v w) :
    Onward growing (item.hold v) (item.hold w) := by
  cases growing
  · exact item.hold_mono onward
  · exact item.hold_mono onward

/-- An item of a line that flexes in one direction. -/
structure Advancing (growing : Bool) (item : Item) : Prop where
  fit : item.Fit
  weight : 0 ≤ (item.factor growing).raw
  open_ : item.frozen = false → item.outOfFlow = false ∧ 0 < (item.factor growing).raw ∧
    Onward growing item.base item.hypothetical ∧ Onward growing item.base item.target
  done : item.frozen = true → Onward growing item.hypothetical item.target

/-- What is handed to an item moves its target from its base size. -/
inductive Moved (growing : Bool) (item : Item) : Item → Prop where
  | frozen (done : item.frozen = true) : Moved growing item item
  | moved (open_ : item.frozen = false) {size : Int} (onward : Onward growing item.base size) :
      Moved growing item { item with target := size }

theorem Moved.outOfFlow_eq {item after : Item} (moved : item.Moved growing after) :
    after.outOfFlow = item.outOfFlow := by
  cases moved <;> rfl

theorem Moved.frozen_eq {item after : Item} (moved : item.Moved growing after) :
    after.frozen = item.frozen := by
  cases moved <;> rfl

theorem Moved.sure_eq {item after : Item} (moved : item.Moved growing after) :
    after.sure = item.sure := by
  cases moved with
  | frozen => rfl
  | moved open_ => simp [sure, open_]

theorem Moved.claim_eq {item after : Item} (moved : item.Moved growing after) :
    after.claim = item.claim := by
  cases moved with
  | frozen => rfl
  | moved open_ => simp [claim, open_]

theorem Moved.unflexed_eq {item after : Item} (moved : item.Moved growing after) :
    after.unflexed = item.unflexed := by
  cases moved <;> rfl

/-- An item that can flex has a factor, and is measured no further back than its base size. -/
theorem onward_of_flexes {item : Item} (flexes : item.inflexible growing = false) :
    (item.factor growing).raw ≠ 0 ∧ Onward growing item.base item.hypothetical := by
  cases growing with
  | true =>
      simp only [inflexible, Factor.isZero, if_true, Bool.or_eq_false_iff, beq_eq_false_iff_ne,
        decide_eq_false_iff_not] at flexes
      exact ⟨flexes.1, Int.not_lt.1 flexes.2⟩
  | false =>
      simp only [inflexible, Factor.isZero, Bool.false_eq_true, if_false, Bool.or_eq_false_iff,
        beq_eq_false_iff_ne, decide_eq_false_iff_not] at flexes
      exact ⟨flexes.1, Int.not_lt.1 flexes.2⟩

theorem advancing_start {item : Item} (fit : item.Fit) (weight : 0 ≤ (item.factor growing).raw) :
    (item.start growing).Advancing growing := by
  rcases item.start_cases growing with ⟨-, same⟩ | ⟨inFlow, flexes, same⟩
  · rw [same]
    exact ⟨⟨fit.base, fit.hypothetical⟩, weight, fun open_ => Bool.noConfusion open_,
      fun _ => onward_refl growing _⟩
  · obtain ⟨some, onward⟩ := onward_of_flexes flexes
    have positive : 0 < (item.factor growing).raw := by omega
    rw [same]
    exact ⟨⟨fit.base, fit.hypothetical⟩, weight,
      fun _ => ⟨inFlow, positive, onward, onward_refl growing _⟩,
      fun frozen => Bool.noConfusion frozen⟩

theorem Moved.advancing {item after : Item} (advances : item.Advancing growing)
    (moved : item.Moved growing after) : after.Advancing growing := by
  obtain ⟨fit, weight, opens, done⟩ := advances
  cases moved with
  | frozen => exact ⟨fit, weight, opens, done⟩
  | moved open_ onward =>
      obtain ⟨inFlow, positive, base, -⟩ := opens open_
      exact ⟨⟨fit.base, fit.hypothetical⟩, weight, fun _ => ⟨inFlow, positive, base, onward⟩,
        fun frozen => by simp [open_] at frozen⟩

theorem Advancing.onward_hold {item : Item} (advances : item.Advancing growing)
    (open_ : item.frozen = false) : Onward growing item.hypothetical (item.hold item.target) := by
  rw [advances.fit.hypothetical]
  exact item.onward_hold (advances.open_ open_).2.2.2

theorem Advancing.onward_target {item : Item} (advances : item.Advancing growing)
    (held : item.Held) : Onward growing item.hypothetical item.target := by
  cases done : item.frozen with
  | true => exact advances.done done
  | false => exact held ▸ advances.onward_hold done

theorem Advancing.onward_sure {item : Item} (advances : item.Advancing growing) :
    Onward growing item.claim item.sure := by
  cases done : item.frozen with
  | true => simpa [claim, sure, done] using onward_refl growing item.target
  | false => simpa [claim, sure, done] using (advances.open_ done).2.2.1

theorem Advancing.lands {total : Int} {item after : Item} (advances : item.Advancing growing)
    (lands : item.Lands total after) : after.Advancing growing := by
  have onward := advances.onward_hold
  obtain ⟨fit, weight, opens, done⟩ := advances
  cases lands with
  | frozen => exact ⟨fit, weight, opens, done⟩
  | held open_ violation =>
      obtain ⟨inFlow, positive, base, -⟩ := opens open_
      exact ⟨⟨fit.base, fit.hypothetical⟩, weight,
        fun _ => ⟨inFlow, positive, base, base.trans (onward open_)⟩, fun _ => onward open_⟩

theorem Advancing.onward_held {total : Int} {item after : Item} (advances : item.Advancing growing)
    (lands : item.Lands total after) : Onward growing after.sure item.held := by
  cases lands with
  | frozen done => simpa [sure, held, done] using onward_refl growing item.target
  | @held open_ violation freeze =>
      rw [Line.held_open open_]
      cases freeze with
      | true => exact onward_refl growing _
      | false => exact advances.onward_hold open_

/-- **An adjustment in the direction of the line freezes items where they were measured.** -/
theorem Advancing.sure_eq {total : Int} {item after : Item} (advances : item.Advancing growing)
    (lands : item.Lands total after) (sign : total ≠ 0) (along : Onward growing 0 total) :
    after.sure = item.sure := by
  cases lands with
  | frozen => rfl
  | @held open_ violation freeze stops =>
      have before : item.sure = item.hypothetical := if_neg (by simp [open_])
      have onward := advances.onward_hold open_
      rw [before]
      cases freeze with
      | false => rfl
      | true =>
          show item.hold item.target = item.hypothetical
          cases growing with
          | true =>
              have least : item.hold item.target = item.minMain := by
                rcases stops rfl with zero | ⟨-, least⟩ | ⟨falls, -⟩
                · exact absurd zero sign
                · exact least
                · exact absurd along (Int.not_le.2 falls)
              refine Int.le_antisymm ?_ onward
              rw [least]
              exact advances.fit.minMain_le
          | false =>
              have most : item.maxMain = some (item.hold item.target) := by
                rcases stops rfl with zero | ⟨rises, -⟩ | ⟨-, most⟩
                · exact absurd zero sign
                · exact absurd along (Int.not_le.2 rises)
                · exact most
              have least := item.minMain_le_hold item.target
              have bounded : item.Bounded := fun limit limited => by
                rw [most] at limited
                cases limited
                exact least
              refine Int.le_antisymm onward ?_
              rw [advances.fit.hypothetical]
              exact hold_le_limit bounded most item.base

end Item

namespace Line

variable {initial room : Int} {line : Line} {items mid : List Item}

/-- The state of a line that flexes in one direction, between passes. -/
structure Advancing (growing : Bool) (room : Int) (items : List Item) : Prop where
  each : ∀ item ∈ items, item.Advancing growing
  rested : ∀ item ∈ items, item.frozen = false → item.target = item.base ∨ item.Held
  side : (∃ item ∈ items, item.frozen = false) →
    decide (sumInFlow Item.sure items < room) = growing

/-- The state of the line in the middle of a pass, when it has handed out its space. -/
structure Advanced (growing : Bool) (room : Int) (mid : List Item) : Prop where
  each : ∀ item ∈ mid, item.Advancing growing
  side : (∃ item ∈ mid, item.frozen = false) →
    decide (sumInFlow Item.sure mid < room) = growing

theorem sumInFlow_onward {f g : Item → Int} {R : Item → Item → Prop}
    (related : List.Forall₂ R items mid) (flow : ∀ a b, R a b → b.outOfFlow = a.outOfFlow)
    (onward : ∀ a b, R a b → Onward growing (f a) (g b)) :
    Onward growing (sumInFlow f items) (sumInFlow g mid) := by
  cases growing with
  | true => exact sumInFlow_le related flow fun a b holds _ => onward a b holds
  | false =>
      exact sumInFlow_le related.flip (fun b a holds => (flow a b holds).symm)
        fun b a holds _ => onward a b holds

theorem sumInFlow_onward_self {f g : Item → Int}
    (onward : ∀ item ∈ items, Onward growing (f item) (g item)) :
    Onward growing (sumInFlow f items) (sumInFlow g items) :=
  sumInFlow_onward (R := fun a b => b = a ∧ a ∈ items)
    (List.forall₂_same.2 fun _ member => ⟨rfl, member⟩) (fun _ _ same => congrArg _ same.1)
    fun a _ same => same.1 ▸ onward a same.2

/-- The room that the items leave has the sign of the direction. -/
theorem sign_of_side (each : ∀ item ∈ items, item.Advancing growing)
    (side : decide (sumInFlow Item.sure items < room) = growing) :
    if growing then 0 < room - sumInFlow Item.claim items
    else room - sumInFlow Item.claim items ≤ 0 := by
  have onward := sumInFlow_onward_self fun item member => (each item member).onward_sure
  cases growing with
  | true =>
      have less := of_decide_eq_true side
      have claims : sumInFlow Item.claim items ≤ sumInFlow Item.sure items := onward
      rw [if_pos rfl]
      omega
  | false =>
      have more := of_decide_eq_false side
      have claims : sumInFlow Item.sure items ≤ sumInFlow Item.claim items := onward
      rw [if_neg Bool.false_ne_true]
      omega

theorem onward_of_sign {v : Int} (sign : if growing then 0 < v else v ≤ 0) : Onward growing 0 v := by
  cases growing with
  | true => exact Int.le_of_lt sign
  | false => exact sign

/-- **A pass hands out space in the direction of the line, and no more than is free.** -/
theorem onward_passSpace (begins : Onward growing 0 initial)
    (free : Onward growing 0 (freeSpace room items)) (factors : 0 ≤ factorSum growing items) :
    Onward growing 0 (passSpace growing initial room items) ∧
      Onward growing (passSpace growing initial room items) (freeSpace room items) := by
  simp only [passSpace]
  split
  · have part : Onward growing 0 ((initial * factorSum growing items).tdiv 1024) := by
      cases growing with
      | true => exact Int.tdiv_nonneg (Int.mul_nonneg begins factors) (by decide)
      | false =>
          have nonpos := Int.tdiv_le_tdiv (c := 1024) (by decide)
            (Int.mul_nonpos_of_nonpos_of_nonneg begins factors)
          rwa [Int.zero_tdiv] at nonpos
    have limited : Onward growing 0
        ((Pixel.fit? ((initial * factorSum growing items).tdiv 1024)).getD initial) := by
      rw [Pixel.fit?]
      split
      · exact part
      · exact begins
    generalize (Pixel.fit? _).getD initial = limit at limited ⊢
    split
    · refine ⟨limited, ?_⟩
      cases growing with
      | true =>
          have := show 0 ≤ limit from limited
          have := show 0 ≤ freeSpace room items from free
          show limit ≤ freeSpace room items
          omega
      | false =>
          have := show limit ≤ 0 from limited
          have := show freeSpace room items ≤ 0 from free
          show freeSpace room items ≤ limit
          omega
    · exact ⟨free, onward_refl growing _⟩
  · exact ⟨free, onward_refl growing _⟩

/-- What is handed out moves the items from their base sizes. -/
theorem handOut_moved (fit : ∀ item ∈ items, item.Fit) {free : Int} (onward : Onward growing 0 free) :
    List.Forall₂ (Item.Moved growing) items (handOut growing (shareOf growing free items) items) := by
  have fair : (shareOf growing free items).Fair :=
    fair_shareOf (fun grows => by subst grows; exact onward) items
  refine ((List.forall₂_and_left _ _).2 ⟨fit, handOut_fair growing fair items⟩).imp ?_
  rintro item after ⟨fit, ⟨done, rfl⟩ | ⟨open_, share, nonneg, rfl⟩⟩
  · exact .frozen done
  · refine .moved open_ ?_
    cases growing with
    | true => exact Item.le_add_of_nonneg fit.base nonneg
    | false => exact Item.sub_le_of_nonneg fit.base nonneg

/-- **Holding the targets does not turn the line round**, if they are no further than the
room, or holding them does not go back. -/
theorem Advanced.settled (state : Advanced growing room mid)
    (adjusted : totalViolation mid = sumInFlow Item.held mid - sumInFlow Item.target mid)
    (reach : Onward growing (sumInFlow Item.target mid) room ∨
      Onward growing (sumInFlow Item.target mid) (sumInFlow Item.held mid))
    (line : Line) : Advancing growing room (Line.settled (line, mid)).2 := by
  have lands := settled_lands line mid
  generalize (Line.settled (line, mid)).2 = after at lands ⊢
  generalize totalViolation mid = total at lands adjusted
  have lands' := (List.forall₂_and_left _ _).2 ⟨state.each, lands⟩
  refine ⟨fun last member => ?_, fun last member open_ => .inr ?_, fun some => ?_⟩
  · obtain ⟨item, -, advances, step⟩ := exists_of_mem_right lands' member
    exact advances.lands step
  · obtain ⟨item, -, step⟩ := exists_of_mem_right lands member
    cases step with
    | frozen done => simp [done] at open_
    | held => exact item.hold_hold_main item.target
  -- An item that is still open was open before, and not all were frozen.
  obtain ⟨last, member, open_⟩ := some
  obtain ⟨item, among, step⟩ := exists_of_mem_right lands member
  have was : item.frozen = false := by
    cases step with
    | frozen => exact open_
    | held was => exact was
  have sign : total ≠ 0 := fun zero => by simp [step.frozen_of_zero zero] at open_
  -- An adjustment with the direction freezes items where they were measured; one against it
  -- leaves the open ones what they were held to.
  by_cases along : Onward growing 0 total
  · rw [← state.side ⟨item, among, was⟩, ← sumInFlow_congr lands'
      (fun _ _ both => both.2.outOfFlow_eq)
      fun _ _ both _ => (both.1.sure_eq both.2 sign along).symm]
  · have sure : Onward growing (sumInFlow Item.sure after) (sumInFlow Item.held mid) := by
      exact sumInFlow_onward lands'.flip (fun _ _ both => both.2.outOfFlow_eq.symm)
        fun _ _ both => both.1.onward_held both.2
    cases growing with
    | true =>
        have less : ¬0 ≤ total := along
        have sure : sumInFlow Item.sure after ≤ sumInFlow Item.held mid := sure
        have reach : sumInFlow Item.target mid ≤ room ∨
          sumInFlow Item.target mid ≤ sumInFlow Item.held mid := reach
        exact decide_eq_true (by omega)
    | false =>
        have more : ¬total ≤ 0 := along
        have sure : sumInFlow Item.held mid ≤ sumInFlow Item.sure after := sure
        have reach : room ≤ sumInFlow Item.target mid ∨
          sumInFlow Item.held mid ≤ sumInFlow Item.target mid := reach
        exact decide_eq_false (by omega)

/-- Without space to hand out, a pass holds the targets where they are. -/
theorem Advancing.resting (state : Advancing growing room items) :
    Advanced growing room items ∧
      Onward growing (sumInFlow Item.target items) (sumInFlow Item.held items) := by
  refine ⟨⟨state.each, state.side⟩, sumInFlow_onward_self fun item member => ?_⟩
  cases done : item.frozen with
  | true =>
      rw [held_frozen done]
      exact onward_refl growing _
  | false =>
      rw [held_open done]
      rcases state.rested item member done with base | held
      · rw [base, ← (state.each item member).fit.hypothetical]
        exact ((state.each item member).open_ done).2.2.1
      · rw [held]
        exact onward_refl growing _

/-- The factors that count sum to more than nothing. -/
theorem Advancing.factorSum_pos (state : Advancing growing room items)
    (some : ∃ item ∈ items, item.frozen = false) : 0 < factorSum growing items := by
  obtain ⟨item, member, open_⟩ := some
  exact Int.lt_of_lt_of_le ((state.each item member).open_ open_).2.1
    (le_factorSum growing (fun item member open_ => ((state.each item member).open_ open_).1)
      (fun item member => (state.each item member).weight) member open_)

/-- **The free space has the sign of the direction**, and so has what a pass hands out. -/
theorem Advancing.onward_space (state : Advancing growing room items)
    (some : ∃ item ∈ items, item.frozen = false) (begins : Onward growing 0 initial)
    (free : freeSpace room items = room - sumInFlow Item.claim items) :
    (if growing then 0 < freeSpace room items else freeSpace room items ≤ 0) ∧
      Onward growing 0 (passSpace growing initial room items) ∧
      Onward growing (passSpace growing initial room items) (freeSpace room items) := by
  have sign := sign_of_side state.each (state.side some)
  rw [← free] at sign
  exact ⟨sign, onward_passSpace begins (onward_of_sign sign) (Int.le_of_lt (state.factorSum_pos some))⟩

/-- **What a pass hands out by weight takes the items no further than the room.** -/
theorem Advancing.handed (state : Advancing growing room items)
    (some : ∃ item ∈ items, item.frozen = false) (begins : Onward growing 0 initial)
    (unclipped : UnclippedPass growing initial room line items)
    (hands : HandsOut growing initial room items) :
    let handed := handOut growing (shareOf growing (passSpace growing initial room items) items) items
    List.Forall₂ (Item.Moved growing) items handed ∧ Advanced growing room handed ∧
      Onward growing (sumInFlow Item.target handed) room := by
  obtain ⟨-, onward, within⟩ := state.onward_space some begins unclipped.free
  have moved := handOut_moved (fun item member => (state.each item member).fit) onward
  have weighs : 0 < (shareOf growing (passSpace growing initial room items) items).total := by
    cases growing with
    | true => exact state.factorSum_pos some
    | false => exact hands.2.resolve_left Bool.false_ne_true
  have sum := unclipped.sumInFlow_handOut_passSpace (fun item member open_ => by
    obtain ⟨inFlow, positive, -⟩ := (state.each item member).open_ open_
    refine ⟨inFlow, ?_⟩
    cases growing with
    | true => exact Int.le_of_lt positive
    | false => exact Int.mul_nonneg (Int.le_of_lt positive) (Int.le_max_right _ _)) weighs
    hands.1 onward
  refine ⟨moved, ⟨fun after member => ?_, fun opens => ?_⟩, ?_⟩
  · obtain ⟨item, among, from_⟩ := exists_of_mem_right moved member
    exact from_.advancing (state.each item among)
  · rw [← sumInFlow_congr moved (fun _ _ step => step.outOfFlow_eq)
      fun _ _ step _ => step.sure_eq.symm]
    exact state.side some
  · rw [sum]
    have free := unclipped.free
    cases growing with
    | true =>
        have within : passSpace true initial room items ≤ freeSpace room items := within
        show _ ≤ room
        omega
    | false =>
        have within : freeSpace room items ≤ passSpace false initial room items := within
        show room ≤ _
        omega

/-- Freezing all items where they were measured does not turn the line round. -/
theorem Advancing.frozen (state : Advancing growing room items) :
    Advancing growing room (items.map fun item => { item with target := item.sure, frozen := true }) := by
  refine ⟨List.forall_mem_map.2 fun item member => ?_,
    List.forall_mem_map.2 fun item member => fun open_ => Bool.noConfusion open_, ?_⟩
  · have advances := state.each item member
    refine ⟨⟨advances.fit.base, advances.fit.hypothetical⟩, advances.weight,
      fun open_ => Bool.noConfusion open_, fun _ => ?_⟩
    show Onward growing item.hypothetical item.sure
    cases done : item.frozen with
    | true => simpa [Item.sure, done] using advances.done done
    | false => simpa [Item.sure, done] using onward_refl growing item.hypothetical
  · rintro ⟨after, member, open_⟩
    obtain ⟨item, -, rfl⟩ := List.mem_map.1 member
    cases open_

/-- **No pass turns the line round.** -/
theorem Advancing.flexPass (state : Advancing growing room items) (tallied : Tallied line items)
    (some : ∃ item ∈ items, item.frozen = false) (begins : Onward growing 0 initial)
    (unclipped : UnclippedPass growing initial room line items) :
    Advancing growing room (Line.flexPass growing initial room line items).2 := by
  have adjusted := unclipped.adjusted
  rw [flexPass_eq]
  rcases dealt_cases growing (passSpace growing initial room items) line items with
    ⟨-, same⟩ | ⟨space, weighty, same⟩ | ⟨-, rfl, weightless, same⟩
  · obtain ⟨resting, reach⟩ := state.resting
    rw [same] at adjusted ⊢
    exact resting.settled adjusted (.inr reach) line
  · obtain ⟨-, handed, reach⟩ := state.handed some begins unclipped ⟨space, weighty⟩
    rw [same] at adjusted ⊢
    exact handed.settled adjusted (.inl reach) line
  · rw [same, (settled_of_weightless weightless _ tallied some).2]
    exact state.frozen

/-! ## Flexing a line -/

section

variable {available : Option Int} {gap : Int}

theorem Unclipped.side (unclipped : Unclipped ⟨line, items⟩ available gap)
    (gathered : Gathered gap ⟨line, items⟩) :
    decide (sumInFlow Item.hypothetical items < line.roomFor available gap) =
      line.grows available gap := by
  have own : Pixel.sub line.main (Pixel.gapsBetween line.inFlow gap) =
      line.main - Pixel.gapsBetween line.inFlow gap := unclipped.own
  have asked : sumInFlow Item.hypothetical items =
      line.main - Pixel.gapsBetween line.inFlow gap := gathered.sum_eq
  rw [asked, ← own]
  rfl

theorem Unclipped.advancing_started (unclipped : Unclipped ⟨line, items⟩ available gap)
    (gathered : Gathered gap ⟨line, items⟩) :
    Advancing (line.grows available gap) (line.roomFor available gap)
        (started (line.grows available gap) items) ∧
      (if line.grows available gap then
        0 < line.roomFor available gap -
          sumInFlow Item.claim (started (line.grows available gap) items)
      else line.roomFor available gap -
        sumInFlow Item.claim (started (line.grows available gap) items) ≤ 0) := by
  have side : decide (sumInFlow Item.sure (started (line.grows available gap) items) <
      line.roomFor available gap) = line.grows available gap := by
    rw [sumInFlow_started items (Item.sure_start _)]
    exact unclipped.side gathered
  have each : ∀ item ∈ started (line.grows available gap) items,
      item.Advancing (line.grows available gap) := by
    refine List.forall_mem_map.2 fun item member => ?_
    refine Item.advancing_start (gathered.fit item member) ?_
    obtain ⟨grow, shrink⟩ := gathered.factors item member
    rw [Item.factor]
    split
    · exact grow
    · exact shrink
  refine ⟨⟨each, List.forall_mem_map.2 fun item _ open_ => .inl ?_, fun _ => side⟩,
    sign_of_side each side⟩
  rw [(Item.start_open open_).2.2]

/-- **A line flexes in one direction**, wherever a pass is made and in the end. -/
theorem Unclipped.advancing (unclipped : Unclipped ⟨line, items⟩ available gap)
    (gathered : Gathered gap ⟨line, items⟩) :
    (∀ state ∈ line.rounds items available gap, (∃ item ∈ state.2, item.frozen = false) ∧
      Advancing (line.grows available gap) (line.roomFor available gap) state.2) ∧
    Advancing (line.grows available gap) (line.roomFor available gap)
      (line.passed items available gap) := by
  obtain ⟨begins, sign⟩ := unclipped.advancing_started gathered
  exact unclipped.rounds_keep rfl _ begins fun before others tallied some initial pass state =>
    state.flexPass tallied some (initial ▸ onward_of_sign sign) pass

end

end Line

end FlexLayout
