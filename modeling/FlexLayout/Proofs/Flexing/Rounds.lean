/-
# FlexLayout.Proofs.Flexing.Rounds -- what a pass freezes, and how the passes end

A pass holds the targets it handed out and freezes the items that it had to move in the
direction of the total adjustment (`Item.stops`), as long as no minimum is larger than a
maximum (`Item.Bounded`).  There always are such items, so every pass freezes one
(`frozen_lt_settled`).  As there are more passes than items, what each pass keeps holds
when all items are frozen (`flexPasses_ends`).
-/
import FlexLayout.Proofs.Flexing.Sums
import Mathlib.Data.List.Count

namespace FlexLayout

set_option autoImplicit false

namespace Item

def Bounded (item : Item) : Prop := ∀ limit ∈ item.maxMain, item.minMain ≤ limit

instance (item : Item) : Decidable item.Bounded :=
  inferInstanceAs (Decidable (∀ limit ∈ item.maxMain, item.minMain ≤ limit))

/-- An item as a line is flexed with it: measured, with its limits in order if it takes
space, and with factors that are not negative. -/
structure Flexible (item : Item) : Prop where
  fit : item.Fit
  bounded : item.outOfFlow = false → item.Bounded
  grow : 0 ≤ item.grow.raw
  shrink : 0 ≤ item.shrink.raw

/-- The item is frozen where its target is held, by the total adjustment of a pass. -/
def stops (total : Int) (item : Item) : Bool :=
  total == 0 || (0 < total && item.target < item.minMain) ||
    (total < 0 && item.maxMain.any fun limit => limit < item.target)

theorem stops_cases {total : Int} {item : Item} (stops : item.stops total = true) :
    total = 0 ∨ 0 < total ∧ item.target < item.minMain ∨
      total < 0 ∧ ∃ limit ∈ item.maxMain, limit < item.target := by
  simp only [Item.stops, Bool.or_eq_true, Bool.and_eq_true, decide_eq_true_eq, beq_iff_eq,
    Option.any_eq_true] at stops
  rcases stops with (zero | below) | above
  · exact .inl zero
  · exact .inr (.inl below)
  · exact .inr (.inr above)

/-- **The bound that a target hit tells on which side of the limits it was.** -/
theorem freezes_holdTarget {item : Item} (bounded : item.Bounded) (total : Int) :
    Line.freezes total item.holdTarget = item.stops total := by
  have noMin : (Violation.none == Violation.min) = false := rfl
  have noMax : (Violation.none == Violation.max) = false := rfl
  have other : (Violation.max == Violation.min) = false := rfl
  simp only [Line.freezes, stops, holdTarget]
  simp only [Bounded] at bounded
  cases limited : item.maxMain with
  | none =>
      dsimp only
      by_cases below : item.target < item.minMain
      · simp [below]
      · simp [below, noMin, noMax]
  | some limit =>
      rw [limited] at bounded
      have order := bounded limit rfl
      dsimp only
      rw [Option.any_some]
      by_cases above : limit < item.target
      · have inside : ¬item.target < item.minMain := by omega
        simp [above, inside, other, show ¬limit < item.minMain by omega]
      · by_cases below : item.target < item.minMain
        · simp [above, below]
        · simp [above, below, noMin, noMax]

theorem hold_of_lt_minMain {item : Item} (bounded : item.Bounded) {size : Int}
    (below : size < item.minMain) : item.hold size = item.minMain := by
  simp only [hold]
  cases limited : item.maxMain with
  | none => dsimp only; omega
  | some limit =>
      have order := bounded limit limited
      dsimp only
      omega

theorem hold_of_limit_lt {item : Item} (bounded : item.Bounded) {limit size : Int}
    (limited : limit ∈ item.maxMain) (above : limit < size) : item.hold size = limit := by
  have order := bounded limit limited
  have found : item.maxMain = some limit := limited
  simp only [hold, found]
  omega

theorem hold_le_of_minMain_le {item : Item} {size : Int} (inside : item.minMain ≤ size) :
    item.hold size ≤ size := by
  simp only [hold]
  cases item.maxMain <;> dsimp only <;> omega

theorem hold_le_max (item : Item) (size : Int) : item.hold size ≤ max size item.minMain := by
  simp only [hold]
  cases item.maxMain <;> dsimp only <;> omega

theorem le_hold_of_le_limit {item : Item} {size : Int} (inside : ∀ limit ∈ item.maxMain, size ≤ limit) :
    size ≤ item.hold size := by
  simp only [hold]
  cases limited : item.maxMain with
  | none => dsimp only; omega
  | some limit =>
      have order := inside limit limited
      dsimp only
      omega

theorem hold_le_limit {item : Item} (bounded : item.Bounded) {limit : Int}
    (limited : limit ∈ item.maxMain) (size : Int) : item.hold size ≤ limit := by
  have order := bounded limit limited
  have found : item.maxMain = some limit := limited
  simp only [hold, found]
  omega

theorem sure_start (growing : Bool) (item : Item) : (item.start growing).sure = item.hypothetical := by
  simp only [start]
  split <;> simp [sure]

theorem deficit_start (growing : Bool) (item : Item) : (item.start growing).deficit = item.deficit :=
  (congrArg Item.deficit (item.unflexed_start growing) :)

/-- How an item begins: frozen at its hypothetical size if it takes no space or cannot
flex, or else open at its base size. -/
theorem start_cases (growing : Bool) (item : Item) :
    (item.outOfFlow || item.inflexible growing) = true ∧
        item.start growing =
          { item with target := item.hypothetical, frozen := true, violation := .none } ∨
      item.outOfFlow = false ∧ item.inflexible growing = false ∧
        item.start growing = { item with target := item.base, frozen := false, violation := .none } := by
  simp only [start]
  split
  · exact .inl ⟨‹_›, rfl⟩
  · rename_i flexes
    simp only [Bool.or_eq_true, not_or, Bool.not_eq_true] at flexes
    exact .inr ⟨flexes.1, flexes.2, rfl⟩

theorem start_open {growing : Bool} {item : Item} (open_ : (item.start growing).frozen = false) :
    item.outOfFlow = false ∧ item.inflexible growing = false ∧
      item.start growing = { item with target := item.base, frozen := false, violation := .none } := by
  rcases item.start_cases growing with ⟨-, same⟩ | flexes
  · rw [same] at open_
    cases open_
  · exact flexes

/-- What the end of a pass does to an item. -/
inductive Settles (total : Int) (item : Item) : Item → Prop where
  | frozen (done : item.frozen = true) : Settles total item item
  | held (open_ : item.frozen = false) (violation : Violation) :
      Settles total item
        { item with
          target := item.hold item.target, violation := violation, frozen := item.stops total }

theorem Settles.unflexed_eq {total : Int} {item after : Item} (settles : Settles total item after) :
    after.unflexed = item.unflexed := by
  cases settles <;> rfl

theorem Settles.outOfFlow_eq {total : Int} {item after : Item} (settles : Settles total item after) :
    after.outOfFlow = item.outOfFlow := by
  cases settles <;> rfl

theorem Settles.was_open {total : Int} {item after : Item} (settles : Settles total item after)
    (open_ : after.frozen = false) :
    item.frozen = false ∧ after.unflexed = item.unflexed ∧ after.target = item.hold item.target := by
  cases settles with
  | frozen done => simp [done] at open_
  | held was => exact ⟨was, rfl, rfl⟩

theorem Settles.held_eq {total : Int} {item after : Item} (settles : Settles total item after) :
    item.held = after.target := by
  cases settles with
  | frozen done => exact if_pos done
  | held open_ => exact if_neg (by simp [open_])

theorem Settles.frozen_of_zero {total : Int} {item after : Item} (settles : Settles total item after)
    (zero : total = 0) : after.frozen = true := by
  cases settles with
  | frozen done => exact done
  | held => simp [stops, zero]

/-- The item keeps all but its target and, once it is frozen, that too. -/
structure Stays (item after : Item) : Prop where
  unflexed : after.unflexed = item.unflexed
  frozen : item.frozen = true → after.frozen = true ∧ after.target = item.target

theorem stays_refl (item : Item) : item.Stays item := ⟨rfl, fun done => ⟨done, rfl⟩⟩

theorem Stays.passed {growing : Bool} {item before after : Item} (stays : item.Stays before)
    (passed : Passed growing before after) : item.Stays after := by
  refine ⟨passed.unflexed_eq.trans stays.unflexed, fun done => ?_⟩
  obtain ⟨frozen, target⟩ := stays.frozen done
  cases passed with
  | frozen => exact ⟨frozen, target⟩
  | weightless open_ => simp [frozen] at open_
  | held open_ => simp [frozen] at open_

end Item

namespace Line

variable {line : Line} {items : List Item}

/-- **What the end of a pass makes of the items.** -/
theorem settled_settles (line : Line)
    (bounded : ∀ item ∈ items, item.frozen = false → item.Bounded) :
    List.Forall₂ (Item.Settles (totalViolation items)) items (settled (line, items)).2 := by
  show List.Forall₂ _ items ((holdTargets items).map (Item.freezeIf _))
  rw [holdTargets_eq, List.map_map, List.forall₂_map_right_iff]
  refine List.forall₂_same.2 fun item member => ?_
  rw [Function.comp_apply]
  cases done : item.frozen with
  | true =>
      rw [Item.holdOpen_frozen done, Item.freezeIf_frozen _ done]
      exact .frozen done
  | false =>
      obtain ⟨violation, held⟩ := item.exists_holdTarget
      have still : item.holdTarget.frozen = false := item.frozen_holdTarget.trans done
      rw [Item.holdOpen_open done, Item.freezeIf_open _ still,
        Item.freezes_holdTarget (bounded item member done), held]
      exact .held done violation

/-- What the total adjustment tells of the items that were held. -/
structure Adjusted (items : List Item) : Prop where
  open_ : ∀ item ∈ items, item.frozen = false → item.outOfFlow = false ∧ item.Bounded
  total : totalViolation items = sumInFlow Item.held items - sumInFlow Item.target items ∨
    sumInFlow Item.held items - sumInFlow Item.target items ≤ totalViolation items ∧
      totalViolation items < 0

/-- **The end of a pass, by its total adjustment.**  The items get the sizes that they are
held to, and all of them are frozen by an adjustment of zero. -/
theorem Adjusted.settles (adjusted : Adjusted items) (line : Line) :
    ∃ total, List.Forall₂ (Item.Settles total) items (settled (line, items)).2 ∧
      sumInFlow Item.held items = sumInFlow Item.target (settled (line, items)).2 ∧
      (total = sumInFlow Item.held items - sumInFlow Item.target items ∨
        sumInFlow Item.held items - sumInFlow Item.target items ≤ total ∧ total < 0) ∧
      (total = 0 → ∀ last ∈ (settled (line, items)).2, last.frozen = true) := by
  have settles := settled_settles line fun item member open_ =>
    (adjusted.open_ item member open_).2
  refine ⟨totalViolation items, settles, ?_, adjusted.total, fun zero last member => ?_⟩
  · exact sumInFlow_congr settles (fun _ _ step => step.outOfFlow_eq) fun _ _ step _ => step.held_eq
  · obtain ⟨item, -, step⟩ := exists_of_mem_right settles member
    exact step.frozen_of_zero zero

theorem held_frozen {item : Item} (done : item.frozen = true) : item.held = item.target := if_pos done

theorem held_open {item : Item} (open_ : item.frozen = false) :
    item.held = item.hold item.target := if_neg (by simp [open_])

/-- Some item is frozen by every adjustment. -/
theorem Adjusted.exists_stops (adjusted : Adjusted items)
    (some : ∃ item ∈ items, item.frozen = false) :
    ∃ item ∈ items, item.frozen = false ∧ item.stops (totalViolation items) = true := by
  by_contra none
  have never : ∀ item ∈ items, item.frozen = false → item.stops (totalViolation items) = false := by
    intro item member open_
    cases stops : item.stops (totalViolation items) with
    | false => rfl
    | true => exact absurd ⟨item, member, open_, stops⟩ none
  have total := adjusted.total
  rcases Int.lt_trichotomy (totalViolation items) 0 with lowered | zero | raised
  · have le : sumInFlow Item.target items ≤ sumInFlow Item.held items := by
      refine sumInFlow_mono fun item member _ => ?_
      cases done : item.frozen with
      | true => exact Int.le_of_eq (held_frozen done).symm
      | false =>
          rw [held_open done]
          refine Item.le_hold_of_le_limit fun limit limited => ?_
          have stays := never item member done
          have found : item.maxMain = Option.some limit := limited
          simp only [Item.stops, found] at stays
          simp [lowered] at stays
          exact stays.2
    omega
  · obtain ⟨item, member, open_⟩ := some
    have stays := never item member open_
    simp [Item.stops, zero] at stays
  · have le : sumInFlow Item.held items ≤ sumInFlow Item.target items := by
      refine sumInFlow_mono fun item member _ => ?_
      cases done : item.frozen with
      | true => exact Int.le_of_eq (held_frozen done)
      | false =>
          rw [held_open done]
          refine Item.hold_le_of_minMain_le ?_
          have stays := never item member done
          simp only [Item.stops] at stays
          simp [raised] at stays
          omega
    omega

/-- A pass freezes an item whose bound asks for it. -/
theorem frozen_lt_settled_of_freezes {item : Item} (member : item ∈ items) (open_ : item.frozen = false)
    (stops : freezes (totalViolation items) item.holdTarget = true) :
    line.frozen < (settled (line, items)).1.frozen := by
  rw [settled, frozen_freeze]
  refine Nat.lt_add_of_pos_right (List.length_pos_of_mem (a := item.holdTarget) ?_)
  have inside : item.holdTarget ∈ holdTargets items := by
    rw [holdTargets_eq]
    exact List.mem_map.2 ⟨item, member, Item.holdOpen_open open_⟩
  refine List.mem_filter.2 ⟨inside, ?_⟩
  rw [item.frozen_holdTarget, open_, stops]
  rfl

/-- **Every pass freezes an item.** -/
theorem frozen_lt_settled (adjusted : Adjusted items)
    (some : ∃ item ∈ items, item.frozen = false) : line.frozen < (settled (line, items)).1.frozen := by
  obtain ⟨item, member, open_, stops⟩ := adjusted.exists_stops some
  refine frozen_lt_settled_of_freezes member open_ ?_
  rwa [Item.freezes_holdTarget (adjusted.open_ item member open_).2]

theorem exists_open {R : Item → Item → Prop} {after : List Item}
    (related : List.Forall₂ R items after) (same : ∀ a b, R a b → b.frozen = a.frozen)
    (some : ∃ item ∈ items, item.frozen = false) : ∃ item ∈ after, item.frozen = false := by
  obtain ⟨item, member, open_⟩ := some
  obtain ⟨last, among, step⟩ := exists_of_mem_right related.flip member
  exact ⟨last, among, (same item last step).trans open_⟩

theorem settled_of_frozen {state : Line × List Item} (frozen : ∀ item ∈ state.2, item.frozen = true) :
    settled state = state := by
  have same : holdTargets state.2 = state.2 := by
    rw [holdTargets_eq]
    exact (List.map_congr_left fun item member => Item.holdOpen_frozen (frozen item member)).trans
      (List.map_id _)
  have none : (state.2.filter fun item =>
      !item.frozen && freezes (totalViolation state.2) item) = [] :=
    List.filter_eq_nil_iff.2 fun item member => by simp [frozen item member]
  rw [settled, same]
  refine Prod.ext ?_ ?_
  · show state.1.tally _ = state.1
    rw [none]
    rfl
  · rw [freeze_snd]
    exact (List.map_congr_left fun item member => Item.freezeIf_frozen _ (frozen item member)).trans
      (List.map_id _)

theorem all_frozen_of_le (tallied : Tallied line items) (all : items.length ≤ line.frozen) :
    ∀ item ∈ items, item.frozen = true := by
  rw [tallied.frozen] at all
  exact List.countP_eq_length.1 (Nat.le_antisymm List.countP_le_length all)

theorem lt_length_iff (tallied : Tallied line items) :
    line.frozen < items.length ↔ ∃ item ∈ items, item.frozen = false := by
  rw [tallied.frozen, List.countP_lt_length_iff]

/-- **A pass without space to hand out freezes items within their limits where they are.** -/
theorem flexPass_of_held {growing : Bool} {initial room : Int} (tallied : Tallied line items)
    (some : ∃ item ∈ items, item.frozen = false)
    (nothing : passSpace growing initial room items = 0)
    (held : ∀ item ∈ items, item.frozen = false → item.Held) :
    let next := flexPass growing initial room line items
    line.frozen < next.1.frozen ∧
      List.Forall₂ (fun item after => after.unflexed = item.unflexed ∧ after.target = item.target)
        items next.2 ∧
      ∀ item ∈ next.2, item.frozen = true := by
  have waits : List.Forall₂ Item.Waits items (holdTargets items) := by
    rw [holdTargets_eq, List.forall₂_map_right_iff]
    exact List.forall₂_same.2 fun item _ => waits_holdOpen item
  have all := length_le_frozen_freeze (tallied.waits waits)
  dsimp only
  rw [flexPass_held nothing held]
  refine ⟨Nat.lt_of_lt_of_le ((lt_length_iff tallied).2 some) ?_, ?_,
    all_frozen_of_le ((tallied.waits waits).freeze _) all⟩
  · rwa [freeze_snd, List.length_map, ← waits.length_eq] at all
  · rw [freeze_snd, holdTargets_eq, List.map_map, List.forall₂_map_right_iff]
    refine List.forall₂_same.2 fun item member => ?_
    rw [Function.comp_apply, Item.freezeIf_always]
    refine ⟨(waits_holdOpen item).unflexed, ?_⟩
    show item.holdOpen.target = item.target
    cases done : item.frozen with
    | true => rw [Item.holdOpen_frozen done]
    | false =>
        rw [Item.holdOpen_open done, Item.target_holdTarget]
        exact held item member done

/-! ## All passes -/

theorem flexPasses_stays (growing : Bool) (initial available : Int) (n : Nat) (line : Line)
    (items : List Item) :
    List.Forall₂ Item.Stays items (flexPasses growing initial available n line items).2 :=
  forall₂_flexPasses (fun _ _ _ stays passed => stays.passed passed) n
    (List.forall₂_same.2 fun item _ => item.stays_refl)

/-- **What every pass keeps, or ends with, holds when all items are frozen.**  A pass
may use what the items will be in the end, and what is kept may depend on how many passes
are left. -/
theorem flexPasses_ends {growing : Bool} {initial available : Int}
    {Inv : Nat → Line → List Item → Prop} {Done : List Item → Prop} {final : List Item}
    (step : ∀ (n : Nat) (line : Line) (items : List Item), Tallied line items →
      (∃ item ∈ items, item.frozen = false) → Inv (n + 1) line items →
      List.Forall₂ Item.Stays items final →
      let next := flexPass growing initial available line items
      line.frozen < next.1.frozen ∧
        (Inv n next.1 next.2 ∨ Done next.2 ∧ ∀ item ∈ next.2, item.frozen = true))
    (n : Nat) {line : Line} {items : List Item} (tallied : Tallied line items)
    (enough : items.length ≤ line.frozen + n) (inv : Inv n line items)
    (ends : (flexPasses growing initial available n line items).2 = final) :
    (∀ item ∈ final, item.frozen = true) ∧ ((∃ n line, Inv n line final) ∨ Done final) := by
  -- The passes that are left suffice for the items that are still open.
  induction n generalizing line items with
  | zero =>
      subst ends
      exact ⟨all_frozen_of_le tallied enough, .inl ⟨0, line, inv⟩⟩
  | succ n ih =>
      by_cases all : items.length ≤ line.frozen
      · rw [flexPasses_of_all all] at ends
        subst ends
        exact ⟨all_frozen_of_le tallied all, .inl ⟨n + 1, line, inv⟩⟩
      · have stays := flexPasses_stays growing initial available (n + 1) line items
        rw [ends] at stays
        rw [flexPasses, if_neg all] at ends
        obtain ⟨more, next⟩ := step n line items tallied
          ((lt_length_iff tallied).1 (Nat.lt_of_not_le all)) inv stays
        have length := (flexPass_passed growing initial available line items).length_eq
        rcases next with inv | ⟨done, frozen⟩
        · exact ih tallied.flexPass (by omega) inv ends
        · have all : (flexPass growing initial available line items).2.length ≤
              (flexPass growing initial available line items).1.frozen :=
            Nat.le_of_eq (tallied.flexPass.frozen.trans (List.countP_eq_length.2 frozen)).symm
          rw [flexPasses_of_all all] at ends
          subst ends
          exact ⟨frozen, .inr done⟩

/-! ## Flexing -/

def started (growing : Bool) (items : List Item) : List Item := items.map (Item.start growing)

theorem sumInFlow_started {growing : Bool} {f g : Item → Int} (items : List Item)
    (same : ∀ item, g (item.start growing) = f item) :
    sumInFlow g (started growing items) = sumInFlow f items := by
  rw [started, sumInFlow, List.map_map, sumInFlow]
  congr 1
  refine List.map_congr_left fun item _ => ?_
  have inFlow : (item.start growing).outOfFlow = item.outOfFlow :=
    (congrArg Item.outOfFlow (item.unflexed_start growing) :)
  rw [Function.comp_apply, same, inFlow]

/-- The line when the passes begin: it has counted the items that cannot flex. -/
def opened (line : Line) (growing : Bool) (items : List Item) : Line :=
  { line with used := 0, frozen := 0 }.tally ((started growing items).filter Item.frozen)

/-- The items when the passes are over, before all are frozen for good. -/
def passed (line : Line) (items : List Item) (available : Option Int) (gap : Int) : List Item :=
  let growing := line.grows available gap
  let room := line.roomFor available gap
  (flexPasses growing (freeSpace room (started growing items)) room (items.length + 1)
    (line.opened growing items) (started growing items)).2

theorem flex_snd (line : Line) (items : List Item) (available : Option Int) (gap : Int) :
    (line.flex items available gap).2 =
      (line.passed items available gap).map fun item => { item with frozen := true } := by
  show (line.passed items available gap).map (Item.freezeIf fun _ => true) = _
  exact List.map_congr_left fun item _ => item.freezeIf_always

/-- **What every pass keeps, or ends with, holds of the flexed items.** -/
theorem flex_ends (line : Line) (available : Option Int) (gap : Int)
    (Inv : Nat → Line → List Item → Prop) (Done : List Item → Prop)
    (start : Inv (items.length + 1) (line.opened (line.grows available gap) items)
      (started (line.grows available gap) items))
    (step : ∀ (n : Nat) (before : Line) (others : List Item), Tallied before others →
      (∃ item ∈ others, item.frozen = false) → Inv (n + 1) before others →
      List.Forall₂ Item.Stays others (line.passed items available gap) →
      let next := flexPass (line.grows available gap)
        (freeSpace (line.roomFor available gap) (started (line.grows available gap) items))
        (line.roomFor available gap) before others
      before.frozen < next.1.frozen ∧
        (Inv n next.1 next.2 ∨ Done next.2 ∧ ∀ item ∈ next.2, item.frozen = true)) :
    (line.flex items available gap).2 = line.passed items available gap ∧
      (∀ item ∈ (line.flex items available gap).2, item.frozen = true) ∧
      ((∃ n before, Inv n before (line.flex items available gap).2) ∨
        Done (line.flex items available gap).2) := by
  have length : (started (line.grows available gap) items).length = items.length := List.length_map _
  obtain ⟨frozen, ends⟩ := flexPasses_ends step (items.length + 1)
    (tallied_opened line (started (line.grows available gap) items)) (by omega) start rfl
  have same : (line.flex items available gap).2 = line.passed items available gap := by
    rw [flex_snd]
    refine (List.map_congr_left fun item member => ?_).trans (List.map_id _)
    have done := frozen item member
    rw [← done]
    rfl
  rw [same]
  exact ⟨rfl, frozen, ends⟩

end Line

end FlexLayout
