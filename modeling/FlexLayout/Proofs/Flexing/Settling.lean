/-
# FlexLayout.Proofs.Flexing.Settling -- what flexing does to an item

Flexing decides an item's target, whether it is frozen and which bound it hit;
the rest of the item stays as it is (`map_unflexed_flex`).  `Item.Passed` says
what one pass can do to an item: leave it when it is frozen, freeze it at its
hypothetical size, or offer it a size and hold that to its limits.  Every pass is
made of such steps (`flexPass_passed`), and what they keep, flexing keeps:

* every item ends within its limits (`held_flex`);
* when space is taken away, items that have none to give end at their hypothetical
  sizes (`target_flex_of_rigid`).
-/
import FlexLayout.Flexing
import FlexLayout.Proofs.Lists

namespace FlexLayout

set_option autoImplicit false

namespace Share

/-- What has been dealt out is what was reached, and no more than all of it. -/
structure Fair (share : Share) : Prop where
  amount : 0 ≤ share.amount
  weight : 0 < share.total → share.weight ≤ share.total
  dealt : share.dealt = share.reached share.weight

theorem fair_start {amount total : Int} (nonneg : 0 ≤ amount) :
    Fair { amount := amount, total := total } where
  amount := nonneg
  weight positive := by dsimp only at positive ⊢; omega
  dealt := by simp [reached]

theorem reached_mono {share : Share} (amount : 0 ≤ share.amount) (total : 0 < share.total)
    {v w : Int} (le : v ≤ w) : share.reached v ≤ share.reached w :=
  Int.tdiv_le_tdiv total (Int.mul_le_mul_of_nonneg_left le amount)

/-- An amount that is not negative is dealt out in shares that are not. -/
theorem Fair.next {share : Share} (fair : share.Fair) (claim : Int) :
    0 ≤ (share.next claim).1 ∧ (share.next claim).2.Fair := by
  simp only [Share.next]
  split
  · exact ⟨Int.le_refl 0, fair⟩
  · rename_i positive
    have total : 0 < share.total := by omega
    have taken : share.weight ≤ min (share.weight + max claim 0) share.total := by
      have := fair.weight total
      omega
    have grown := reached_mono fair.amount total taken
    refine ⟨?_, fair.amount, fun _ => by dsimp only; omega, rfl⟩
    have least : 0 ≤ share.reached (min (share.weight + max claim 0) share.total) - share.dealt := by
      rw [fair.dealt]
      omega
    dsimp only [Pixel.fit?]
    split
    · exact least
    · exact Int.le_refl 0

/-- What dealing does to a list: each element of positive claim gets a share, and a
property that every share for such a weight has holds of it. -/
theorem forall₂_deal {α : Type} {claims : α → Bool} {weight : α → Int} {give : α → Int → α}
    (Inv : Share → Prop) (P : Int → Int → Prop)
    (step : ∀ share claim, Inv share → P claim (share.next claim).1 ∧ Inv (share.next claim).2)
    {share : Share} (start : Inv share) (list : List α) :
    List.Forall₂
      (fun a b => (claims a = false ∧ b = a) ∨
        (claims a = true ∧ ∃ pixels, P (weight a) pixels ∧ b = give a pixels))
      list (deal claims weight give share list) := by
  induction list generalizing share with
  | nil => exact .nil
  | cons a rest ih =>
      simp only [deal]
      split
      · rename_i claimed
        obtain ⟨good, next⟩ := step share (weight a) start
        exact .cons (.inr ⟨claimed, _, good, rfl⟩) (ih next)
      · rename_i unclaimed
        exact .cons (.inl ⟨by simpa using unclaimed, rfl⟩) (ih start)

end Share

namespace Item

/-- The item without what flexing decides. -/
def unflexed (item : Item) : Item :=
  { item with target := 0, frozen := false, violation := .none }

def Held (item : Item) : Prop := item.hold item.target = item.target

def Limited (item : Item) : Prop := item.hold item.hypothetical = item.hypothetical

/-- An item as it is measured: its hypothetical size is its base size within its
limits. -/
structure Fit (item : Item) : Prop where
  base : Pixel.InRange item.base
  hypothetical : item.hypothetical = item.hold item.base

theorem Fit.limited {item : Item} (fit : item.Fit) : item.Limited := by
  simp only [Limited]
  rw [fit.hypothetical, hold_hold_main]

/-- The item ends at its hypothetical size when space is taken away: it takes no
part, cannot shrink, or has nothing above its minimum. -/
def Rigid (item : Item) : Prop :=
  (item.outOfFlow || item.inflexible false) = true ∨ item.hypothetical = item.minMain

instance (item : Item) : Decidable item.Rigid := inferInstanceAs (Decidable (_ ∨ _))

/-- A size that one pass can offer an item: the one it has, or its base size with a
share of the free space added or, when space is taken away, a share that is not
negative taken off. -/
def Offered (growing : Bool) (item : Item) (size : Int) : Prop :=
  size = item.target ∨
    if growing then ∃ share, size = Pixel.add item.base share
    else ∃ share, 0 ≤ share ∧ size = Pixel.sub item.base share

/-- What one pass does to an item.  A frozen item is left alone.  Any other is held
to its limits at a size it was offered, and may be frozen there; or it is frozen at
its hypothetical size because nothing on the line has weight. -/
inductive Passed (growing : Bool) (item : Item) : Item → Prop where
  | frozen (done : item.frozen = true) : Passed growing item item
  | weightless (open_ : item.frozen = false) (shrinking : growing = false) :
      Passed growing item { item with target := item.hypothetical, frozen := true }
  | held (open_ : item.frozen = false) {size : Int} (offered : item.Offered growing size)
      (freeze : Bool) :
      Passed growing item { { item with target := size }.holdTarget with frozen := freeze }

theorem exists_holdTarget (item : Item) :
    ∃ violation, item.holdTarget =
      { item with target := item.hold item.target, violation := violation } := by
  refine ⟨item.holdTarget.violation, ?_⟩
  rw [← target_holdTarget]
  simp only [holdTarget]
  cases item.maxMain with
  | none => dsimp only; split <;> rfl
  | some limit => dsimp only; split <;> split <;> rfl

theorem frozen_holdTarget (item : Item) : item.holdTarget.frozen = item.frozen := by
  obtain ⟨violation, same⟩ := exists_holdTarget item
  rw [same]

def freezeIf (cond : Item → Bool) (item : Item) : Item :=
  if !item.frozen && cond item then { item with frozen := true } else item

theorem freezeIf_frozen (cond : Item → Bool) {item : Item} (done : item.frozen = true) :
    item.freezeIf cond = item := by
  simp [freezeIf, done]

theorem freezeIf_open (cond : Item → Bool) {item : Item} (open_ : item.frozen = false) :
    item.freezeIf cond = { item with frozen := cond item } := by
  cases item
  cases open_
  simp only [freezeIf]
  cases cond _ <;> rfl

def holdOpen (item : Item) : Item := if item.frozen then item else item.holdTarget

theorem holdOpen_frozen {item : Item} (done : item.frozen = true) : item.holdOpen = item :=
  if_pos done

theorem holdOpen_open {item : Item} (open_ : item.frozen = false) :
    item.holdOpen = item.holdTarget :=
  if_neg (by simp [open_])

theorem Limited.of_unflexed {item other : Item} (same : other.unflexed = item.unflexed)
    (limited : item.Limited) : other.Limited := by
  have kept : item.unflexed.Limited := limited
  exact (same ▸ kept : other.unflexed.Limited)

theorem freezeIf_always (item : Item) :
    (item.freezeIf fun _ => true) = { item with frozen := true } := by
  cases done : item.frozen with
  | true => rw [freezeIf_frozen _ done, ← done]
  | false => rw [freezeIf_open _ done]

theorem unflexed_start (item : Item) (growing : Bool) :
    (item.start growing).unflexed = item.unflexed := by
  simp only [start]
  split <;> rfl

theorem Passed.unflexed_eq {growing : Bool} {item after : Item}
    (passed : Passed growing item after) : after.unflexed = item.unflexed := by
  cases passed with
  | frozen => rfl
  | weightless => rfl
  | @held _ size offered freeze =>
      obtain ⟨violation, same⟩ := exists_holdTarget { item with target := size }
      rw [same]
      rfl

/-- A pass leaves every item that it does not find frozen within its limits. -/
theorem Passed.held_target {growing : Bool} {item after : Item} (passed : Passed growing item after)
    (before : item.frozen = true → item.Held)
    (limited : item.Limited) : after.Held := by
  cases passed with
  | frozen done => exact before done
  | weightless => exact limited
  | @held _ size offered freeze =>
      obtain ⟨violation, same⟩ := exists_holdTarget { item with target := size }
      rw [same]
      exact hold_hold_main { item with target := size } size

theorem hold_mono (item : Item) {v w : Int} (le : v ≤ w) : item.hold v ≤ item.hold w := by
  simp only [hold]
  cases item.maxMain <;> dsimp only <;> omega

theorem minMain_le_hold (item : Item) (size : Int) : item.minMain ≤ item.hold size := by
  exact Int.le_max_right _ _

theorem Fit.minMain_le {item : Item} (fit : item.Fit) : item.minMain ≤ item.hypothetical := by
  rw [fit.hypothetical]
  exact item.minMain_le_hold item.base

theorem Held.minMain_le {item : Item} (held : item.Held) : item.minMain ≤ item.target :=
  held ▸ item.minMain_le_hold item.target

theorem sub_le_of_nonneg {base share : Int} (range : Pixel.InRange base) (nonneg : 0 ≤ share) :
    Pixel.sub base share ≤ base := by
  simp only [Pixel.InRange] at range
  simp only [Pixel.sub, Pixel.saturate]
  omega

theorem le_add_of_nonneg {base share : Int} (range : Pixel.InRange base) (nonneg : 0 ≤ share) :
    base ≤ Pixel.add base share := by
  simp only [Pixel.InRange] at range
  simp only [Pixel.add, Pixel.saturate]
  omega

end Item

namespace Line

/-! ## One pass -/

theorem holdTargets_eq (items : List Item) : holdTargets items = items.map Item.holdOpen := rfl

theorem freeze_snd (line : Line) (cond : Item → Bool) (items : List Item) :
    (line.freeze cond items).2 = items.map (Item.freezeIf cond) := rfl

/-- What handing out space does to an item, before it is held to its limits. -/
inductive Dealt (growing : Bool) (item : Item) : Item → Prop where
  | frozen (done : item.frozen = true) : Dealt growing item item
  | weightless (open_ : item.frozen = false) (shrinking : growing = false) :
      Dealt growing item { item with target := item.hypothetical, frozen := true }
  | offered (open_ : item.frozen = false) {size : Int} (offer : item.Offered growing size) :
      Dealt growing item { item with target := size }

theorem dealt_self (growing : Bool) (item : Item) : Dealt growing item item := by
  cases done : item.frozen with
  | true => exact .frozen done
  | false => exact .offered done (.inl rfl)

theorem magnitude_nonneg (v : Int) : 0 ≤ Pixel.magnitude v := by
  simp only [Pixel.magnitude, Pixel.saturate]
  omega

theorem apportion_dealt (growing : Bool) (free : Int) (line : Line) (items : List Item) :
    List.Forall₂ (Dealt growing) items (apportion growing free line items).2 := by
  unfold apportion
  split
  · rename_i grows
    refine (Share.forall₂_deal (fun _ => True) (fun _ _ => True)
      (fun _ _ _ => ⟨trivial, trivial⟩) trivial items).imp fun item after step => ?_
    rcases step with ⟨unclaimed, rfl⟩ | ⟨claimed, share, -, rfl⟩
    · exact .frozen (by simpa using unclaimed)
    · exact .offered (by simpa using claimed) (.inr (by rw [if_pos grows]; exact ⟨share, rfl⟩))
  · rename_i shrinks
    have shrinking : growing = false := by simpa using shrinks
    dsimp only
    split
    · simp only [freeze, List.map_map]
      rw [List.forall₂_map_right_iff]
      apply List.forall₂_same.2
      intro item _
      cases done : item.frozen with
      | true => simpa [done] using Dealt.frozen done
      | false => simpa [done] using Dealt.weightless done shrinking
    · refine (Share.forall₂_deal Share.Fair (fun _ share => 0 ≤ share)
        (fun _ claim fair => fair.next claim) (Share.fair_start (magnitude_nonneg free)) items).imp ?_
      intro item after step
      rcases step with ⟨unclaimed, rfl⟩ | ⟨claimed, share, nonneg, rfl⟩
      · exact .frozen (by simpa using unclaimed)
      · exact .offered (by simpa using claimed) (.inr (by simpa [shrinking] using ⟨share, nonneg, rfl⟩))

/-- **Every pass leaves, freezes or holds.** -/
theorem flexPass_passed (growing : Bool) (initial available : Int) (line : Line)
    (items : List Item) :
    List.Forall₂ (Item.Passed growing) items
      (flexPass growing initial available line items).2 := by
  simp only [flexPass]
  generalize passSpace growing initial available items = free
  have dealt : List.Forall₂ (Dealt growing) items
      (if free = 0 then (line, items) else apportion growing free line items).2 := by
    split
    · exact List.forall₂_same.2 fun item _ => dealt_self growing item
    · exact apportion_dealt growing free line items
  rw [freeze_snd, holdTargets_eq, List.map_map, List.forall₂_map_right_iff]
  apply dealt.imp
  intro item after step
  rw [Function.comp_apply]
  cases step with
  | frozen done =>
      rw [Item.holdOpen_frozen done, Item.freezeIf_frozen _ done]
      exact .frozen done
  | weightless open_ shrinking =>
      rw [Item.holdOpen_frozen rfl, Item.freezeIf_frozen _ rfl]
      exact .weightless open_ shrinking
  | @offered open_ size offer =>
      have still : ({ item with target := size } : Item).holdTarget.frozen = false := by
        rw [Item.frozen_holdTarget]
        exact open_
      have opened : ({ item with target := size } : Item).frozen = false := open_
      rw [Item.holdOpen_open opened, Item.freezeIf_open _ still]
      exact .held open_ offer _

/-! ## All passes -/

theorem forall₂_flexPasses {R : Item → Item → Prop} {growing : Bool} {initial available : Int}
    (keeps : ∀ item before after, R item before → Item.Passed growing before after → R item after)
    (n : Nat) {line : Line} {items before : List Item} (holds : List.Forall₂ R items before) :
    List.Forall₂ R items (flexPasses growing initial available n line before).2 := by
  induction n generalizing line before with
  | zero => exact holds
  | succ n ih =>
      simp only [flexPasses]
      split
      · exact holds
      · apply ih
        exact forall₂_trans keeps holds (flexPass_passed growing initial available line before)

/-- What starting, every step of a pass and closing keep, flexing keeps. -/
theorem forall₂_flex {R : Item → Item → Prop} {line : Line} {items : List Item}
    {available : Option Int} {gap : Int}
    (starts : ∀ item ∈ items, R item (item.start (line.grows available gap)))
    (keeps : ∀ item before after, R item before →
      Item.Passed (line.grows available gap) before after → R item after)
    (closes : ∀ item after, R item after → R item { after with frozen := true }) :
    List.Forall₂ R items (line.flex items available gap).2 := by
  simp only [flex, freeze_snd]
  rw [List.forall₂_map_right_iff]
  have started : List.Forall₂ R items (items.map (Item.start (line.grows available gap))) := by
    rw [List.forall₂_map_right_iff]
    exact List.forall₂_same.2 starts
  apply (forall₂_flexPasses keeps _ started).imp
  intro item after holds
  rw [Item.freezeIf_always]
  exact closes item after holds

/-- **Flexing decides targets and nothing else.** -/
theorem map_unflexed_flex (line : Line) (items : List Item) (available : Option Int) (gap : Int) :
    List.Forall₂ (fun item after => after.unflexed = item.unflexed) items
      (line.flex items available gap).2 := by
  refine forall₂_flex (fun item _ => item.unflexed_start _) ?_ fun _ _ same => same
  intro item before after same passed
  exact passed.unflexed_eq.trans same

theorem map_start_congr (growing : Bool) {items others : List Item}
    (same : List.Forall₂ (fun item other => other.unflexed = item.unflexed) items others) :
    others.map (Item.start growing) = items.map (Item.start growing) := by
  rw [← List.forall₂_eq_eq_eq, List.forall₂_map_left_iff, List.forall₂_map_right_iff]
  refine same.flip.imp fun other item same => ?_
  have asleep (item : Item) : item.start growing = item.unflexed.start growing := rfl
  rw [asleep other, asleep item, same]

theorem flex_congr (line : Line) {items others : List Item}
    (same : List.Forall₂ (fun item other => other.unflexed = item.unflexed) items others)
    (available : Option Int) (gap : Int) :
    (line.flex others available gap) = (line.flex items available gap) := by
  simp only [flex]
  rw [map_start_congr _ same, same.length_eq]

theorem map_child_flex (line : Line) (items : List Item) (available : Option Int) (gap : Int) :
    (line.flex items available gap).2.map Item.child = items.map Item.child := by
  rw [← List.forall₂_eq_eq_eq, List.forall₂_map_left_iff, List.forall₂_map_right_iff]
  refine List.Forall₂.flip ((map_unflexed_flex line items available gap).imp ?_)
  intro item after same
  exact (congrArg Item.child same :)

/-- The line counts what is frozen, and is otherwise left alone. -/
def Counts (line after : Line) : Prop :=
  ∃ used frozen, after = { line with used := used, frozen := frozen }

theorem counts_freeze {line before : Line} (counts : Counts line before) (cond : Item → Bool)
    (items : List Item) : Counts line (before.freeze cond items).1 := by
  obtain ⟨used, frozen, rfl⟩ := counts
  exact ⟨_, _, rfl⟩

theorem counts_used {line before : Line} (counts : Counts line before) (used : Int) :
    Counts line { before with used := used } := by
  obtain ⟨_, frozen, rfl⟩ := counts
  exact ⟨used, frozen, rfl⟩

theorem counts_flexPass {line before : Line} (counts : Counts line before) (growing : Bool)
    (initial available : Int) (items : List Item) :
    Counts line (flexPass growing initial available before items).1 := by
  simp only [flexPass]
  refine counts_freeze ?_ _ _
  split
  · exact counts
  · unfold apportion
    split
    · exact counts
    · dsimp only
      split
      · exact counts_freeze counts _ _
      · exact counts

theorem counts_flexPasses {line before : Line} (counts : Counts line before) (growing : Bool)
    (initial available : Int) (n : Nat) (items : List Item) :
    Counts line (flexPasses growing initial available n before items).1 := by
  induction n generalizing before items with
  | zero => exact counts
  | succ n ih =>
      simp only [flexPasses]
      split
      · exact counts
      · exact ih (counts_flexPass counts growing initial available items) _

/-- **Flexing leaves the other measures of the line alone.** -/
theorem counts_flex (line : Line) (items : List Item) (available : Option Int) (gap : Int) :
    Counts line (line.flex items available gap).1 := by
  simp only [flex]
  refine counts_used (counts_freeze (counts_flexPasses ?_ _ _ _ _ _) _ _) _
  exact ⟨_, _, rfl⟩

/-- An item as a pass finds it: when it is frozen, it is within its limits. -/
def Found (item : Item) : Prop := item.Limited ∧ (item.frozen = true → item.Held)

/-- An item as a pass leaves it. -/
def Left (item : Item) : Prop := item.Limited ∧ item.Held

theorem found_start {item : Item} (limited : item.Limited) (growing : Bool) :
    Found (item.start growing) := by
  refine ⟨limited.of_unflexed (item.unflexed_start growing), fun done => ?_⟩
  simp only [Item.start] at done ⊢
  split
  · exact limited
  · rename_i flexible
    simp [flexible] at done

theorem left_flexPass {growing : Bool} {initial available : Int} {line : Line} {items : List Item}
    (found : ∀ item ∈ items, Found item) :
    ∀ after ∈ (flexPass growing initial available line items).2, Left after := by
  intro after member
  obtain ⟨item, before, passed⟩ :=
    exists_of_mem_right (flexPass_passed growing initial available line items) member
  obtain ⟨limited, held⟩ := found item before
  exact ⟨limited.of_unflexed passed.unflexed_eq, passed.held_target held limited⟩

theorem left_flexPasses {growing : Bool} {initial available : Int} (n : Nat) {line : Line}
    {items : List Item} (left : ∀ item ∈ items, Left item) :
    ∀ after ∈ (flexPasses growing initial available n line items).2, Left after := by
  induction n generalizing line items with
  | zero => exact left
  | succ n ih =>
      simp only [flexPasses]
      split
      · exact left
      · exact ih (left_flexPass fun item member => ⟨(left item member).1, fun _ => (left item member).2⟩)

/-- **Every item ends within its limits.**  Unless all items are frozen at once, at
least one pass is made. -/
theorem held_flex (line : Line) {items : List Item} (available : Option Int) (gap : Int)
    (limited : ∀ item ∈ items, item.Limited) :
    ∀ after ∈ (line.flex items available gap).2, after.Held := by
  simp only [flex, freeze_snd, flexPasses]
  generalize line.grows available gap = growing
  have found : ∀ item ∈ items.map (Item.start growing), Found item := by
    intro item member
    obtain ⟨source, before, rfl⟩ := List.mem_map.1 member
    exact found_start (limited source before) growing
  intro after member
  obtain ⟨passed, before, rfl⟩ := List.mem_map.1 member
  rw [Item.freezeIf_always]
  show passed.Held
  split at before
  · rename_i all
    refine (found passed before).2 ?_
    simp only [tally, Nat.zero_add, ← List.countP_eq_length_filter] at all
    exact List.countP_eq_length.1 (Nat.le_antisymm List.countP_le_length all) passed before
  · exact (left_flexPasses _ (left_flexPass found) passed before).2

/-- **An item that keeps its minimum ends no smaller.** -/
theorem minMain_le_flex (line : Line) {items : List Item} (available : Option Int) (gap : Int)
    (limited : ∀ item ∈ items, item.Limited) :
    ∀ after ∈ (line.flex items available gap).2, after.minMain ≤ after.target :=
  fun after member => (held_flex line available gap limited after member).minMain_le

/-! ## When space is taken away -/

/-- An item that has not grown: even its limits do not raise it above its
hypothetical size.  One that cannot flex is frozen at that size. -/
structure Ungrown (item after : Item) : Prop where
  unflexed : after.unflexed = item.unflexed
  hold_le : after.hold after.target ≤ item.hypothetical
  frozen : (item.outOfFlow || item.inflexible false) = true →
    after.frozen = true ∧ after.target = item.hypothetical

theorem ungrown_start {item : Item} (fit : item.Fit) : Ungrown item (item.start false) := by
  have limits (size : Int) : (item.start false).hold size = item.hold size := by
    simp only [Item.start]
    split <;> rfl
  refine ⟨item.unflexed_start false, ?_, fun rigid => ?_⟩
  · rw [limits]
    simp only [Item.start]
    split
    · exact Int.le_of_eq fit.limited
    · exact Int.le_of_eq fit.hypothetical.symm
  · simp only [Item.start]
    rw [if_pos rigid]
    exact ⟨rfl, rfl⟩

theorem Ungrown.passed {item before after : Item} (fit : item.Fit) (ungrown : Ungrown item before)
    (passed : Item.Passed false before after) : Ungrown item after := by
  have found := ungrown.unflexed
  have same := passed.unflexed_eq.trans found
  refine ⟨same, ?_, fun rigid => ?_⟩
  · have limits {other : Item} (same : other.unflexed = item.unflexed) (size : Int) :
        other.hold size = item.hold size := by
      show other.unflexed.hold size = item.unflexed.hold size
      rw [same]
    have hypothetical : before.hypothetical = item.hypothetical := (congrArg Item.hypothetical found :)
    have base : before.base = item.base := (congrArg Item.base found :)
    rw [limits same]
    cases passed with
    | frozen => exact limits found _ ▸ ungrown.hold_le
    | weightless =>
        show item.hold before.hypothetical ≤ _
        rw [hypothetical]
        exact Int.le_of_eq fit.limited
    | @held _ size offered freeze =>
        obtain ⟨violation, target⟩ := Item.exists_holdTarget { before with target := size }
        rw [target]
        show item.hold (before.hold size) ≤ _
        rw [limits found, Item.hold_hold_main]
        rcases offered with rfl | less
        · exact limits found _ ▸ ungrown.hold_le
        · obtain ⟨share, nonneg, rfl⟩ := less
          rw [fit.hypothetical, base]
          exact item.hold_mono (Item.sub_le_of_nonneg fit.base nonneg)
  · obtain ⟨done, target⟩ := ungrown.frozen rigid
    cases passed with
    | frozen => exact ⟨done, target⟩
    | weightless open_ => simp [done] at open_
    | held open_ => simp [done] at open_

/-- **Space that cannot be taken is not taken.** -/
theorem target_flex_of_rigid (line : Line) {items : List Item} {available : Option Int} {gap : Int}
    (shrinks : line.grows available gap = false) (fit : ∀ item ∈ items, item.Fit)
    (rigid : ∀ item ∈ items, item.Rigid) :
    List.Forall₂ (fun item after => after.unflexed = item.unflexed ∧ after.target = item.hypothetical)
      items (line.flex items available gap).2 := by
  have ungrown : List.Forall₂ (fun item after => item.Fit → Ungrown item after) items
      (line.flex items available gap).2 := by
    refine forall₂_flex (fun item _ fit => ?_) (fun item before after holds passed fit => ?_) ?_
    · rw [shrinks]
      exact ungrown_start fit
    · rw [shrinks] at passed
      exact (holds fit).passed fit passed
    · intro item after holds fit
      obtain ⟨same, le, frozen⟩ := holds fit
      exact ⟨same, le, fun rigid => ⟨rfl, (frozen rigid).2⟩⟩
  have held := held_flex line available gap fun item member => (fit item member).limited
  refine ((List.forall₂_and_left _ _).2 ⟨fun item member =>
    And.intro (fit item member) (rigid item member), forall₂_and_right ungrown held⟩).imp ?_
  rintro item after ⟨⟨fit, rigid⟩, ungrown, held⟩
  obtain ⟨same, le, frozen⟩ := ungrown fit
  refine ⟨same, ?_⟩
  rcases rigid with stays | least
  · exact (frozen stays).2
  · have above := held.minMain_le
    have minimum : after.minMain = item.minMain := (congrArg Item.minMain same :)
    rw [held] at le
    omega

end Line

end FlexLayout
