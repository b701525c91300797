/-
# FlexLayout.Proofs.Flexing.Tally -- a line counts the items that it freezes

A line counts an item, and adds up the space that it takes, when the item is frozen
(`Line.frozenSizes`).  `Line.Tallied` says that a line has counted its frozen items;
freezing keeps that (`Tallied.freeze`), and every other step only touches items that are
not frozen (`Item.Waits`).

Sizes are added up with saturation.  The sum is exact if adding them up from the first to
the last never leaves the 32-bit range (`Pixel.Running`), and in every order if no part of
the sizes does (`Pixel.Summable`).
-/
import FlexLayout.Proofs.Flexing.Settling
import Mathlib.Algebra.Order.BigOperators.Group.List
import Mathlib.Algebra.Order.Group.Int

namespace FlexLayout

set_option autoImplicit false

namespace Pixel

/-- Adding up the sizes from the first to the last never leaves the range. -/
def Running (sizes : List Int) : Prop := ∀ sum ∈ sizes.scanl (· + ·) 0, InRange sum

instance (sizes : List Int) : Decidable (Running sizes) :=
  inferInstanceAs (Decidable (∀ sum ∈ sizes.scanl (· + ·) 0, InRange sum))

theorem foldl_add_of_inRange {sizes : List Int} {start : Int}
    (running : ∀ sum ∈ sizes.scanl (· + ·) start, InRange sum) :
    sizes.foldl add start = start + sizes.sum := by
  induction sizes generalizing start with
  | nil => exact (Int.add_zero start).symm
  | cons size rest ih =>
      rw [List.scanl_cons] at running
      obtain ⟨-, running⟩ := List.forall_mem_cons.1 running
      have inRange : InRange (start + size) := running _ (by cases rest <;> simp)
      rw [List.foldl_cons, add_of_inRange inRange, ih running, List.sum_cons, Int.add_assoc]

theorem Running.foldl_add {sizes : List Int} (running : Running sizes) :
    sizes.foldl add 0 = sizes.sum :=
  (foldl_add_of_inRange running).trans (Int.zero_add _)

theorem Running.foldl_add_cons {start : Int} {sizes : List Int} (running : Running (start :: sizes)) :
    sizes.foldl add start = start + sizes.sum := by
  rw [Running, List.scanl_cons, Int.zero_add] at running
  exact foldl_add_of_inRange (List.forall_mem_cons.1 running).2

theorem add_sum_inRange {sizes : List Int} {start : Int}
    (running : ∀ sum ∈ sizes.scanl (· + ·) start, InRange sum) : InRange (start + sizes.sum) := by
  induction sizes generalizing start with
  | nil =>
      rw [List.sum_nil, Int.add_zero]
      exact running start (by simp)
  | cons size rest ih =>
      rw [List.scanl_cons] at running
      rw [List.sum_cons, ← Int.add_assoc]
      exact ih (List.forall_mem_cons.1 running).2

theorem Running.inRange_cons {start : Int} {sizes : List Int} (running : Running (start :: sizes)) :
    InRange (start + sizes.sum) := by
  rw [Running, List.scanl_cons, Int.zero_add] at running
  exact add_sum_inRange (List.forall_mem_cons.1 running).2

/-- Whichever of the sizes are added up, the sum stays in the 32-bit range: it lies
between the sum of the negative ones and the sum of the positive ones. -/
structure Summable (sizes : List Int) : Prop where
  most : (sizes.map (max 0)).sum ≤ 2147483647
  least : -2147483648 ≤ (sizes.map (min 0)).sum

instance (sizes : List Int) : Decidable (Summable sizes) :=
  decidable_of_iff ((sizes.map (max 0)).sum ≤ 2147483647 ∧ -2147483648 ≤ (sizes.map (min 0)).sum)
    ⟨fun ⟨most, least⟩ => ⟨most, least⟩, fun ⟨most, least⟩ => ⟨most, least⟩⟩

theorem Summable.of_perm {sizes order : List Int} (summable : Summable sizes)
    (perm : order.Perm sizes) : Summable order where
  most := (perm.map (max 0)).sum_eq ▸ summable.most
  least := (perm.map (min 0)).sum_eq ▸ summable.least

theorem sum_map_max_nonneg (sizes : List Int) : 0 ≤ (sizes.map (max 0)).sum :=
  List.sum_nonneg (List.forall_mem_map.2 fun size _ => Int.le_max_left 0 size)

theorem sum_map_min_nonpos (sizes : List Int) : (sizes.map (min 0)).sum ≤ 0 := by
  have most := List.sum_le_card_nsmul (sizes.map (min 0)) 0
    (List.forall_mem_map.2 fun size _ => Int.min_le_left 0 size)
  rwa [nsmul_zero] at most

theorem sum_le_sum_map_max (sizes : List Int) : sizes.sum ≤ (sizes.map (max 0)).sum := by
  have le := List.sum_le_sum (l := sizes) (f := id) fun size _ => Int.le_max_right 0 size
  rwa [List.map_id] at le

theorem sum_map_min_le_sum (sizes : List Int) : (sizes.map (min 0)).sum ≤ sizes.sum := by
  have le := List.sum_le_sum (l := sizes) (g := id) fun size _ => Int.min_le_right 0 size
  rwa [List.map_id] at le

theorem Summable.tail {size : Int} {sizes : List Int} (summable : Summable (size :: sizes)) :
    Summable sizes := by
  obtain ⟨most, least⟩ := summable
  simp only [List.map_cons, List.sum_cons] at most least
  exact ⟨by omega, by omega⟩

theorem Summable.inRange {sizes : List Int} (summable : Summable sizes) : InRange sizes.sum := by
  have most := sum_le_sum_map_max sizes
  have least := sum_map_min_le_sum sizes
  exact ⟨Int.le_trans summable.least least, Int.le_trans most summable.most⟩

theorem inRange_scanl {sizes : List Int} {start : Int} (summable : Summable (start :: sizes)) :
    ∀ sum ∈ sizes.scanl (· + ·) start, InRange sum := by
  induction sizes generalizing start with
  | nil =>
      rw [List.scanl_nil]
      intro sum member
      obtain rfl := List.mem_singleton.1 member
      simpa using summable.inRange
  | cons size rest ih =>
      obtain ⟨most, least⟩ := summable
      simp only [List.map_cons, List.sum_cons] at most least
      have := sum_map_max_nonneg rest
      have := sum_map_min_nonpos rest
      rw [List.scanl_cons, List.forall_mem_cons]
      constructor
      · unfold InRange
        omega
      · apply ih
        constructor <;> simp only [List.map_cons, List.sum_cons] <;> omega

/-- **Summable sizes add up in the range in every order.** -/
theorem Summable.running {sizes order : List Int} (summable : Summable sizes)
    (perm : order.Perm sizes) : Running order := by
  obtain ⟨most, least⟩ := summable.of_perm perm
  apply inRange_scanl
  constructor <;> simpa

end Pixel

namespace Item

/-- Nothing but the target of an unfrozen item changes. -/
structure Waits (item after : Item) : Prop where
  unflexed : after.unflexed = item.unflexed
  frozen : after.frozen = item.frozen
  target : item.frozen = true → after.target = item.target

namespace Waits

variable {item after : Item}

theorem child (waits : item.Waits after) : after.child = item.child :=
  (congrArg Item.child waits.unflexed :)

theorem outOfFlow (waits : item.Waits after) : after.outOfFlow = item.outOfFlow :=
  (congrArg Item.outOfFlow waits.unflexed :)

theorem base (waits : item.Waits after) : after.base = item.base :=
  (congrArg Item.base waits.unflexed :)

theorem factor (waits : item.Waits after) (growing : Bool) :
    after.factor growing = item.factor growing :=
  (congrArg (Item.factor · growing) waits.unflexed :)

theorem trans {last : Item} (waits : item.Waits after) (then_ : after.Waits last) :
    item.Waits last where
  unflexed := then_.unflexed.trans waits.unflexed
  frozen := then_.frozen.trans waits.frozen
  target done := (then_.target (waits.frozen.trans done)).trans (waits.target done)

end Waits

end Item

namespace Line

def sizesInFlow (items : List Item) : List Int :=
  (items.filter fun item => !item.outOfFlow).map Item.target

def frozenSizes (items : List Item) : List Int := sizesInFlow (items.filter Item.frozen)

structure Tallied (line : Line) (items : List Item) : Prop where
  frozen : line.frozen = items.countP Item.frozen

theorem used_tally (line : Line) (frozen : List Item) :
    (line.tally frozen).used = (sizesInFlow frozen).foldl Pixel.add line.used := by
  simp only [tally]
  generalize line.used = used
  induction frozen generalizing used with
  | nil => rfl
  | cons item rest ih =>
      rw [List.foldl_cons, ih]
      cases flow : item.outOfFlow with
      | true => simp [sizesInFlow, flow]
      | false => simp [sizesInFlow, flow]

theorem frozenSizes_of_waits {items after : List Item} (waits : List.Forall₂ Item.Waits items after) :
    frozenSizes after = frozenSizes items := by
  induction waits with
  | nil => rfl
  | @cons item item' _ _ first _ ih =>
      simp only [frozenSizes, sizesInFlow] at ih ⊢
      cases done : item.frozen with
      | false => simpa [first.frozen, done] using ih
      | true =>
          rw [List.filter_cons_of_pos (first.frozen.trans done), List.filter_cons_of_pos done,
            List.filter_cons, List.filter_cons, first.outOfFlow]
          split
          · rw [List.map_cons, List.map_cons, first.target done, ih]
          · exact ih

theorem sizesInFlow_cons (item : Item) (rest : List Item) :
    sizesInFlow (item :: rest) = sizesInFlow [item] ++ sizesInFlow rest := by
  rw [sizesInFlow, ← List.singleton_append, List.filter_append, List.map_append]
  rfl

theorem sizesInFlow_frozen (item : Item) (frozen : Bool) :
    sizesInFlow [{ item with frozen := frozen }] = sizesInFlow [item] := by
  cases flow : item.outOfFlow <;> simp [sizesInFlow, flow]

theorem frozenSizes_freezeIf (cond : Item → Bool) (items : List Item) :
    (frozenSizes (items.map (Item.freezeIf cond))).Perm
      (frozenSizes items ++ sizesInFlow (items.filter fun item => !item.frozen && cond item)) := by
  induction items with
  | nil => exact .nil
  | cons item rest ih =>
      rw [List.map_cons]
      simp only [frozenSizes] at ih ⊢
      cases done : item.frozen with
      | true =>
          rw [Item.freezeIf_frozen cond done, List.filter_cons_of_pos done,
            List.filter_cons_of_pos done, List.filter_cons_of_neg (by simp [done]),
            sizesInFlow_cons, sizesInFlow_cons item (List.filter _ rest), List.append_assoc]
          exact ih.append_left _
      | false =>
          rw [Item.freezeIf_open cond done]
          cases hit : cond item with
          | false =>
              rw [List.filter_cons_of_neg (by simp), List.filter_cons_of_neg (by simp [done]),
                List.filter_cons_of_neg (by simp [hit])]
              exact ih
          | true =>
              rw [List.filter_cons_of_pos (by simp), List.filter_cons_of_neg (by simp [done]),
                List.filter_cons_of_pos (by simp [done, hit]), sizesInFlow_cons,
                sizesInFlow_cons item, sizesInFlow_frozen]
              exact (ih.append_left _).trans (List.perm_append_comm_assoc _ _ _)

theorem countP_frozen_of_waits {items after : List Item}
    (waits : List.Forall₂ Item.Waits items after) :
    after.countP Item.frozen = items.countP Item.frozen := by
  induction waits with
  | nil => rfl
  | cons first _ ih => rw [List.countP_cons, List.countP_cons, ih, first.frozen]

theorem countP_frozen_freezeIf (cond : Item → Bool) (items : List Item) :
    (items.map (Item.freezeIf cond)).countP Item.frozen =
      items.countP Item.frozen + (items.filter fun item => !item.frozen && cond item).length := by
  induction items with
  | nil => rfl
  | cons item rest ih =>
      rw [List.map_cons, List.countP_cons, List.countP_cons, ih]
      cases done : item.frozen with
      | true =>
          rw [Item.freezeIf_frozen cond done, done, List.filter_cons_of_neg (by simp [done])]
          omega
      | false =>
          rw [Item.freezeIf_open cond done]
          cases hit : cond item with
          | true =>
              rw [List.filter_cons_of_pos (by simp [done, hit]), List.length_cons]
              simp only [if_true, Bool.false_eq_true, if_false]
              omega
          | false =>
              rw [List.filter_cons_of_neg (by simp [hit])]
              simp only [Bool.false_eq_true, if_false, Nat.add_zero]

theorem Tallied.waits {line : Line} {items after : List Item} (tallied : Tallied line items)
    (waits : List.Forall₂ Item.Waits items after) : Tallied line after where
  frozen := (countP_frozen_of_waits waits).symm ▸ tallied.frozen

theorem Tallied.freeze {line : Line} {items : List Item} (tallied : Tallied line items)
    (cond : Item → Bool) : Tallied (line.freeze cond items).1 (line.freeze cond items).2 := by
  constructor
  rw [freeze_snd, countP_frozen_freezeIf, ← tallied.frozen]
  rfl

theorem waits_deal {weight : Item → Int} {give : Item → Int → Item}
    (given : ∀ item pixels, ∃ size, give item pixels = { item with target := size }) (share : Share)
    (items : List Item) :
    List.Forall₂ Item.Waits items
      (Share.deal (fun item => !item.frozen) weight give share items) := by
  refine (Share.forall₂_deal (fun _ => True) (fun _ _ => True)
    (fun _ _ _ => ⟨trivial, trivial⟩) trivial items).imp fun item after step => ?_
  rcases step with ⟨-, rfl⟩ | ⟨claimed, pixels, -, rfl⟩
  · exact ⟨rfl, rfl, fun _ => rfl⟩
  · obtain ⟨size, same⟩ := given item pixels
    rw [same]
    exact ⟨rfl, rfl, fun done => by simp [done] at claimed⟩

/-- What one pass hands out freezes all items, at the sizes they have, or none. -/
theorem apportion_cases (growing : Bool) (free : Int) (line : Line) (items : List Item) :
    ∃ waiting, List.Forall₂ Item.Waits items waiting ∧
      (apportion growing free line items = line.freeze (fun _ => true) waiting ∨
        apportion growing free line items = (line, waiting)) := by
  unfold apportion
  split
  · exact ⟨_, waits_deal (fun _ _ => ⟨_, rfl⟩) _ _, .inr rfl⟩
  · dsimp only
    split
    · refine ⟨_, ?_, .inl rfl⟩
      rw [List.forall₂_map_right_iff]
      apply List.forall₂_same.2
      intro item _
      split
      · exact ⟨rfl, rfl, fun _ => rfl⟩
      · rename_i open_
        exact ⟨rfl, rfl, fun done => absurd done open_⟩
    · exact ⟨_, waits_deal (fun _ _ => ⟨_, rfl⟩) _ _, .inr rfl⟩

theorem waits_holdOpen (item : Item) : item.Waits item.holdOpen := by
  cases done : item.frozen with
  | true =>
      rw [Item.holdOpen_frozen done]
      exact ⟨rfl, rfl, fun _ => rfl⟩
  | false =>
      obtain ⟨violation, held⟩ := item.exists_holdTarget
      rw [Item.holdOpen_open done, held]
      exact ⟨rfl, rfl, fun frozen => by simp [done] at frozen⟩

theorem totalViolation_eq (items : List Item) :
    totalViolation items =
      ((items.filter fun item => !item.frozen).map
        fun item => Pixel.sub (item.hold item.target) item.target).foldl Pixel.add 0 := by
  simp only [totalViolation, Item.target_holdTarget, List.foldl_map]

theorem Tallied.flexPass {growing : Bool} {initial available : Int} {line : Line}
    {items : List Item} (tallied : Tallied line items) :
    Tallied (flexPass growing initial available line items).1
      (flexPass growing initial available line items).2 := by
  simp only [Line.flexPass]
  generalize passSpace growing initial available items = free
  have dealt : Tallied (if free = 0 then (line, items) else apportion growing free line items).1
      (if free = 0 then (line, items) else apportion growing free line items).2 := by
    split
    · exact tallied
    · rcases apportion_cases growing free line items with ⟨waiting, waits, all | none_⟩
      · rw [all]
        exact (tallied.waits waits).freeze _
      · rw [none_]
        exact tallied.waits waits
  refine Tallied.freeze (dealt.waits ?_) _
  rw [holdTargets_eq, List.forall₂_map_right_iff]
  exact List.forall₂_same.2 fun item _ => waits_holdOpen item

theorem Tallied.flexPasses {line : Line} {items : List Item} (tallied : Tallied line items)
    (growing : Bool) (initial available : Int) (n : Nat) :
    Tallied (flexPasses growing initial available n line items).1
      (flexPasses growing initial available n line items).2 := by
  induction n generalizing line items with
  | zero => exact tallied
  | succ n ih =>
      simp only [Line.flexPasses]
      split
      · exact tallied
      · exact ih tallied.flexPass

theorem tallied_opened (line : Line) (started : List Item) :
    Tallied ({ line with used := 0, frozen := 0 }.tally (started.filter Item.frozen)) started := by
  constructor
  simp only [tally, Nat.zero_add, ← List.countP_eq_length_filter]

end Line

end FlexLayout
