/-
# FlexLayout.Proofs.Flexing.Dropping -- flexing without the items out of flow

Items out of flow are frozen when flexing begins and stay so.  They only count
against the number of frozen items, and of passes: everything else a pass computes
it computes from the others (`flexPass_items`).  As the number of passes does not
matter, flexing treats the items that are kept as it would without the others
(`flex_items`).
-/
import FlexLayout.Proofs.Children.Pairing
import FlexLayout.Proofs.Flexing.Passes

namespace FlexLayout

set_option autoImplicit false

namespace Pairing

variable (p : Pairing)

/-- Items without a counterpart take no space and are frozen. -/
def Idle (items : List Item) : Prop :=
  ∀ item ∈ items, p.keep item.child = false → item.outOfFlow = true ∧ item.frozen = true

variable {p}

theorem Idle.keep {items : List Item} (idle : p.Idle items) {item : Item} (member : item ∈ items)
    (open_ : item.frozen = false) : p.keep item.child = true := by
  by_contra drop
  rw [Bool.not_eq_true] at drop
  simp [(idle item member drop).2] at open_

theorem Idle.after {items after : List Item} (idle : p.Idle items)
    (steps : List.Forall₂ (fun item after =>
      after.unflexed = item.unflexed ∧ (item.frozen = true → after.frozen = true)) items after) :
    p.Idle after := by
  intro item member drop
  obtain ⟨source, among, same, frozen⟩ := exists_of_mem_right steps member
  have child : item.child = source.child := (congrArg Item.child same :)
  have flow : item.outOfFlow = source.outOfFlow := (congrArg Item.outOfFlow same :)
  obtain ⟨out, done⟩ := idle source among (child ▸ drop)
  exact ⟨flow.trans out, frozen done⟩

theorem Idle.waits {items after : List Item} (idle : p.Idle items)
    (waits : List.Forall₂ Item.Waits items after) : p.Idle after :=
  idle.after (waits.imp fun _ _ step => ⟨step.unflexed, step.frozen.trans⟩)

theorem Idle.weightless {items : List Item} (idle : p.Idle items) : p.Weightless items :=
  fun item member drop => (idle item member drop).1

/-- What one element after the other does to an accumulator, items out of flow do
not do. -/
theorem foldl_items {β : Type} {step : β → Item → β} {items : List Item}
    (moved : ∀ acc item, step acc (p.item item) = step acc item)
    (skip : ∀ item ∈ items, p.keep item.child = false → ∀ acc, step acc item = acc) (start : β) :
    (p.items items).foldl step start = items.foldl step start := by
  induction items generalizing start with
  | nil => rfl
  | cons item rest ih =>
      have rests := fun other member => skip other (List.mem_cons_of_mem item member)
      cases keep : p.keep item.child with
      | true => rw [p.items_cons_of_keep keep, List.foldl_cons, List.foldl_cons, moved, ih rests]
      | false =>
          rw [p.items_cons_of_drop keep, List.foldl_cons, skip item List.mem_cons_self keep,
            ih rests]

theorem filter_items {cond : Item → Bool} (moved : ∀ item, cond (p.item item) = cond item)
    (items : List Item) : (p.items items).filter cond = p.items (items.filter cond) := by
  have same : (cond ∘ p.item) = cond := funext moved
  rw [Pairing.items, Pairing.items, List.filter_map, same, List.filter_filter, List.filter_filter]
  congr 1
  exact List.filter_congr fun item _ => Bool.and_comm _ _

theorem map_items {β : Type} {f : Item → β} {items : List Item}
    (moved : ∀ item, f (p.item item) = f item) (kept : ∀ item ∈ items, p.keep item.child = true) :
    (p.items items).map f = items.map f := by
  have whole : items.filter (fun item => p.keep item.child) = items := List.filter_eq_self.2 kept
  rw [Pairing.items, whole, List.map_map]
  exact List.map_congr_left fun item _ => moved item

theorem items_map {f : Item → Item} (moved : ∀ item, f (p.item item) = p.item (f item))
    (child : ∀ item, (f item).child = item.child) (items : List Item) :
    (p.items items).map f = p.items (items.map f) := by
  induction items with
  | nil => rfl
  | cons item rest ih =>
      cases keep : p.keep item.child with
      | true =>
          rw [List.map_cons, p.items_cons_of_keep keep, List.map_cons, moved, ih,
            p.items_cons_of_keep ((congrArg p.keep (child item)).trans keep)]
      | false =>
          rw [List.map_cons, p.items_cons_of_drop keep, ih,
            p.items_cons_of_drop ((congrArg p.keep (child item)).trans keep)]

theorem deal_items {claims : Item → Bool} {weight : Item → Int} {give : Item → Int → Item}
    {items : List Item} (claims_moved : ∀ item, claims (p.item item) = claims item)
    (weight_moved : ∀ item, weight (p.item item) = weight item)
    (give_moved : ∀ item pixels, give (p.item item) pixels = p.item (give item pixels))
    (give_child : ∀ item pixels, (give item pixels).child = item.child)
    (none_ : ∀ item ∈ items, p.keep item.child = false → claims item = false) (share : Share) :
    Share.deal claims weight give share (p.items items) =
      p.items (Share.deal claims weight give share items) := by
  induction items generalizing share with
  | nil => rfl
  | cons item rest ih =>
      have rests := fun other member => none_ other (List.mem_cons_of_mem item member)
      cases keep : p.keep item.child with
      | true =>
          rw [p.items_cons_of_keep keep, Share.deal, Share.deal, claims_moved, weight_moved]
          split
          · rw [give_moved, p.items_cons_of_keep (by rw [give_child]; exact keep), ih rests]
          · rw [p.items_cons_of_keep keep, ih rests]
      | false =>
          rw [p.items_cons_of_drop keep, Share.deal, none_ item List.mem_cons_self keep,
            if_neg Bool.false_ne_true, p.items_cons_of_drop keep, ih rests]

end Pairing

namespace Line

open Pairing

variable {p : Pairing}

theorem freeSpace_items {items : List Item} (weightless : p.Weightless items) (available : Int) :
    freeSpace available (p.items items) = freeSpace available items := by
  refine foldl_items (fun _ _ => rfl) (fun item member drop free => ?_) available
  rw [weightless item member drop, if_pos rfl]

theorem factorSum_items (growing : Bool) {items : List Item} (weightless : p.Weightless items) :
    factorSum growing (p.items items) = factorSum growing items := by
  simp only [factorSum]
  rw [filter_items fun _ => rfl, map_items fun _ => by cases growing <;> rfl]
  intro item member
  obtain ⟨among, open_⟩ := List.mem_filter.1 member
  cases keep : p.keep item.child with
  | true => rfl
  | false => simp [weightless item among keep] at open_

theorem passSpace_items (growing : Bool) (initial available : Int) {items : List Item}
    (weightless : p.Weightless items) :
    passSpace growing initial available (p.items items) =
      passSpace growing initial available items := by
  simp only [passSpace]
  rw [freeSpace_items weightless, factorSum_items growing weightless]

theorem map_filter_items {items : List Item} (idle : p.Idle items) {cond : Item → Bool}
    (moved : ∀ item, cond (p.item item) = cond item)
    (opened : ∀ item, cond item = true → item.frozen = false) {β : Type} {f : Item → β}
    (f_moved : ∀ item, f (p.item item) = f item) :
    ((p.items items).filter cond).map f = (items.filter cond).map f := by
  rw [filter_items moved, map_items f_moved]
  intro item member
  obtain ⟨among, hit⟩ := List.mem_filter.1 member
  exact idle.keep among (opened item hit)

theorem totalViolation_items {items : List Item} (idle : p.Idle items) :
    totalViolation (p.items items) = totalViolation items := by
  rw [totalViolation_eq, totalViolation_eq, map_filter_items idle (fun _ => rfl) (by simp) fun _ => rfl]

/-- Two lines that have counted the same space, the first with `more` frozen items
that take none. -/
structure Ahead (more : Nat) (line line' : Line) : Prop where
  frozen : line.frozen = line'.frozen + more
  used : line.used = line'.used

theorem Ahead.freeze {more : Nat} {line line' : Line} (ahead : Ahead more line line')
    {items : List Item} (idle : p.Idle items) {cond : Item → Bool}
    (moved : ∀ item, cond (p.item item) = cond item) :
    Ahead more (line.freeze cond items).1 (line'.freeze cond (p.items items)).1 := by
  have newly {β : Type} {f : Item → β} (f_moved : ∀ item, f (p.item item) = f item) :
      ((p.items items).filter fun item => !item.frozen && cond item).map f =
        (items.filter fun item => !item.frozen && cond item).map f := by
    refine map_filter_items idle (fun item => ?_) (fun item hit => ?_) f_moved
    · rw [moved]
      rfl
    · simp only [Bool.and_eq_true, Bool.not_eq_true'] at hit
      exact hit.1
  constructor
  · have counted := congrArg List.length (newly (f := Item.target) fun _ => rfl)
    simp only [List.length_map] at counted
    show line.frozen + _ = line'.frozen + _ + more
    rw [counted, ahead.frozen]
    omega
  · show (line.tally _).used = (line'.tally _).used
    have both (list : List Item) :
        sizesInFlow (list.filter fun item => !item.frozen && cond item) =
          (list.filter fun item => !item.outOfFlow && (!item.frozen && cond item)).map
            Item.target := by
      rw [sizesInFlow, List.filter_filter]
    rw [used_tally, used_tally, ahead.used, both, both]
    congr 1
    refine (map_filter_items idle (fun item => ?_) (fun item hit => ?_) fun _ => rfl).symm
    · rw [moved]
      rfl
    · simp only [Bool.and_eq_true, Bool.not_eq_true'] at hit
      exact hit.2.1

theorem freeze_items {cond : Item → Bool} (moved : ∀ item, cond (p.item item) = cond item)
    (line line' : Line) (items : List Item) :
    (line'.freeze cond (p.items items)).2 = p.items (line.freeze cond items).2 := by
  rw [freeze_snd, freeze_snd]
  refine items_map (fun item => ?_) (fun item => ?_) items
  · rw [Item.freezeIf, Item.freezeIf, apply_ite p.item, moved]
    rfl
  · rw [Item.freezeIf]
    split <;> rfl

theorem holdTarget_moved (item : Item) : (p.item item).holdTarget = p.item item.holdTarget := by
  rw [Item.holdTarget, Item.holdTarget, apply_ite p.item]
  rfl

theorem holdTargets_items (items : List Item) :
    holdTargets (p.items items) = p.items (holdTargets items) := by
  rw [holdTargets_eq, holdTargets_eq]
  refine items_map (fun item => ?_) (fun item => ?_) items
  · rw [Item.holdOpen, Item.holdOpen, apply_ite p.item, holdTarget_moved]
    rfl
  · exact (waits_holdOpen item).child

/-- What a pass hands out, it hands out to the items that are kept. -/
theorem apportion_items {more : Nat} {line line' : Line} (ahead : Ahead more line line')
    {items : List Item} (idle : p.Idle items) (growing : Bool) (free : Int) :
    (apportion growing free line' (p.items items)).2 =
        p.items (apportion growing free line items).2 ∧
      Ahead more (apportion growing free line items).1
        (apportion growing free line' (p.items items)).1 := by
  have none_ : ∀ item ∈ items, p.keep item.child = false → (!item.frozen) = false := by
    intro item member drop
    rw [(idle item member drop).2, Bool.not_true]
  unfold apportion
  cases growing with
  | true =>
      rw [if_pos rfl, if_pos rfl, factorSum_items true idle.weightless]
      refine ⟨?_, ahead⟩
      show Share.deal _ _ _ _ _ = p.items (Share.deal _ _ _ _ _)
      refine deal_items ?_ ?_ ?_ ?_ none_ _ <;> intros <;> rfl
  | false =>
      rw [if_neg Bool.false_ne_true, if_neg Bool.false_ne_true,
        map_filter_items idle (f := Item.shrinkWeight) (fun _ => rfl) (by simp) fun _ => rfl]
      dsimp only
      split
      · let raise (item : Item) : Item :=
          if item.frozen then item else { item with target := item.hypothetical }
        have raised : (p.items items).map raise = p.items (items.map raise) := by
          refine items_map (fun item => ?_) (fun item => ?_) items
          · dsimp only [raise]
            rw [apply_ite p.item]
            rfl
          · dsimp only [raise]
            split <;> rfl
        have idle' : p.Idle (items.map raise) := by
          refine idle.after (List.forall₂_map_right_iff.2 (List.forall₂_same.2 fun item _ => ?_))
          dsimp only [raise]
          split
          · exact ⟨rfl, id⟩
          · exact ⟨rfl, id⟩
        rw [raised]
        exact ⟨freeze_items (fun _ => rfl) _ _ _, ahead.freeze idle' fun _ => rfl⟩
      · refine ⟨?_, ahead⟩
        show Share.deal _ _ _ _ _ = p.items (Share.deal _ _ _ _ _)
        refine deal_items ?_ ?_ ?_ ?_ none_ _ <;> intros <;> rfl

theorem freezes_moved (total : Int) (item : Item) : freezes total (p.item item) = freezes total item :=
  rfl

theorem idle_apportion (growing : Bool) (free : Int) (line : Line) {items : List Item}
    (idle : p.Idle items) : p.Idle (apportion growing free line items).2 := by
  rcases apportion_cases growing free line items with ⟨waiting, waits, all | none_⟩
  · rw [all, freeze_snd]
    refine (idle.waits waits).after (List.forall₂_map_right_iff.2 ?_)
    apply List.forall₂_same.2
    intro item _
    rw [Item.freezeIf_always]
    exact ⟨rfl, fun _ => rfl⟩
  · rw [none_]
    exact idle.waits waits

theorem settle_items {more : Nat} {line line' : Line} (ahead : Ahead more line line')
    {items : List Item} (idle : p.Idle items) :
    (line'.freeze (freezes (totalViolation (p.items items))) (holdTargets (p.items items))).2 =
        p.items (line.freeze (freezes (totalViolation items)) (holdTargets items)).2 ∧
      Ahead more (line.freeze (freezes (totalViolation items)) (holdTargets items)).1
        (line'.freeze (freezes (totalViolation (p.items items))) (holdTargets (p.items items))).1 := by
  have held : p.Idle (holdTargets items) := by
    apply idle.waits
    rw [holdTargets_eq, List.forall₂_map_right_iff]
    exact List.forall₂_same.2 fun item _ => waits_holdOpen item
  rw [totalViolation_items idle, holdTargets_items]
  exact ⟨freeze_items (freezes_moved _) _ _ _, ahead.freeze held (freezes_moved _)⟩

/-- **A pass does to the items that are kept what it does without the others.** -/
theorem flexPass_items {more : Nat} {line line' : Line} (ahead : Ahead more line line')
    {items : List Item} (idle : p.Idle items) (growing : Bool) (initial available : Int) :
    (flexPass growing initial available line' (p.items items)).2 =
        p.items (flexPass growing initial available line items).2 ∧
      Ahead more (flexPass growing initial available line items).1
        (flexPass growing initial available line' (p.items items)).1 := by
  simp only [flexPass]
  rw [passSpace_items growing initial available idle.weightless]
  generalize passSpace growing initial available items = free
  split
  · exact settle_items ahead idle
  · obtain ⟨same, ahead'⟩ := apportion_items ahead idle growing free
    rw [same]
    exact settle_items ahead' (idle_apportion growing free line idle)

theorem idle_flexPass (growing : Bool) (initial available : Int) (line : Line) {items : List Item}
    (idle : p.Idle items) : p.Idle (flexPass growing initial available line items).2 := by
  refine idle.after ((flexPass_passed growing initial available line items).imp ?_)
  intro item after passed
  refine ⟨passed.unflexed_eq, fun done => ?_⟩
  cases passed with
  | frozen => exact done
  | weightless => rfl
  | held open_ => simp [done] at open_

theorem idle_flexPasses (growing : Bool) (initial available : Int) (n : Nat) (line : Line)
    {items : List Item} (idle : p.Idle items) :
    p.Idle (flexPasses growing initial available n line items).2 := by
  induction n generalizing line items with
  | zero => exact idle
  | succ n ih =>
      simp only [flexPasses]
      split
      · exact idle
      · exact ih _ (idle_flexPass growing initial available line idle)

theorem flexPasses_items {more : Nat} (n : Nat) {line line' : Line} (ahead : Ahead more line line')
    {items : List Item} (idle : p.Idle items) (count : items.length = (p.items items).length + more)
    (growing : Bool) (initial available : Int) :
    (flexPasses growing initial available n line' (p.items items)).2 =
        p.items (flexPasses growing initial available n line items).2 ∧
      Ahead more (flexPasses growing initial available n line items).1
        (flexPasses growing initial available n line' (p.items items)).1 := by
  induction n generalizing line line' items with
  | zero => exact ⟨rfl, ahead⟩
  | succ n ih =>
      have frozen := ahead.frozen
      simp only [flexPasses]
      by_cases all : items.length ≤ line.frozen
      · rw [if_pos all, if_pos (by omega)]
        exact ⟨rfl, ahead⟩
      · rw [if_neg all, if_neg (by omega)]
        obtain ⟨same, ahead'⟩ := flexPass_items ahead idle growing initial available
        rw [same]
        apply ih ahead' (idle_flexPass growing initial available line idle)
        have after := flexPass_passed growing initial available line items
        have after' := flexPass_passed growing initial available line' (p.items items)
        rw [← same, ← after.length_eq, ← after'.length_eq]
        exact count

theorem length_items (items : List Item) :
    items.length = (p.items items).length + (items.filter fun item => !p.keep item.child).length := by
  rw [Pairing.items, List.length_map, ← List.countP_eq_length_filter,
    ← List.countP_eq_length_filter, List.length_eq_countP_add_countP fun item => p.keep item.child]
  simp

theorem sizesInFlow_items {items : List Item} (weightless : p.Weightless items) :
    sizesInFlow (p.items items) = sizesInFlow items := by
  simp only [sizesInFlow]
  rw [filter_items fun _ => rfl, map_items fun _ => rfl]
  intro item member
  obtain ⟨among, inFlow⟩ := List.mem_filter.1 member
  cases keep : p.keep item.child with
  | true => rfl
  | false => simp [weightless item among keep] at inFlow

/-- When the passes begin, the items that are not kept have been counted. -/
theorem ahead_opened (line line' : Line) {started : List Item} (idle : p.Idle started) :
    Ahead (started.filter fun item => !p.keep item.child).length
      ({ line with used := 0, frozen := 0 }.tally (started.filter Item.frozen))
      ({ line' with used := 0, frozen := 0 }.tally ((p.items started).filter Item.frozen)) := by
  have frozen : (p.items started).filter Item.frozen = p.items (started.filter Item.frozen) :=
    filter_items (fun _ => rfl) started
  rw [frozen]
  constructor
  · simp only [tally, Nat.zero_add]
    rw [length_items (started.filter Item.frozen), List.filter_filter]
    congr 2
    apply List.filter_congr
    intro item member
    cases keep : p.keep item.child with
    | true => rfl
    | false => rw [(idle item member keep).2]; rfl
  · rw [used_tally, used_tally]
    refine congrArg (List.foldl Pixel.add 0) (sizesInFlow_items fun item member drop => ?_).symm
    exact (idle item (List.mem_filter.1 member).1 drop).1

theorem flex_eq_closing (line : Line) (items : List Item) (available : Option Int) (gap : Int) :
    let room := line.roomFor available gap
    let started := items.map (Item.start (line.grows available gap))
    let ended := closing (flexPasses (line.grows available gap) (freeSpace room started) room
      (items.length + 1) ({ line with used := 0, frozen := 0 }.tally (started.filter Item.frozen))
      started)
    (line.flex items available gap).1.used =
        Pixel.add ended.1 (Pixel.gapsBetween line.inFlow gap) ∧
      (line.flex items available gap).2.map Item.calm = ended.2 := ⟨rfl, rfl⟩

theorem closing_items {more : Nat} {line line' : Line} (ahead : Ahead more line line')
    {items : List Item} (idle : p.Idle items) :
    (closing (line', p.items items)).1 = (closing (line, items)).1 ∧
      (closing (line', p.items items)).2 = p.items (closing (line, items)).2 := by
  refine ⟨(ahead.freeze idle fun _ => rfl).used.symm, ?_⟩
  show (line'.freeze _ (p.items items)).2.map _ = _
  rw [freeze_items (fun _ => rfl) line line' items]
  refine items_map (fun item => ?_) (fun item => ?_) _ <;> rfl

theorem child_start (growing : Bool) (item : Item) : (item.start growing).child = item.child :=
  (congrArg Item.child (item.unflexed_start growing) :)

theorem items_start (growing : Bool) (items : List Item) :
    (p.items items).map (Item.start growing) = p.items (items.map (Item.start growing)) := by
  refine items_map (fun item => ?_) (child_start growing) items
  rw [Item.start, Item.start, apply_ite p.item]
  rfl

theorem idle_start (growing : Bool) {items : List Item} (weightless : p.Weightless items) :
    p.Idle (items.map (Item.start growing)) := by
  intro item member drop
  obtain ⟨source, among, rfl⟩ := List.mem_map.1 member
  rw [child_start] at drop
  have out := weightless source among drop
  rw [Item.start, if_pos (by rw [out, Bool.true_or])]
  exact ⟨out, rfl⟩

/-- **Items that take no space do not influence flexing.** -/
theorem flex_items (line line' : Line) (main : line'.main = line.main)
    (inFlow : line'.inFlow = line.inFlow) {items : List Item} (weightless : p.Weightless items)
    (available : Option Int) (gap : Int) :
    (line'.flex (p.items items) available gap).1.used = (line.flex items available gap).1.used ∧
      (line'.flex (p.items items) available gap).2.map Item.calm =
        p.items ((line.flex items available gap).2.map Item.calm) := by
  obtain ⟨used, ended⟩ := flex_eq_closing line items available gap
  obtain ⟨used', ended'⟩ := flex_eq_closing line' (p.items items) available gap
  have room : line'.roomFor available gap = line.roomFor available gap := by
    simp only [roomFor]
    rw [main, inFlow]
  have growing : line'.grows available gap = line.grows available gap := by
    simp only [grows]
    rw [room, main, inFlow]
  generalize line.grows available gap = grows at used ended growing
  rw [room, growing] at used' ended'
  generalize line.roomFor available gap = space at used ended used' ended'
  let started := items.map (Item.start grows)
  have begun : (p.items items).map (Item.start grows) = p.items started := items_start grows items
  have idle : p.Idle started := idle_start grows weightless
  have ahead := ahead_opened line line' idle
  have count := length_items (p := p) started
  have opened := tallied_opened line' (p.items started)
  rw [begun, freeSpace_items idle.weightless] at used' ended'
  have gaps : Pixel.gapsBetween line'.inFlow gap = Pixel.gapsBetween line.inFlow gap := by
    rw [inFlow]
  have length : items.length = started.length := (List.length_map _).symm
  have length' : (p.items items).length = (p.items started).length := by
    rw [← begun, List.length_map]
  -- Fewer items are given fewer passes, and the ones that they lack change nothing.
  have enough := closing_flexPasses_add grows (freeSpace space started) space opened
    (n := (p.items items).length + 1) (by omega)
    (started.filter fun item => !p.keep item.child).length
  obtain ⟨same, ahead'⟩ := flexPasses_items (items.length + 1) ahead idle count grows
    (freeSpace space started) space
  have idle' : p.Idle (flexPasses grows (freeSpace space started) space (items.length + 1)
      ({ line with used := 0, frozen := 0 }.tally (started.filter Item.frozen)) started).2 :=
    idle_flexPasses _ _ _ _ _ idle
  have closed := closing_items ahead' idle'
  rw [← same] at closed
  have passes : (p.items items).length + 1 + (started.filter fun item => !p.keep item.child).length =
      items.length + 1 := by omega
  rw [passes] at enough
  constructor
  · rw [used, used', ← enough, gaps]
    exact congrArg (Pixel.add · _) closed.1
  · rw [ended, ended', ← enough]
    exact closed.2

end Line

end FlexLayout
