/-
# FlexLayout.Proofs.LateHeight.Lines -- lines on which nothing flexes

A line without a definite size is resolved against its own, so as a rule its items keep
their hypothetical sizes (`Line.AtRest`, `FlexedFrom.stays`).  They keep them too when the
line turns out to have more room, if none of them can grow (`target_flex_late`).  So the
line is flexed alike with and without the definite size, and it is walked alike if that
size is its own (`placedAlike_late`).
-/
import FlexLayout.Proofs.Stages.Close
import FlexLayout.Proofs.Stages.Definite

namespace FlexLayout

set_option autoImplicit false

open Pairing

namespace Line

variable {line : Line} {items : List Item} {available : Option Int} {gap height : Int}
  {container other : Container} {filled : FilledLine}

/-- The items end at their hypothetical sizes. -/
def AtRest (items : List Item) : Prop := ∀ item ∈ items, item.target = item.hypothetical

instance (items : List Item) : Decidable (AtRest items) :=
  inferInstanceAs (Decidable (∀ item ∈ items, _))

theorem target_flex_of_atRest (rest : AtRest (line.flex items available gap).2) :
    List.Forall₂ (fun item after => after.unflexed = item.unflexed ∧ after.target = item.hypothetical)
      items (line.flex items available gap).2 := by
  refine (forall₂_and_right (map_unflexed_flex line items available gap) rest).imp ?_
  rintro item after ⟨same, target⟩
  exact ⟨same, target.trans (congrArg Item.hypothetical same :)⟩

theorem atRest_of_target {after : List Item}
    (asked : List.Forall₂ (fun item after => after.unflexed = item.unflexed ∧
      after.target = item.hypothetical) items after) : AtRest after := by
  intro last member
  obtain ⟨item, -, same, target⟩ := exists_of_mem_right asked member
  exact target.trans (congrArg Item.hypothetical same :).symm

theorem atRest_numbered (autos index : Nat) :
    AtRest (Line.flex { line with autoMargins := autos }
        (items.map fun item => { item with line := index }) available gap).2 ↔
      AtRest (line.flex items available gap).2 := by
  have weightless : (same.numbered index).Weightless items := fun item _ drop => Bool.noConfusion drop
  have same := (flex_items (p := same.numbered index) line { line with autoMargins := autos } rfl rfl
    weightless available gap).2
  rw [items_same_numbered, items_same_numbered] at same
  let sizes (item : Item) : Int × Int := (item.target, item.hypothetical)
  have rests (items : List Item) : AtRest items ↔ ∀ pair ∈ items.map sizes, pair.1 = pair.2 :=
    (List.forall_mem_map (f := sizes) (P := fun pair => pair.1 = pair.2)).symm
  have equal := congrArg (List.map sizes) same
  rw [List.map_map, List.map_map, List.map_map] at equal
  rw [rests, rests]
  exact iff_of_eq (congrArg (fun pairs => ∀ pair ∈ pairs, pair.1 = pair.2) equal)

/-! ## Room to grow -/

/-- Items of which none can grow end as they were measured, where there is room to grow. -/
theorem target_flex_of_ungrowing (grows : line.grows available gap = true)
    (rigid : ∀ item ∈ items, item.outOfFlow = false → item.grow.isZero = true) :
    List.Forall₂ (fun item after => after.unflexed = item.unflexed ∧ after.target = item.hypothetical)
      items (line.flex items available gap).2 := by
  have frozen : List.Forall₂ (fun item after =>
      (item.outOfFlow = false → item.grow.isZero = true) →
        after.unflexed = item.unflexed ∧ after.frozen = true ∧ after.target = item.hypothetical)
      items (line.flex items available gap).2 := by
    refine forall₂_flex (fun item _ rigid => ?_) (fun item before after holds passed rigid => ?_)
      fun item after holds rigid => ?_
    · have stays : (item.outOfFlow || item.inflexible true) = true := by
        cases out : item.outOfFlow with
        | true => rfl
        | false => simp [Item.inflexible, rigid out]
      rw [grows]
      refine ⟨item.unflexed_start true, ?_, ?_⟩
      · simp only [Item.start, stays, if_true]
      · simp only [Item.start, stays, if_true]
    · obtain ⟨same, done, target⟩ := holds rigid
      cases passed with
      | frozen => exact ⟨same, done, target⟩
      | weightless open_ => simp [done] at open_
      | held open_ => simp [done] at open_
    · obtain ⟨same, -, target⟩ := holds rigid
      exact ⟨same, rfl, target⟩
  refine ((List.forall₂_and_left _ _).2 ⟨rigid, frozen⟩).imp ?_
  rintro item after ⟨rigid, ends⟩
  obtain ⟨same, -, target⟩ := ends rigid
  exact ⟨same, target⟩

/-- How a line is flexed depends on nothing but the room of the space that there is. -/
theorem flex_of_room {available' : Option Int}
    (room : line.roomFor available' gap = line.roomFor available gap) :
    line.flex items available' gap = line.flex items available gap := by
  have growing : line.grows available' gap = line.grows available gap := by
    rw [grows, grows, room]
  simp only [flex, room, growing]

/-- **Items at rest on a line of its own size are at rest on a larger one**, if none of them
can grow. -/
theorem target_flex_late (enough : line.main ≤ height)
    (rigid : ∀ item ∈ items, item.outOfFlow = false → item.grow.isZero = true)
    (rest : AtRest (line.flex items none gap).2) :
    List.Forall₂ (fun item after => after.unflexed = item.unflexed ∧ after.target = item.hypothetical)
      items (line.flex items (some height) gap).2 := by
  cases growing : line.grows (some height) gap with
  | true => exact target_flex_of_ungrowing growing rigid
  | false =>
      -- The larger size is too small for the gaps as well, and both rooms are the least there is.
      have room : line.roomFor (some height) gap = line.roomFor none gap := by
        have most := of_decide_eq_false growing
        have least : Pixel.sub line.main (Pixel.gapsBetween line.inFlow gap) ≤
            Pixel.sub height (Pixel.gapsBetween line.inFlow gap) :=
          Pixel.saturate_mono (Int.sub_le_sub_right enough _)
        simp only [roomFor, Option.getD_some, Option.getD_none] at most ⊢
        omega
      rw [flex_of_room room]
      exact target_flex_of_atRest rest

/-- **A line at rest is placed alike where it has more room**, and it is walked alike if the
room is its own. -/
theorem placedAlike_late {a : Prop} (definite : container.Definite other height)
    (own : a → height = filled.line.main) (enough : filled.line.main ≤ height)
    (rigid : ∀ item ∈ filled.items, item.outOfFlow = false → item.grow.isZero = true)
    (rest : AtRest (filled.line.flex filled.items none container.mainGap).2)
    (full : (filled.line.flex filled.items none container.mainGap).1.used = filled.line.main) :
    PlacedAlike same a container other filled filled := by
  have itself := Item.counterparts_items (p := same) filled.items
  rw [items_same] at itself
  refine ⟨rfl, rfl, itself, fun autos index index' => ⟨fun holds => ?_, ?_⟩⟩
  · exact ((placedAlike_of_full definite (own holds) full).flexed autos index index').track trivial
  · rw [definite.indefinite, definite.definite, definite.alike.mainGap]
    have rest' (index : Nat) := (atRest_numbered autos index).2 rest
    have renumbered : ∀ item ∈ filled.items.map fun item => { item with line := index' },
        item.outOfFlow = false → item.grow.isZero = true := by
      intro item member
      obtain ⟨source, among, rfl⟩ := List.mem_map.1 member
      exact rigid source among
    have asked := List.forall₂_map_left_iff.1 (target_flex_of_atRest (rest' index))
    have enough' : ({ filled.line with autoMargins := autos } : Line).main ≤ height := enough
    have asked' := List.forall₂_map_left_iff.1
      (target_flex_late enough' renumbered (rest' index'))
    exact counterparts_of_target asked asked'

/-! ## Lines that were placed -/

/-- The items of a placed line are those of the line, flexed. -/
def FlexedFrom (container : Container) (filled placed : FilledLine) : Prop :=
  ∃ autos index, placed.items = (Line.flex { filled.line with autoMargins := autos }
    (filled.items.map fun item => { item with line := index }) container.mainSpace
    container.mainGap).2

theorem placeAll_flexed (container : Container) (index : Nat) (lines : List FilledLine)
    (kids : List Kid) :
    Run.Ensures (fun made => List.Forall₂ (FlexedFrom container) lines made.1)
      (placeAll container index lines kids) := by
  refine (placeAll_flexedAs container index lines kids).mono fun made ⟨length, each⟩ => ?_
  refine List.forall₂_iff_get.2 ⟨length.symm, fun k within within' => ?_⟩
  have flexed := each k _ _ (List.getElem?_eq_getElem within) (List.getElem?_eq_getElem within')
  exact ⟨_, index + k, congrArg FilledLine.items flexed⟩

/-- What flexing does not decide is what it was before the line was placed. -/
theorem FlexedFrom.unflexed {placed : FilledLine} (from_ : FlexedFrom container filled placed) :
    ∃ index, List.Forall₂ (fun item after => after.unflexed = { item.unflexed with line := index })
      filled.items placed.items := by
  obtain ⟨autos, index, items⟩ := from_
  have same := map_unflexed_flex { filled.line with autoMargins := autos }
    (filled.items.map fun item => { item with line := index }) container.mainSpace container.mainGap
  rw [← items] at same
  exact ⟨index, (List.forall₂_map_left_iff.1 same).imp fun _ _ same => same⟩

theorem uncut_of_unflexed {item after : Item} {index : Nat}
    (same : after.unflexed = { item.unflexed with line := index }) : after.Uncut ↔ item.Uncut := by
  have kept : after.Uncut ↔ after.unflexed.Uncut := Iff.rfl
  rw [kept, same]
  exact Iff.rfl

theorem FlexedFrom.hypotheticals_eq {placed : FilledLine} (from_ : FlexedFrom container filled placed) :
    hypotheticals placed.items = hypotheticals filled.items := by
  obtain ⟨index, same⟩ := from_.unflexed
  simp only [hypotheticals]
  generalize filled.items = items at same ⊢
  generalize placed.items = afters at same ⊢
  induction same with
  | nil => rfl
  | @cons item after items afters first _ ih =>
      have flow : after.outOfFlow = item.outOfFlow := (congrArg Item.outOfFlow first :)
      have size : after.hypothetical = item.hypothetical := (congrArg Item.hypothetical first :)
      rw [List.filter_cons, List.filter_cons, flow]
      split
      · rw [List.map_cons, List.map_cons, ih, size]
      · exact ih

/-- Nothing flexes on a line that is resolved against its own size: no maximum cuts the base
size of an item that can shrink, or else all items are at rest all the same. -/
inductive Rests (items : List Item) : Prop where
  | uncut (each : ∀ item ∈ items, item.Uncut)
  | asked (each : AtRest items)

instance (items : List Item) : Decidable (Rests items) :=
  decidable_of_iff ((∀ item ∈ items, item.Uncut) ∨ AtRest items)
    ⟨fun rests => rests.elim .uncut .asked, fun rests => by cases rests <;> simp_all⟩

/-- A line that was placed without flexing, and whose sizes add up in the range of pixels. -/
structure Placid (gap : Int) (filled : FilledLine) : Prop where
  rests : Rests filled.items
  few : filled.line.inFlow < 2147483648
  summable : Pixel.Summable
    (Pixel.gapsBetween filled.line.inFlow gap :: hypotheticals filled.items)

theorem placid_nil (gap : Int) : Placid gap ⟨{}, []⟩ where
  rests := .asked fun _ member => absurd member List.not_mem_nil
  few := by decide
  summable := by
    show Pixel.Summable [0]
    decide

/-- A line on which nothing flexes: resolved against its own size, it is filled by its items,
and they are at rest when it is placed. -/
structure Stays (container : Container) (filled placed : FilledLine) : Prop where
  main : placed.line.main = filled.line.main
  rest : AtRest (filled.line.flex filled.items none container.mainGap).2
  full : (filled.line.flex filled.items none container.mainGap).1.used = filled.line.main
  placed : AtRest placed.items

/-- **The items of a line on which nothing flexes fill it.** -/
theorem FlexedFrom.stays {placed : FilledLine} (from_ : FlexedFrom container filled placed)
    (kept : PlacedFrom filled placed) (indefinite : container.mainSpace = none)
    (summed : Summed container.mainGap filled) (fit : ∀ item ∈ filled.items, item.Fit)
    (placid : Placid container.mainGap placed) : Stays container filled placed := by
  obtain ⟨rests, few, summable⟩ := placid
  rw [kept.inFlow] at few summable
  rw [from_.hypotheticals_eq] at summable
  have rest : AtRest placed.items ↔
      AtRest (filled.line.flex filled.items none container.mainGap).2 := by
    obtain ⟨autos, index, items⟩ := from_
    rw [items, indefinite]
    exact atRest_numbered autos index
  have still : AtRest (filled.line.flex filled.items none container.mainGap).2 := by
    cases rests with
    | asked each => exact rest.1 each
    | uncut each =>
        obtain ⟨index, same⟩ := from_.unflexed
        refine atRest_of_target (target_flex_of_uncut summed fit (fun item member => ?_) few summable)
        obtain ⟨after, among, same⟩ := exists_of_mem_right same.flip member
        exact (uncut_of_unflexed same).1 (each after among)
  exact ⟨kept.main, still,
    used_flex_of_target summed few summable (target_flex_of_atRest still), rest.2 still⟩

theorem stays_placed {sorted : List Item} {sized kids : List Kid} {placed : List FilledLine}
    {start mid : CallLog} (indefinite : container.mainSpace = none) (fit : ∀ item ∈ sorted, item.Fit)
    (arranged : (container.arrange 0 sorted sized).outcome start = (.ok (placed, kids), mid))
    (kept : List.Forall₂ PlacedFrom (breakAll container.breaking sorted) placed)
    (placid : ∀ filled ∈ placed, Placid container.mainGap filled) :
    List.Forall₂ (Stays container) (breakAll container.breaking sorted) placed := by
  have flexed := placeAll_flexed container 0 (breakAll container.breaking sorted) sized _ _ _ arranged
  have summed := main_breakAll container.breaking sorted
  have fits : ∀ filled ∈ breakAll container.breaking sorted, ∀ item ∈ filled.items, item.Fit := by
    intro filled member item among
    apply fit
    rw [← items_flatMap_breakAll container.breaking sorted]
    exact List.mem_flatMap.2 ⟨filled, member, among⟩
  have both := List.Forall₂.mp (fun _ _ => And.intro) flexed kept
  refine ((List.forall₂_and_left _ _).2 ⟨fun filled member =>
    And.intro (summed filled member) (fits filled member), forall₂_and_right both placid⟩).imp ?_
  rintro filled after ⟨⟨summed, fit⟩, ⟨from_, kept⟩, placid⟩
  exact from_.stays kept indefinite summed fit placid

/-- **The line of a column that does not wrap is placed alike when its height is definite**,
and it is walked alike if its items fill the height. -/
theorem lines_late {sorted : List Item} {placed : List FilledLine}
    (definite : container.Definite other height) (nowrap : container.style.wrap = .nowrap)
    (stays : List.Forall₂ (Stays container) (breakAll container.breaking sorted) placed)
    (rigid : ∀ item ∈ sorted, item.outOfFlow = false → item.grow.isZero = true)
    (enough : ∀ filled ∈ placed, filled.line.main ≤ height) :
    Lines (PlacedAlike same (∀ filled ∈ placed, height = filled.line.main) container other)
      (breakAll container.breaking sorted) (breakAll other.breaking sorted) := by
  have single (container : Container) (nowrap : container.style.wrap = .nowrap) :
      (breakAll container.breaking sorted).length ≤ 1 := by
    refine length_breakAll_of_unbroken (.inl ?_) sorted
    rw [Container.breaking, nowrap]
    rfl
  have gap : other.breaking.gap = container.breaking.gap := definite.alike.mainGap
  have broken := breakAll_unbroken gap (single container nowrap)
    (single other (definite.alike.wrap.trans nowrap))
  have all := items_flatMap_breakAll container.breaking sorted
  rw [broken]
  refine lines_of_forall₂ (List.forall₂_same.2 fun filled member => ?_)
  obtain ⟨after, among, stays⟩ := exists_of_mem_right stays.flip member
  refine placedAlike_late definite (fun own => ?_) ?_ (fun item inside => ?_) stays.rest stays.full
  · rw [own after among, stays.main]
  · rw [← stays.main]
    exact enough after among
  · refine rigid item ?_
    rw [← all]
    exact List.mem_flatMap.2 ⟨filled, member, inside⟩

end Line

end FlexLayout
