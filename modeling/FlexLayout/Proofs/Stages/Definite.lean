/-
# FlexLayout.Proofs.Stages.Definite -- a definite main size that does not bind

Where a container has no definite main size, a line is resolved against its own.  A
definite size that is no larger leaves nothing to hand out.  It changes nothing on a
line that is exactly as large (`placedAlike_of_full`), and nothing on a line that cannot
shrink and starts where the size does not matter (`placedAlike_of_rigid`).
-/
import FlexLayout.Proofs.Flexing.Counting
import FlexLayout.Proofs.Stages.Breaking
import FlexLayout.Proofs.Stages.Lines

namespace FlexLayout

set_option autoImplicit false

open Pairing

/-- A container without a definite main size, and one that is like it but has one. -/
structure Container.Definite (container other : Container) (least : Int) : Prop where
  alike : container.Alike other
  indefinite : container.mainSpace = none
  definite : other.mainSpace = some least

namespace Line

variable {container other : Container} {least : Int}

/-- The track of a line that leaves no space free in either container. -/
theorem ofLine_full (alike : container.Alike other) {line : Line}
    (full : container.mainSpace.getD line.used ≤ line.used)
    (full' : other.mainSpace.getD line.used ≤ line.used)
    (place : other.mainSpace.getD line.used = container.mainSpace.getD line.used ∨
      container.axes.reversed = false) :
    MainTrack.ofLine other line = MainTrack.ofLine container line := by
  have none : max 0 (container.mainSpace.getD line.used - line.used) = 0 := by omega
  have none' : max 0 (other.mainSpace.getD line.used - line.used) = 0 := by omega
  simp only [MainTrack.ofLine, alike.axes, alike.justify, alike.padding, alike.mainGap, none, none']
  rcases place with same | forward
  · rw [same]
  · simp [forward]

/-- How a line is flexed does not depend on numbers or on `auto` margins. -/
theorem used_flex_numbered (line : Line) (items : List Item) (autos index : Nat)
    (available : Option Int) (gap : Int) :
    (Line.flex { line with autoMargins := autos } (items.map fun item => { item with line := index })
      available gap).1.used = (line.flex items available gap).1.used := by
  rw [← items_same_numbered]
  refine (flex_items (p := same.numbered index) line { line with autoMargins := autos } rfl rfl
    (fun item _ drop => ?_) available gap).1
  exact Bool.noConfusion drop

/-- A line is resolved against its own size where there is no definite one. -/
theorem flex_own_size (line : Line) (items : List Item) (gap : Int) :
    line.flex items (some line.main) gap = line.flex items none gap := rfl

/-- **A definite size that is the line's own changes nothing on it.** -/
theorem placedAlike_of_full (definite : container.Definite other least) {filled : FilledLine}
    (own : least = filled.line.main)
    (full : (filled.line.flex filled.items none container.mainGap).1.used = filled.line.main) :
    PlacedAlike same True container other filled filled := by
  have itself := placedAlike_items container.alike_refl rfl filled.line filled.line rfl rfl rfl
    (weightless_same filled.items)
  rw [items_same] at itself
  refine ⟨rfl, rfl, itself.items, fun autos index index' => ?_⟩
  obtain ⟨track, items⟩ := itself.flexed autos index index'
  have track := track trivial
  have used := used_flex_numbered filled.line filled.items autos index' none container.mainGap
  rw [definite.definite, definite.alike.mainGap, own]
  rw [definite.indefinite] at track items ⊢
  have same_ := flex_own_size { filled.line with autoMargins := autos }
    (filled.items.map fun item => { item with line := index' }) container.mainGap
  dsimp only at same_
  rw [same_]
  refine ⟨fun _ => ?_, items⟩
  have exactly : other.mainSpace.getD filled.line.main = filled.line.main := by
    rw [definite.definite, own]
    rfl
  rw [ofLine_full definite.alike _ _ (.inl _), track]
  · rw [definite.indefinite]
    exact Int.le_refl _
  · rw [used, full]
    exact Int.le_of_eq exactly
  · rw [used, full, definite.indefinite]
    exact exactly

/-! ## Lines that cannot shrink -/

/-- Items that end at their hypothetical sizes take what they ask for. -/
theorem sizesInFlow_of_target {items after : List Item}
    (asked : List.Forall₂ (fun item after => after.unflexed = item.unflexed ∧
      after.target = item.hypothetical) items after) :
    sizesInFlow after = hypotheticals items := by
  simp only [sizesInFlow, hypotheticals]
  induction asked with
  | nil => rfl
  | @cons item after items afters first _ ih =>
      have flow : after.outOfFlow = item.outOfFlow := (congrArg Item.outOfFlow first.1 :)
      rw [List.filter_cons, List.filter_cons, flow]
      split
      · rw [List.map_cons, List.map_cons, ih, first.2]
      · exact ih

/-- A line whose items do not shrink, and whose sizes add up in range. -/
structure Unshrinking (gap : Int) (filled : FilledLine) : Prop where
  rigid : ∀ item ∈ filled.items, item.Rigid
  few : filled.line.inFlow < 2147483648
  summable : Pixel.Summable
    (Pixel.gapsBetween filled.line.inFlow gap :: hypotheticals filled.items)

instance (gap : Int) (filled : FilledLine) : Decidable (Unshrinking gap filled) :=
  decidable_of_iff ((∀ item ∈ filled.items, item.Rigid) ∧ filled.line.inFlow < 2147483648 ∧
      Pixel.Summable (Pixel.gapsBetween filled.line.inFlow gap :: hypotheticals filled.items))
    ⟨fun ⟨rigid, few, summable⟩ => ⟨rigid, few, summable⟩,
      fun ⟨rigid, few, summable⟩ => ⟨rigid, few, summable⟩⟩

theorem grows_of_le (line : Line) {available : Option Int} (gap : Int)
    (le : available.getD line.main ≤ line.main) : line.grows available gap = false := by
  have room : line.roomFor available gap ≤ Pixel.sub line.main (Pixel.gapsBetween line.inFlow gap) :=
    Pixel.saturate_mono (Int.sub_le_sub_right le _)
  exact decide_eq_false (Int.not_lt.2 room)

/-- Items that cannot shrink end as they were measured, and fill their line. -/
theorem Unshrinking.flex {gap : Int} {filled : FilledLine} (unshrinking : Unshrinking gap filled)
    (fit : ∀ item ∈ filled.items, item.Fit) (summed : Summed gap filled) (autos index : Nat)
    (available : Option Int) (le : available.getD filled.line.main ≤ filled.line.main) :
    List.Forall₂ (fun item after => after.unflexed = { item.unflexed with line := index } ∧
        after.target = item.hypothetical) filled.items
      (Line.flex { filled.line with autoMargins := autos }
        (filled.items.map fun item => { item with line := index }) available gap).2 ∧
      (Line.flex { filled.line with autoMargins := autos }
        (filled.items.map fun item => { item with line := index }) available gap).1.used =
          filled.line.main := by
  have shrinks : filled.line.grows available gap = false := grows_of_le _ gap le
  have sizes := sizesInFlow_of_target
    (target_flex_of_rigid filled.line shrinks fit unshrinking.rigid)
  have renumbered : ∀ item ∈ filled.items.map fun item => { item with line := index },
      item.Fit ∧ item.Rigid := by
    intro item member
    obtain ⟨source, among, rfl⟩ := List.mem_map.1 member
    exact ⟨⟨(fit source among).base, (fit source among).hypothetical⟩,
      unshrinking.rigid source among⟩
  have numbered := target_flex_of_rigid { filled.line with autoMargins := autos } shrinks
    (fun item member => (renumbered item member).1) fun item member => (renumbered item member).2
  refine ⟨List.forall₂_map_left_iff.1 numbered, ?_⟩
  have used := used_flex filled.line filled.items available gap
    (by rw [sizes]; exact unshrinking.summable)
  rw [sizes, gapsBetween_eq unshrinking.few] at used
  rw [used_flex_numbered, used]
  exact summed.symm

theorem counterparts_of_target {items flexed flexed' : List Item} {index index' : Nat}
    (first : List.Forall₂ (fun item after => after.unflexed = { item.unflexed with line := index } ∧
      after.target = item.hypothetical) items flexed)
    (second : List.Forall₂ (fun item after => after.unflexed = { item.unflexed with line := index' } ∧
      after.target = item.hypothetical) items flexed') : Item.Counterparts same flexed flexed' := by
  refine Item.counterparts_same (forall₂_trans (fun a b c first second => ?_) first.flip second)
  obtain ⟨fixed, target⟩ := first
  obtain ⟨fixed', target'⟩ := second
  exact ⟨(congrArg Item.child fixed' :).trans (congrArg Item.child fixed :).symm,
    target'.trans target.symm,
    (congrArg Item.outOfFlow fixed' :).trans (congrArg Item.outOfFlow fixed :).symm,
    (congrArg Item.minCross fixed' :).trans (congrArg Item.minCross fixed :).symm,
    (congrArg Item.maxCross fixed' :).trans (congrArg Item.maxCross fixed :).symm⟩

/-- **A main size that nothing shrinks to makes no difference to a line that starts where
it does not matter.** -/
theorem placedAlike_of_rigid (alike : container.Alike other) {filled : FilledLine}
    (unshrinking : Unshrinking container.mainGap filled) (fit : ∀ item ∈ filled.items, item.Fit)
    (summed : Summed container.mainGap filled)
    (le : container.mainSpace.getD filled.line.main ≤ filled.line.main)
    (le' : other.mainSpace.getD filled.line.main ≤ filled.line.main)
    (forward : container.axes.reversed = false) :
    PlacedAlike same True container other filled filled := by
  refine ⟨rfl, rfl, ?_, fun autos index index' => ?_⟩
  · have items := Item.counterparts_items (p := same) filled.items
    rwa [items_same] at items
  · obtain ⟨items, used⟩ := unshrinking.flex fit summed autos index container.mainSpace le
    obtain ⟨items', used'⟩ := unshrinking.flex fit summed autos index' other.mainSpace le'
    obtain ⟨_, _, counts⟩ := counts_flex { filled.line with autoMargins := autos }
      (filled.items.map fun item => { item with line := index }) container.mainSpace
      container.mainGap
    obtain ⟨_, _, counts'⟩ := counts_flex { filled.line with autoMargins := autos }
      (filled.items.map fun item => { item with line := index' }) other.mainSpace container.mainGap
    rw [alike.mainGap]
    refine ⟨fun _ => ?_, ?_⟩
    · rw [ofLine_full alike (by rwa [used']) (by rwa [used']) (.inr forward)]
      refine ofLine_alike container.alike_refl rfl (used'.trans used.symm) ?_ ?_
      · rw [counts, counts']
      · rw [counts, counts']
    · exact counterparts_of_target items items'

end Line

/-! ## Lines whose items ask for all of it -/

/-- No maximum cuts the base size of the item, if it can shrink. -/
def Item.Uncut (item : Item) : Prop :=
  item.outOfFlow = true ∨ item.shrink.isZero = true ∨ item.base ≤ item.hypothetical

instance (item : Item) : Decidable item.Uncut := inferInstanceAs (Decidable (_ ∨ _ ∨ _))

theorem Item.Uncut.start {item : Item} (uncut : item.Uncut) :
    (item.start false).target = item.hypothetical ∧
      (item.start false).claim = item.hypothetical := by
  rcases item.start_cases false with ⟨-, same⟩ | ⟨inFlow, flexes, same⟩
  · rw [same]
    exact ⟨rfl, rfl⟩
  · rw [same]
    simp only [Item.inflexible, Bool.false_eq_true, if_false, Bool.or_eq_false_iff,
      decide_eq_false_iff_not] at flexes
    have below := (uncut.resolve_left (by simp [inFlow])).resolve_left (by simp [flexes.1])
    have equal : item.base = item.hypothetical := by omega
    exact ⟨equal, equal⟩

theorem Item.Uncut.held {item : Item} (fit : item.Fit) (uncut : item.Uncut) :
    (item.start false).Held := by
  have same := item.unflexed_start false
  have hypothetical : (item.start false).hypothetical = item.hypothetical :=
    (congrArg Item.hypothetical same :)
  rw [Item.Held, uncut.start.1, ← hypothetical]
  exact fit.limited.of_unflexed same

namespace Line

variable {line : Line} {items : List Item}

/-- Items that have what they ask for leave nothing of the sum. -/
theorem freeSpace_started (uncut : ∀ item ∈ items, item.Uncut)
    (summable : Pixel.Summable (hypotheticals items)) :
    freeSpace (hypotheticals items).sum (started false items) = 0 := by
  have flow (item : Item) : (item.start false).outOfFlow = item.outOfFlow :=
    (congrArg Item.outOfFlow (item.unflexed_start false) :)
  simp only [freeSpace, started, List.foldl_map]
  induction items with
  | nil => rfl
  | cons item rest ih =>
      obtain ⟨here, later⟩ := List.forall_mem_cons.1 uncut
      simp only [hypotheticals] at ih summable ⊢
      rw [List.foldl_cons, flow, here.start.2, List.filter_cons]
      rw [List.filter_cons] at summable
      cases out : item.outOfFlow with
      | true =>
          rw [out] at summable
          exact ih later summable
      | false =>
          rw [out, Bool.not_false, if_pos rfl, List.map_cons] at summable
          rw [Bool.not_false, if_pos rfl, if_neg Bool.false_ne_true, List.map_cons, List.sum_cons,
            Pixel.sub, add_sub_cancel_left, Pixel.saturate_of_inRange summable.tail.inRange]
          exact ih later summable.tail

/-- A pass without space to hand out freezes such items where they are. -/
theorem flexPass_of_uncut (fit : ∀ item ∈ items, item.Fit) (uncut : ∀ item ∈ items, item.Uncut)
    (tallied : Tallied line (started false items))
    (some : ∃ item ∈ started false items, item.frozen = false) {room : Int}
    (nothing : passSpace false 0 room (started false items) = 0) :
    let next := flexPass false 0 room line (started false items)
    line.frozen < next.1.frozen ∧
      List.Forall₂ (fun item after => after.unflexed = item.unflexed ∧
        after.target = item.hypothetical) items next.2 ∧
      ∀ item ∈ next.2, item.frozen = true := by
  have held : ∀ after ∈ started false items, after.frozen = false → after.Held := by
    intro after member _
    obtain ⟨item, among, rfl⟩ := List.mem_map.1 member
    exact (uncut item among).held (fit item among)
  obtain ⟨more, still, frozen⟩ := flexPass_of_held tallied some nothing held
  refine ⟨more, ?_, frozen⟩
  refine ((List.forall₂_and_left _ _).2 ⟨uncut, List.forall₂_map_left_iff.1 still⟩).imp ?_
  rintro item after ⟨uncut, same, target⟩
  exact ⟨same.trans (item.unflexed_start false), target.trans uncut.start.1⟩

/-- The hypothetical sizes of a line and its gaps are its own size. -/
theorem Summed.main_eq {filled : FilledLine} {gap : Int} (summed : Summed gap filled)
    (few : filled.line.inFlow < 2147483648) : filled.line.main =
      (hypotheticals filled.items).sum + Pixel.gapsBetween filled.line.inFlow gap := by
  rw [gapsBetween_eq few]
  exact summed

/-- **Items that ask for all of their line end as they were measured**, if no maximum cuts
the base size of one that can shrink. -/
theorem target_flex_of_uncut {filled : FilledLine} {gap : Int} (summed : Summed gap filled)
    (fit : ∀ item ∈ filled.items, item.Fit) (uncut : ∀ item ∈ filled.items, item.Uncut)
    (few : filled.line.inFlow < 2147483648)
    (summable : Pixel.Summable
      (Pixel.gapsBetween filled.line.inFlow gap :: hypotheticals filled.items)) :
    List.Forall₂ (fun item after => after.unflexed = item.unflexed ∧ after.target = item.hypothetical)
      filled.items (filled.line.flex filled.items none gap).2 := by
  have main := summed.main_eq few
  obtain ⟨line, items⟩ := filled
  dsimp only at fit uncut summable main ⊢
  have shrinks : line.grows none gap = false := decide_eq_false (Int.lt_irrefl _)
  have room : line.roomFor none gap = (hypotheticals items).sum := by
    rw [roomFor, Option.getD_none, main, Pixel.sub, Int.add_sub_cancel,
      Pixel.saturate_of_inRange summable.tail.inRange]
  have free := freeSpace_started uncut summable.tail
  have nothing : passSpace false 0 (hypotheticals items).sum (started false items) = 0 := by
    have bound := natAbs_passSpace_le false 0 (hypotheticals items).sum (started false items)
    rw [free] at bound
    omega
  obtain ⟨-, -, ends⟩ := flex_ends line none gap (fun _ _ others => others = started false items)
    (List.Forall₂ (fun item after => after.unflexed = item.unflexed ∧
      after.target = item.hypothetical) items) (by rw [shrinks])
    fun _ before others tallied some same _ => by
      subst same
      rw [shrinks, room, free]
      exact (flexPass_of_uncut fit uncut tallied some nothing).imp_right .inr
  refine ends.elim (fun kept => ?_) id
  obtain ⟨-, -, same⟩ := kept
  rw [same, started]
  exact List.forall₂_map_right_iff.2 (List.forall₂_same.2 fun item member =>
    ⟨item.unflexed_start false, (uncut item member).start.1⟩)

/-- Items that end as they were measured fill a line without a definite size. -/
theorem used_flex_of_target {filled : FilledLine} {gap : Int} (summed : Summed gap filled)
    (few : filled.line.inFlow < 2147483648)
    (summable : Pixel.Summable
      (Pixel.gapsBetween filled.line.inFlow gap :: hypotheticals filled.items))
    (still : List.Forall₂ (fun item after => after.unflexed = item.unflexed ∧
      after.target = item.hypothetical) filled.items (filled.line.flex filled.items none gap).2) :
    (filled.line.flex filled.items none gap).1.used = filled.line.main := by
  have sizes := sizesInFlow_of_target still
  rw [used_flex filled.line filled.items none gap (by rw [sizes]; exact summable), sizes]
  exact (summed.main_eq few).symm

end Line

end FlexLayout
