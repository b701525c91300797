/-
# FlexLayout.Proofs.Completeness -- a layout that succeeds is complete

When a flex container has been laid out, its width and its height are known, and so are
the sizes of every flex item, in flow or out of flow, of the container and of each flex
box below it (`Box.layOutFlex_complete`).  No size is negative, whatever margins, limits
and factors the styles have, except for a negative width that was imposed on the
container itself.

Every child that takes part has an item, which is given its main size and then aligned, so
that a container makes its items complete if laying out a child does what is asked of it
(`Container.layOut_complete`).  For all boxes this is an induction
on the box (`Box.completing`).
-/
import FlexLayout.Proofs.Completeness.Sizes
import FlexLayout.Proofs.Tiling.Closing

namespace FlexLayout

set_option autoImplicit false

namespace Item

/-- The child of the item is one of the boxes, and has its main size to come. -/
def Begun (boxes : List Box) (axes : Axes) (item : Item) (kid : Kid) : Prop :=
  boxes[item.child]? = some kid.box ∧ kid.Begun axes

/-- The child of the item is one of the boxes, and complete. -/
def Done (boxes : List Box) (item : Item) (kid : Kid) : Prop :=
  boxes[item.child]? = some kid.box ∧ kid.Complete

end Item

/-! ## One container -/

/-- **Placing a line completes its items.** -/
theorem Line.place_complete {boxes : List Box} {container : Container} {filled : FilledLine}
    {kids : List Kid} (nodup : (filled.items.map Item.child).Nodup)
    (begun : ∀ item ∈ filled.items, item.With (Item.Begun boxes container.axes) kids) :
    Run.Ensures (fun a => (∀ item ∈ a.1.items, item.With (Item.Done boxes) a.2) ∧
        ∀ i, i ∉ filled.items.map Item.child → a.2[i]? = kids[i]?)
      (place container filled kids) := by
  refine (place_each (R := fun item _ after => item.Done boxes after) nodup
    fun line item member => ?_).mono ?_
  · obtain ⟨source, among, same⟩ := exists_of_mem_right
      (map_unflexed_flex line filled.items container.mainSpace container.mainGap) member
    have child : item.child = source.child := (congrArg Item.child same :)
    obtain ⟨kid, found, box, sizes⟩ := begun source among
    refine ⟨kid, child ▸ found, (Item.giveMainSize_complete item sizes).mono ?_⟩
    rintro after ⟨kept, complete⟩
    exact ⟨by rw [child, box, kept], complete⟩
  · rintro a ⟨-, becomes, rests, -⟩
    refine ⟨fun item member => ?_, rests⟩
    obtain ⟨kid, last, -, found, laid, coordinate, ⟨box, complete⟩, rfl⟩ := becomes item member
    refine ⟨_, found, box, complete.withFrame ?_ ?_⟩
    · simp only [Axes.moveMain]
      split <;> rfl
    · simp only [Axes.moveMain]
      split <;> rfl

namespace Container

variable {resolve : Resolver} {style : Style} {frame : Frame} {available : Int}

/-- **A container makes its items complete**, if laying out each of them does. -/
theorem layOut_complete {kids : List Kid}
    (completing : ∀ kid ∈ kids, Completing kid.box kid.layOut) :
    Run.Ensures (fun result => ItemsComplete (kids.map Kid.box) result.children)
      (layOut resolve style frame kids available) := by
  let boxes := kids.map Kid.box
  let axes := (prepare resolve style frame available).axes
  have measured : Run.Ensures (fun a => ∀ item ∈ a.1, item.With (Item.Begun boxes axes) a.2)
      (Item.measureAll resolve (prepare resolve style frame available) 0 0 kids) := by
    refine (Item.measureAll_each (P := fun kid _ after => after.box = kid.box ∧ after.Begun axes) 0 0
      fun kid member _ child index => Item.measure_begun child index (completing kid member)).mono ?_
    intro a each item member
    obtain ⟨-, kid, after, found, there, same, begun⟩ := each item member
    rw [Nat.sub_zero] at found there
    refine ⟨after, there, ?_, begun⟩
    rw [List.getElem?_map, found, same]
    rfl
  -- Placing completes each item, and aligning keeps it so.
  have placed := flow_each (P := Item.Begun boxes axes)
    (Q := fun filled kids => ∀ item ∈ filled.items, item.With (Item.Done boxes) kids)
    (fun _ _ _ begun => begun) measured (fun _ _ nodup begun => Line.place_complete nodup begun)
    fun _ _ _ done same item member => (done item member).congr (same item member)
  refine Run.ensures_bind (placed.and (flow_seats resolve style frame kids available)) ?_
  rintro flow ⟨⟨-, lines⟩, seats⟩
  have items := flatMap_items_spreadLines flow.container flow.crossSize flow.lines
  refine (Flow.close_each (R := fun _ _ kid after => after.box = kid.box ∧ after.Complete)
    seats.nodup
    fun filled member item among => ?_).mono ?_
  · have there : item ∈ flow.lines.flatMap FilledLine.items :=
      items ▸ List.mem_flatMap.2 ⟨filled, member, among⟩
    obtain ⟨source, inside, within⟩ := List.mem_flatMap.1 there
    obtain ⟨kid, found, -, complete⟩ := (lines source inside).1 item within
    exact ⟨kid, found, alignKid_complete resolve filled.line item complete⟩
  · rintro result ⟨-, after, children, becomes⟩
    refine itemsComplete_iff.2 fun i box found participates => ?_
    obtain ⟨kid, there, rfl⟩ := Option.map_eq_some_iff.1 ((List.getElem?_map ..).symm.trans found)
    obtain ⟨item, member, rfl⟩ := List.mem_map.1 (seats.listed i kid there participates)
    obtain ⟨source, inside, within⟩ := List.mem_flatMap.1 member
    obtain ⟨filled, spread, among⟩ := List.mem_flatMap.1 (items.symm ▸ member)
    obtain ⟨before, placed, box, -⟩ := (lines source inside).1 item within
    obtain ⟨kid', last, atKid, atLast, same, complete⟩ := becomes filled spread item among
    obtain rfl : before = kid' := Option.some.inj (placed.symm.trans atKid)
    have equal : last.box = kid.box :=
      same.trans (Option.some.inj (box.symm.trans found))
    refine ⟨last.fragment, ?_, equal ▸ complete.complete⟩
    rw [children, List.getElem?_map, atLast]
    rfl

theorem layOut_sizes (resolve : Resolver) (style : Style) (frame : Frame) (kids : List Kid)
    (available : Int) :
    Run.Ensures (fun result =>
        (∃ width, result.frame.width = some width ∧ (width < 0 → frame.width = some width)) ∧
        ∃ height, result.frame.height = some height ∧ 0 ≤ height)
      (layOut resolve style frame kids available) := by
  refine (layOut_frame resolve style frame kids available).mono ?_
  rintro result ⟨mainSize, crossSize, same⟩
  rw [same]
  refine ⟨⟨_, rfl, fun negative => ?_⟩, _, rfl, Int.le_max_left _ _⟩
  cases imposed : frame.width with
  | some width => rfl
  | none =>
      rw [imposed] at negative
      exact absurd negative (Int.not_lt.2 (Int.le_max_left _ _))

end Container

/-! ## All boxes -/

/-- A host that lays out no children keeps what is known. -/
theorem Host.layOutContents_laid {host : Host} (simple : host.conduct ≠ .stack) (box : Box)
    (other : box.kind ≠ .flex) (available : Option Int) {frame : Frame} (kids : List Kid)
    (width : ∃ size, frame.width = some size ∧ 0 ≤ size) (height : Unsigned frame.height) :
    Run.Ensures (fun laid => laid.Laid box ∧
        (frame.height.isSome = true → laid.frame.height.isSome = true))
      (host.layOutContents box.kind available frame kids) := by
  have plain {P : Prop} (flex : box.kind.isFlex = true) : P :=
    absurd (by simpa [BoxKind.isFlex] using flex) other
  apply layOutContents_ensures
  · exact fun _ => ⟨⟨width, height, plain⟩, id⟩
  · intro _
    obtain ⟨size, known, nonneg⟩ := width
    refine ⟨⟨⟨size, ?_, nonneg⟩, ?_, plain⟩, fun _ => rfl⟩
    · simp [Frame.filled, known]
    · intro pixels same
      simp only [Frame.filled, Option.some.injEq] at same
      cases here : frame.height with
      | none =>
          rw [here] at same
          exact Int.le_of_eq same
      | some size =>
          rw [here] at same
          exact same ▸ height size here
  · exact fun stack => absurd stack simple

mutual

/-- **Laying out a box completes it.** -/
theorem Box.completing {host : Host} (simple : host.conduct ≠ .stack) (box : Box) :
    Completing box (box.layOut host.environment) := by
  obtain ⟨kind, style, generated, least, most, boxes⟩ := box
  -- Down the tree: laying out a child completes it.
  have each := Box.completing_all simple boxes
  intro fragment available width height
  by_cases flex : kind = .flex
  · rw [Box.layOut_of_flex _ _ _ _ flex]
    have kids : ∀ kid ∈ Kid.ofBoxes host.environment boxes fragment.children,
        Completing kid.box kid.layOut := by
      intro kid member
      rw [Kid.layOut_of_mem_ofBoxes member]
      exact each kid.box (Kid.box_mem_of_mem_ofBoxes member)
    refine ((Container.layOut_sizes _ _ _ _ _).and (Container.layOut_complete kids)).mono ?_
    rintro result ⟨⟨⟨size, known, nonneg⟩, tall, there, positive⟩, items⟩
    rw [Kid.map_box_ofBoxes] at items
    refine ⟨⟨⟨size, known, ?_⟩, fun pixels same => ?_, fun _ => items⟩, fun _ => there ▸ rfl⟩
    · by_contra negative
      obtain ⟨imposed, same, positive⟩ := width
      have equal := Option.some.inj (same.symm.trans (nonneg (by omega)))
      omega
    · exact Option.some.inj (there.symm.trans same) ▸ positive
  · rw [Box.layOut_of_not_flex _ _ _ _ flex]
    exact Run.ensures_mapFailure
      (Host.layOutContents_laid simple ⟨kind, style, generated, least, most, boxes⟩ flex _ _
        width height)

theorem Box.completing_all {host : Host} (simple : host.conduct ≠ .stack) (boxes : List Box) :
    ∀ box ∈ boxes, Completing box (box.layOut host.environment) := by
  match boxes with
  | [] => exact fun _ member => absurd member List.not_mem_nil
  | box :: boxes =>
      exact List.forall_mem_cons.2 ⟨Box.completing simple box, Box.completing_all simple boxes⟩

end

namespace Box

/-- **A layout that succeeds is complete.**  Under a host that makes boxes leaves, or
leaves them as they are, the container ends with a width and a height, and so does every
flex item below it; none is negative, but for a width that was imposed. -/
theorem layOutFlex_complete (host : Host) (simple : host.conduct ≠ .stack) (box : Box)
    (fragment : Fragment) (available : Int) {log after : CallLog} {result : Fragment}
    (done : (box.layOutFlex host.environment fragment available).outcome log = (.ok result, after)) :
    (∃ width, result.frame.width = some width ∧
      (width < 0 → fragment.frame.width = some width)) ∧
    (∃ height, result.frame.height = some height ∧ 0 ≤ height) ∧
    ItemsComplete box.children result.children := by
  have kids : ∀ kid ∈ Kid.ofBoxes host.environment box.children fragment.children,
      Completing kid.box kid.layOut := by
    intro kid member
    rw [Kid.layOut_of_mem_ofBoxes member]
    exact Box.completing simple kid.box
  obtain ⟨width, height⟩ := Container.layOut_sizes _ _ _ _ _ _ _ _ done
  have items := Container.layOut_complete kids _ _ _ done
  rw [Kid.map_box_ofBoxes] at items
  exact ⟨width, height, items⟩

/-- A negative width is imposed on a column that holds a row with an item of negative
outer size, whose limits contradict each other, and an item out of flow. -/
theorem layOutFlex_complete_nested :
    let squeezed : Box :=
      { style :=
          { minWidth := some (.px 30), maxWidth := some (.px 20), margin := .all (some (.px (-40))) } }
    let aside : Box := { kind := .table, style := { position := .absolute, grow := 3 } }
    let inner : Box := { kind := .flex, children := [squeezed, aside] }
    let box : Box := { kind := .flex, style := { direction := .column }, children := [inner] }
    let host : Host := { conduct := .noop }
    host.conduct ≠ .stack ∧ ∃ result after,
      (box.layOutFlex host.environment ⟨{ width := some (-5) }, []⟩ 100).outcome #[] =
        (.ok result, after) ∧
      result.frame.width = some (-5) ∧ (∃ height, result.frame.height = some height ∧ 0 ≤ height) ∧
      ItemsComplete box.children result.children := by
  intro squeezed aside inner box host
  have simple : host.conduct ≠ .stack := by decide
  have ended : Run.Succeeds (fun result => result.frame.width = some (-5))
      (box.layOutFlex host.environment ⟨{ width := some (-5) }, []⟩ 100) #[] := by
    simp only [layOutFlex, Container.layOut, Container.flow_eq_insertionSort, Kid.ofBoxes,
      Box.layOut, box, inner]
    decide +kernel
  obtain ⟨result, after, done, width⟩ := ended
  obtain ⟨-, height, items⟩ := layOutFlex_complete host simple box _ 100 done
  exact ⟨simple, result, after, done, width, height, items⟩

end Box

end FlexLayout
