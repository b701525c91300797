/-
# FlexLayout.Proofs.LateHeight.Known -- a column that knows its height from the start

A column whose items do not grow is laid out without a height (`Box.Late`), and once more
with one that is no smaller than what it got.  Nothing flexes in either layout, so they make
the same calls, and their children differ in nothing but where the items stand along the
height; not even in that if the items fill it (`Box.layOutFlex_known`).
-/
import FlexLayout.Proofs.Idempotence.Resumed
import FlexLayout.Proofs.LateHeight.Lines
import FlexLayout.Proofs.LateHeight.Stack
import FlexLayout.Proofs.Restacking

namespace FlexLayout

set_option autoImplicit false

open Pairing

namespace Box

/-- A column of boxes on one line, stacked from its start, that sets no height and no limits
to it.  Its items do not grow, and no percentage of their bases or of the gap refers to the
height. -/
structure Late (box : Box) (frame : Frame) : Prop where
  flex : box.kind = .flex
  vertical : box.style.direction.axes.horizontal = false
  nowrap : box.style.wrap = .nowrap
  flush : box.style.justify = .flexStart
  unknown : frame.height = none
  height : box.style.height = none
  minHeight : box.style.minHeight = none
  maxHeight : box.style.maxHeight = none
  gap : ∀ length, box.style.rowGap = some length → length.absolute = true
  plain : ∀ child ∈ box.children, child.participates = true → child.kind ≠ .flex
  basis : ∀ child ∈ box.children, child.participates = true →
    ∀ length, child.style.basis = .length length → length.absolute = true
  rigid : ∀ child ∈ box.children, child.participates = true → child.outOfFlow = false →
    (Factor.ofStyle child.style.grow).isZero = true

/-- The layouts of a column without its height and with it: the children end alike, except
that the items may not stand abreast unless they fill the height. -/
structure Known (height : Int) (flow flow' : Flow) (first other : Fragment) : Prop where
  resumed : flow.container.Resumed flow'.container height
  lines : List.Forall₂ (Line.AlignedAlike same) flow.lines flow'.lines
  rest : ∀ filled ∈ flow.lines, Line.AtRest filled.items
  nonneg : 0 ≤ height
  enough : ∀ filled ∈ flow.lines, filled.line.main ≤ height
  frame : other.frame = { first.frame with height := some height }
  children : ∀ (i : Nat) (fragment : Fragment), first.children[i]? = some fragment →
    ∃ counterpart, other.children[i]? = some counterpart ∧
      fragment.frame.Agrees True
        (i ∉ childrenOf flow.lines ∨ ∀ filled ∈ flow.lines, height = filled.line.main)
        counterpart.frame

variable {resolve : Resolver} {box : Box} {frame : Frame} {available height least : Int}

theorem Late.column (late : box.Late frame) (resolve : Resolver) (available : Int) :
    (Container.prepare resolve box.style frame available).axes.horizontal = false := late.vertical

theorem Late.prepare (late : box.Late frame) (resolve : Resolver) (available : Int) :
    let container := Container.prepare resolve box.style frame available
    container.mainSpace = none ∧ ∀ mainSize crossSize,
      container.finalFrame mainSize crossSize =
        { container.frame with height := some (max 0 mainSize) } := by
  have own : (Container.resolveFrame resolve box.style frame available).height = none := by
    simp only [Container.resolveFrame, late.unknown, Frame.withSizes, Style.contentSize?,
      late.height, Option.bind_none, Option.map_none]
  have column := late.column resolve available
  have free (limits : Limits) (least : limits.minHeight = none) (most : limits.maxHeight = none)
      (size : Int) : limits.holdHeight size = size := by
    rw [Limits.holdHeight, least, most, Limits.hold]
  have minHeight : (Container.prepare resolve box.style frame available).limits.minHeight = none := by
    simp only [Container.prepare, Frame.limits, late.minHeight, Style.contentSize?, Option.bind_none]
  have maxHeight : (Container.prepare resolve box.style frame available).limits.maxHeight = none := by
    simp only [Container.prepare, Frame.limits, late.maxHeight, Style.contentSize?, Option.bind_none]
  refine ⟨?_, fun mainSize crossSize => ?_⟩
  · rw [(Container.prepare_spaces own).1, column, minHeight]
    rfl
  · have unknown : (Container.prepare resolve box.style frame available).frame.height = none := own
    simp only [Container.finalFrame]
    rw [free _ minHeight maxHeight, unknown, column]
    rfl

theorem Late.resumed (late : box.Late frame) (host : Host) (available height : Int) :
    (Container.prepare host.resolve box.style frame available).Resumed
      (Container.prepare host.resolve box.style { frame with height := some height } available)
      height :=
  Container.prepare_late (fun length reference given =>
    host.resolve_absolute box.style (late.gap length given) reference) height

theorem Late.definite (late : box.Late frame) (host : Host) (available height : Int) :
    (Container.prepare host.resolve box.style frame available).Definite
      (Container.prepare host.resolve box.style { frame with height := some height } available)
      height := by
  have resumed := late.resumed host available height
  refine ⟨resumed.alike, (late.prepare host.resolve available).1, ?_⟩
  rw [resumed.mainSpace, late.column host.resolve available]
  rfl

theorem Late.rigid_measured {host : Host} {fragments : List Fragment} (late : box.Late frame)
    {log start : CallLog} {items : List Item} {sized : List Kid}
    (measured : (Item.measureAll host.resolve (Container.prepare host.resolve box.style frame available)
      0 0 (Kid.ofBoxes host.environment box.children fragments)).outcome log =
        (.ok (items, sized), start)) :
    ∀ item ∈ Item.sortByOrder items, item.outOfFlow = false → item.grow.isZero = true := by
  intro item member flows
  obtain ⟨child, found, of⟩ := Item.measureAll_of (late.column host.resolve available) _ _ _ _ measured item
    ((Item.sortByOrder_perm items).mem_iff.1 member)
  rw [Kid.map_box_ofBoxes] at found
  rw [of.grow]
  exact late.rigid child (List.mem_of_getElem? found) of.participates (of.outOfFlow.symm.trans flows)

theorem Late.basisFixed {host : Host} {fragments : List Fragment} (late : box.Late frame) :
    ∀ kid ∈ Kid.ofBoxes host.environment box.children fragments,
      kid.box.participates = true → kid.box.style.BasisFixed host.resolve := by
  intro kid member participates length reference given
  exact host.resolve_absolute kid.box.style
    (late.basis kid.box (Kid.box_mem_of_mem_ofBoxes member) participates length given) reference

/-- The items are placed alike with a height that is no smaller than their line. -/
theorem Late.flow_known {host : Host} {fragments : List Fragment} (late : box.Late frame)
    {log mid : CallLog} {flow : Flow}
    (placed : (Container.flow host.resolve box.style frame
      (Kid.ofBoxes host.environment box.children fragments) available).outcome log = (.ok flow, mid))
    (placid : ∀ filled ∈ flow.lines, Line.Placid flow.container.mainGap filled)
    (enough : ∀ filled ∈ flow.lines, filled.line.main ≤ height) :
    (∀ filled ∈ flow.lines, Line.AtRest filled.items) ∧ ∃ flow',
      (Container.flow host.resolve box.style { frame with height := some height }
        (Kid.ofBoxes host.environment box.children fragments) available).outcome log =
          (.ok flow', mid) ∧
      flow'.container =
        Container.prepare host.resolve box.style { frame with height := some height } available ∧
      FlowAlike Coupling.exact same.aligned (∀ filled ∈ flow.lines, height = filled.line.main)
        flow flow' := by
  obtain ⟨at_, items, sized, start, measured, arranged, kept⟩ := Container.flow_ok rfl placed
  have fit := Item.measureAll_fit (late.column host.resolve available) 0 0 _ _ _ _ measured
  have stays := Line.stays_placed (late.prepare host.resolve available).1
    (fun item member => fit item ((Item.sortByOrder_perm items).mem_iff.1 member))
    arranged kept (at_ ▸ placid)
  have alike := (late.resumed host available height).alike
  have tracks := Kid.ofBoxes_tracks host.exact_keeps box.children 0 (stale_refl box.children fragments)
  refine ⟨fun filled member => ?_, Container.flow_rerun rfl rfl alike.toAkin tracks
    (fun kid member participates =>
      Item.basisAlike_of_fixed alike (late.basisFixed kid member participates)) placed
    fun items' sized' start' measured' arranged' kept' => ?_⟩
  · obtain ⟨_, -, stays⟩ := exists_of_mem_right stays member
    exact stays.placed
  · obtain ⟨same, -⟩ := Run.eq_of_outcome_ok measured' measured
    obtain ⟨rfl, rfl⟩ := Prod.mk.inj same
    exact Line.lines_late (late.definite host available height) late.nowrap stays
      (late.rigid_measured measured) enough

/-- **A height that is known from the start makes no difference but for where the items stand
along it.** -/
theorem layOutFlex_known (host : Host) (fragments : List Fragment) (late : box.Late frame)
    {log mid after : CallLog} {flow : Flow} {first : Fragment}
    (placed : (Container.flow host.resolve box.style frame
      (Kid.ofBoxes host.environment box.children fragments) available).outcome log = (.ok flow, mid))
    (done : (box.layOutFlex host.environment ⟨frame, fragments⟩ available).outcome log =
      (.ok first, after))
    (laid : first.frame.height = some least) (enough : least ≤ height)
    (placid : ∀ filled ∈ flow.lines, Line.Placid flow.container.mainGap filled) :
    ∃ flow' other,
      (Container.flow host.resolve box.style { frame with height := some height }
        (Kid.ofBoxes host.environment box.children fragments) available).outcome log =
          (.ok flow', mid) ∧
      (box.layOutFlex host.environment ⟨{ frame with height := some height }, fragments⟩
        available).outcome log = (.ok other, after) ∧
      Known height flow flow' first other := by
  have closed := Run.outcome_rest placed done
  have at_ := (Container.flow_ok rfl placed).1
  have resumed := late.resumed host available height
  -- The height is no smaller than the line.
  have ends := flow.close_frame host.resolve _ _ _ closed
  rw [at_, (late.prepare host.resolve available).2] at ends
  have own : max 0 flow.mainSize = least := by
    rw [ends, Option.some.injEq] at laid
    exact laid
  have enough' : ∀ filled ∈ flow.lines, filled.line.main ≤ height := by
    intro filled member
    have most : filled.line.main ≤ flow.mainSize := Line.le_mainExtent member
    omega
  obtain ⟨rest, flow', placed', at', flows⟩ := late.flow_known placed placid enough'
  -- The lines stand in the same places across, and the items where they stood.
  have aligned := Line.forall₂_of_lines (fun _ => rfl) flows.lines
  have resumed' : flow.container.Resumed flow'.container height := by rwa [at_, at']
  have column : flow.container.axes.horizontal = false := at_ ▸ late.vertical
  obtain ⟨other, closed', -, frame', kids, kids', children, children', ended⟩ :=
    Coupling.exists_of_exact (Flow.close_coupled_abreast (Γ := Coupling.exact) host.resolve
      resumed'.alike.toAkin flows (resumed'.spreads_alike aligned (.inr (.inl column)))
      fun _ drop => Bool.noConfusion drop) closed
  refine ⟨flow', other, placed', ?_, resumed', aligned, rest, by omega, enough', ?_, ?_⟩
  · rw [layOutFlex, Container.layOut]
    exact (Run.outcome_bind_ok placed' _).trans closed'
  · obtain ⟨-, -, imposed⟩ := Container.prepare_imposed host.resolve available late.vertical
      (show ({ frame with height := some height } : Frame).height = some height from rfl)
      (by omega) late.minHeight late.maxHeight flow'.mainSize flow'.crossSize
    rw [frame', at', imposed, resumed.frame, ends]
  · intro i fragment found
    rw [children, List.getElem?_map, Option.map_eq_some_iff] at found
    obtain ⟨kid, found, rfl⟩ := found
    obtain ⟨kid', found', among⟩ := Tracks.get ended rfl found
    refine ⟨kid'.fragment, ?_, ?_⟩
    · rw [children', List.getElem?_map]
      exact congrArg (Option.map Kid.fragment) found'
    by_cases inside : i ∈ childrenOf flow.lines
    · exact ((among_of_mem inside).1 among).related.frame.mono
        (fun _ row => absurd (row.symm.trans column) Bool.noConfusion)
        fun holds _ => holds.resolve_left (not_not_intro inside)
    · exact .of_eq _ _ (congrArg Fragment.frame ((among_of_not_mem inside).1 among).related)

/-- The one line of a column that was laid out without its height, and with it. -/
structure Tandem (resolve : Resolver) (box : Box) (height : Int) (flow flow' : Flow)
    (first other : Fragment) (filled filled' : FilledLine) : Prop where
  known : Known height flow flow' first other
  single : Container.Single resolve box.children flow filled
  single' : Container.Single resolve box.children flow' filled'
  standing : Standing resolve flow.container box.children filled first
  standing' : Standing resolve flow'.container box.children filled' other
  column : Line.Column resolve flow'.container height filled' box.children other
  placid : Line.Placid flow.container.mainGap filled

namespace Tandem

variable {flow flow' : Flow} {first other : Fragment} {filled filled' : FilledLine}
  (tandem : Tandem resolve box height flow flow' first other filled filled')

include tandem

theorem vertical : flow.container.axes.horizontal = false :=
  tandem.known.resumed.alike.axes ▸ tandem.column.vertical

theorem items : List.Forall₂ (Item.Counterpart same) filled.items filled'.items := by
  have lines := tandem.known.lines
  rcases tandem.single.lines with one | ⟨none, rfl⟩
  · rw [one] at lines
    rcases tandem.single'.lines with one' | ⟨none', -⟩
    · rw [one'] at lines
      obtain ⟨line, -⟩ := List.forall₂_cons.1 lines
      have items := line.items
      rwa [Item.Counterparts, filter_same] at items
    · simp [none'] at lines
  · rw [none] at lines
    rcases tandem.single'.lines with one' | ⟨-, rfl⟩
    · simp [one'] at lines
    · exact .nil

theorem sizes_eq : Line.sizesInFlow filled'.items = Line.hypotheticals filled.items := by
  have rest : Line.AtRest filled.items :=
    tandem.single.of_all (P := fun filled => Line.AtRest filled.items)
      (fun _ member => absurd member List.not_mem_nil) tandem.known.rest
  have asked : List.Forall₂ (fun item' item : Item =>
      item'.outOfFlow = item.outOfFlow ∧ item'.target = item.hypothetical) filled'.items filled.items :=
    (((List.forall₂_and_left _ _).2 ⟨rest, tandem.items⟩).imp fun _ _ same =>
      And.intro same.2.outOfFlow (same.2.target.trans same.1)).flip
  simp only [Line.sizesInFlow, Line.hypotheticals]
  rw [← List.forall₂_eq_eq_eq, List.forall₂_map_left_iff, List.forall₂_map_right_iff]
  exact (List.rel_filter (fun _ _ same => by simp only [same.1]) asked).imp fun _ _ same => same.2

theorem inFlow_eq : filled'.line.inFlow = filled.line.inFlow := by
  have count := congrArg List.length tandem.sizes_eq
  rw [Line.sizesInFlow, Line.hypotheticals, List.length_map, List.length_map,
    ← List.countP_eq_length_filter, ← List.countP_eq_length_filter] at count
  rw [tandem.standing.sound.inFlow, tandem.standing'.sound.inFlow, count]

/-- The height that is left over is what the line does not take. -/
theorem leftOver_eq : Line.leftOver flow'.container height filled' = height - filled.line.main := by
  have main := tandem.single.flexed.main
  rw [Line.sumInFlow_eq_sum_filter, ← Line.gapsBetween_eq tandem.placid.few] at main
  rw [Line.leftOver, tandem.sizes_eq, tandem.inFlow_eq, tandem.known.resumed.alike.mainGap, main,
    Line.hypotheticals]
  omega

/-- With the height, the items fill their line too. -/
theorem used_eq : filled'.line.used = (Line.sizesInFlow filled'.items).sum +
    Pixel.gapsBetween filled'.line.inFlow flow'.container.mainGap := by
  apply tandem.standing'.used
  apply tandem.single'.flexed.running_of_summable
  rw [tandem.sizes_eq, tandem.inFlow_eq, tandem.known.resumed.alike.mainGap]
  exact tandem.placid.summable

/-- Where the items leave nothing over, the layouts are the same. -/
theorem fills (nothing : Line.leftOver flow'.container height filled' ≤ 0) :
    ∀ filled ∈ flow.lines, height = filled.line.main := by
  have enough : filled.line.main ≤ height :=
    tandem.single.of_all (P := fun filled => filled.line.main ≤ height) tandem.known.nonneg
      tandem.known.enough
  rw [tandem.leftOver_eq] at nothing
  exact tandem.single.to_all (P := fun filled => height = filled.line.main) (by omega)

/-- The children stand at the same places across, in both layouts. -/
theorem elsewhere : ∀ item ∈ filled'.items, ∃ kid y, first.children[item.child]? = some kid ∧
    item.frameIn other.children = { kid.frame with y := y } := by
  intro item' member
  obtain ⟨item, among, alike⟩ := exists_of_mem_right tandem.items member
  have child : item'.child = item.child := alike.child
  obtain ⟨-, kid, -, found, -⟩ := tandem.standing.ends item among
  obtain ⟨counterpart, found', agrees⟩ := tandem.known.children item.child kid found
  refine ⟨kid, counterpart.frame.y, child ▸ found, ?_⟩
  rw [Item.frameIn, child, found', Option.getD_some, agrees.moved, agrees.x trivial]

theorem walksAlike {item item' : Item} (member : item ∈ filled.items)
    (alike : Item.Counterpart same item item') :
    MainTrack.WalksAlike flow.container.axes (item, item.frameIn first.children)
      (item', item'.frameIn other.children) := by
  have child : item'.child = item.child := alike.child
  obtain ⟨-, kid, -, found, -⟩ := tandem.standing.ends item member
  obtain ⟨counterpart, found', agrees⟩ := tandem.known.children item.child kid found
  simp only [Item.frameIn]
  rw [child, found, found', Option.getD_some, Option.getD_some]
  exact ⟨alike.outOfFlow, ⟨agrees.margin, agrees.padding, agrees.border⟩,
    agrees.same flow.container.axes.mainSize fun _ _ _ => rfl⟩

/-- **Up to the first `auto` margin of a column that is stacked from the top, items stand
abreast.** -/
theorem y_eq (forward : flow.container.axes.reversed = false)
    (flush : flow.container.style.justify = .flexStart) {item : Item} (member : item ∈ filled.items)
    (unsprung : ∀ before ∈ filled.items, before = item ∨ before.Before item →
      MainTrack.Unsprung flow.container.axes (before, before.frameIn first.children)) :
    (item.frameIn other.children).y = (item.frameIn first.children).y := by
  have ordered := tandem.single.lists.ordered
  have items := tandem.items
  have walked := tandem.standing.laid.walked
  have walked' := tandem.standing'.laid.walked
  obtain ⟨front, back, split⟩ := List.append_of_mem member
  rw [split] at items ordered walked
  obtain ⟨front', item', back', split', fronts, here⟩ := exists_split_of_forall₂ items
  rw [split', tandem.known.resumed.alike.axes, MainTrack.ofLine_late tandem.known.resumed.alike forward
    flush tandem.inFlow_eq] at walked'
  rw [List.map_append, List.map_cons] at walked walked'
  have before : ∀ before ∈ front, before ∈ filled.items := fun before among =>
    split ▸ List.mem_append_left _ among
  have fronts' := ((List.forall₂_and_left _ _).2 ⟨before, fronts⟩).imp fun item item' both =>
    tandem.walksAlike both.1 both.2
  have first' : ∀ entry ∈ front.map fun item => (item, item.frameIn first.children),
      MainTrack.Unsprung flow.container.axes entry := by
    intro entry inside
    obtain ⟨earlier, among, rfl⟩ := List.mem_map.1 inside
    exact unsprung earlier (before earlier among)
      (.inr ((List.pairwise_append.1 ordered).2.2 earlier among item List.mem_cons_self))
  have coordinate := MainTrack.mainCoordinate_late (by rfl) (by rfl)
    (List.forall₂_map_left_iff.2 (List.forall₂_map_right_iff.2 fronts'))
    (tandem.walksAlike member here) first' (unsprung item member (.inl rfl)) walked walked'
  rw [Axes.mainCoordinate_column tandem.vertical, Axes.mainCoordinate_column tandem.vertical] at coordinate
  simp only [Item.frameIn] at coordinate ⊢
  rwa [show item'.child = item.child from here.child] at coordinate

end Tandem

end Box

end FlexLayout
