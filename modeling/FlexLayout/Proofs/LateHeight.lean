/-
# FlexLayout.Proofs.LateHeight -- a height that becomes known late

A column whose items do not grow is laid out without a height, gets one, and hands out what
is left over.  Its children stand where they would stand had the height been known from the
start (`Box.spread_layOutFlex_late`), as long as late height is there to move them: it moves
items in flow only, and those only if there are `auto` margins (`Box.CatchesUp`).  So a
column that is stacked from its end and has none stays where it was
(`Box.spread_layOutFlex_late_strays`).
-/
import FlexLayout.Proofs.LateHeight.Asking

namespace FlexLayout

set_option autoImplicit false

open Pairing

theorem Frame.Edged.isAuto {resolve : Resolver} {style : Style} {reference : Int} {frame : Frame}
    (edged : frame.Edged resolve style reference) (side : Side) :
    frame.isAuto side = (style.margin.get side).isNone := by
  rw [← (show _ = frame from edged)]
  cases side <;> simp [Frame.isAuto, Frame.withEdges, Sides.map, Sides.get]

namespace Box

/-- An item in flow with an `auto` margin above or below. -/
def springs (box : Box) : Bool :=
  box.participates && !box.outOfFlow
    && (box.style.margin.top.isNone || box.style.margin.bottom.isNone)

/-- Late height brings the child to where it would have stood with that height from the
start. -/
inductive CatchesUp (box : Box) (i : Nat) (child : Box) : Prop where
  /-- The child takes no part in flex layout. -/
  | apart (generated : child.participates = false)
  /-- It is in flow, in a column that is stacked from the top, or stacked again. -/
  | inFlow (flow : child.outOfFlow = false)
      (stacked : box.style.direction.axes.reversed = false ∨
        ∃ sibling ∈ box.children, sibling.springs = true)
  /-- It is out of flow, and nothing that is stacked from the top is moved before it. -/
  | outOfFlow (out : child.outOfFlow = true)
      (forward : box.style.direction.axes.reversed = false)
      (first : ∀ (j : Nat) (sibling : Box), box.children[j]? = some sibling → sibling.springs = true →
        child.style.order < sibling.style.order ∨ child.style.order = sibling.style.order ∧ i < j)

section

variable {resolve : Resolver} {container : Container} {boxes : List Box} {filled : FilledLine}
  {result : Fragment} (standing : Standing resolve container boxes filled result)
  (lists : Line.Lists boxes filled.items) (vertical : container.axes.horizontal = false)

include standing lists vertical

/-- The items that take of the free space are those with `auto` margins in their styles. -/
theorem Standing.unsprung {item : Item} (member : item ∈ filled.items) {child : Box}
    (found : boxes[item.child]? = some child) :
    MainTrack.Unsprung container.axes (item, item.frameIn result.children) ↔
      child.springs = false := by
  obtain ⟨own, fragment, at_, inside, edged, -⟩ := standing.ends item member
  obtain rfl : own = child := Option.some.inj (at_.symm.trans found)
  obtain ⟨named, at', names⟩ := lists.names item member
  obtain rfl : own = named := Option.some.inj (found.symm.trans at')
  have frame : item.frameIn result.children = fragment.frame := by
    rw [Item.frameIn, inside, Option.getD_some]
  simp only [MainTrack.Unsprung]
  rw [frame, Axes.autoMainMargins_eq_zero, Axes.lowMain_column vertical, Axes.highMain_column vertical,
    edged.isAuto, edged.isAuto, names.outOfFlow, springs, names.participates]
  cases own.outOfFlow <;> simp [Sides.get]

/-- A line has no `auto` margins if no child has one. -/
theorem Standing.autoMargins_eq_zero :
    filled.line.autoMargins = 0 ↔ ∀ child ∈ boxes, child.springs = false := by
  have sum : filled.line.autoMargins = 0 ↔
      ∀ item ∈ filled.items, MainTrack.Unsprung container.axes (item, item.frameIn result.children) := by
    rw [standing.laid.autos, List.sum_eq_zero_iff_forall_eq_nat, Line.framesInFlow, List.map_map,
      List.forall_mem_map]
    simp [MainTrack.Unsprung]
  rw [sum]
  constructor
  · intro unsprung child member
    cases part : child.participates with
    | false => simp [springs, part]
    | true =>
        obtain ⟨i, found⟩ := List.mem_iff_getElem?.1 member
        obtain ⟨item, inside, rfl⟩ := lists.all i child found part
        exact (standing.unsprung lists vertical inside found).1 (unsprung item inside)
  · intro none item member
    obtain ⟨child, found, -⟩ := lists.names item member
    exact (standing.unsprung lists vertical member found).2
      (none child (List.mem_of_getElem? found))

end

theorem not_mem_childrenOf {resolve : Resolver} {box child : Box} {flow : Flow} {filled : FilledLine}
    (single : Container.Single resolve box.children flow filled) {i : Nat}
    (found : box.children[i]? = some child) (apart : child.participates = false) :
    i ∉ childrenOf flow.lines := by
  intro inside
  have listed : ∀ filled ∈ flow.lines, ∀ item ∈ filled.items, item.child ≠ i := by
    refine single.to_all (P := fun filled => ∀ item ∈ filled.items, item.child ≠ i) ?_
    rintro item member rfl
    obtain ⟨named, at_, names⟩ := single.lists.names item member
    obtain rfl : child = named := Option.some.inj (found.symm.trans at_)
    exact absurd (names.participates.symm.trans apart) Bool.noConfusion
  obtain ⟨item, member, at_⟩ := List.mem_map.1 inside
  obtain ⟨filled, among, here⟩ := List.mem_flatMap.1 member
  exact listed filled among item here at_

namespace Tandem

variable {resolve : Resolver} {box child : Box} {height : Int} {flow flow' : Flow}
  {first other before ends : Fragment} {filled filled' : FilledLine} {i : Nat}
  (tandem : Tandem resolve box height flow flow' first other filled filled')
  (found : box.children[i]? = some child) (start : first.children[i]? = some before)
  (last : other.children[i]? = some ends)

include tandem found start last

/-- A child before the first `auto` margin of a column that is stacked from the top does not
move. -/
theorem y_first (style : flow.container.style = box.style) (flush : box.style.justify = .flexStart)
    (participates : child.participates = true)
    (forward : box.style.direction.axes.reversed = false)
    (springs : ∀ (j : Nat) (sibling : Box), box.children[j]? = some sibling → sibling.springs = true →
      child.style.order < sibling.style.order ∨ child.style.order = sibling.style.order ∧ i < j) :
    ends.frame.y = before.frame.y := by
  obtain ⟨item, member, rfl⟩ := tandem.single.lists.all i child found participates
  obtain ⟨named, at_, names⟩ := tandem.single.lists.names item member
  obtain rfl : child = named := Option.some.inj (found.symm.trans at_)
  have abreast := tandem.y_eq (by rw [Container.axes, style]; exact forward) (style ▸ flush) member ?_
  · simpa only [Item.frameIn, start, last, Option.getD_some] using abreast
  · intro earlier among order
    obtain ⟨sibling, there, names'⟩ := tandem.single.lists.names earlier among
    refine (tandem.standing.unsprung tandem.single.lists tandem.vertical among there).2 ?_
    by_contra sprung
    have later := springs earlier.child sibling there (by simpa using sprung)
    rw [← names.order, ← names'.order] at later
    rcases order with rfl | order
    · omega
    · simp only [Item.Before] at order
      omega

/-- A child that late height does not move, but brings to its place, stands there. -/
theorem y_caught (style : flow.container.style = box.style) (flush : box.style.justify = .flexStart)
    (caught : box.CatchesUp i child)
    (unmoved : ¬(Line.Restacked flow'.container height filled' ∧ child.participates = true ∧
      child.outOfFlow = false)) : ends.frame.y = before.frame.y := by
  obtain ⟨counterpart, last', agrees⟩ := tandem.known.children i before start
  obtain rfl : ends = counterpart := Option.some.inj (last.symm.trans last')
  cases participates : child.participates with
  | false => exact agrees.y (.inl (not_mem_childrenOf tandem.single found participates))
  | true =>
      cases caught with
      | apart generated => exact absurd (participates.symm.trans generated) Bool.noConfusion
      | outOfFlow out forward springs =>
          exact tandem.y_first found start last style flush participates forward springs
      | inFlow flows stacked =>
          have settled : ¬Line.Restacked flow'.container height filled' := fun restacked =>
            unmoved ⟨restacked, participates, flows⟩
          by_cases nothing : Line.leftOver flow'.container height filled' ≤ 0
          · exact agrees.y (.inr (tandem.fills nothing))
          · have none : filled'.line.autoMargins = 0 :=
              not_not.1 fun some => settled ⟨Int.not_le.1 nothing, some⟩
            have calm := (tandem.standing'.autoMargins_eq_zero tandem.single'.lists
              tandem.column.vertical).1 none
            have forward := stacked.resolve_right fun ⟨sibling, member, springs⟩ => by
              simp [calm sibling member] at springs
            refine tandem.y_first found start last style flush participates forward ?_
            intro j sibling there springs
            simp [calm sibling (List.mem_of_getElem? there)] at springs

/-- **What late height makes of a child.** -/
theorem spreadHere_eq (style : flow'.container.style = box.style)
    (rigid : ∀ child ∈ box.children, child.participates = true → child.outOfFlow = false →
      (Factor.ofStyle child.style.grow).isZero = true) :
    (Slack.spreadHere resolve box.style box.children { other with children := first.children })[i]? =
      some (if Line.Restacked flow'.container height filled' ∧ child.participates = true ∧
          child.outOfFlow = false then { before with frame := ends.frame } else before) := by
  have ungrowing : ∀ item ∈ filled'.items, item.outOfFlow = false →
      (item.entryIn box.children other.children).grow.raw = 0 := by
    intro item member flows
    obtain ⟨child, found, names⟩ := tandem.single'.lists.names item member
    have rigid := rigid child (List.mem_of_getElem? found) names.participates
      (names.outOfFlow.symm.trans flows)
    simp only [Slack.Entry.grow, Item.entryIn]
    rw [found, Option.getD_some]
    simpa [Factor.isZero] using rigid
  have here := tandem.column.spreadHere_late tandem.elsewhere ungrowing tandem.used_eq i
  rw [style, start, last, Option.map_some, Option.getD_some] at here
  simpa only [tandem.single'.lists.mem_inFlow found] using here

end Tandem

/-- **A late height gives what knowing it from the start gives.**  A column of boxes that do
not grow is laid out without its height, and gets one that is no smaller than what it found.
Nothing flexes in it: no maximum cuts what its boxes ask for, and hosts give them no height of
their own, or its lines are at rest for other reasons.  Its sizes add up in the range of
pixels.

With that height from the start, layout succeeds as well, with the same calls.  Handing out
what is left over gives every child the geometry that it has then, except for the vertical
place of children that late height does not bring there; and even those are there if nothing
is left over.  Children out of flow, and all children of a column without `auto` margins, stay
where they were. -/
theorem spread_layOutFlex_late (host : Host) (box : Box) (frame : Frame) (fragments : List Fragment)
    (available height least : Int) (late : box.Late frame)
    {log mid after : CallLog} {flow : Flow} {first : Fragment}
    (placed : (Container.flow host.resolve box.style frame
      (Kid.ofBoxes host.environment box.children fragments) available).outcome log = (.ok flow, mid))
    (done : (box.layOutFlex host.environment ⟨frame, fragments⟩ available).outcome log =
      (.ok first, after))
    (laid : first.frame.height = some least) (enough : least ≤ height)
    (calm : (host.conduct ≠ .stack ∧
        ∀ child ∈ box.children, child.participates = true → child.Uncut host.resolve) ∨
      ∀ filled ∈ flow.lines, Line.Rests filled.items)
    (few : ∀ filled ∈ flow.lines, filled.line.inFlow < 2147483648)
    (summable : ∀ filled ∈ flow.lines, Pixel.Summable
      (Pixel.gapsBetween filled.line.inFlow flow.container.mainGap ::
        Line.hypotheticals filled.items)) :
    ∃ other,
      (box.layOutFlex host.environment ⟨{ frame with height := some height }, fragments⟩
        available).outcome log = (.ok other, after) ∧
      let spread := Slack.spread host.resolve box
        { first with frame := { first.frame with height := some height } }
      spread.frame = other.frame ∧
      ∀ (i : Nat) (child : Box), box.children[i]? = some child → ∃ before settled ends,
        first.children[i]? = some before ∧ spread.children[i]? = some settled ∧
        other.children[i]? = some ends ∧
        settled.frame.Agrees True
          (box.CatchesUp i child ∨ ∀ filled ∈ flow.lines, height = filled.line.main) ends.frame ∧
        (child.outOfFlow = true ∨ (∀ sibling ∈ box.children, sibling.springs = false) →
          settled.frame = before.frame) := by
  have rests : ∀ filled ∈ flow.lines, Line.Rests filled.items := by
    rcases calm with ⟨bare, uncut⟩ | rests
    · exact late.rests bare uncut placed fun filled member => (summable filled member).tail
    · exact rests
  have placid : ∀ filled ∈ flow.lines, Line.Placid flow.container.mainGap filled :=
    fun filled member => ⟨rests filled member, few filled member, summable filled member⟩
  -- The layout with the height from the start ends alike, but for places along it.
  obtain ⟨flow', other, placed', done', known⟩ :=
    layOutFlex_known host fragments late placed done laid enough placid
  obtain ⟨same, -, filled, single, standing⟩ :=
    layOutFlex_standing late.vertical late.nowrap late.plain placed done
  obtain ⟨filled', single', column, standing'⟩ := layOutFlex_column late.vertical late.nowrap rfl
    known.nonneg late.minHeight late.maxHeight late.plain placed' done'
  have same' := (Container.flow_ok rfl placed').1
  have tandem : Tandem host.resolve box height flow flow' first other filled filled' :=
    ⟨known, single, single', standing, standing', column,
      single.of_all (P := Line.Placid flow.container.mainGap) (Line.placid_nil _) placid⟩
  -- Late height starts from that layout, with the children where the first one left them.
  have whole : ({ first with frame := { first.frame with height := some height } } : Fragment) =
      { other with children := first.children } := by
    rw [known.frame]
  rw [whole]
  have frames := Slack.spread_frames host.resolve late.flex late.vertical
    { other with children := first.children }
  have length := Container.layOut_length _ _ _ _ _ _ _ _ done
  rw [Kid.length_ofBoxes] at length
  refine ⟨other, done', Slack.spread_frame _ _ _, fun i child found => ?_⟩
  have inside : i < first.children.length := length ▸ (List.getElem?_eq_some_iff.1 found).1
  obtain ⟨before, start⟩ : ∃ before, first.children[i]? = some before :=
    ⟨_, List.getElem?_eq_getElem inside⟩
  obtain ⟨ends, last, agrees⟩ := known.children i before start
  have here := congrArg (fun frames => frames[i]?) frames
  rw [List.getElem?_map, List.getElem?_map, tandem.spreadHere_eq found start last
    (by rw [same']; rfl) late.rigid, Option.map_some, Option.map_eq_some_iff] at here
  obtain ⟨settled, there, frame⟩ := here
  refine ⟨before, settled, ends, start, there, last, ?_, fun stays => ?_⟩
  · rw [frame]
    split
    · exact .refl _ _ _
    · rename_i unmoved
      refine { agrees with y := fun holds => holds.elim (fun caught => ?_) fun full => agrees.y (.inr full) }
      exact tandem.y_caught found start last (by rw [same]; rfl) late.flush caught unmoved
  · rw [frame, if_neg]
    rintro ⟨⟨-, some⟩, -, flows⟩
    rcases stays with out | none
    · exact absurd (out.symm.trans flows) Bool.noConfusion
    · exact some ((standing'.autoMargins_eq_zero single'.lists column.vertical).2 none)

/-- A column with a gap that is stacked from its end, with an `auto` margin between its two
items in flow, and a child out of flow.  Late height brings the items to their places, and
leaves the other child. -/
theorem spread_layOutFlex_late_reversed :
    let box : Box :=
      { kind := .flex
        style := { direction := .columnReverse, rowGap := some (.px 10) }
        children :=
          [{ kind := .grid
             style := { height := some (.px 30), margin := { Sides.all (some (.px 0)) with top := none } } },
            { style := { position := .absolute, height := some (.px 5) } },
            { style := { height := some (.px 20) } }] }
    ∃ first other after,
      (box.layOutFlex ({} : Host).environment ⟨{}, []⟩ 100).outcome #[] = (.ok first, after) ∧
      first.frame.height = some 60 ∧
      (first.children.map fun child => (child.frame.y, child.frame.height)) =
        [(30, some 30), (20, some 5), (0, some 20)] ∧
      (box.layOutFlex ({} : Host).environment ⟨{ height := some 100 }, []⟩ 100).outcome #[] =
        (.ok other, after) ∧
      let spread := Slack.spread ({} : Host).resolve box
        { first with frame := { first.frame with height := some 100 } }
      spread.frame = other.frame ∧
      (∀ i ∈ [0, 2], (spread.children[i]?).map Fragment.frame = (other.children[i]?).map Fragment.frame) ∧
      (spread.children[1]?).map Fragment.frame = (first.children[1]?).map Fragment.frame := by
  intro box
  have late : box.Late {} :=
    { flex := rfl
      vertical := rfl
      nowrap := rfl
      flush := rfl
      unknown := rfl
      height := rfl
      minHeight := rfl
      maxHeight := rfl
      gap := by
        intro length given
        obtain rfl : Length.px 10 = length := Option.some.inj given
        rfl
      plain := by decide
      basis := by
        intro child member _ length basis
        have auto : child.style.basis = .auto := by
          simp only [box, List.mem_cons, List.not_mem_nil, or_false] at member
          rcases member with rfl | rfl | rfl <;> rfl
        rw [auto] at basis
        exact Basis.noConfusion basis
      rigid := by decide }
  have uncut : ∀ child ∈ box.children, child.participates = true →
      child.Uncut ({} : Host).resolve := by
    intro child member _ most limit given
    have none : child.style.maxHeight = none := by
      simp only [box, List.mem_cons, List.not_mem_nil, or_false] at member
      rcases member with rfl | rfl | rfl <;> rfl
    simp [none] at given
  have begun : Run.Succeeds
      (fun flow => ∀ filled ∈ flow.lines, filled.line.inFlow < 2147483648 ∧ Pixel.Summable
        (Pixel.gapsBetween filled.line.inFlow flow.container.mainGap ::
          Line.hypotheticals filled.items))
      (Container.flow ({} : Host).resolve box.style {}
        (Kid.ofBoxes ({} : Host).environment box.children []) 100) #[] := by
    rw [Container.flow_eq_insertionSort]
    decide +kernel
  have ended : Run.Succeeds (fun first => first.frame.height = some 60 ∧
      (first.children.map fun child => (child.frame.y, child.frame.height)) =
        [(30, some 30), (20, some 5), (0, some 20)])
      (box.layOutFlex ({} : Host).environment ⟨{}, []⟩ 100) #[] := by
    simp only [layOutFlex, Container.layOut]
    rw [Container.flow_eq_insertionSort]
    decide +kernel
  obtain ⟨flow, mid, placed, lines⟩ := begun
  obtain ⟨first, after, done, laid, places⟩ := ended
  obtain ⟨other, early, same, children⟩ :=
    spread_layOutFlex_late {} box {} [] 100 100 60 late placed done laid (by decide)
      (.inl ⟨by decide, uncut⟩) (fun filled member => (lines filled member).1)
      fun filled member => (lines filled member).2
  refine ⟨first, other, after, done, laid, places, early, same, fun i member => ?_, ?_⟩
  · have stacked : ∀ i ∈ [0, 2], ∃ child, box.children[i]? = some child ∧ box.CatchesUp i child := by
      have again : ∃ sibling ∈ box.children, sibling.springs = true := by decide
      intro i member
      rcases List.mem_pair.1 member with rfl | rfl
      · exact ⟨_, rfl, .inFlow rfl (.inr again)⟩
      · exact ⟨_, rfl, .inFlow rfl (.inr again)⟩
    obtain ⟨child, found, caught⟩ := stacked i member
    obtain ⟨_, settled, ends, -, there, last, agrees, -⟩ := children i child found
    rw [there, last]
    exact congrArg some (agrees.mono id fun _ => .inl caught).eq.symm
  · obtain ⟨before, settled, _, start, there, -, -, stays⟩ := children 1 _ rfl
    rw [there, start]
    exact congrArg some (stays (.inl rfl))

/-- Three columns that a height comes too late for.  The first is stacked from its end and
has no `auto` margin, so nothing moves its child there.  In the second the last child is out
of flow, behind a margin that grows.  In the third a maximum cuts the base size of an item;
without a height the other item shrinks all the same, and it does not grow back. -/
theorem spread_layOutFlex_late_strays :
    let places (fragment : Fragment) := fragment.children.map fun child => (child.frame.y, child.frame.height)
    let ends (box : Box) (height : Int) (late early : List (Int × Option Int)) : Prop :=
      Run.Succeeds (fun first =>
          first.frame.height.getD 0 ≤ height ∧
          places (Slack.spread ({} : Host).resolve box
            { first with frame := { first.frame with height := some height } }) = late ∧
          Run.Succeeds (fun other => places other = early)
            (box.layOutFlex ({} : Host).environment ⟨{ height := some height }, []⟩ 100) #[])
        (box.layOutFlex ({} : Host).environment ⟨{}, []⟩ 100) #[]
    ends { kind := .flex
           style := { direction := .columnReverse }
           children := [{ style := { height := some (.px 30) } }] } 100
        [(0, some 30)] [(70, some 30)] ∧
      ends { kind := .flex
             style := { direction := .column }
             children :=
               [{ style := { height := some (.px 30),
                             margin := { Sides.all (some (.px 0)) with top := none } } },
                 { style := { position := .absolute } }] } 100
        [(70, some 30), (30, some 0)] [(70, some 30), (100, some 0)] ∧
      ends { kind := .flex
             style := { direction := .column }
             children :=
               [{ style := { basis := .length (.px 100), maxHeight := some (.px 50) } },
                 { style := { basis := .length (.px 50) } }] } 200
        [(0, some 50), (50, some 33)] [(0, some 50), (50, some 50)] := by
  intro places ends
  simp only [ends, layOutFlex, Container.layOut, Container.flow_eq_insertionSort, Slack.spread,
    Slack.spreadHere, Slack.inStackOrder_eq_insertionSort]
  decide +kernel

end Box

end FlexLayout
