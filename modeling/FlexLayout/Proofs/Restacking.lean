/-
# FlexLayout.Proofs.Restacking -- late height after a layout with that height

A column of block, table and grid boxes that was laid out with its height is left as it
is when that height is handed out once more (`Box.spread_layOutFlex`).  So a column that
is stretched gets the layout at its new height.

It is not so when a layout hands out a fraction of the room only: then the rest is still
there the second time (`Box.spread_layOutFlex_fraction`).
-/
import FlexLayout.Proofs.Restacking.Single

namespace FlexLayout

set_option autoImplicit false

/-- Late height does not change rows. -/
theorem Slack.spread_of_horizontal (resolve : Resolver) {box : Box}
    (row : box.style.direction.axes.horizontal = true) (fragment : Fragment) :
    Slack.spread resolve box fragment = fragment := by
  obtain ⟨kind, style, generated, least, most, boxes⟩ := box
  have row : style.direction.axes.horizontal = true := row
  simp only [Slack.spread, row, Bool.not_true, Bool.and_false, Bool.false_eq_true, if_false]

theorem Slack.spreadAll_eq {resolve : Resolver} {boxes : List Box}
    (each : ∀ box ∈ boxes, ∀ fragment, Slack.spread resolve box fragment = fragment)
    (fragments : List Fragment) : Slack.spreadAll resolve boxes fragments = fragments := by
  induction boxes generalizing fragments with
  | nil => rfl
  | cons box boxes ih =>
      obtain ⟨here, later⟩ := List.forall_mem_cons.1 each
      cases fragments with
      | nil => rfl
      | cons fragment fragments => rw [Slack.spreadAll, here, ih later]

theorem Slack.spread_eq {resolve : Resolver} {box : Box} {fragment : Fragment}
    (here : Slack.spreadHere resolve box.style box.children fragment = fragment.children)
    (each : ∀ child ∈ box.children, ∀ fragment, Slack.spread resolve child fragment = fragment) :
    Slack.spread resolve box fragment = fragment := by
  obtain ⟨kind, style, generated, least, most, boxes⟩ := box
  rw [Slack.spread]
  split
  · dsimp only at here each
    rw [here, Slack.spreadAll_eq each]
    cases fragment
    rfl
  · rfl

/-- A column keeps an imposed height that it sets no limits to. -/
theorem Container.prepare_imposed (resolve : Resolver) {style : Style} {frame : Frame} {height : Int}
    (available : Int) (vertical : style.direction.axes.horizontal = false)
    (imposed : frame.height = some height) (nonneg : 0 ≤ height) (least : style.minHeight = none)
    (most : style.maxHeight = none) (mainSize crossSize : Int) :
    (prepare resolve style frame available).mainSpace = some height ∧
      (prepare resolve style frame available).frame.height = some height ∧
      (prepare resolve style frame available).finalFrame mainSize crossSize =
        (prepare resolve style frame available).frame := by
  have own : (prepare resolve style frame available).frame.height = some height := by
    simp only [prepare, resolveFrame, imposed]
  have limits : (prepare resolve style frame available).limits.holdHeight height = height := by
    simp only [prepare, Limits.holdHeight, Frame.limits, least, most, Style.contentSize?,
      Option.bind_none, Limits.hold]
  refine ⟨?_, own, ?_⟩
  · show (if style.direction.axes.horizontal then _ else
      ((prepare resolve style frame available).frame.height <|> _)) = _
    rw [vertical, own]
    rfl
  · simp only [finalFrame]
    rw [own, Option.getD_some, limits, show max 0 height = height by omega, ← own]

/-- A child in a row that is stretched to another height is laid out with that height, and
hands out what it gained. -/
theorem Container.stretch_row (resolve : Resolver) {axes : Axes} (row : axes.horizontal = true)
    (item : Item) (lineCross : Int) (kid : Kid)
    (late : kid.frame.height ≠ some (stretchedSize axes item kid.frame lineCross)) :
    stretch resolve axes item lineCross kid = (do
      let frame := { kid.frame with height := some (stretchedSize axes item kid.frame lineCross) }
      let fragment ← kid.layOut (kid.withFrame frame).fragment (kid.frame.width.getD 0)
      return kid.withFragment (Slack.spread resolve kid.box fragment)) := by
  have changes : ¬axes.crossSize? kid.frame =
      some (stretchedSize axes item kid.frame lineCross) := by
    rw [Axes.crossSize?, if_pos row]
    exact late
  simp only [stretch, changes, row, if_true, if_false]

namespace Box

variable {host : Host} {box : Box} {frame : Frame} {fragments : List Fragment} {available height : Int}
  {log mid after : CallLog} {flow : Flow} {result : Fragment}

/-- A column of boxes whose items are no flex containers, with an imposed height. -/
structure Imposed (box : Box) (frame : Frame) (height : Int) : Prop where
  vertical : box.style.direction.axes.horizontal = false
  nowrap : box.style.wrap = .nowrap
  definite : frame.height = some height
  nonneg : 0 ≤ height
  minHeight : box.style.minHeight = none
  maxHeight : box.style.maxHeight = none
  /-- No item is a flex container, and no other child is a column. -/
  plain : ∀ child ∈ box.children, child.kind = .flex →
    child.participates = false ∧ child.style.direction.axes.horizontal = true

/-- The child of an item after layout: its height is known, and its edges are those of
its style. -/
def Ends (resolve : Resolver) (container : Container) (boxes : List Box) (fragments : List Fragment)
    (item : Item) : Prop :=
  ∃ box fragment, boxes[item.child]? = some box ∧ fragments[item.child]? = some fragment ∧
    fragment.frame.Edged resolve box.style container.contentWidth ∧ fragment.frame.height.isSome

/-- The items of a column that was laid out stand on its line where a walk put them. -/
structure Standing (resolve : Resolver) (container : Container) (boxes : List Box) (filled : FilledLine)
    (result : Fragment) : Prop where
  laid : Line.Laid container filled (Item.frameIn result.children)
  sound : Line.Sound filled
  ends : ∀ item ∈ filled.items, Ends resolve container boxes result.children item
  used : Line.AddsUp container filled

theorem Standing.seated {resolve : Resolver} {container : Container} {boxes : List Box}
    {filled : FilledLine} (standing : Standing resolve container boxes filled result) :
    ∀ item ∈ filled.items, (result.children[item.child]?).isSome := by
  intro item member
  obtain ⟨-, fragment, -, found, -⟩ := standing.ends item member
  rw [found]
  rfl

/-- **A column of boxes whose items are no flex containers, laid out.** -/
theorem layOutFlex_standing (vertical : box.style.direction.axes.horizontal = false)
    (nowrap : box.style.wrap = .nowrap)
    (plain : ∀ child ∈ box.children, child.participates = true → child.kind ≠ .flex)
    (placed : (Container.flow host.resolve box.style frame
      (Kid.ofBoxes host.environment box.children fragments) available).outcome log = (.ok flow, mid))
    (done : (box.layOutFlex host.environment ⟨frame, fragments⟩ available).outcome log =
      (.ok result, after)) :
    flow.container = Container.prepare host.resolve box.style frame available ∧
      result.frame = flow.container.finalFrame flow.mainSize flow.crossSize ∧
      ∃ filled, Container.Single host.resolve box.children flow filled ∧
        Standing host.resolve flow.container box.children filled result := by
  have closed := Run.outcome_rest placed done
  have lines := Container.flow_placed (Kid.plain_ofBoxes host plain fragments) _ _ _ placed
  have kept := Container.flow_kept host _ _ _ _ _ _ _ _ placed
  obtain ⟨same, filled, single⟩ := Container.flow_single vertical nowrap _ _ _ placed
  rw [Kid.map_box_ofBoxes] at single
  obtain ⟨ends, kids, children, steady⟩ := flow.close_steady host.resolve _ _ _ closed
  have column : flow.container.axes.horizontal = false := by rw [same]; exact vertical
  refine ⟨same, ends, filled, single, ?_⟩
  rcases single.lines with one | ⟨-, rfl⟩
  · have member : filled ∈ flow.lines := one ▸ List.mem_singleton_self filled
    have line := lines.placed filled member
    refine ⟨children ▸ Line.laid_of_steady line steady, lines.sound filled member,
      fun item among => ?_, line.used⟩
    obtain ⟨kid, found, settled⟩ := line.settled item among
    obtain ⟨kid', found', inside, -, edged⟩ := (kept filled member).items item among
    obtain rfl : kid = kid' := Option.some.inj (found.symm.trans found')
    obtain ⟨last, found'', steady⟩ := steady item.child kid found settled
    obtain ⟨child, inside', of⟩ := single.of item among
    obtain rfl : child = kid.box := Option.some.inj (inside'.symm.trans inside)
    have other := plain kid.box (List.mem_of_getElem? inside) of.participates
    refine ⟨kid.box, last.fragment, inside, ?_,
      (edged fun flex => absurd flex other).of_sameEdges steady.extent.toSameEdges, ?_⟩
    · rw [children, List.getElem?_map, found'']
      rfl
    · have known := steady.settled.known
      rwa [Axes.mainSize?, if_neg (by simp [column])] at known
  · exact ⟨⟨rfl, fun _ member => absurd member List.not_mem_nil, rfl⟩, Line.sound_start 0,
      fun _ member => absurd member List.not_mem_nil, fun _ => rfl⟩

/-- **A column that was laid out with its height**, and what became of its items. -/
theorem layOutFlex_column (vertical : box.style.direction.axes.horizontal = false)
    (nowrap : box.style.wrap = .nowrap) (definite : frame.height = some height) (nonneg : 0 ≤ height)
    (least : box.style.minHeight = none) (most : box.style.maxHeight = none)
    (plain : ∀ child ∈ box.children, child.participates = true → child.kind ≠ .flex)
    (placed : (Container.flow host.resolve box.style frame
      (Kid.ofBoxes host.environment box.children fragments) available).outcome log = (.ok flow, mid))
    (done : (box.layOutFlex host.environment ⟨frame, fragments⟩ available).outcome log =
      (.ok result, after)) :
    ∃ filled, Container.Single host.resolve box.children flow filled ∧
      Line.Column host.resolve flow.container height filled box.children result ∧
      Standing host.resolve flow.container box.children filled result := by
  obtain ⟨same, ends, filled, single, standing⟩ := layOutFlex_standing vertical nowrap plain placed done
  obtain ⟨main, own, final⟩ := Container.prepare_imposed host.resolve available vertical definite
    nonneg least most flow.mainSize flow.crossSize
  rw [← same] at main own final
  rw [final] at ends
  refine ⟨filled, single, ⟨by rw [same]; exact vertical, main, ends ▸ own, by rw [ends], ?_,
    standing.laid, standing.sound, single.lists, standing.seated⟩, standing⟩
  rw [ends, same]
  show (box.style.gaps host.resolve _).1 = _
  rfl

theorem full_of_ends {resolve : Resolver} {container : Container} {boxes : List Box}
    {fragments : List Fragment} {item : Item} {child : Box}
    (ends : Ends resolve container boxes fragments item) (found : boxes[item.child]? = some child)
    (of : item.Of resolve container child) (vertical : container.axes.horizontal = false)
    (outer : container.axes.mainOuter (item.frameIn fragments) = item.target) (full : item.Full) :
    (item.entryIn boxes fragments).Full resolve := by
  obtain ⟨own, fragment, at_, inside, edged, known⟩ := ends
  obtain rfl : own = child := Option.some.inj (at_.symm.trans found)
  have box : (item.entryIn boxes fragments).box = own := by
    rw [Item.entryIn, at_, Option.getD_some]
  have frame : item.frameIn fragments = fragment.frame := by
    rw [Item.frameIn, inside, Option.getD_some]
  refine full.imp (fun none => ?_) fun most => ?_
  · rw [Slack.Entry.grow, box, ← of.grow, none]
  · obtain ⟨height, known⟩ := Option.isSome_iff_exists.1 known
    have limit := (of.maxMain fragment.frame edged).symm.trans most
    rw [Option.map_eq_some_iff] at limit
    obtain ⟨size, sized, sum⟩ := limit
    rw [frame] at outer
    rw [Axes.mainOuter_column vertical, Frame.marginBoxHeight, known, Option.getD_some] at outer
    refine ⟨height, ?_, ?_⟩
    · show (item.frameIn fragments).height = _
      rw [frame, known]
    · rw [Slack.Entry.maxHeight?, box]
      show own.style.contentSize? _ _ _ (item.frameIn fragments).verticalInset = _
      rw [frame, sized]
      congr 1
      omega

/-- **Late height changes nothing in a column that was laid out with it.**  A column of
block, table and grid boxes is laid out with an imposed height; its limits do not hold
the height, and none of its children that take no part in flex layout is a column
container.  If no two limits of an item contradict each other and no fraction of the room
is left to the items, handing out the height once more leaves all children as they are.
So stretching a column container in a row gives the layout at its new height. -/
theorem spread_layOutFlex (host : Host) (box : Box) (frame : Frame) (fragments : List Fragment)
    (available height : Int) (imposed : box.Imposed frame height)
    {log mid after : CallLog} {flow : Flow} {result : Fragment}
    (placed : (Container.flow host.resolve box.style frame
      (Kid.ofBoxes host.environment box.children fragments) available).outcome log = (.ok flow, mid))
    (done : (box.layOutFlex host.environment ⟨frame, fragments⟩ available).outcome log =
      (.ok result, after))
    (few : ∀ filled ∈ flow.lines, filled.line.inFlow < 2147483648)
    (range : ∀ filled ∈ flow.lines,
      height + Line.sumInFlow Item.deficit filled.items ≤ 2147483647)
    (exhausts : ∀ filled ∈ flow.lines, Line.Exhausts flow.container filled) :
    Slack.spread host.resolve box result = result ∧
      ∀ (axes : Axes) (item : Item) (lineCross : Int) (before : Option Int),
        box.kind = .flex → axes.horizontal = true → frame.width.getD 0 = available →
        before ≠ some height →
        Container.stretchedSize axes item { frame with height := before } lineCross = height →
        (Container.stretch host.resolve axes item lineCross
          ⟨box, ⟨{ frame with height := before }, fragments⟩, box.layOut host.environment⟩).outcome log =
            (.ok ⟨box, result, box.layOut host.environment⟩, after) := by
  obtain ⟨filled, single, column, standing⟩ := layOutFlex_column imposed.vertical imposed.nowrap
    imposed.definite imposed.nonneg imposed.minHeight imposed.maxHeight
    (fun child member participates flex =>
      absurd ((imposed.plain child member flex).1.symm.trans participates) Bool.false_ne_true)
    placed done
  have same : flow.container = Container.prepare host.resolve box.style frame available :=
    (Container.flow_single imposed.vertical imposed.nowrap _ _ _ placed).1
  have gap : 0 ≤ flow.container.mainGap := by
    rw [same]
    exact Container.mainGap_nonneg _ _ _ _
  -- Height that is left over is height that no item can take.
  have full : 0 < Line.leftOver flow.container height filled →
      (∀ item ∈ filled.items, item.outOfFlow = false →
        (item.entryIn box.children result.children).Full host.resolve) ∧
      filled.line.used = (Line.sizesInFlow filled.items).sum +
        Pixel.gapsBetween filled.line.inFlow flow.container.mainGap := by
    intro more
    rcases single.lines with one | ⟨-, rfl⟩
    · have member : filled ∈ flow.lines := one ▸ List.mem_singleton_self filled
      have fit : ∀ item ∈ filled.items, item.Fit ∧ 0 ≤ item.grow.raw ∧ 0 ≤ item.shrink.raw := by
        intro item among
        obtain ⟨child, -, of⟩ := single.of item among
        rw [of.grow, of.shrink]
        exact ⟨of.fit, Factor.raw_ofStyle_nonneg _, Factor.raw_ofStyle_nonneg _⟩
      refine ⟨fun item among flows => ?_, standing.used (single.flexed.running gap (few filled member)
        (fun item among => (fit item among).1) (range filled member) imposed.nonneg more)⟩
      obtain ⟨child, found, of⟩ := single.of item among
      exact full_of_ends (standing.ends item among) found of column.vertical (column.laid.outer item among)
        (single.flexed.exhausted column.definite imposed.nonneg gap (few filled member) fit
          (range filled member) (exhausts filled member) more item among flows)
    · exact ⟨fun _ member => absurd member List.not_mem_nil, rfl⟩
  have here := column.spreadHere_eq full
  have style : flow.container.style = box.style := by rw [same]; rfl
  rw [style] at here
  have stays : Slack.spread host.resolve box result = result := by
    refine Slack.spread_eq here fun child member fragment => ?_
    by_cases flex : child.kind = .flex
    · exact Slack.spread_of_horizontal _ (imposed.plain child member flex).2 fragment
    · exact Slack.spread_of_not_flex _ (beq_eq_false_iff_ne.2 flex) fragment
  -- To stretch the column is to lay it out with the height and hand out what it gained.
  refine ⟨stays, fun axes item lineCross before flex row width late size => ?_⟩
  have whole : ({ frame with height := some height } : Frame) = frame := by
    rw [← imposed.definite]
  rw [Container.stretch_row host.resolve row item lineCross
    ⟨box, ⟨{ frame with height := before }, fragments⟩, box.layOut host.environment⟩
    fun same => late (same.trans (congrArg some size))]
  simp only [Kid.withFrame, Kid.withFragment, Kid.frame]
  rw [size, whole, width, Run.outcome_bind, Box.layOut_of_flex _ _ _ _ flex, done]
  dsimp only
  rw [stays, Run.outcome_pure]

/-- A reversed column in which one item grows up to its maximum, a margin takes what is
left, and a child out of flow stands between the others; it is laid out with its height,
and stretched to it. -/
theorem spread_layOutFlex_reversed :
    let box : Box :=
      { kind := .flex
        style := { direction := .columnReverse, rowGap := some (.px 10) }
        children :=
          [{ kind := .grid, style := { height := some (.px 20), maxHeight := some (.px 50), grow := 1 } },
            { style := { position := .absolute, height := some (.px 90) } },
            { style :=
                { height := some (.px 30), margin := { Sides.all (some (.px 0)) with top := none } } }] }
    let frame : Frame := { width := some 100, height := some 200 }
    let axes : Axes := { horizontal := true, reversed := false }
    ∃ flow result mid after,
      (Container.flow ({} : Host).resolve box.style frame (Kid.ofBoxes ({} : Host).environment
        box.children []) 100).outcome #[] = (.ok flow, mid) ∧
      (box.layOutFlex ({} : Host).environment ⟨frame, []⟩ 100).outcome #[] = (.ok result, after) ∧
      (result.children.map fun child => (child.frame.y, child.frame.height)) =
        [(150, some 50), (140, some 90), (110, some 30)] ∧
      Slack.spread ({} : Host).resolve box result = result ∧
      (Container.stretch ({} : Host).resolve axes {} 200
        ⟨box, ⟨{ frame with height := none }, []⟩, box.layOut ({} : Host).environment⟩).outcome #[] =
          (.ok ⟨box, result, box.layOut ({} : Host).environment⟩, after) := by
  intro box frame axes
  have imposed : box.Imposed frame 200 := ⟨rfl, rfl, rfl, by decide, rfl, rfl, by decide⟩
  have begun : Run.Succeeds (fun flow => ∀ filled ∈ flow.lines,
      (filled.line.inFlow < 2147483648 ∧
        200 + Line.sumInFlow Item.deficit filled.items ≤ 2147483647) ∧
      (∀ item ∈ filled.items, item.outOfFlow = false → item.Bounded) ∧
      Line.sumInFlow Item.hypothetical filled.items <
        filled.line.roomFor flow.container.mainSpace flow.container.mainGap ∧
      ∀ item ∈ filled.items, item.outOfFlow = false → item.grow.raw = 0 ∨ 1024 ≤ item.grow.raw)
      (Container.flow ({} : Host).resolve box.style frame (Kid.ofBoxes ({} : Host).environment
        box.children []) 100) #[] := by
    rw [Container.flow_eq_insertionSort]
    decide +kernel
  have ended : Run.Succeeds (fun result => (result.children.map fun child =>
      (child.frame.y, child.frame.height)) = [(150, some 50), (140, some 90), (110, some 30)])
      (box.layOutFlex ({} : Host).environment ⟨frame, []⟩ 100) #[] := by
    simp only [layOutFlex, Container.layOut]
    rw [Container.flow_eq_insertionSort]
    decide +kernel
  obtain ⟨flow, mid, placed, lines⟩ := begun
  obtain ⟨result, after, done, places⟩ := ended
  obtain ⟨stays, stretches⟩ := spread_layOutFlex {} box frame [] 100 200 imposed placed done
    (fun filled member => (lines filled member).1.1) (fun filled member => (lines filled member).1.2)
    fun filled member =>
      .grown (lines filled member).2.1 (lines filled member).2.2.1 (.inl (lines filled member).2.2.2)
  exact ⟨flow, result, mid, after, placed, done, places, stays,
    stretches axes {} 200 none rfl rfl rfl (by decide) (by decide)⟩

/-- The one item takes a quarter of the room, as its grow factor says, and when the height
is handed out once more, it takes a quarter of the rest. -/
theorem spread_layOutFlex_fraction :
    let box : Box :=
      { kind := .flex
        style := { direction := .column }
        children := [{ kind := .grid, style := { grow := Float32.ofBits 0x3E800000 } }] }
    let frame : Frame := { height := some 210 }
    box.Imposed frame 210 ∧
    Run.Succeeds (fun result =>
        (result.children.map fun child => child.frame.height) = [some 52] ∧
        ((Slack.spread ({} : Host).resolve box result).children.map fun child => child.frame.height) =
          [some 91])
      (box.layOutFlex ({} : Host).environment ⟨frame, []⟩ 100) #[] := by
  intro box frame
  refine ⟨⟨rfl, rfl, rfl, by decide, rfl, rfl, by decide⟩, ?_⟩
  simp only [layOutFlex, Container.layOut]
  rw [Container.flow_eq_insertionSort]
  decide +kernel

end Box

end FlexLayout
