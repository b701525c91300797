/-
# FlexLayout.Proofs.CrossLimits -- limits across the main axis

An item that stretches ends with the cross size of its line, held to its limits.  Every other
item keeps the size that it has by itself, within its limits or not (`Flow.close_across`,
`Box.layOutFlex_unheld`).

A line is as large across as its items were before they stretched (`Line.place_raised`), and a
row of `auto` height is as tall as each of its lines with its part of the space that they share
(`Flow.le_height`).  So it is as tall as each of its leaves, except one that its minimum makes
larger than its line.
-/
import FlexLayout.Proofs.Bands
import FlexLayout.Proofs.CrossLimits.Sizes
import Mathlib.Algebra.Order.BigOperators.Group.List
import Mathlib.Algebra.Order.Group.Int

namespace FlexLayout

set_option autoImplicit false

/-! ## Lines -/

theorem Axes.crossSize?_moveMain (axes : Axes) (frame : Frame) (coordinate : Int) :
    axes.crossSize? (axes.moveMain frame coordinate) = axes.crossSize? frame := by
  simp only [crossSize?, moveMain]
  cases axes.horizontal <;> rfl

theorem Axes.crossOuter_moveMain (axes : Axes) (frame : Frame) (coordinate : Int) :
    axes.crossOuter (axes.moveMain frame coordinate) = axes.crossOuter frame := by
  simp only [crossOuter, crossSize?, crossSurround, moveMain]
  cases axes.horizontal <;> rfl

namespace Line

theorem crossOuter_le_raiseCross (axes : Axes) (line : Line) {sized : List (Item × Frame)}
    {item : Item} {frame : Frame} (member : (item, frame) ∈ sized) (flows : item.outOfFlow = false) :
    axes.crossOuter frame ≤ (line.raiseCross axes sized).cross :=
  (le_foldl_max (fun entry : Item × Frame => axes.crossOuter entry.2) _ line.cross).2
    (item, frame) (List.mem_filter.2 ⟨member, by simp [flows]⟩)

variable {host : Host} {boxes : List Box} {container : Container} {filled : FilledLine}
  {kids : List Kid}

/-- **A line is as large across as each of its items in flow** when they are placed. -/
theorem place_raised (nodup : (filled.items.map Item.child).Nodup)
    (seated : ∀ item ∈ filled.items, item.Seated kids) :
    Run.Ensures (fun a => ∀ item ∈ a.1.items, item.outOfFlow = false →
        container.axes.crossOuter (item.frameIn (a.2.map Kid.fragment)) ≤ a.1.line.cross)
      (place container filled kids) := by
  simp only [place]
  generalize ({ filled.line with
    autoMargins := countAutoMargins container.axes filled.items kids } : Line) = line
  have children := map_child_flex line filled.items container.mainSpace container.mainGap
  have seated := seated_of_children children seated
  rw [← children] at nodup
  generalize line.flex filled.items container.mainSpace container.mainGap = flexed at nodup seated ⊢
  refine Run.ensures_bind (Item.giveMainSizes_each (R := fun _ _ _ => True) nodup
    fun item member => ?_) ?_
  · obtain ⟨kid, found⟩ := (seated item member).exists_kid
    exact ⟨kid, found, Run.ensures_true _⟩
  rintro ⟨entries, sized⟩ ⟨listed, becomes, -⟩
  dsimp only at listed becomes
  rw [MainTrack.zip_coordinates, listed]
  have sizedAs : ∀ item ∈ flexed.2,
      item.Becomes (fun item _ laid => sized[item.child]? = some laid) kids sized := by
    intro item member
    obtain ⟨kid, last, found, found', -⟩ := becomes item member
    exact ⟨kid, last, found, found', found'⟩
  have moved := moveMain_walked container.axes (MainTrack.ofLine container flexed.1)
    (MainTrack.ofLine container flexed.1).begin nodup sizedAs rfl
  generalize moveMain container.axes sized _ = final at moved ⊢
  obtain ⟨-, becomes', -⟩ := moved
  refine Run.ensures_pure fun item member flows => ?_
  obtain ⟨-, last, -, found, laid, coordinate, found', rfl⟩ := becomes' item member
  rw [Item.frameIn_of_getElem? found, Kid.frame_withFrame, Axes.crossOuter_moveMain]
  refine crossOuter_le_raiseCross _ _ (List.mem_map.2 ⟨item, member, ?_⟩) flows
  rw [Item.frameIn_of_getElem? found']

/-- A line whose items are placed: each leaf has the size across that it has by itself, and
the line is as large as each item in flow. -/
structure Across (host : Host) (boxes : List Box) (container : Container) (filled : FilledLine)
    (kids : List Kid) : Prop where
  items : ∀ item ∈ filled.items, item.With (fun item kid => boxes[item.child]? = some kid.box ∧
    item.Across host container (fun box => some (container.ownCross host.resolve box)) kid) kids
  raised : ∀ item ∈ filled.items, item.outOfFlow = false →
    container.axes.crossOuter (item.frameIn (kids.map Kid.fragment)) ≤ filled.line.cross

/-- **Placing a line gives every leaf its own cross size.** -/
theorem place_across (leaf : host.conduct = .leaf) (nodup : (filled.items.map Item.child).Nodup)
    (measured : ∀ item ∈ filled.items, item.With (fun item kid => boxes[item.child]? = some kid.box ∧
      item.Across host container (container.measuredCross host.resolve) kid) kids) :
    Run.Ensures (fun a => Across host boxes container a.1 a.2 ∧
        ∀ i, i ∉ filled.items.map Item.child → a.2[i]? = kids[i]?)
      (place container filled kids) := by
  have placed := place_each (R := fun item _ after => boxes[item.child]? = some after.box ∧
      item.Across host container (fun box => some (container.ownCross host.resolve box)) after) nodup
    fun line item member => by
      obtain ⟨source, among, same⟩ := exists_of_mem_right
        (map_unflexed_flex line filled.items container.mainSpace container.mainGap) member
      have child : item.child = source.child := (congrArg Item.child same :)
      obtain ⟨kid, found, box, across⟩ := measured source among
      refine ⟨kid, child ▸ found, (Item.giveMainSize_across leaf (across.of_unflexed same)).mono ?_⟩
      rintro after ⟨kept, across'⟩
      exact ⟨by rw [child, box, kept], across'⟩
  refine (placed.and (place_raised nodup fun item member => (measured item member).seated)).mono ?_
  rintro a ⟨⟨-, becomes, rests, -⟩, raised⟩
  refine ⟨⟨fun item member => ?_, raised⟩, rests⟩
  obtain ⟨kid, last, -, found, laid, coordinate, ⟨box, across⟩, rfl⟩ := becomes item member
  refine ⟨_, found, box, across.hosted, across.flow, across.limits, fun other => ?_⟩
  rw [Kid.frame_withFrame, Axes.crossSize?_moveMain]
  exact across.size other

end Line

namespace Container

/-- **Every leaf of a container is placed with its own cross size.** -/
theorem flow_across {host : Host} (leaf : host.conduct = .leaf) (style : Style) (frame : Frame)
    (boxes : List Box) (fragments : List Fragment) (available : Int) :
    Run.Ensures (fun flow => flow.container = prepare host.resolve style frame available ∧
        ∀ filled ∈ flow.lines,
          Line.Across host boxes flow.container filled flow.kids ∧ Line.Sound filled)
      (flow host.resolve style frame (Kid.ofBoxes host.environment boxes fragments) available) := by
  let container := prepare host.resolve style frame available
  have measured : Run.Ensures (fun a => ∀ item ∈ a.1,
        item.With (fun item kid => boxes[item.child]? = some kid.box ∧
          item.Across host container (container.measuredCross host.resolve) kid) a.2)
      (Item.measureAll host.resolve container 0 0 (Kid.ofBoxes host.environment boxes fragments)) := by
    refine Run.Ensures.mono (Item.measureAll_each (P := fun kid item after => after.box = kid.box ∧
      item.Across host container (container.measuredCross host.resolve) after) 0 0
      fun kid member _ child index =>
        Item.measure_across leaf child index (Kid.layOut_of_mem_ofBoxes member))
      fun a each item member => ?_
    obtain ⟨-, kid, after, found, found', box, across⟩ := each item member
    rw [Nat.sub_zero] at found
    refine ⟨after, found', ?_, across⟩
    rw [← Kid.map_box_ofBoxes host.environment boxes fragments, List.getElem?_map, found, box]
    rfl
  refine (flow_each (fun _ _ _ measured => ⟨measured.1, measured.2.hosted, measured.2.flow,
      measured.2.limits, measured.2.size⟩) measured
    (fun _ _ nodup measured => Line.place_across leaf nodup measured)
    fun filled kids kids' across same =>
      ⟨fun item member => (across.items item member).congr (same item member),
        fun item member flows => by
          rw [Item.frameIn_congr (same item member)]
          exact across.raised item member flows⟩).mono ?_
  rintro flow ⟨same, lines⟩
  rw [same]
  exact ⟨rfl, lines⟩

end Container

/-! ## Spread lines and the height of a row -/

namespace Line

variable {container : Container} {lines : List FilledLine}

/-- Lines keep their items and lose no room when they are stacked. -/
theorem grown_stackLines (reversed : Bool) (gap pos remainder : Int) {share : Int}
    (nonneg : 0 ≤ share) (lines : List FilledLine) :
    List.Forall₂ (fun source grown => grown.items = source.items ∧
        source.line.cross ≤ grown.line.cross)
      lines (stackLines reversed gap share pos remainder lines) := by
  induction lines generalizing pos remainder with
  | nil => exact .nil
  | cons filled rest ih =>
      rw [stackLines]
      refine .cons ⟨rfl, ?_⟩ (ih _ _)
      show filled.line.cross ≤ filled.line.cross + (share + Pixel.bonus remainder)
      rw [Pixel.bonus_eq]
      omega

theorem grown_spreadLines (container : Container) (crossSize : Int) (lines : List FilledLine) :
    List.Forall₂ (fun source grown => grown.items = source.items ∧
        source.line.cross ≤ grown.line.cross)
      lines (spreadLines container crossSize lines) := by
  rw [spreadLines_eq]
  exact grown_stackLines _ _ _ _ (Int.tdiv_nonneg (Int.le_max_left _ _) (by omega)) lines

theorem le_crossExtent (nonneg : ∀ filled ∈ lines, 0 ≤ filled.line.cross) :
    ∀ filled ∈ lines, filled.line.cross ≤ crossExtent lines := by
  intro filled member
  refine List.single_le_sum (fun size among => ?_) _ (List.mem_map_of_mem member)
  obtain ⟨other, inside, rfl⟩ := List.mem_map.1 among
  exact nonneg other inside

/-- **Spread lines take no more room** than the lines and the space that they share. -/
theorem crossExtent_spreadLines (container : Container) {lines : List FilledLine} (some : lines ≠ [])
    (few : lines.length < 2147483648) {crossSize : Int}
    (size : crossSize = crossExtent lines + Pixel.gapsBetween lines.length container.crossGap) :
    crossExtent (spreadLines container crossSize lines) =
      crossExtent lines + max 0 (container.crossSpace.getD crossSize - crossSize) := by
  rw [← (banded_spreadLines container some few size).total, spreadLines_eq]
  exact sum_cross_stackLines _ _ _ _ _ lines

end Line

namespace Container

/-- **A row of `auto` height is as tall as its lines**, and as the height that they share. -/
theorem le_finalHeight (resolve : Resolver) {style : Style} {frame : Frame} (available : Int)
    (row : style.direction.axes.horizontal = true) (open_ : frame.height = none)
    (auto : style.height = none) (unlimited : style.maxHeight = none) (mainSize crossSize : Int) :
    let container := prepare resolve style frame available
    ∃ height, (container.finalFrame mainSize crossSize).height = some height ∧
      crossSize ≤ height ∧ container.crossSpace.getD crossSize ≤ height := by
  intro container
  have own : container.frame.height = none := by
    simp only [container, prepare, resolveFrame]
    rw [open_]
    simp [Frame.withSizes, Style.contentSize?, auto]
  have limit : container.limits.maxHeight = none := by
    simp [container, prepare, Frame.limits, Style.contentSize?, unlimited]
  have space : container.crossSpace = container.limits.minHeight.filter (0 < ·) := by
    have height : (resolveFrame resolve style frame available).height = none := own
    simp only [container, prepare, row, if_true, height]
    rfl
  refine ⟨_, rfl, ?_⟩
  rw [own, show container.axes.horizontal = true from row, if_pos rfl, Option.getD_none, space]
  simp only [Limits.holdHeight, Limits.hold]
  rw [limit]
  cases container.limits.minHeight with
  | none =>
      dsimp only [Option.filter, Option.getD]
      omega
  | some least =>
      by_cases positive : 0 < least
      · simp only [Option.filter, positive, decide_true, if_true, Option.getD_some]
        omega
      · simp only [Option.filter, positive, decide_false, Bool.false_eq_true, if_false,
          Option.getD_none]
        omega

end Container

/-! ## Leaves -/

/-- A size that is held to limits is no larger than it was, or the least that it may be. -/
theorem Limits.hold_le (least : Int) (upper : Option Int) (size : Int) :
    hold (some least) upper size ≤ size ∨ hold (some least) upper size = least ∧ size < least := by
  cases upper <;> dsimp only [hold] <;> omega

/-- How a leaf in flow ends across the main axis, with the line and the item that it has
and its size. -/
structure Flow.EndsAcross (host : Host) (flow : Flow) (result : Fragment) (line : Line) (item : Item)
    (kid : Kid) (size : Int) : Prop where
  /-- The limits are those of its style. -/
  limits : (item.minCross, item.maxCross) = flow.container.crossLimits host.resolve kid.box
  ends : flow.container.axes.crossSize? (item.frameIn result.children) = some size
  /-- If it stretches, it has the size of the line, held to its limits. -/
  stretched : flow.container.stretches item kid = true →
    size = Limits.hold (some item.minCross) item.maxCross
      (line.cross - flow.container.axes.crossSurround (item.frameIn result.children))
  /-- Else it has the size that it has by itself. -/
  own : flow.container.stretches item kid = false →
    size = flow.container.ownCross host.resolve kid.box
  /-- Its margin box is no larger than the line, unless its minimum makes it so. -/
  fits : size + flow.container.axes.crossSurround (item.frameIn result.children) ≤ line.cross ∨
    flow.container.stretches item kid = true ∧ size = item.minCross ∧
      line.cross - flow.container.axes.crossSurround (item.frameIn result.children) < item.minCross

namespace Flow

variable {host : Host} {boxes : List Box} {kids : List Kid} {flow : Flow}

/-- The line that an item is on when the lines are spread, and its own line before. -/
theorem exists_spread {item : Item} (member : item ∈ flow.lines.flatMap FilledLine.items) :
    ∃ filled ∈ Line.spreadLines flow.container flow.crossSize flow.lines, item ∈ filled.items := by
  rw [← Container.flatMap_items_spreadLines flow.container flow.crossSize] at member
  exact List.mem_flatMap.1 member

/-- **Closing a container leaves every leaf with its own size or that of its line.** -/
theorem close_across (seats : flow.Seats kids)
    (lines : ∀ filled ∈ flow.lines, Line.Across host boxes flow.container filled flow.kids) :
    Run.Ensures (fun result =>
        ∀ filled ∈ Line.spreadLines flow.container flow.crossSize flow.lines, ∀ item ∈ filled.items,
          ∃ kid, flow.kids[item.child]? = some kid ∧ boxes[item.child]? = some kid.box ∧
            item.outOfFlow = kid.box.outOfFlow ∧
            (kid.box.kind ≠ .flex → item.outOfFlow = false →
              ∃ size, flow.EndsAcross host result filled.line item kid size))
      (flow.close host.resolve) := by
  -- The line of an item before it is spread, with what holds of the item there.
  have before : ∀ filled ∈ Line.spreadLines flow.container flow.crossSize flow.lines,
      ∀ item ∈ filled.items, ∃ source ∈ flow.lines, item ∈ source.items ∧
        source.line.cross ≤ filled.line.cross := by
    intro filled member item among
    obtain ⟨source, there, items, grown⟩ := exists_of_mem_right
      (Line.grown_spreadLines flow.container flow.crossSize flow.lines) member
    exact ⟨source, there, items ▸ among, grown⟩
  refine (Flow.close_each (R := fun line item kid after => kid.box.kind ≠ .flex →
      flow.container.axes.crossSize? after.frame =
          some (flow.container.alignedCross host.resolve line item kid) ∧
        flow.container.axes.crossSurround after.frame =
          flow.container.axes.crossSurround kid.frame)
    seats.nodup fun filled member item among => ?_).mono ?_
  · obtain ⟨source, there, inside, -⟩ := before filled member item among
    obtain ⟨kid, found, -, across⟩ := (lines source there).items item inside
    exact ⟨kid, found, Container.alignKid_across filled.line across⟩
  · rintro result ⟨-, after, children, becomes⟩ filled member item among
    obtain ⟨source, there, inside, grown⟩ := before filled member item among
    obtain ⟨kid, last, found, found', aligned⟩ := becomes filled member item among
    obtain ⟨kid', foundAgain, box, across⟩ := (lines source there).items item inside
    obtain rfl : kid = kid' := Option.some.inj (found.symm.trans foundAgain)
    refine ⟨kid, found, box, across.flow, fun other flows => ?_⟩
    obtain ⟨ends, surround⟩ := aligned other
    have raised := (lines source there).raised item inside flows
    rw [Item.frameIn_of_getElem? found, Axes.crossOuter, across.size other, Option.getD_some] at raised
    have frame : item.frameIn result.children = last.frame := by
      rw [children, Item.frameIn_of_getElem? found']
    refine ⟨_, across.limits, frame ▸ ends, fun stretches => ?_, fun keeps => ?_, ?_⟩
    · rw [frame, surround]
      exact if_pos stretches
    · exact if_neg (by simp [keeps])
    · rw [frame, surround]
      cases stretches : flow.container.stretches item kid with
      | false =>
          rw [Container.alignedCross, if_neg (by simp [stretches])]
          omega
      | true =>
          rw [Container.alignedCross, if_pos stretches]
          rcases Limits.hold_le item.minCross item.maxCross
            (filled.line.cross - flow.container.axes.crossSurround kid.frame) with least | held
          · exact .inl (by omega)
          · exact .inr ⟨rfl, held⟩

/-- **No line of a row of `auto` height is larger than the row.** -/
theorem le_height {style : Style} {frame : Frame} {available : Int}
    (container : flow.container = Container.prepare host.resolve style frame available)
    (row : style.direction.axes.horizontal = true) (open_ : frame.height = none)
    (auto : style.height = none) (unlimited : style.maxHeight = none)
    (sound : ∀ filled ∈ flow.lines, Line.Sound filled) (few : flow.lines.length < 2147483648) :
    ∃ height, (flow.container.finalFrame flow.mainSize flow.crossSize).height = some height ∧
      ∀ filled ∈ Line.spreadLines flow.container flow.crossSize flow.lines,
        filled.line.cross ≤ height := by
  obtain ⟨height, found, content, shared⟩ := Container.le_finalHeight host.resolve available
    row open_ auto unlimited flow.mainSize flow.crossSize
  rw [← container] at found shared
  refine ⟨height, found, fun filled member => ?_⟩
  have grown := Line.grown_spreadLines flow.container flow.crossSize flow.lines
  have nonneg : ∀ filled ∈ Line.spreadLines flow.container flow.crossSize flow.lines,
      0 ≤ filled.line.cross := by
    intro filled member
    obtain ⟨source, there, -, more⟩ := exists_of_mem_right grown member
    exact Int.le_trans (sound source there).nonneg more
  have some : flow.lines ≠ [] := by
    obtain ⟨source, there, -⟩ := exists_of_mem_right grown member
    exact List.ne_nil_of_mem there
  have gap : 0 ≤ flow.container.crossGap := container ▸ Container.crossGap_nonneg _ _ _ _
  have gaps : 0 ≤ Pixel.gapsBetween flow.lines.length flow.container.crossGap := by
    rw [Line.gapsBetween_eq few]
    exact Int.mul_nonneg (Int.natCast_nonneg _) gap
  have size : flow.crossSize = Line.crossExtent flow.lines +
    Pixel.gapsBetween flow.lines.length flow.container.crossGap := rfl
  have largest := Line.le_crossExtent nonneg filled member
  rw [Line.crossExtent_spreadLines flow.container some few size] at largest
  omega

end Flow

namespace Box

/-- **Limits across the main axis hold where an item stretches.**  When a flex container has
been laid out around leaves, every leaf in flow has a size across the main axis.  If it
stretches, that is the size of its line within the limits of its style; otherwise it is the
one that it specifies, or was fitted to, or a height of none, and is not changed.  A row of
`auto` height is as tall as the margin box of each leaf in flow, but for one that its minimum
makes larger than its line. -/
theorem layOutFlex_crossLimits (host : Host) (leaf : host.conduct = .leaf) (box : Box)
    (fragment : Fragment) (available : Int) {log mid after : CallLog} {flow : Flow}
    {result : Fragment}
    (placed : (Container.flow host.resolve box.style fragment.frame
      (Kid.ofBoxes host.environment box.children fragment.children) available).outcome log =
        (.ok flow, mid))
    (done : (box.layOutFlex host.environment fragment available).outcome log = (.ok result, after))
    {i : Nat} {child : Box} (found : box.children[i]? = some child)
    (participates : child.participates = true) (inFlow : child.outOfFlow = false)
    (other : child.kind ≠ .flex) :
    ∃ filled ∈ Line.spreadLines flow.container flow.crossSize flow.lines, ∃ item ∈ filled.items,
      ∃ kid size, item.child = i ∧ flow.kids[i]? = some kid ∧ kid.box = child ∧
        flow.EndsAcross host result filled.line item kid size ∧
        (flow.container.stretches item kid = true →
          Limits.hold (some item.minCross) item.maxCross size = size) ∧
        (box.style.direction.axes.horizontal = true → fragment.frame.height = none →
          box.style.height = none → box.style.maxHeight = none → flow.lines.length < 2147483648 →
          ∃ height, result.frame.height = some height ∧
            (size + flow.container.axes.crossSurround (item.frameIn result.children) ≤ height ∨
              flow.container.stretches item kid = true ∧ size = item.minCross ∧
              filled.line.cross - flow.container.axes.crossSurround (item.frameIn result.children) <
                item.minCross)) := by
  obtain ⟨flow', mid', first, closed⟩ := Run.outcome_bind_eq_ok done
  have equal := placed.symm.trans first
  rw [Prod.mk.injEq, Except.ok.injEq] at equal
  obtain ⟨rfl, rfl⟩ := equal
  have seats := Container.flow_seats _ _ _ _ _ _ _ _ first
  obtain ⟨container, lines⟩ := Container.flow_across leaf box.style fragment.frame box.children
    fragment.children available _ _ _ first
  have ended := Flow.close_across seats (fun filled member => (lines filled member).1) _ _ _ closed
  have frame := flow.close_frame host.resolve _ _ _ closed
  -- The item of the child, on its line.
  have listed : i ∈ childrenOf flow.lines := by
    rw [← Kid.map_box_ofBoxes host.environment box.children fragment.children] at found
    obtain ⟨kid, there, rfl⟩ := Option.map_eq_some_iff.1 ((List.getElem?_map ..).symm.trans found)
    exact seats.listed i kid there participates
  obtain ⟨item, member, rfl⟩ := List.mem_map.1 listed
  obtain ⟨filled, spread, among⟩ := Flow.exists_spread member
  obtain ⟨kid, there, same, flows, ends⟩ := ended filled spread item among
  obtain rfl : kid.box = child := Option.some.inj (same.symm.trans found)
  obtain ⟨size, ends⟩ := ends other (flows.trans inFlow)
  refine ⟨filled, spread, item, among, kid, size, rfl, there, rfl, ends, fun stretches => ?_, ?_⟩
  · rw [ends.stretched stretches]
    exact Limits.hold_hold _ _ _
  · intro row open_ auto unlimited few
    obtain ⟨height, tall, within⟩ := Flow.le_height container row open_ auto unlimited
      (fun filled member => (lines filled member).2) few
    refine ⟨height, frame ▸ tall, ends.fits.imp_left fun fits => ?_⟩
    exact Int.le_trans fits (within filled spread)

/-- An item stretches to its line of 40 pixels, as far as its maximum of 30 allows. -/
theorem layOutFlex_crossLimits_capped :
    let tall : Box := { style := { width := some (.px 10), height := some (.px 40) } }
    let capped : Box := { style := { minHeight := some (.px 20), maxHeight := some (.px 30) } }
    let box : Box := { kind := .flex, style := { width := some (.px 100) }, children := [tall, capped] }
    ∃ flow result mid after,
      (Container.flow ({} : Host).resolve box.style {} (Kid.ofBoxes ({} : Host).environment
        box.children []) 100).outcome #[] = (.ok flow, mid) ∧
      (box.layOutFlex ({} : Host).environment {} 100).outcome #[] = (.ok result, after) ∧
      result.frame.height = some 40 ∧
      ∃ line item kid, flow.EndsAcross {} result line item kid 30 ∧
        flow.container.stretches item kid = true ∧
        Limits.hold (some item.minCross) item.maxCross 30 = 30 ∧
        30 + flow.container.axes.crossSurround (item.frameIn result.children) ≤ 40 := by
  intro tall capped box
  have begun : Run.Succeeds (fun flow => flow.lines.length < 2147483648 ∧
      flow.container.axes.horizontal = true ∧
      flow.container.ownCross ({} : Host).resolve capped = 0 ∧
      (flow.container.crossLimits ({} : Host).resolve capped).1 = 20)
      (Container.flow ({} : Host).resolve box.style {} (Kid.ofBoxes ({} : Host).environment
        box.children []) 100) #[] := by
    rw [Container.flow_eq_insertionSort]
    decide +kernel
  have ended : Run.Succeeds (fun result => result.frame.height = some 40 ∧
      (result.children[1]?.getD ({} : Fragment)).frame.height = some 30)
      (box.layOutFlex ({} : Host).environment {} 100) #[] := by
    simp only [layOutFlex, Container.layOut]
    rw [Container.flow_eq_insertionSort]
    decide +kernel
  obtain ⟨flow, mid, placed, few, row, own, limits⟩ := begun
  obtain ⟨result, after, done, height, last⟩ := ended
  obtain ⟨filled, -, item, -, kid, size, at_, -, same, ends, held, fits⟩ :=
    layOutFlex_crossLimits {} rfl box {} 100 placed done
      (show box.children[1]? = some capped from rfl) rfl rfl (by decide)
  obtain rfl : size = 30 := by
    have known := ends.ends
    rw [Axes.crossSize?, if_pos row, Item.frameIn, at_, last] at known
    exact (Option.some.inj known).symm
  have stretches : flow.container.stretches item kid = true := by
    by_contra keeps
    have size := ends.own (by simpa using keeps)
    rw [same, own] at size
    exact absurd size (by decide)
  have least : item.minCross = 20 := by
    rw [show item.minCross = (item.minCross, item.maxCross).1 from rfl, ends.limits, same]
    exact limits
  refine ⟨flow, result, mid, after, placed, done, height, filled.line, item, kid, ends, stretches,
    held stretches, ?_⟩
  obtain ⟨tall, known, fits⟩ := fits rfl rfl rfl rfl few
  obtain rfl : 40 = tall := Option.some.inj (height.symm.trans known)
  exact fits.resolve_right fun raised => absurd (raised.2.1.trans least) (by decide)

/-- A height that is specified, one that a leaf has not, and a width that is fitted are not
held to limits.  An item that stretches to its least height is taller than its row. -/
theorem layOutFlex_unheld :
    let container (direction : Direction) (item : Style) : Box :=
      { kind := .flex, style := { width := some (.px 100), direction := direction }
        children := [{ style := item }] }
    let limits (box : Box) : List (Int × Option Int) :=
      box.children.map (Container.crossLimits ({} : Host).resolve
        (Container.prepare ({} : Host).resolve box.style {} 100))
    let specified := container .row { height := some (.px 100), maxHeight := some (.px 50) }
    let empty := container .row { minHeight := some (.px 50), alignSelf := some .flexStart }
    let fitted := container .column { minWidth := some (.px 30), alignSelf := some .flexStart }
    let raised := container .row { minHeight := some (.px 50) }
    (limits specified = [(0, some 50)] ∧ Limits.hold (some 0) (some 50) 100 ≠ 100 ∧ Run.Succeeds (fun result =>
        result.children.map (fun child => child.frame.height) = [some 100])
      (specified.layOutFlex ({} : Host).environment {} 100) #[]) ∧
    (limits empty = [(50, none)] ∧ Limits.hold (some 50) none 0 ≠ 0 ∧ Run.Succeeds (fun result =>
        result.children.map (fun child => child.frame.height) = [some 0])
      (empty.layOutFlex ({} : Host).environment {} 100) #[]) ∧
    (limits fitted = [(30, none)] ∧ Limits.hold (some 30) none 0 ≠ 0 ∧ Run.Succeeds (fun result =>
        result.children.map (fun child => child.frame.width) = [some 0])
      (fitted.layOutFlex ({} : Host).environment {} 100) #[]) ∧
    Run.Succeeds (fun result => result.frame.height = some 0 ∧
        result.children.map (fun child => child.frame.height) = [some 50])
      (raised.layOutFlex ({} : Host).environment {} 100) #[] := by
  intro container limits specified empty fitted raised
  simp only [layOutFlex, Container.layOut, Container.flow_eq_insertionSort]
  decide +kernel

end Box

end FlexLayout
