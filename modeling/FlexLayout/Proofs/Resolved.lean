/-
# FlexLayout.Proofs.Resolved -- what was resolved is what is placed

The edges of an item are resolved against the content width of the container when it is
measured, and its target is a size with these edges.  When the items are placed, each has
its target size, and its edges are still these (`Box.flow_resolved`).

A nested flex container is laid out in the width that it gets itself, and resolves its
edges again, so this holds of it if its edges do not depend on that width
(`Style.EdgesFixed`); an edge in hundredths does (`Box.flow_edges_again`).  In a column it
holds its height to its limits as well, which makes no difference unless its automatic
minimum is larger than its maximum (`Item.Consistent`).
-/
import FlexLayout.Proofs.Stages.Close
import FlexLayout.Proofs.Tiling.Placing

namespace FlexLayout

set_option autoImplicit false

/-! ## Edges that stay -/

/-- The margins, the padding and the border of a style are the same in every width. -/
def Style.EdgesFixed (resolve : Resolver) (style : Style) : Prop :=
  ∀ (frame : Frame) (available other : Int),
    frame.withEdges resolve style available = frame.withEdges resolve style other

/-- **Edges without hundredths are the same in every width.** -/
theorem Style.edgesFixed_of_absolute (host : Host) {style : Style}
    (margin : ∀ side length, style.margin.get side = some length → length.absolute = true)
    (padding : ∀ side, (style.padding.get side).absolute = true) :
    style.EdgesFixed host.resolve := by
  have pixels {length : Length} (absolute : length.absolute = true) (available other : Int) :
      (host.resolve style length (some available)).getD 0 =
        (host.resolve style length (some other)).getD 0 := by
    rw [host.resolve_absolute style absolute (some available),
      host.resolve_absolute style absolute (some other)]
  have margins (side : Side) (available other : Int) :
      (style.margin.get side).map (fun length => (host.resolve style length (some available)).getD 0) =
        (style.margin.get side).map fun length => (host.resolve style length (some other)).getD 0 := by
    cases found : style.margin.get side with
    | none => rfl
    | some length => rw [Option.map_some, Option.map_some, pixels (margin side length found)]
  intro frame available other
  simp only [Frame.withEdges, Sides.map]
  have top := margins .top available other
  have right := margins .right available other
  have bottom := margins .bottom available other
  have left := margins .left available other
  simp only [Sides.get] at top right bottom left
  rw [top, right, bottom, left,
    pixels (show style.padding.top.absolute = true from padding .top) available other,
    pixels (show style.padding.right.absolute = true from padding .right) available other,
    pixels (show style.padding.bottom.absolute = true from padding .bottom) available other,
    pixels (show style.padding.left.absolute = true from padding .left) available other]

/-- The edges of a frame are those that a style resolves to. -/
def Frame.Edged (resolve : Resolver) (style : Style) (reference : Int) (frame : Frame) : Prop :=
  frame.withEdges resolve style reference = frame

namespace Frame.Edged

variable {resolve : Resolver} {style : Style} {reference : Int} {frame after : Frame}

theorem of_sameEdges (edged : frame.Edged resolve style reference) (same : frame.SameEdges after) :
    after.Edged resolve style reference := by
  have margin := congrArg Frame.margin edged
  have padding := congrArg Frame.padding edged
  have border := congrArg Frame.border edged
  obtain ⟨margins, paddings, borders⟩ := same
  cases after
  simp only [Frame.Edged, Frame.withEdges] at *
  simp_all

theorem sameEdges (edged : frame.Edged resolve style reference)
    (edged' : after.Edged resolve style reference) : frame.SameEdges after := by
  rw [← (show _ = frame from edged), ← (show _ = after from edged')]
  exact ⟨rfl, rfl, rfl⟩

theorem holdHeight_eq (edged : frame.Edged resolve style reference)
    (edged' : after.Edged resolve style reference) (available other size : Int) :
    (after.limits resolve style available).holdHeight size =
      (frame.limits resolve style other).holdHeight size := by
  have same := edged.sameEdges edged'
  have inset : after.verticalInset = frame.verticalInset := by
    simp only [Frame.verticalInset]
    rw [same.padding, same.border]
  simp only [Limits.holdHeight, Frame.limits]
  rw [inset]

end Frame.Edged

theorem Frame.edged_withSizes (resolve : Resolver) (style : Style) (reference : Int) (frame : Frame) :
    (frame.withSizes resolve style reference).Edged resolve style reference := rfl

namespace Kid

variable {resolve : Resolver} {reference : Int} {kid : Kid}

/-- A child that keeps its edges when it is laid out, and a size that it is given: its
width, and its height if that is within its limits. -/
def Firm (resolve : Resolver) (reference : Int) (kid : Kid) : Prop :=
  ∀ fragment available, fragment.frame.Edged resolve kid.box.style reference →
    Run.Ensures (fun laid => laid.frame.Edged resolve kid.box.style reference ∧
        (∀ size, fragment.frame.width = some size → laid.frame.width = some size) ∧
        ∀ size, fragment.frame.height = some size →
          max 0 ((fragment.frame.limits resolve kid.box.style reference).holdHeight size) = size →
          laid.frame.height = some size)
      (kid.layOut fragment available)

theorem Plain.firm (plain : kid.Plain) : kid.Firm resolve reference := fun fragment available edged =>
  (plain.layOut fragment available).mono fun _ kept =>
    ⟨edged.of_sameEdges kept.toSameEdges, kept.width, fun size given _ => kept.height size given⟩

/-- **A nested flex container whose edges do not depend on its width keeps them.** -/
theorem firm_of_flex {env : Environment} (hosted : kid.layOut = kid.box.layOut env)
    (flex : kid.box.kind = .flex) (fixed : kid.box.style.EdgesFixed env.resolve) :
    kid.Firm env.resolve reference := by
  intro fragment available edged
  rw [hosted, Box.layOut_of_flex _ _ _ _ flex]
  refine (Container.layOut_frame _ _ _ _ _).mono fun laid ends => ?_
  obtain ⟨mainSize, crossSize, ends⟩ := ends
  rw [ends]
  have edged' : ((Container.prepare env.resolve kid.box.style fragment.frame available).finalFrame
      mainSize crossSize).Edged env.resolve kid.box.style reference :=
    fixed _ reference available
  refine ⟨edged', fun size given => ?_, fun size given within => ?_⟩
  · show some (fragment.frame.width.getD _) = some size
    rw [given]
    rfl
  · have limits : (Container.prepare env.resolve kid.box.style fragment.frame
        available).limits.holdHeight size =
          (fragment.frame.limits env.resolve kid.box.style reference).holdHeight size :=
      Frame.Edged.holdHeight_eq edged (edged'.of_sameEdges ⟨rfl, rfl, rfl⟩) available reference size
    have own : (Container.prepare env.resolve kid.box.style fragment.frame
        available).frame.height = some size := by
      simp only [Container.prepare, Container.resolveFrame]
      rw [given]
    simp only [Container.finalFrame]
    rw [own, Option.getD_some, limits, within]

end Kid

/-! ## Items -/

namespace Item

variable {resolve : Resolver} {container : Container}

/-- An automatic minimum is no larger than the maximum. -/
def Consistent (item : Item) : Prop :=
  item.minSpecified = none → ∀ limit ∈ item.maxMain, item.minMain ≤ limit

instance (item : Item) : Decidable item.Consistent :=
  inferInstanceAs (Decidable (_ → ∀ limit ∈ item.maxMain, _))

/-- An item that is placed as it was resolved: its box is no flex container, or one whose
edges are fixed and whose height is not held to other limits than the item. -/
def Faithful (resolve : Resolver) (container : Container) (item : Item) (box : Box) : Prop :=
  box.kind = .flex → box.style.EdgesFixed resolve ∧
    (container.axes.horizontal = true ∨ item.Consistent)

/-- An item as it is measured: its child has the edges of its style and keeps them, and
keeps any size that the item may get. -/
structure Resolved (resolve : Resolver) (container : Container) (item : Item) (kid : Kid) : Prop where
  edged : kid.frame.Edged resolve kid.box.style container.contentWidth
  least : container.axes.mainSurround kid.frame ≤ item.minMain
  keeps : ∀ fragment available,
    fragment.frame.Edged resolve kid.box.style container.contentWidth →
    (∃ target, item.hold target = target ∧ container.axes.mainSize? fragment.frame =
      some (max 0 (target - container.axes.mainSurround kid.frame))) →
    Run.Ensures (fun laid => fragment.frame.SameEdges laid.frame ∧
        container.axes.mainSize? laid.frame = container.axes.mainSize? fragment.frame)
      (kid.layOut fragment available)

theorem Resolved.of_unflexed {item other : Item} {kid : Kid}
    (same : other.unflexed = item.unflexed) (resolved : item.Resolved resolve container kid) :
    other.Resolved resolve container kid := by
  have kept : item.unflexed.Resolved resolve container kid := ⟨resolved.edged, resolved.least, resolved.keeps⟩
  have kept' : other.unflexed.Resolved resolve container kid := same ▸ kept
  exact ⟨kept'.edged, kept'.least, kept'.keeps⟩

theorem ofBox_limits (resolve : Resolver) (column : container.axes.horizontal = false) (child index : Nat) (box : Box)
    (sized laid : Frame) :
    let item := ofBox resolve container child index box sized laid
    let limits := sized.limits resolve box.style container.contentWidth
    let edges := container.axes.mainSurround sized
    item.minSpecified = limits.minHeight ∧ item.maxMain = limits.maxHeight.map (· + edges) ∧
      (∀ size, limits.minHeight = some size → item.minMain = max (size + edges) edges) ∧
      edges ≤ item.minMain := by
  refine ⟨?_, ?_, fun size found => ?_, Int.le_max_right _ _⟩
  · simp only [ofBox, column]
    rfl
  · simp only [ofBox, column]
    rfl
  · simp only [ofBox, column, Bool.false_eq_true, if_false, found]

/-- **A size within the limits of an item is within those of its box.** -/
theorem within_of_hold (column : container.axes.horizontal = false) {child index : Nat} {box : Box}
    {sized laid : Frame}
    (consistent : (ofBox resolve container child index box sized laid).Consistent) {target : Int}
    (held : (ofBox resolve container child index box sized laid).hold target = target) :
    max 0 ((sized.limits resolve box.style container.contentWidth).holdHeight
        (max 0 (target - container.axes.mainSurround sized))) =
      max 0 (target - container.axes.mainSurround sized) := by
  obtain ⟨specified, greatest, minimum, surround⟩ :=
    ofBox_limits resolve column child index box sized laid
  have least : ∀ size,
      (sized.limits resolve box.style container.contentWidth).minHeight = some size → 0 ≤ size :=
    fun _ => Style.nonneg_of_contentSize?
  have most : ∀ size,
      (sized.limits resolve box.style container.contentWidth).maxHeight = some size → 0 ≤ size :=
    fun _ => Style.nonneg_of_contentSize?
  simp only [Consistent, specified, greatest] at consistent
  simp only [hold, greatest] at held
  generalize ofBox resolve container child index box sized laid = item at *
  generalize container.axes.mainSurround sized = edges at *
  simp only [Limits.holdHeight, Limits.hold]
  generalize sized.limits resolve box.style container.contentWidth = limits at *
  -- Where the style sets no minimum, the automatic one could be above the maximum.
  cases lower : limits.minHeight with
  | none =>
      cases upper : limits.maxHeight with
      | none =>
          dsimp only
          omega
      | some limit =>
          have within := consistent lower (limit + edges) (by rw [upper]; rfl)
          have positive := most limit upper
          rw [upper] at held
          dsimp only [Option.map_some] at held ⊢
          omega
  | some size =>
      have positive := least size lower
      have equal := minimum size lower
      cases upper : limits.maxHeight with
      | none =>
          rw [upper] at held
          dsimp only [Option.map_none] at held ⊢
          omega
      | some limit =>
          have positive' := most limit upper
          rw [upper] at held
          dsimp only [Option.map_some] at held ⊢
          omega

/-- **A child that is measured has the edges of its style, and keeps what its item may
get.** -/
theorem measure_resolved (host : Host) (child index : Nat) {kid : Kid}
    (hosted : kid.layOut = kid.box.layOut host.environment) :
    Run.Ensures (fun a => a.1.child = child ∧ a.2.box = kid.box ∧ a.1.Limited ∧
        (a.1.Faithful host.resolve container kid.box → a.1.Resolved host.resolve container a.2))
      (measure host.resolve container child index kid) := by
  have limited (box : Box) (sized laid : Frame) :
      (ofBox host.resolve container child index box sized laid).Limited := hold_hold_main _ _
  have least (box : Box) (sized laid : Frame) : container.axes.mainSurround sized ≤
      (ofBox host.resolve container child index box sized laid).minMain := Int.le_max_right _ _
  have plain (other : kid.box.kind ≠ .flex) := Kid.plain_of_layOut hosted other
  have firm (fixed : kid.box.kind = .flex → kid.box.style.EdgesFixed host.resolve) :
      kid.Firm host.resolve container.contentWidth := by
    by_cases flex : kid.box.kind = .flex
    · exact Kid.firm_of_flex hosted flex (fixed flex)
    · exact (plain flex).firm
  have edged := Frame.edged_withSizes host.resolve kid.box.style container.contentWidth kid.frame
  simp only [measure]
  generalize kid.frame.withSizes host.resolve kid.box.style container.contentWidth = sized at edged ⊢
  cases horizontal : container.axes.horizontal with
  | true =>
      refine Run.ensures_pure ⟨rfl, rfl, limited _ _ _, fun faithful => ⟨edged, least _ _ _, ?_⟩⟩
      rintro fragment available there ⟨target, -, size⟩
      refine (firm (fun flex => (faithful flex).1) fragment available there).mono ?_
      rintro laid ⟨edged', width, -⟩
      refine ⟨there.sameEdges edged', ?_⟩
      rw [size]
      simp only [Axes.mainSize?, horizontal, if_true] at size ⊢
      exact width _ size
  | false =>
      rw [if_neg Bool.false_ne_true]
      have fitted : ({ sized with width := some (fittedWidth container kid.box sized) } : Frame).Edged
          host.resolve kid.box.style container.contentWidth := edged.of_sameEdges ⟨rfl, rfl, rfl⟩
      -- A column lays the child out to measure it, and that keeps the edges if they are fixed.
      by_cases fixed : kid.box.kind = .flex → kid.box.style.EdgesFixed host.resolve
      · refine Run.ensures_bind (firm fixed _ _ fitted) ?_
        rintro laid ⟨edged', -, -⟩
        refine Run.ensures_pure ⟨rfl, rfl, limited _ _ _, fun faithful => ⟨edged', ?_, ?_⟩⟩
        · show container.axes.mainSurround laid.frame ≤ _
          rw [(edged.sameEdges edged').mainSurround]
          exact least _ _ _
        · rintro fragment available there ⟨target, held, size⟩
          change _ = some (max 0 (target - container.axes.mainSurround laid.frame)) at size
          rw [(edged.sameEdges edged').mainSurround] at size
          simp only [Axes.mainSize?, horizontal, Bool.false_eq_true, if_false] at size ⊢
          by_cases flex : kid.box.kind = .flex
          · refine (firm fixed fragment available there).mono ?_
            rintro after ⟨edged'', -, height⟩
            have consistent := (faithful flex).2.resolve_left (by simp [horizontal])
            refine ⟨there.sameEdges edged'', (height _ size ?_).trans size.symm⟩
            rw [edged.holdHeight_eq there _ container.contentWidth]
            exact within_of_hold horizontal consistent held
          · refine ((plain flex).layOut fragment available).mono fun after kept => ?_
            exact ⟨kept.toSameEdges, (kept.height _ size).trans size.symm⟩
      · refine Run.ensures_bind (Run.ensures_true _) fun laid _ =>
          Run.ensures_pure ⟨rfl, rfl, limited _ _ _, fun faithful => ?_⟩
        exact absurd (fun flex => (faithful flex).1) fixed

theorem Faithful.of_unflexed {item other : Item} {box : Box} (same : other.unflexed = item.unflexed)
    (faithful : other.Faithful resolve container box) : item.Faithful resolve container box := by
  have kept : other.unflexed.Faithful resolve container box := faithful
  exact (same ▸ kept : item.unflexed.Faithful resolve container box)

theorem box_giveMainSize (axes : Axes) (item : Item) (kid : Kid) :
    Run.Ensures (fun after => after.box = kid.box) (giveMainSize axes item kid) := by
  simp only [giveMainSize]
  split
  · exact Run.ensures_bind (Run.ensures_true _) fun _ _ => Run.ensures_pure rfl
  · split
    · exact Run.ensures_pure rfl
    · exact Run.ensures_bind (Run.ensures_true _) fun _ _ => Run.ensures_pure rfl

/-- **An item gets the size that was resolved**, with the edges that were. -/
theorem giveMainSize_resolved {item : Item} {kid : Kid} (held : item.Held)
    (resolved : item.Resolved resolve container kid) :
    Run.Ensures (fun after => after.box = kid.box ∧
        container.axes.mainOuter after.frame = item.target ∧
        after.frame.Edged resolve kid.box.style container.contentWidth)
      (giveMainSize container.axes item kid) := by
  refine (giveMainSize_ensures (fun frame available same size => ?_)
    (Int.le_trans resolved.least held.minMain_le)).mono ?_
  · exact resolved.keeps _ available (resolved.edged.of_sameEdges same) ⟨item.target, held, size⟩
  · rintro after ⟨box, -, same, -, outer⟩
    exact ⟨box, outer, resolved.edged.of_sameEdges same⟩

structure Measured (host : Host) (boxes : List Box) (container : Container) (item : Item)
    (kid : Kid) : Prop where
  box : boxes[item.child]? = some kid.box
  limited : item.Limited
  resolved : item.Faithful host.resolve container kid.box →
    item.Resolved host.resolve container kid

/-- A placed item whose child is one of the boxes: it has its target size, and the edges
that its style resolves to in the content width of the container. -/
structure Kept (host : Host) (boxes : List Box) (container : Container) (item : Item) (kid : Kid) :
    Prop where
  box : boxes[item.child]? = some kid.box
  outer : item.Faithful host.resolve container kid.box →
    container.axes.mainOuter kid.frame = item.target
  edged : item.Faithful host.resolve container kid.box →
    kid.frame.Edged host.resolve kid.box.style container.contentWidth

end Item

namespace Line

variable {host : Host} {boxes : List Box} {container : Container} {filled : FilledLine}
  {kids : List Kid}

structure Kept (host : Host) (boxes : List Box) (container : Container) (filled : FilledLine)
    (kids : List Kid) : Prop where
  items : ∀ item ∈ filled.items, item.With (Item.Kept host boxes container) kids
  used : AddsUp container filled

theorem measured_flex (line : Line)
    (measured : ∀ item ∈ filled.items, item.With (Item.Measured host boxes container) kids) :
    ∀ after ∈ (line.flex filled.items container.mainSpace container.mainGap).2,
      after.Held ∧ after.With (Item.Measured host boxes container) kids := by
  intro after member
  obtain ⟨item, among, same⟩ := exists_of_mem_right
    (map_unflexed_flex line filled.items container.mainSpace container.mainGap) member
  obtain ⟨kid, found, box, limited, resolved⟩ := measured item among
  have held := held_flex line container.mainSpace container.mainGap (fun item member => by
    obtain ⟨kid, -, measured⟩ := measured item member
    exact measured.limited) after member
  have child : after.child = item.child := (congrArg Item.child same :)
  refine ⟨held, kid, child ▸ found, child ▸ box, limited.of_unflexed same, fun faithful => ?_⟩
  exact (resolved (faithful.of_unflexed same)).of_unflexed same

/-- **A line is placed as its items were resolved.** -/
theorem place_kept (nodup : (filled.items.map Item.child).Nodup)
    (measured : ∀ item ∈ filled.items, item.With (Item.Measured host boxes container) kids) :
    Run.Ensures (fun a => Kept host boxes container a.1 a.2 ∧
        ∀ i, i ∉ filled.items.map Item.child → a.2[i]? = kids[i]?)
      (place container filled kids) := by
  have placed := place_each (R := fun item _ => Item.Kept host boxes container item) nodup
    fun line item member => by
      obtain ⟨held, kid, found, box, -, resolved⟩ := measured_flex line measured item member
      refine ⟨kid, found, ?_⟩
      by_cases faithful : item.Faithful host.resolve container kid.box
      · refine (Item.giveMainSize_resolved held (resolved faithful)).mono ?_
        rintro after ⟨same, outer, edged⟩
        exact ⟨same ▸ box, fun _ => outer, fun _ => same ▸ edged⟩
      · refine (Item.box_giveMainSize container.axes item kid).mono fun after same => ?_
        exact ⟨same ▸ box, fun holds => absurd (same ▸ holds) faithful,
          fun holds => absurd (same ▸ holds) faithful⟩
  refine placed.mono ?_
  rintro a ⟨-, becomes, rests, -, used⟩
  refine ⟨⟨fun item member => ?_, used⟩, rests⟩
  obtain ⟨kid, -, found, found', laid, coordinate, kept, rfl⟩ := becomes item member
  have moved := container.axes.sameExtent_moveMain laid.frame coordinate
  refine ⟨_, found', kept.box, fun faithful => moved.mainOuter.trans (kept.outer faithful),
    fun faithful => (kept.edged faithful).of_sameEdges moved.toSameEdges⟩

theorem unnumbered_measured : Unnumbered (Item.Measured host boxes container) :=
  fun _ _ _ measured => ⟨measured.box, measured.limited, fun faithful =>
    ⟨(measured.resolved faithful).edged, (measured.resolved faithful).least,
      (measured.resolved faithful).keeps⟩⟩

end Line

/-- **A container places its items as they were resolved.** -/
theorem Container.flow_kept (host : Host) (style : Style) (frame : Frame) (boxes : List Box)
    (fragments : List Fragment) (available : Int) :
    Run.Ensures (fun flow => ∀ filled ∈ flow.lines,
        Line.Kept host boxes flow.container filled flow.kids)
      (flow host.resolve style frame (Kid.ofBoxes host.environment boxes fragments) available) := by
  let container := prepare host.resolve style frame available
  have measured : Run.Ensures (fun a => ∀ item ∈ a.1,
        item.With (Item.Measured host boxes container) a.2)
      (Item.measureAll host.resolve container 0 0 (Kid.ofBoxes host.environment boxes fragments)) := by
    refine Run.Ensures.mono (Item.measureAll_each (P := fun kid item after => after.box = kid.box ∧
      item.Limited ∧ (item.Faithful host.resolve container kid.box →
        item.Resolved host.resolve container after)) 0 0 fun kid member _ child index =>
      Item.measure_resolved host child index (Kid.layOut_of_mem_ofBoxes member))
      fun a each item member => ?_
    obtain ⟨-, kid, after, found, found', box, limited, resolved⟩ := each item member
    rw [Nat.sub_zero] at found
    refine ⟨after, found', ?_, limited, fun faithful => resolved (box ▸ faithful)⟩
    rw [← Kid.map_box_ofBoxes host.environment boxes fragments, List.getElem?_map, found, box]
    rfl
  refine (flow_each Line.unnumbered_measured measured
    (fun _ _ nodup measured => Line.place_kept nodup measured) fun filled kids kids' kept same =>
      ⟨fun item member => (kept.items item member).congr (same item member), kept.used⟩).mono ?_
  rintro flow ⟨same, lines⟩ filled member
  rw [same]
  exact (lines filled member).1

namespace Box

/-- **What was resolved is what is placed.**  When the items of a flex container are
broken into lines and placed, every item has its target size, and the edges that its
style resolves to in the content width of the container, unless it is a nested flex
container whose edges depend on its width or, in a column, whose automatic minimum is
larger than its maximum.  So the items in flow of a line take exactly the space that the
line uses, up to the gaps, as long as adding up their sizes in the order in which they are
frozen never leaves the range of pixels. -/
theorem flow_resolved (host : Host) (box : Box) (fragment : Fragment) (available : Int)
    {log after : CallLog} {flow : Flow}
    (placed : (Container.flow host.resolve box.style fragment.frame
      (Kid.ofBoxes host.environment box.children fragment.children) available).outcome log =
        (.ok flow, after))
    {filled : FilledLine} (member : filled ∈ flow.lines) :
    (∀ item ∈ filled.items, ∃ kid, flow.kids[item.child]? = some kid ∧
      box.children[item.child]? = some kid.box ∧
      (item.Faithful host.resolve flow.container kid.box →
        flow.container.axes.mainOuter kid.frame = item.target ∧
        kid.frame.withEdges host.resolve kid.box.style flow.container.contentWidth = kid.frame)) ∧
    ((∀ item ∈ filled.items, item.outOfFlow = false → ∀ child ∈ box.children[item.child]?,
        item.Faithful host.resolve flow.container child) →
      Pixel.Running (filled.line.countingOrder filled.items flow.container.mainSpace
        flow.container.mainGap ++ [Pixel.gapsBetween filled.line.inFlow flow.container.mainGap]) →
      filled.line.used = ((Line.framesInFlow (Item.frameIn (flow.kids.map Kid.fragment))
          filled.items).map flow.container.axes.mainOuter).sum +
        Pixel.gapsBetween filled.line.inFlow flow.container.mainGap) := by
  have kept := Container.flow_kept host _ _ _ _ _ _ _ _ placed filled member
  refine ⟨fun item among => ?_, fun faithful running => ?_⟩
  · obtain ⟨kid, found, box, outer, edged⟩ := kept.items item among
    exact ⟨kid, found, box, fun faithful => ⟨outer faithful, edged faithful⟩⟩
  · rw [kept.used running]
    congr 2
    simp only [Line.sizesInFlow, Line.framesInFlow, List.map_map]
    refine List.map_congr_left fun item among => ?_
    obtain ⟨there, flows⟩ := List.mem_filter.1 among
    obtain ⟨kid, found, box, outer, -⟩ := kept.items item there
    show item.target = flow.container.axes.mainOuter (item.frameIn _)
    rw [Item.frameIn_of_getElem? found, outer (faithful item there (by simpa using flows) _ box)]

/-- A nested flex container with padding, and a block whose padding is a tenth of the
container. -/
theorem flow_resolved_nested :
    let nested : Box := { kind := .flex, style := { width := some (.px 20), padding := .all (.px 5) } }
    let block : Box :=
      { style :=
          { width := some (.px 30), padding := { Sides.all (.px 0) with left := .percent 10 } } }
    let box : Box :=
      { kind := .flex, style := { width := some (.px 100) }, children := [nested, block] }
    ∃ flow after, (Container.flow ({} : Host).resolve box.style {}
        (Kid.ofBoxes ({} : Host).environment box.children []) 300).outcome #[] = (.ok flow, after) ∧
      ∃ filled ∈ flow.lines, filled.items.map Item.target = [30, 40] ∧
        (∀ item ∈ filled.items, ∃ kid, flow.kids[item.child]? = some kid ∧
          flow.container.axes.mainOuter kid.frame = item.target) ∧
        filled.line.used = ((Line.framesInFlow (Item.frameIn (flow.kids.map Kid.fragment))
          filled.items).map flow.container.axes.mainOuter).sum +
            Pixel.gapsBetween filled.line.inFlow flow.container.mainGap := by
  intro nested block box
  have begun : Run.Succeeds (fun flow => flow.container.axes.horizontal = true ∧
      ∃ filled ∈ flow.lines, filled.items.map Item.target = [30, 40] ∧
        Pixel.Running (filled.line.countingOrder filled.items flow.container.mainSpace
          flow.container.mainGap ++ [Pixel.gapsBetween filled.line.inFlow flow.container.mainGap]))
      (Container.flow ({} : Host).resolve box.style {}
        (Kid.ofBoxes ({} : Host).environment box.children []) 300) #[] := by
    rw [Container.flow_eq_insertionSort]
    decide +kernel
  obtain ⟨flow, after, placed, row, filled, member, targets, running⟩ := begun
  have fixed : nested.style.EdgesFixed ({} : Host).resolve := by
    refine Style.edgesFixed_of_absolute {} (fun side length found => ?_) fun side => ?_
    · rw [show nested.style.margin = .all (some (.px 0)) from rfl, Sides.get_all] at found
      exact Option.some.inj found ▸ rfl
    · rw [show nested.style.padding = .all (.px 5) from rfl, Sides.get_all]
      rfl
  have faithful (item : Item) : ∀ child ∈ box.children,
      item.Faithful ({} : Host).resolve flow.container child := by
    refine List.forall_mem_cons.2 ⟨fun _ => ⟨fixed, .inl row⟩, List.forall_mem_singleton.2 ?_⟩
    exact fun flex => BoxKind.noConfusion flex
  obtain ⟨items, used⟩ := flow_resolved {} box {} 300 placed member
  refine ⟨flow, after, placed, filled, member, targets, fun item among => ?_, used ?_ running⟩
  · obtain ⟨kid, found, there, holds⟩ := items item among
    exact ⟨kid, found, (holds (faithful item kid.box (List.mem_of_getElem? there))).1⟩
  · exact fun item _ _ child there => faithful item child (List.mem_of_getElem? there)

/-- A nested flex container resolves its padding of a tenth against its own width of 50,
not against that of the container, so it takes 55 of the 60 pixels that it was given. -/
theorem flow_edges_again :
    let nested : Box :=
      { kind := .flex
        style :=
          { width := some (.px 50), padding := { Sides.all (.px 0) with left := .percent 10 } } }
    let box : Box := { kind := .flex, style := { width := some (.px 100) }, children := [nested] }
    Run.Succeeds (fun flow => flow.container.contentWidth = 100 ∧
        ∃ filled ∈ flow.lines, filled.line.used = 60 ∧
          ∃ item ∈ filled.items, item.outOfFlow = false ∧ item.target = 60 ∧
            flow.container.axes.mainOuter (item.frameIn (flow.kids.map Kid.fragment)) = 55 ∧
            (item.frameIn (flow.kids.map Kid.fragment)).padding.left = 5)
      (Container.flow ({} : Host).resolve box.style {}
        (Kid.ofBoxes ({} : Host).environment box.children []) 100) #[] := by
  intro nested box
  rw [Container.flow_eq_insertionSort]
  decide +kernel

end Box

end FlexLayout
