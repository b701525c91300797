/-
# FlexLayout.Proofs.CrossLimits.Sizes -- the size of a leaf across the main axis

A box that is no flex container, laid out as a leaf, brings its own cross size: a row keeps
the height that it specifies, or gives it none, and a column keeps the width that it specifies
or fits its `auto` width to the container (`Container.ownCross`).  Measuring and sizing an
item along the main axis leave it at that (`Item.measure_across`,
`Item.giveMainSize_across`).

Aligning it is what may change the size, and only an item that stretches: it takes the size of
its line, held to its limits (`Container.alignKid_across`).
-/
import FlexLayout.Proofs.Tiling.Closing

namespace FlexLayout

set_option autoImplicit false

theorem Kid.layOut_of_leaf {host : Host} (leaf : host.conduct = .leaf) {kid : Kid}
    (hosted : kid.layOut = kid.box.layOut host.environment) (fragment : Fragment) (available : Int) :
    Run.Ensures (fun laid => kid.box.kind ≠ .flex →
        laid.frame = fragment.frame.filled (kid.box.kind.offered available) 0)
      (kid.layOut fragment available) := by
  by_cases other : kid.box.kind ≠ .flex
  · rw [hosted, Box.layOut_of_not_flex _ _ _ _ other]
    refine Run.ensures_mapFailure ((Host.layOutContents_of_leaf leaf _ _ _ _).mono ?_)
    rintro laid rfl _
    rfl
  · exact (Run.ensures_true _).mono fun _ _ plain => absurd plain other

namespace Container

variable (resolve : Resolver) (container : Container) (box : Box)

def styled : Frame := Frame.withSizes resolve box.style container.contentWidth {}

/-- The cross size that a leaf has by itself: the one that it specifies, and else no height
in a row and a width that is fitted to the container in a column. -/
def ownCross : Int :=
  if container.axes.horizontal then (container.styled resolve box).height.getD 0
  else Item.fittedWidth container box (container.styled resolve box)

def measuredCross : Option Int :=
  if container.axes.horizontal then (container.styled resolve box).height
  else some (Item.fittedWidth container box (container.styled resolve box))

def crossLimits : Int × Option Int :=
  let limits := (container.styled resolve box).limits resolve box.style container.contentWidth
  if container.axes.horizontal then (limits.minHeight.getD 0, limits.maxHeight)
  else (limits.minWidth.getD 0, limits.maxWidth)

theorem crossLimits_nonneg : 0 ≤ (container.crossLimits resolve box).1 := by
  have nonneg {size : Option Int} (each : ∀ pixels, size = some pixels → 0 ≤ pixels) :
      0 ≤ size.getD 0 := by
    cases size with
    | none => exact Int.le_refl 0
    | some pixels => exact each pixels rfl
  simp only [crossLimits, Frame.limits]
  split <;> exact nonneg fun _ => Style.nonneg_of_contentSize?

end Container

namespace Item

variable {host : Host} {container : Container} {size : Box → Option Int} {item other : Item}
  {kid : Kid}

/-- An item whose child has this size across the main axis, if it is a leaf. -/
structure Across (host : Host) (container : Container) (size : Box → Option Int) (item : Item)
    (kid : Kid) : Prop where
  hosted : kid.layOut = kid.box.layOut host.environment
  flow : item.outOfFlow = kid.box.outOfFlow
  limits : (item.minCross, item.maxCross) = container.crossLimits host.resolve kid.box
  size : kid.box.kind ≠ .flex → container.axes.crossSize? kid.frame = size kid.box

theorem Across.of_unflexed (same : other.unflexed = item.unflexed)
    (across : item.Across host container size kid) : other.Across host container size kid := by
  have kept : item.unflexed.Across host container size kid :=
    ⟨across.hosted, across.flow, across.limits, across.size⟩
  have kept' : other.unflexed.Across host container size kid := same ▸ kept
  exact ⟨kept'.hosted, kept'.flow, kept'.limits, kept'.size⟩

theorem crossLimits_ofBox (resolve : Resolver) (container : Container) (child index : Nat) (box : Box)
    (frame laid : Frame) :
    let item := ofBox resolve container child index box
      (frame.withSizes resolve box.style container.contentWidth) laid
    (item.minCross, item.maxCross) = container.crossLimits resolve box := by
  simp only [ofBox, Container.crossLimits]
  cases container.axes.horizontal <;> rfl

/-- **A leaf is measured** with the cross size that it specifies, or is fitted to. -/
theorem measure_across (leaf : host.conduct = .leaf) (child index : Nat)
    (hosted : kid.layOut = kid.box.layOut host.environment) :
    Run.Ensures (fun a => a.1.child = child ∧ a.2.box = kid.box ∧
        a.1.Across host container (container.measuredCross host.resolve) a.2)
      (measure host.resolve container child index kid) := by
  have limits (laid : Frame) := crossLimits_ofBox host.resolve container child index kid.box
    kid.frame laid
  simp only [measure]
  cases horizontal : container.axes.horizontal with
  | true =>
      refine Run.ensures_pure ⟨rfl, rfl, hosted, rfl, limits _, fun _ => ?_⟩
      simp only [Axes.crossSize?, Container.measuredCross, horizontal]
      rfl
  | false =>
      rw [if_neg Bool.false_ne_true]
      refine Run.ensures_bind (Kid.layOut_of_leaf leaf hosted _ _) fun laid filled =>
        Run.ensures_pure ⟨rfl, rfl, hosted, rfl, limits _, fun other => ?_⟩
      simp only [Axes.crossSize?, Container.measuredCross, horizontal]
      show laid.frame.width = _
      rw [filled other]
      rfl

/-- **A leaf is given its main size** with the cross size that it has by itself. -/
theorem giveMainSize_across (leaf : host.conduct = .leaf)
    (across : item.Across host container (container.measuredCross host.resolve) kid) :
    Run.Ensures (fun after => after.box = kid.box ∧
        item.Across host container (fun box => some (container.ownCross host.resolve box)) after)
      (giveMainSize container.axes item kid) := by
  obtain ⟨hosted, flow, limits, size⟩ := across
  unfold giveMainSize
  cases horizontal : container.axes.horizontal with
  | true =>
      have row (frame : Frame) : container.axes.crossSize? frame = frame.height := if_pos horizontal
      rw [row, show container.measuredCross _ _ = _ from if_pos horizontal] at size
      refine Run.ensures_bind (Kid.layOut_of_leaf leaf hosted _ _) fun laid filled =>
        Run.ensures_pure ⟨rfl, hosted, flow, limits, fun other => ?_⟩
      rw [row, show container.ownCross _ _ = _ from if_pos horizontal]
      show some (laid.frame.height.getD _) = some ((container.styled host.resolve kid.box).height.getD 0)
      rw [filled other, ← size other]
      rfl
  | false =>
      have column (frame : Frame) : container.axes.crossSize? frame = frame.width :=
        if_neg (by simp [horizontal])
      rw [column, show container.measuredCross _ _ = _ from if_neg (by simp [horizontal])] at size
      have own : container.ownCross host.resolve kid.box = _ := if_neg (by simp [horizontal])
      rw [if_neg Bool.false_ne_true]
      dsimp only
      split
      · refine Run.ensures_pure ⟨rfl, hosted, flow, limits, fun other => ?_⟩
        rw [column, own]
        exact size other
      · refine Run.ensures_bind (Kid.layOut_of_leaf leaf hosted _ _) fun laid filled =>
          Run.ensures_pure ⟨rfl, hosted, flow, limits, fun other => ?_⟩
        rw [column]
        show laid.frame.width = some (container.ownCross host.resolve kid.box)
        rw [filled other, own]
        show (kid.frame.width <|> _) = _
        rw [size other]
        rfl

end Item

namespace Container

variable {host : Host} {container : Container} {item : Item} {kid : Kid}

/-- **A stretched size is that of the line, held to the limits.** -/
theorem stretchedSize_eq (axes : Axes) (least : 0 ≤ item.minCross) (frame : Frame) (lineCross : Int) :
    stretchedSize axes item frame lineCross =
      Limits.hold (some item.minCross) item.maxCross (lineCross - axes.crossSurround frame) := by
  simp only [stretchedSize, Limits.hold]
  cases item.maxCross <;> dsimp only <;> omega

/-- The cross size that an item ends with: stretched to its line, or its own. -/
def alignedCross (resolve : Resolver) (container : Container) (line : Line) (item : Item) (kid : Kid) :
    Int :=
  if container.stretches item kid then
    Limits.hold (some item.minCross) item.maxCross (line.cross - container.axes.crossSurround kid.frame)
  else container.ownCross resolve kid.box

theorem crossSize?_moveCross (axes : Axes) (frame : Frame) (coordinate : Int) :
    axes.crossSize? (axes.moveCross frame coordinate) = axes.crossSize? frame ∧
      axes.crossSurround (axes.moveCross frame coordinate) = axes.crossSurround frame := by
  simp only [Axes.crossSize?, Axes.moveCross, Axes.crossSurround]
  cases axes.horizontal <;> exact ⟨rfl, rfl⟩

theorem crossSurround_of_sameEdges {frame after : Frame} (same : frame.SameEdges after) (axes : Axes) :
    axes.crossSurround after = axes.crossSurround frame := by
  obtain ⟨margin, padding, border⟩ := same
  simp only [Axes.crossSurround, Frame.verticalSurround, Frame.horizontalSurround, Frame.fixedMargin,
    Frame.verticalInset, Frame.horizontalInset]
  rw [margin, padding, border]

theorem stretch_across (resolve : Resolver) (axes : Axes) (item : Item) (lineCross : Int)
    (plain : kid.Plain) :
    Run.Ensures (fun after => after.box = kid.box ∧
        axes.crossSize? after.frame = some (stretchedSize axes item kid.frame lineCross) ∧
        axes.crossSurround after.frame = axes.crossSurround kid.frame)
      (stretch resolve axes item lineCross kid) := by
  simp only [stretch]
  split
  · rename_i already
    exact Run.ensures_pure ⟨rfl, already, rfl⟩
  · refine Run.ensures_bind (plain.layOut _ _) fun laid kept => Run.ensures_pure ⟨rfl, ?_, ?_⟩
    · rw [Slack.spread_of_not_flex resolve plain.other]
      simp only [Axes.crossSize?]
      cases horizontal : axes.horizontal with
      | true => exact kept.height _ (by simp [Kid.withFrame, Kid.withFragment, horizontal])
      | false => exact kept.width _ (by simp [Kid.withFrame, Kid.withFragment, horizontal])
    · rw [Slack.spread_of_not_flex resolve plain.other]
      refine (crossSurround_of_sameEdges kept.toSameEdges axes).trans ?_
      show axes.crossSurround (if axes.horizontal then _ else _) = _
      split <;> exact crossSurround_of_sameEdges ⟨rfl, rfl, rfl⟩ axes

/-- **Only an item that stretches changes its size across.** -/
theorem alignKid_across (line : Line)
    (across : item.Across host container (fun box => some (container.ownCross host.resolve box)) kid) :
    Run.Ensures (fun after => kid.box.kind ≠ .flex →
        container.axes.crossSize? after.frame =
            some (container.alignedCross host.resolve line item kid) ∧
          container.axes.crossSurround after.frame = container.axes.crossSurround kid.frame)
      (alignKid host.resolve container line item kid) := by
  have least : 0 ≤ item.minCross := by
    rw [show item.minCross = (item.minCross, item.maxCross).1 from rfl, across.limits]
    exact crossLimits_nonneg host.resolve container kid.box
  by_cases other : kid.box.kind ≠ .flex
  · rw [alignKid_eq]
    simp only [alignedCross]
    split
    · refine Run.ensures_bind (stretch_across host.resolve container.axes item line.cross
        (Kid.plain_of_layOut across.hosted other)) ?_
      rintro after ⟨-, size, surround⟩
      refine Run.ensures_pure fun _ => ?_
      obtain ⟨moved, edges⟩ := crossSize?_moveCross container.axes after.frame _
      rw [← stretchedSize_eq container.axes least]
      exact ⟨moved.trans size, edges.trans surround⟩
    · refine Run.ensures_pure fun _ => ?_
      obtain ⟨moved, edges⟩ := crossSize?_moveCross container.axes kid.frame _
      exact ⟨moved.trans (across.size other), edges⟩
  · exact (Run.ensures_true _).mono fun _ _ plain => absurd plain other

end Container

end FlexLayout
