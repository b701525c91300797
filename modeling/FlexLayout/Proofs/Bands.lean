/-
# FlexLayout.Proofs.Bands -- lines are bands across the container

Lines are stacked across the main axis.  They share the cross space that they leave free,
in shares that differ by a pixel at most, the larger ones first; so with the gaps between
them they take all of a definite space that they fit in (`Line.banded_spreadLines`).  Under
`wrap-reverse` the stack is the mirror image.

Aligning an item puts its margin box into the band of its line, if that is large enough,
whatever the alignment and the `auto` margins (`Box.layOutFlex_banded`).
-/
import FlexLayout.Proofs.Tiling.Closing

namespace FlexLayout

set_option autoImplicit false

/-! ## Stacked lines -/

namespace Span

/-- The span seen from the other end of a stretch of this size. -/
def mirror (size : Int) (span : Span) : Span := ⟨size - span.stop, size - span.start⟩

structure Within (span other : Span) : Prop where
  start : other.start ≤ span.start
  stop : span.stop ≤ other.stop

instance (span other : Span) : Decidable (span.Within other) :=
  decidable_of_iff (other.start ≤ span.start ∧ span.stop ≤ other.stop)
    ⟨fun both => ⟨both.1, both.2⟩, fun within => ⟨within.start, within.stop⟩⟩

end Span

namespace Line

/-- The stretch that a line takes across the main axis. -/
def band (line : Line) : Span := ⟨line.offset, line.offset + line.cross⟩

/-- How much larger each line is across the main axis than another version of it. -/
def growth (lines spread : List FilledLine) : List Int :=
  List.zipWith (fun filled after => after.line.cross - filled.line.cross) lines spread

/-- The bands of lines of these sizes, one after the other with the gap between. -/
def bands (gap : Int) (lines : List FilledLine) : List Span :=
  Span.tile (fun _ => gap) 0 0 (lines.map fun filled => filled.line.cross)

/-- Lines of a container, spread over its cross space.  The first list has them as they
were measured, with `crossSize` the sum of their cross sizes and of the gaps. -/
structure Banded (container : Container) (crossSize : Int) (lines spread : List FilledLine) :
    Prop where
  /-- They are the same lines, with the same items. -/
  items : spread.map FilledLine.items = lines.map FilledLine.items
  /-- Free space is shared evenly, up to a pixel. -/
  even : ∀ more ∈ growth lines spread, ∀ less ∈ growth lines spread, more ≤ less + 1
  /-- No line grows more than one before it. -/
  ordered : (growth lines spread).Pairwise fun before after => after ≤ before
  /-- All free space is shared. -/
  total : (growth lines spread).sum = max 0 (container.crossSpace.getD crossSize - crossSize)
  /-- From the first line on, each is the gap after the one before. -/
  stacked : container.style.wrap ≠ .wrapReverse →
    (spread.map fun filled => filled.line.band) = bands container.crossGap spread
  /-- Under `wrap-reverse`, each is where it would be, seen from the other end. -/
  reversed : container.style.wrap = .wrapReverse →
    (spread.map fun filled => filled.line.band) =
      (bands container.crossGap spread).map (Span.mirror (container.crossSpace.getD crossSize))
  /-- Lines that fit take all of the cross space. -/
  covers : crossSize ≤ container.crossSpace.getD crossSize →
    ∀ last, (bands container.crossGap spread).getLast? = some last →
      last.stop = container.crossSpace.getD crossSize

/-! Lines grow by equal shares, and the first ones by one pixel more. -/

theorem growth_stackLines (reversed : Bool) (gap share pos : Int) {remainder : Int}
    (nonneg : 0 ≤ remainder) (lines : List FilledLine) :
    growth lines (stackLines reversed gap share pos remainder lines) =
      (List.range lines.length).map fun k : Nat => share + Pixel.bonus (remainder - (k : Int)) := by
  induction lines generalizing pos remainder with
  | nil => rfl
  | cons filled rest ih =>
      have left : 0 ≤ remainder - Pixel.bonus remainder := by
        rw [Pixel.bonus_eq]
        omega
      have next (k : Nat) : Pixel.bonus (remainder - Pixel.bonus remainder - (k : Int)) =
          Pixel.bonus (remainder - ((k + 1 : Nat) : Int)) := by
        rw [Pixel.bonus_eq, Pixel.bonus_eq, Pixel.bonus_eq]
        omega
      rw [stackLines, growth, List.zipWith_cons_cons, List.length_cons, List.range_succ_eq_map,
        List.map_cons, List.map_map]
      refine congrArg₂ List.cons ?_ ((ih _ left).trans ?_)
      · show filled.line.cross + (share + Pixel.bonus remainder) - filled.line.cross = _
        rw [Int.natCast_zero, Int.sub_zero]
        omega
      · exact List.map_congr_left fun k _ => congrArg (share + ·) (next k)

/-- Lines that grow are larger by their growth. -/
theorem sum_cross_stackLines (reversed : Bool) (gap share pos remainder : Int)
    (lines : List FilledLine) :
    ((stackLines reversed gap share pos remainder lines).map fun filled => filled.line.cross).sum =
      crossExtent lines + (growth lines (stackLines reversed gap share pos remainder lines)).sum := by
  simp only [crossExtent, growth]
  induction lines generalizing pos remainder with
  | nil => rfl
  | cons filled rest ih =>
      rw [stackLines, List.zipWith_cons_cons, List.map_cons, List.map_cons, List.sum_cons,
        List.sum_cons, List.sum_cons, ih]
      dsimp only
      omega

theorem length_stackLines (reversed : Bool) (gap share pos remainder : Int)
    (lines : List FilledLine) :
    (stackLines reversed gap share pos remainder lines).length = lines.length := by
  have items := congrArg List.length
    (Container.map_items_stackLines reversed gap share pos remainder lines)
  rwa [List.length_map, List.length_map] at items

/-- Lines are stacked one after the other. -/
theorem bands_stackLines (gap share pos remainder : Int) (placed : Nat) (lines : List FilledLine) :
    ((stackLines false gap share pos remainder lines).map fun filled => filled.line.band) =
      Span.tile (fun _ => gap) placed pos
        ((stackLines false gap share pos remainder lines).map fun filled => filled.line.cross) := by
  induction lines generalizing pos remainder placed with
  | nil => rfl
  | cons filled rest ih =>
      rw [stackLines, List.map_cons, List.map_cons, Span.tile]
      exact congrArg₂ List.cons rfl (ih _ _ (placed + 1))

/-- Lines that are stacked from the other end are mirrored. -/
theorem bands_stackLines_reversed (size gap share pos remainder : Int) (placed : Nat)
    (lines : List FilledLine) :
    ((stackLines true gap share (size - pos) remainder lines).map fun filled => filled.line.band) =
      (Span.tile (fun _ => gap) placed pos
        ((stackLines true gap share (size - pos) remainder lines).map
          fun filled => filled.line.cross)).map (Span.mirror size) := by
  induction lines generalizing pos remainder placed with
  | nil => rfl
  | cons filled rest ih =>
      simp only [stackLines, if_true, List.map_cons, Span.tile]
      generalize filled.line.cross + (share + Pixel.bonus remainder) = cross
      refine congrArg₂ List.cons ?_ ?_
      · simp only [band, Span.mirror, Span.mk.injEq]
        omega
      · rw [show size - pos - cross - gap = size - (pos + cross + gap) by omega]
        exact ih _ _ (placed + 1)

/-- **Lines are spread over the cross space.** -/
theorem banded_spreadLines (container : Container) {lines : List FilledLine} (some : lines ≠ [])
    (few : lines.length < 2147483648) {crossSize : Int}
    (size : crossSize = crossExtent lines + Pixel.gapsBetween lines.length container.crossGap) :
    Banded container crossSize lines (spreadLines container crossSize lines) := by
  rw [spreadLines_eq]
  generalize spaceEq : container.crossSpace.getD crossSize = space
  have positive : 0 < lines.length := List.length_pos_iff.2 some
  have count : max 1 (lines.length : Int) = lines.length := by omega
  have nonneg : 0 ≤ max 0 (space - crossSize) := Int.le_max_left _ _
  dsimp only
  rw [count]
  obtain ⟨-, left, less, whole⟩ := Spacing.tdiv_tmod (lines.length : Int) nonneg (by omega)
  generalize (max 0 (space - crossSize)).tdiv lines.length = share at whole ⊢
  generalize (max 0 (space - crossSize)).tmod lines.length = remainder at left less whole ⊢
  have grown (reversed : Bool) (pos : Int) :=
    growth_stackLines reversed container.crossGap share pos left lines
  have bonus (k : Int) : 0 ≤ Pixel.bonus k ∧ Pixel.bonus k ≤ 1 := by
    rw [Pixel.bonus_eq]
    omega
  -- The lines grow by all that they leave free, from either end.
  have total (reversed : Bool) (pos : Int) : (growth lines
      (stackLines reversed container.crossGap share pos remainder lines)).sum =
        max 0 (space - crossSize) := by
    rw [grown, Pixel.sum_shares share remainder left]
    omega
  constructor
  · exact Container.map_items_stackLines _ _ _ _ _ lines
  · rw [grown]
    intro more member less member'
    obtain ⟨k, -, rfl⟩ := List.mem_map.1 member
    obtain ⟨l, -, rfl⟩ := List.mem_map.1 member'
    have := bonus (remainder - k)
    have := bonus (remainder - l)
    omega
  · rw [grown, List.pairwise_map]
    refine List.pairwise_lt_range.imp fun {k l} before => ?_
    rw [Pixel.bonus_eq, Pixel.bonus_eq]
    omega
  · rw [total, spaceEq]
  · intro forward
    rw [show (container.style.wrap == .wrapReverse) = false by simpa using forward]
    exact bands_stackLines _ _ _ _ 0 lines
  · intro backward
    rw [show (container.style.wrap == .wrapReverse) = true by simpa using backward, if_pos rfl,
      spaceEq]
    have mirrored := bands_stackLines_reversed space container.crossGap share 0 remainder 0 lines
    rwa [Int.sub_zero] at mirrored
  · intro fits last found
    rw [spaceEq] at fits ⊢
    rw [bands] at found
    rw [Span.stop_tile found, sum_cross_stackLines, total, List.length_map, length_stackLines,
      List.map_const', List.length_range, List.sum_replicate_int]
    rw [gapsBetween_eq few] at size
    omega

end Line

/-! ## Items in their bands -/

namespace Axes

def crossCoordinate (axes : Axes) (frame : Frame) : Int :=
  if axes.horizontal then frame.y else frame.x

/-- The margin box across the main axis, in a container whose content begins at the
coordinate `edge`. -/
def crossBox (axes : Axes) (edge : Int) (frame : Frame) : Span :=
  let low := axes.crossCoordinate frame - frame.border.get axes.crossStart
    - frame.fixedMargin axes.crossStart - edge
  ⟨low, low + axes.crossOuter frame⟩

theorem crossCoordinate_moveCross (axes : Axes) (frame : Frame) (coordinate : Int) :
    axes.crossCoordinate (axes.moveCross frame coordinate) = coordinate := by
  simp only [crossCoordinate, moveCross]
  cases axes.horizontal <;> rfl

theorem moveCross_kept (axes : Axes) (frame : Frame) (coordinate : Int) :
    frame.SameEdges (axes.moveCross frame coordinate) ∧
      axes.crossOuter (axes.moveCross frame coordinate) = axes.crossOuter frame := by
  simp only [moveCross]
  split
  · exact ⟨⟨rfl, rfl, rfl⟩, rfl⟩
  · exact ⟨⟨rfl, rfl, rfl⟩, rfl⟩

/-- The margin box of a frame that is moved with its start edges. -/
theorem crossBox_moveCross (axes : Axes) (edge offset : Int) (frame : Frame) :
    axes.crossBox edge (axes.moveCross frame (edge + offset + frame.fixedMargin axes.crossStart +
      frame.border.get axes.crossStart)) = ⟨offset, offset + axes.crossOuter frame⟩ := by
  obtain ⟨edges, outer⟩ := axes.moveCross_kept frame (edge + offset +
    frame.fixedMargin axes.crossStart + frame.border.get axes.crossStart)
  have margin : (axes.moveCross frame (edge + offset + frame.fixedMargin axes.crossStart +
      frame.border.get axes.crossStart)).fixedMargin axes.crossStart =
        frame.fixedMargin axes.crossStart := by
    rw [Frame.fixedMargin, edges.margin]
    rfl
  simp only [crossBox]
  rw [crossCoordinate_moveCross, outer, edges.border, margin, Span.mk.injEq]
  omega

end Axes

namespace Container

/-- **Every alignment stays in the room that is free**, and so does every `auto`
margin. -/
theorem crossOffset_within (reversed startAuto endAuto : Bool) (alignment : Alignment) {free : Int}
    (nonneg : 0 ≤ free) :
    0 ≤ crossOffset reversed startAuto endAuto alignment free ∧
      crossOffset reversed startAuto endAuto alignment free ≤ free := by
  have half : 0 ≤ free.tdiv 2 ∧ free.tdiv 2 ≤ free := by
    have := Spacing.tdiv_tmod 2 nonneg (by decide)
    omega
  have all : max 0 free = free := Int.max_eq_right nonneg
  simp only [crossOffset]
  rw [all]
  cases startAuto with
  | true =>
      cases endAuto with
      | true => exact half
      | false => exact ⟨nonneg, Int.le_refl free⟩
  | false =>
      cases endAuto with
      | true => exact ⟨Int.le_refl 0, nonneg⟩
      | false =>
          cases alignment with
          | flexEnd => exact ⟨nonneg, Int.le_refl free⟩
          | center => exact half
          | baseline => exact half
          | flexStart => exact ⟨Int.le_refl 0, nonneg⟩
          | stretch =>
              dsimp only
              split
              · exact ⟨nonneg, Int.le_refl free⟩
              · exact ⟨Int.le_refl 0, nonneg⟩

variable {container : Container} {kid : Kid}

/-- The frame lies in the band of a line, if it is no larger. -/
def InBand (container : Container) (line : Line) (frame : Frame) : Prop :=
  container.axes.crossOuter frame ≤ line.cross →
    (container.axes.crossBox (container.frame.padding.get container.axes.crossStart) frame).Within
      line.band

theorem moveCross_inBand (line : Line) (startAuto endAuto : Bool) (kid : Kid) :
    container.InBand line (container.moveCross line startAuto endAuto kid).frame := by
  intro fits
  rw [moveCross, Kid.frame_withFrame] at fits ⊢
  rw [(container.axes.moveCross_kept _ _).2] at fits
  obtain ⟨least, most⟩ := crossOffset_within (container.style.wrap == .wrapReverse) startAuto endAuto
    (container.alignmentOf kid.box) (Int.sub_nonneg.2 fits)
  generalize crossOffset (container.style.wrap == .wrapReverse) startAuto endAuto
    (container.alignmentOf kid.box) (line.cross - container.axes.crossOuter kid.frame) = offset at least most ⊢
  rw [Int.add_assoc (container.frame.padding.get container.axes.crossStart), Axes.crossBox_moveCross]
  constructor
  · show line.offset ≤ line.offset + offset
    omega
  · show line.offset + offset + container.axes.crossOuter kid.frame ≤ line.offset + line.cross
    omega

/-- **An aligned item lies in the band of its line**, if it is no larger. -/
theorem alignKid_inBand (resolve : Resolver) (line : Line) (item : Item) (kid : Kid) :
    Run.Ensures (fun after => container.InBand line after.frame)
      (alignKid resolve container line item kid) := by
  rw [alignKid_eq]
  split
  · exact Run.ensures_bind (Run.ensures_true _) fun laid _ =>
      Run.ensures_pure (moveCross_inBand line _ _ laid)
  · exact Run.ensures_pure (moveCross_inBand line _ _ kid)

end Container

/-- **Closing a container puts every item into the band of its line.** -/
theorem Flow.close_inBand (resolve : Resolver) {kids : List Kid} {flow : Flow} (seats : flow.Seats kids) :
    Run.Ensures (fun result =>
        ∀ filled ∈ Line.spreadLines flow.container flow.crossSize flow.lines, ∀ item ∈ filled.items,
          flow.container.InBand filled.line (item.frameIn result.children))
      (flow.close resolve) := by
  have items := Container.flatMap_items_spreadLines flow.container flow.crossSize flow.lines
  refine (Flow.close_each (R := fun line _ _ after => flow.container.InBand line after.frame) seats.nodup
    fun filled member item among => ?_).mono ?_
  · have there : item ∈ flow.lines.flatMap FilledLine.items :=
      items ▸ List.mem_flatMap.2 ⟨filled, member, among⟩
    obtain ⟨kid, found⟩ := (seats.seated item there).exists_kid
    exact ⟨kid, found, Container.alignKid_inBand resolve filled.line item kid⟩
  · rintro result ⟨-, after, children, becomes⟩ filled member item among
    obtain ⟨kid, last, -, found, inBand⟩ := becomes filled member item among
    rw [children, Item.frameIn_of_getElem? found]
    exact inBand

namespace Box

/-- **Lines are bands across the container, with their items inside.**  When a flex
container that has an item is laid out, its lines share all cross space that they leave
free, evenly up to a pixel, and stand one after the other with the gaps between.  Each
child that takes part is an item of a line, and lies in the band of that line unless it
is larger. -/
theorem layOutFlex_banded (host : Host) (box : Box)
    (takes : ∃ child ∈ box.children, child.participates = true)
    (fragment : Fragment) (available : Int) {log mid after : CallLog} {flow : Flow}
    {result : Fragment}
    (placed : (Container.flow host.resolve box.style fragment.frame
      (Kid.ofBoxes host.environment box.children fragment.children) available).outcome log =
        (.ok flow, mid))
    (done : (box.layOutFlex host.environment fragment available).outcome log = (.ok result, after))
    (few : flow.lines.length < 2147483648) :
    Line.Banded flow.container flow.crossSize flow.lines
        (Line.spreadLines flow.container flow.crossSize flow.lines) ∧
      (∀ (i : Nat) (child : Box), box.children[i]? = some child → child.participates = true →
        ∃ filled ∈ Line.spreadLines flow.container flow.crossSize flow.lines,
          ∃ item ∈ filled.items, item.child = i) ∧
      ∀ filled ∈ Line.spreadLines flow.container flow.crossSize flow.lines, ∀ item ∈ filled.items,
        flow.container.axes.crossOuter (item.frameIn result.children) ≤ filled.line.cross →
        (flow.container.axes.crossBox
          (flow.container.frame.padding.get flow.container.axes.crossStart)
          (item.frameIn result.children)).Within filled.line.band := by
  obtain ⟨flow', mid', first, closed⟩ := Run.outcome_bind_eq_ok done
  have equal := placed.symm.trans first
  rw [Prod.mk.injEq, Except.ok.injEq] at equal
  obtain ⟨rfl, rfl⟩ := equal
  have seats := Container.flow_seats _ _ _ _ _ _ _ _ first
  have listed (i : Nat) (child : Box) (found : box.children[i]? = some child)
      (participates : child.participates = true) : i ∈ childrenOf flow.lines := by
    rw [← Kid.map_box_ofBoxes host.environment box.children fragment.children] at found
    obtain ⟨kid, there, rfl⟩ := Option.map_eq_some_iff.1 ((List.getElem?_map ..).symm.trans found)
    exact seats.listed i kid there participates
  refine ⟨Line.banded_spreadLines flow.container ?_ few rfl, ?_,
    fun filled member item among => Flow.close_inBand _ seats _ _ _ closed filled member item among⟩
  · rintro none
    obtain ⟨child, member, participates⟩ := takes
    obtain ⟨i, found⟩ := List.mem_iff_getElem?.1 member
    have inside := listed i child found participates
    rw [none] at inside
    exact absurd inside List.not_mem_nil
  · intro i child found participates
    obtain ⟨item, member, at_⟩ := List.mem_map.1 (listed i child found participates)
    rw [← Container.flatMap_items_spreadLines flow.container flow.crossSize] at member
    obtain ⟨filled, spread, among⟩ := List.mem_flatMap.1 member
    exact ⟨filled, spread, item, among, at_⟩

/-- Two lines under `wrap-reverse` share 41 pixels.  An item of the second is centered, and
another has an `auto` margin on top. -/
theorem layOutFlex_banded_reversed :
    let sized (width height : Float32) : Style :=
      { width := some (.px width), height := some (.px height) }
    let auto : Sides (Option Length) := { Sides.all (some (.px 0)) with top := none }
    let box : Box :=
      { kind := .flex
        style := { sized 100 101 with wrap := .wrapReverse, rowGap := some (.px 10) }
        children :=
          [{ style := sized 60 20 }, { style := { sized 60 30 with alignSelf := some .center } },
            { style := { sized 30 10 with margin := auto } }] }
    ∃ flow result mid after,
      (Container.flow ({} : Host).resolve box.style {} (Kid.ofBoxes ({} : Host).environment
        box.children []) 100).outcome #[] = (.ok flow, mid) ∧
      (box.layOutFlex ({} : Host).environment {} 100).outcome #[] = (.ok result, after) ∧
      Line.growth flow.lines (Line.spreadLines flow.container flow.crossSize flow.lines) = [21, 20] ∧
      Line.Banded flow.container flow.crossSize flow.lines
        (Line.spreadLines flow.container flow.crossSize flow.lines) ∧
      ∀ filled ∈ Line.spreadLines flow.container flow.crossSize flow.lines, ∀ item ∈ filled.items,
        flow.container.axes.crossOuter (item.frameIn result.children) ≤ filled.line.cross →
        (flow.container.axes.crossBox
          (flow.container.frame.padding.get flow.container.axes.crossStart)
          (item.frameIn result.children)).Within filled.line.band := by
  intro sized auto box
  have takes : ∃ child ∈ box.children, child.participates = true := by decide
  have begun : Run.Succeeds (fun flow => flow.lines.length < 2147483648 ∧
      Line.growth flow.lines (Line.spreadLines flow.container flow.crossSize flow.lines) = [21, 20])
      (Container.flow ({} : Host).resolve box.style {} (Kid.ofBoxes ({} : Host).environment
        box.children []) 100) #[] := by
    rw [Container.flow_eq_insertionSort]
    decide +kernel
  have ended : Run.Succeeds (fun _ => True) (box.layOutFlex ({} : Host).environment {} 100) #[] := by
    simp only [layOutFlex, Container.layOut]
    rw [Container.flow_eq_insertionSort]
    decide +kernel
  obtain ⟨flow, mid, placed, few, grown⟩ := begun
  obtain ⟨result, after, done, -⟩ := ended
  obtain ⟨banded, -, inside⟩ := layOutFlex_banded {} box takes {} 100 placed done few
  exact ⟨flow, result, mid, after, placed, done, grown, banded, inside⟩

end Box

end FlexLayout
