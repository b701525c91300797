/-
# FlexLayout.Proofs.ContentMinimum -- the automatic minimum is content-based

An item without a minimum of its own cannot shrink below its content: below the smallest of
the size that its content asks for, its specified size and its maximum, all of them content
sizes (`Item.contentBased`).  The minimum is kept as an outer size and its bounds are put
together as outer sizes; that agrees because each of them is a content size with the same
edges, whatever their sign (`Item.max_contentMinimum`).

The zero of a scroll container is an outer size without edges.  It is the content size zero
as long as the edges do not add up to less than nothing; with a negative margin the item is
held above its content, and even above its maximum (`Item.measure_scroll_overlapped`).

In a column the content is known once the child is laid out, and counts with the edges that
the child has then.  Boxes that are no flex containers keep theirs; a nested flex container
does if they do not depend on its width (`Kid.keepsEdges`).
-/
import FlexLayout.Proofs.Resolved

namespace FlexLayout

set_option autoImplicit false

def Box.scrolls (axes : Axes) (box : Box) : Bool :=
  (if axes.horizontal then box.style.overflowX else box.style.overflowY) != .visible

namespace Kid

variable {resolve : Resolver} {reference : Int} {kid : Kid}

def sized (resolve : Resolver) (reference : Int) (kid : Kid) : Frame :=
  kid.frame.withSizes resolve kid.box.style reference

/-- A child that has the edges of its style keeps them when it is laid out. -/
def KeepsEdges (resolve : Resolver) (reference : Int) (kid : Kid) : Prop :=
  ∀ fragment available, fragment.frame.Edged resolve kid.box.style reference →
    Run.Ensures (fun laid => laid.frame.Edged resolve kid.box.style reference)
      (kid.layOut fragment available)

/-- **Edges are kept**, by a nested flex container if they do not depend on its width. -/
theorem keepsEdges (host : Host) (hosted : kid.layOut = kid.box.layOut host.environment)
    (fixed : kid.box.kind = .flex → kid.box.style.EdgesFixed host.resolve) :
    kid.KeepsEdges host.resolve reference := by
  have firm : kid.Firm host.resolve reference := by
    by_cases flex : kid.box.kind = .flex
    · exact firm_of_flex hosted flex (fixed flex)
    · exact (plain_of_layOut hosted flex).firm
  exact fun fragment available edged => (firm fragment available edged).mono fun _ laid => laid.1

end Kid

namespace Item

/-- The content size that some content asks for, as far as the specified size and the maximum
allow. -/
def contentBased (content : Int) (specified maximum : Option Int) : Int :=
  max 0 ((specified.toList ++ maximum.toList).foldl min content)

theorem contentBased_le {limit : Int} (nonneg : 0 ≤ limit) (content : Int)
    (specified : Option Int) : contentBased content specified (some limit) ≤ limit := by
  cases specified <;> simp only [contentBased, Option.toList_some, Option.toList_none,
    List.nil_append, List.cons_append, List.foldl_cons, List.foldl_nil] <;> omega

def mainMaximum (resolve : Resolver) (container : Container) (kid : Kid) : Option Int :=
  let limits := (kid.sized resolve container.contentWidth).limits resolve kid.box.style
    container.contentWidth
  if container.axes.horizontal then limits.maxWidth else limits.maxHeight

/-- The size that the content of a child asks for along the main axis: its smallest width in a
row, the height that it was laid out with in a column. -/
def contentAsked (axes : Axes) (box : Box) (laid : Frame) : Int :=
  if axes.horizontal then box.minContentWidth - axes.mainSurround laid else laid.height.getD 0

variable {resolve : Resolver} {container : Container} {kid : Kid}

theorem mainMaximum_nonneg {limit : Int} (found : mainMaximum resolve container kid = some limit) :
    0 ≤ limit := by
  simp only [mainMaximum, Frame.limits] at found
  split at found <;> exact Style.nonneg_of_contentSize? found

theorem contentMinimum_of_scrolls {axes : Axes} {box : Box} (scrolls : box.scrolls axes = true)
    (laid : Frame) (specified maxMain : Option Int) :
    contentMinimum axes box laid specified maxMain = 0 := by
  simp only [Box.scrolls, bne_iff_ne] at scrolls
  exact if_pos scrolls

/-- **The automatic minimum of visible content** is its content-based size, with edges of
any sign. -/
theorem max_contentMinimum {axes : Axes} {box : Box} (visible : box.scrolls axes = false)
    {laid : Frame} {surround : Int} (same : axes.mainSurround laid = surround)
    (range : axes.horizontal = false → Pixel.InRange (laid.height.getD 0 + surround))
    (specified maximum : Option Int) :
    max (contentMinimum axes box laid specified (maximum.map (· + surround))) surround - surround =
      contentBased (contentAsked axes box laid) specified maximum := by
  subst same
  have shown :
      ¬(if axes.horizontal then box.style.overflowX else box.style.overflowY) ≠ .visible := by
    simpa [Box.scrolls] using visible
  have asked : (if axes.horizontal then box.minContentWidth
      else Pixel.add (laid.height.getD 0) (axes.mainSurround laid)) =
        contentAsked axes box laid + axes.mainSurround laid := by
    simp only [contentAsked]
    cases horizontal : axes.horizontal with
    | true => simp
    | false => exact Pixel.add_of_inRange (range horizontal)
  simp only [contentMinimum]
  rw [if_neg shown, asked]
  cases specified <;> cases maximum <;> simp only [contentBased, Option.map_some, Option.map_none,
    Option.toList_some, Option.toList_none, List.nil_append, List.cons_append, List.foldl_cons,
    List.foldl_nil] <;> omega

def ownMinimum (axes : Axes) (style : Style) : Option Length :=
  if axes.horizontal then style.minWidth else style.minHeight

/-- An item whose automatic minimum is the content-based one. -/
structure HasContentMinimum (resolve : Resolver) (container : Container) (kid : Kid) (item : Item)
    (laid : Frame) : Prop where
  /-- A scroll container has none; other content is asked for as it was laid out. -/
  size : item.minMain - container.axes.mainSurround (kid.sized resolve container.contentWidth) =
    if kid.box.scrolls container.axes then 0
    else contentBased (contentAsked container.axes kid.box laid)
      (container.axes.mainSize? (kid.sized resolve container.contentWidth))
      (mainMaximum resolve container kid)
  /-- It does not exceed the maximum. -/
  le_max : ∀ limit ∈ item.maxMain, item.minMain ≤ limit
  /-- A scroll container can shrink to no content size. -/
  shrinks : kid.box.scrolls container.axes = true →
    item.hold (container.axes.mainSurround (kid.sized resolve container.contentWidth)) =
      container.axes.mainSurround (kid.sized resolve container.contentWidth)

theorem minimum_of_automatic (resolve : Resolver) {style : Style}
    (automatic : ownMinimum container.axes style = none) (sized : Frame) :
    (if container.axes.horizontal then (sized.limits resolve style container.contentWidth).minWidth
      else (sized.limits resolve style container.contentWidth).minHeight) = none := by
  simp only [ownMinimum] at automatic
  split at automatic <;> simp_all [Frame.limits, Style.contentSize?]

/-- The automatic minimum of a measured item, and its maximum, as outer sizes. -/
theorem outerLimits_ofBox (resolve : Resolver)
    (automatic : ownMinimum container.axes kid.box.style = none) (child index : Nat) (laid : Frame) :
    let sized := kid.sized resolve container.contentWidth
    let surround := container.axes.mainSurround sized
    let item := ofBox resolve container child index kid.box sized laid
    item.minSpecified = none ∧
      item.maxMain = (mainMaximum resolve container kid).map (· + surround) ∧
      item.minMain = max (contentMinimum container.axes kid.box laid
        (container.axes.mainSize? sized) item.maxMain) surround := by
  intro sized surround item
  have none := minimum_of_automatic resolve automatic sized
  refine ⟨none, rfl, ?_⟩
  simp only [item, ofBox]
  rw [none]

/-- **An automatic minimum is content-based** if the child was laid out with its edges, and
these do not overlap a scroll container. -/
theorem hasContentMinimum_ofBox {child index : Nat} {laid : Frame}
    (automatic : ownMinimum container.axes kid.box.style = none)
    (same : container.axes.mainSurround laid =
      container.axes.mainSurround (kid.sized resolve container.contentWidth))
    (range : container.axes.horizontal = false → Pixel.InRange (laid.height.getD 0 +
      container.axes.mainSurround (kid.sized resolve container.contentWidth)))
    (room : kid.box.scrolls container.axes = true →
      0 ≤ container.axes.mainSurround (kid.sized resolve container.contentWidth)) :
    HasContentMinimum resolve container kid
      (ofBox resolve container child index kid.box (kid.sized resolve container.contentWidth) laid)
      laid := by
  obtain ⟨-, maxMain, minMain⟩ := outerLimits_ofBox resolve automatic child index laid
  generalize ofBox resolve container child index kid.box
    (kid.sized resolve container.contentWidth) laid = item at maxMain minMain ⊢
  have size : item.minMain - container.axes.mainSurround (kid.sized resolve container.contentWidth) =
      if kid.box.scrolls container.axes then 0
      else contentBased (contentAsked container.axes kid.box laid)
        (container.axes.mainSize? (kid.sized resolve container.contentWidth))
        (mainMaximum resolve container kid) := by
    cases scrolls : kid.box.scrolls container.axes with
    | true =>
        have above := room scrolls
        rw [if_pos rfl, minMain, contentMinimum_of_scrolls scrolls]
        omega
    | false =>
        rw [if_neg Bool.false_ne_true, minMain, maxMain, max_contentMinimum scrolls same range]
  have below : ∀ limit, mainMaximum resolve container kid = some limit →
      item.minMain - container.axes.mainSurround (kid.sized resolve container.contentWidth) ≤
        limit := by
    intro limit found
    have nonneg := mainMaximum_nonneg found
    rw [size, found]
    split
    · exact nonneg
    · exact contentBased_le nonneg _ _
  refine ⟨size, fun limit most => ?_, fun scrolls => ?_⟩
  · rw [maxMain, Option.mem_def, Option.map_eq_some_iff] at most
    obtain ⟨content, found, rfl⟩ := most
    have := below content found
    omega
  · rw [if_pos scrolls] at size
    simp only [hold, maxMain]
    cases found : mainMaximum resolve container kid with
    | none =>
        dsimp only [Option.map_none]
        omega
    | some limit =>
        have := mainMaximum_nonneg found
        dsimp only [Option.map_some]
        omega

/-- **The automatic minimum is content-based.**  A child whose minimum is `auto` is measured
as an item whose minimum, less the edges, is nothing for a scroll container, and else the
smallest of the size that its content asks for, its specified size and its maximum.  So it
never exceeds the maximum, and a scroll container can shrink to nothing.  In a column the
child has to keep its edges when it is laid out, and the edges must not overlap a scroll
container. -/
theorem measure_contentBased (child index : Nat)
    (automatic : ownMinimum container.axes kid.box.style = none)
    (keeps : container.axes.horizontal = false → kid.KeepsEdges resolve container.contentWidth)
    (room : kid.box.scrolls container.axes = true →
      0 ≤ container.axes.mainSurround (kid.sized resolve container.contentWidth)) :
    Run.Ensures (fun a => a.1.minSpecified = none ∧
        ((container.axes.horizontal = false → Pixel.InRange (a.2.frame.height.getD 0 +
          container.axes.mainSurround (kid.sized resolve container.contentWidth))) →
        HasContentMinimum resolve container kid a.1 a.2.frame))
      (measure resolve container child index kid) := by
  have edged : (kid.sized resolve container.contentWidth).Edged resolve kid.box.style
      container.contentWidth := Frame.edged_withSizes _ _ _ _
  have minSpecified (laid : Frame) := (outerLimits_ofBox resolve automatic child index laid).1
  simp only [measure]
  cases horizontal : container.axes.horizontal with
  | true =>
      refine Run.ensures_pure ⟨minSpecified _, fun range => ?_⟩
      exact hasContentMinimum_ofBox automatic rfl (fun column => by simp_all) room
  | false =>
      rw [if_neg Bool.false_ne_true]
      refine Run.ensures_bind (keeps horizontal _ _ (edged.of_sameEdges ⟨rfl, rfl, rfl⟩)) ?_
      intro laid edged'
      refine Run.ensures_pure ⟨minSpecified _, fun range => ?_⟩
      exact hasContentMinimum_ofBox automatic ((edged.sameEdges edged').mainSurround _)
        (fun _ => range rfl) room

/-- A column item that is pulled up, with content of 30 pixels and a maximum of 25. -/
theorem measure_contentBased_capped :
    let host : Host := { conduct := .stack }
    let box : Box :=
      { style :=
          { maxHeight := some (.px 25)
            margin := { Sides.all (some (.px 0)) with top := some (.px (-10)) } }
        children := [{ style := { height := some (.px 30) } }] }
    let container := Container.prepare host.resolve { direction := .column } {} 100
    let kid : Kid := ⟨box, {}, box.layOut host.environment⟩
    ∃ item measured after,
      (measure host.resolve container 0 0 kid).outcome #[] = (.ok (item, measured), after) ∧
        HasContentMinimum host.resolve container kid item measured.frame ∧
        measured.frame.height = some 30 ∧ item.minMain = 15 ∧ item.maxMain = some 15 := by
  intro host box container kid
  have ran : Run.Succeeds (fun a => a.2.frame.height = some 30 ∧ a.1.minMain = 15 ∧
      a.1.maxMain = some 15) (measure host.resolve container 0 0 kid) #[] := by
    decide +kernel
  obtain ⟨⟨item, measured⟩, after, found, height, least, most⟩ := ran
  have keeps : kid.KeepsEdges host.resolve container.contentWidth :=
    Kid.keepsEdges host rfl fun flex => BoxKind.noConfusion flex
  have minimum := measure_contentBased 0 0 rfl (fun _ => keeps)
    (fun scrolls => absurd scrolls (by decide)) _ _ _ found
  refine ⟨item, measured, after, found, minimum.2 fun _ => ?_, height, least, most⟩
  rw [show measured.frame.height = some 30 from height]
  decide +kernel

/-- A scroll container that is pulled over what is before it is held at its content size of 50,
above its maximum of 20. -/
theorem measure_scroll_overlapped :
    let host : Host := {}
    let box : Box :=
      { style :=
          { overflowX := .hidden
            maxWidth := some (.px 20)
            margin := { Sides.all (some (.px 0)) with left := some (.px (-50)) } } }
    let container := Container.prepare host.resolve {} {} 100
    let kid : Kid := ⟨box, {}, box.layOut host.environment⟩
    Run.Succeeds (fun a => a.1.minSpecified = none ∧ box.scrolls container.axes = true ∧
        container.axes.mainSurround a.2.frame = -50 ∧
        a.1.minMain - container.axes.mainSurround a.2.frame = 50 ∧
        a.1.maxMain = some (-30) ∧ a.1.minMain = 0)
      (measure host.resolve container 0 0 kid) #[] := by
  intro host box container kid
  decide +kernel

end Item

end FlexLayout
