/-
# FlexLayout.Item.Measure -- base size and limits of an item

An item's base size comes from its flex basis, or else from its content.  Row
items are measured by their intrinsic widths alone.  A column item has to be laid
out to know its height; an `auto` width is first fitted to the container.

The automatic minimum keeps an item from shrinking below its content, as far as
its specified size and its maximum allow; a scroll container has none.
-/
import FlexLayout.Container
import FlexLayout.Item
import FlexLayout.Run

namespace FlexLayout

set_option autoImplicit false

namespace Item

/-- The basis of an item and its pixels.  A column treats a zero basis as content,
and so does a basis whose percentage has no reference. -/
def basisOf (resolve : Resolver) (container : Container) (style : Style) (sized : Frame) :
    BasisKind × Option Int :=
  let axes := container.axes
  match style.basis with
  | .auto => (.auto, axes.mainSize? sized)
  | .content => (.content, none)
  | .length length =>
      let reference := container.mainSpace.map fun _ => container.contentWidth
      let pixels := (resolve style length reference).map fun px =>
        style.contentSize px (axes.mainInset sized)
      (.length, pixels.filter fun px => axes.horizontal || px != 0)

/-- Outer minimum size of an item whose minimum is automatic, from its geometry
after it was laid out. -/
def contentMinimum (axes : Axes) (box : Box) (laid : Frame) (specified maxMain : Option Int) :
    Int :=
  let overflow := if axes.horizontal then box.style.overflowX else box.style.overflowY
  if overflow ≠ .visible then 0
  else
    let surround := axes.mainSurround laid
    let content :=
      if axes.horizontal then box.minContentWidth
      else Pixel.add (laid.height.getD 0) surround
    let capped := match specified with
      | none => content
      | some size => min content (size + surround)
    match maxMain with
    | none => capped
    | some limit => min capped limit

/-- Width of a column item: an `auto` width is fitted to the container, between
the item's intrinsic widths. -/
def fittedWidth (container : Container) (box : Box) (sized : Frame) : Int :=
  match sized.width with
  | some width => width
  | none =>
      let room := min (max container.contentWidth box.minContentWidth) box.maxContentWidth
      max 0 (Pixel.sub room sized.horizontalSurround)

/-- The item of a box, from its geometry before (`sized`) and after (`laid`) it was
laid out for measuring. -/
def ofBox (resolve : Resolver) (container : Container) (child index : Nat) (box : Box)
    (sized laid : Frame) : Item :=
  let axes := container.axes
  let limits := sized.limits resolve box.style container.contentWidth
  let surround := axes.mainSurround sized
  let minSpecified := if axes.horizontal then limits.minWidth else limits.minHeight
  let maxSpecified := if axes.horizontal then limits.maxWidth else limits.maxHeight
  let maxMain := maxSpecified.map (· + surround)
  let basis := basisOf resolve container box.style sized
  let content :=
    if axes.horizontal then Pixel.sub box.maxContentWidth surround else laid.height.getD 0
  let unbounded := Pixel.add (basis.2.getD content) surround
  let minimum := match minSpecified with
    | some size => size + surround
    | none => contentMinimum axes box laid (axes.mainSize? sized) maxMain
  let minMain := max minimum surround
  let base :=
    if axes.horizontal then max (min unbounded container.contentWidth) minMain else unbounded
  let item : Item :=
    { child := child
      index := index
      order := box.style.order
      basis := basis.1
      basisPixels := basis.2
      grow := Factor.ofStyle box.style.grow
      shrink := Factor.ofStyle box.style.shrink
      minSpecified := minSpecified
      minMain := minMain
      maxMain := maxMain
      minCross := (if axes.horizontal then limits.minHeight else limits.minWidth).getD 0
      maxCross := if axes.horizontal then limits.maxHeight else limits.maxWidth
      base := base
      target := base
      outOfFlow := box.outOfFlow }
  { item with hypothetical := item.hold base }

/-- Resolve a child's own geometry and measure it as an item.  A column item is
laid out for that. -/
def measure (resolve : Resolver) (container : Container) (child index : Nat) (kid : Kid) :
    Run Failure (Item × Kid) := do
  let sized := kid.frame.withSizes resolve kid.box.style container.contentWidth
  if container.axes.horizontal then
    return (ofBox resolve container child index kid.box sized sized, kid.withFrame sized)
  else
    let width := fittedWidth container kid.box sized
    let fitted := kid.withFrame { sized with width := some width }
    let fragment ← kid.layOut fitted.fragment width
    return (ofBox resolve container child index kid.box sized fragment.frame,
      kid.withFragment fragment)

/-- Measure the children that are flex items, in document order.  `child` and
`index` number the children and the items that come before. -/
def measureAll (resolve : Resolver) (container : Container) (child index : Nat) :
    List Kid → Run Failure (List Item × List Kid)
  | [] => return ([], [])
  | kid :: rest => do
      if kid.box.participates then
        let (item, kid) ← measure resolve container child index kid
        let (items, kids) ← measureAll resolve container (child + 1) (index + 1) rest
        return (item :: items, kid :: kids)
      else
        let (items, kids) ← measureAll resolve container (child + 1) index rest
        return (items, kid :: kids)

end Item

end FlexLayout
