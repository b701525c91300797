/-
# FlexLayout.Layout -- laying out a flex container

`Container.layOut` is the whole algorithm for one container: measure the items,
sort them, break them into lines, flex and place each line -- the state then is a
`Flow` -- and align across the lines and size the container.  It knows its
children only as `Kid`s.

`Box.layOut` ties the knot over the box tree: the routine of a flex box is the
algorithm itself, with the routines of its children; every other box goes to the
environment, with the same routines.  The recursion is on the box, which layout
never changes, so it is structural (`layOut_of_flex`, `layOut_of_not_flex`).
-/
import FlexLayout.Line.Alignment

namespace FlexLayout

set_option autoImplicit false

/-- A container whose items are sized and placed along the main axis. -/
structure Flow where
  container : Container
  lines : List FilledLine
  kids : List Kid

namespace Flow

def mainSize (flow : Flow) : Int := Line.mainExtent flow.lines

/-- Cross sizes of the lines and the gaps between them. -/
def crossSize (flow : Flow) : Int :=
  Line.crossExtent flow.lines + Pixel.gapsBetween flow.lines.length flow.container.crossGap

/-- Align the items across the lines and give the container its height. -/
def close (resolve : Resolver) (flow : Flow) : Run Failure Fragment := do
  let kids ← flow.container.align resolve flow.crossSize flow.lines flow.kids
  return { frame := flow.container.finalFrame flow.mainSize flow.crossSize
           children := kids.map Kid.fragment }

end Flow

namespace Container

/-- Prepare a container of a style in the available width, measure its items, and
place them along the main axis line by line. -/
def flow (resolve : Resolver) (style : Style) (frame : Frame) (kids : List Kid) (available : Int) :
    Run Failure Flow := do
  let container := prepare resolve style frame available
  let (items, kids) ← Item.measureAll resolve container 0 0 kids
  let (lines, kids) ← container.arrange 0 (Item.sortByOrder items) kids
  return { container := container, lines := lines, kids := kids }

/-- Lay out a container of a style and its children in the available width. -/
def layOut (resolve : Resolver) (style : Style) (frame : Frame) (kids : List Kid)
    (available : Int) : Run Failure Fragment := do
  (← flow resolve style frame kids available).close resolve

end Container

/-- The width that a kind of box is offered: none for blocks. -/
def BoxKind.offered (kind : BoxKind) (available : Int) : Option Int :=
  if kind = .block then none else some available

mutual

/-- Lay out a box by the context it establishes. -/
def Box.layOut (env : Environment) : Box → Fragment → Int → Run Failure Fragment
  | ⟨kind, style, _, _, _, children⟩ => fun fragment available =>
      let kids := Kid.ofBoxes env children fragment.children
      if kind.isFlex then
        Container.layOut env.resolve style fragment.frame kids available
      else
        Run.mapFailure (Failure.child kind)
          (env.layOutContents kind (kind.offered available) fragment.frame kids)

/-- Boxes with their geometry and their layout routines.  A box without geometry
starts from the default. -/
def Kid.ofBoxes (env : Environment) : List Box → List Fragment → List Kid
  | [], _ => []
  | box :: boxes, [] => ⟨box, {}, Box.layOut env box⟩ :: Kid.ofBoxes env boxes []
  | box :: boxes, fragment :: fragments =>
      ⟨box, fragment, Box.layOut env box⟩ :: Kid.ofBoxes env boxes fragments

end

namespace Box

/-- Lay out a box as a flex container, whatever its kind. -/
def layOutFlex (env : Environment) (box : Box) (fragment : Fragment) (available : Int) :
    Run Failure Fragment :=
  Container.layOut env.resolve box.style fragment.frame
    (Kid.ofBoxes env box.children fragment.children) available

theorem layOut_of_flex (env : Environment) (box : Box) (fragment : Fragment) (available : Int)
    (flex : box.kind = .flex) :
    box.layOut env fragment available = box.layOutFlex env fragment available := by
  cases box; subst flex; rfl

theorem layOut_of_not_flex (env : Environment) (box : Box) (fragment : Fragment)
    (available : Int) (other : box.kind ≠ .flex) :
    box.layOut env fragment available =
      Run.mapFailure (Failure.child box.kind)
        (env.layOutContents box.kind (box.kind.offered available) fragment.frame
          (Kid.ofBoxes env box.children fragment.children)) := by
  rcases box with ⟨kind, style, generated, least, most, children⟩
  cases kind <;> first | rfl | exact absurd rfl other

end Box

namespace Kid

theorem length_ofBoxes (env : Environment) (boxes : List Box) (fragments : List Fragment) :
    (ofBoxes env boxes fragments).length = boxes.length := by
  induction boxes generalizing fragments with
  | nil => cases fragments <;> rfl
  | cons box boxes ih => cases fragments <;> simp [ofBoxes, ih]

theorem map_box_ofBoxes (env : Environment) (boxes : List Box) (fragments : List Fragment) :
    (ofBoxes env boxes fragments).map Kid.box = boxes := by
  induction boxes generalizing fragments with
  | nil => cases fragments <;> rfl
  | cons box boxes ih => cases fragments <;> simp [ofBoxes, ih]

theorem box_mem_of_mem_ofBoxes {env : Environment} {boxes : List Box} {fragments : List Fragment}
    {kid : Kid} (member : kid ∈ ofBoxes env boxes fragments) : kid.box ∈ boxes := by
  rw [← map_box_ofBoxes env boxes fragments]
  exact List.mem_map_of_mem member

/-- Every child's routine is that of its box. -/
theorem layOut_of_mem_ofBoxes {env : Environment} {boxes : List Box} {fragments : List Fragment}
    {kid : Kid} (member : kid ∈ ofBoxes env boxes fragments) : kid.layOut = kid.box.layOut env := by
  induction boxes generalizing fragments with
  | nil => cases fragments <;> simp [ofBoxes] at member
  | cons box boxes ih =>
      cases fragments with
      | nil =>
          rw [ofBoxes] at member
          rcases List.mem_cons.1 member with rfl | later
          · rfl
          · exact ih later
      | cons fragment fragments =>
          rw [ofBoxes] at member
          rcases List.mem_cons.1 member with rfl | later
          · rfl
          · exact ih later

end Kid

end FlexLayout
