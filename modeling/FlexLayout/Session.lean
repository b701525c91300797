/-
# FlexLayout.Session -- a tree under a sequence of actions

A session applies actions to boxes of one tree: layout, redistribution of late
height, the sizing steps on their own, edits.  Every action is reported with its
answer, the whole tree after it and the collaborator calls it made.  An action that
fails leaves the tree as it was.
-/
import FlexLayout.Host
import FlexLayout.Tree

namespace FlexLayout

set_option autoImplicit false

namespace Session

/-- A request to break and place given items in a container, in parts. -/
structure Arranging where
  available : Int
  /-- Lines that are there already. -/
  lines : List Line := []
  /-- Items to arrange, if any. -/
  items : Option (List Item) := none
  /-- Replaces the measured main size. -/
  mainSize : Option Int := none
  /-- Replaces the measured cross size. -/
  crossSize : Option Int := none
  /-- Give the container its final height as well. -/
  finish : Bool := false
deriving Repr, Inhabited

inductive Action where
  /-- Lay out as a flex container. -/
  | layOutFlex (available : Int)
  /-- Lay out by the context that the box establishes. -/
  | layOut (available : Int)
  /-- Hand out height that became definite late. -/
  | spreadSlack
  /-- Resolve used edges. -/
  | withEdges (available : Int)
  /-- Resolve edges, sizes and limits. -/
  | withSizes (available : Int)
  /-- Content size of a specified size. -/
  | contentSize (specified inset : Int)
  /-- Measure the box as it stands. -/
  | measure
  /-- Change the subtree. -/
  | edit (change : Tree → Tree)
  /-- Break and place given items. -/
  | arrange (request : Arranging)

/-- One step: an action on the box at the end of a path, with a host of its own or
the session's. -/
structure Step where
  path : List Nat := []
  host : Option Host := none
  action : Action

structure Measures where
  margins : Sides Int
  horizontalSurround : Int
  verticalSurround : Int
  marginBoxWidth : Int
  marginBoxHeight : Int
  flowHeight : Int
  outOfFlow : Bool
  flexContext : Bool
  flexItem : Bool
  flexItems : Nat
deriving DecidableEq, Repr

structure Arrangement where
  container : Container
  items : List Item
  lines : List Line
  mainSize : Int
  crossSize : Int

inductive Answer where
  | done
  | limits (limits : Limits)
  | size (size : Int)
  | measures (measures : Measures)
  | arrangement (arrangement : Arrangement)

structure Report where
  outcome : Except Failure Answer
  /-- The whole tree after the step. -/
  tree : Tree
  /-- The calls of the step, oldest first. -/
  calls : CallLog

def measuresOf (tree : Tree) : Measures :=
  let frame := tree.fragment.frame
  { margins := frame.margin.map (·.getD 0)
    horizontalSurround := frame.horizontalSurround
    verticalSurround := frame.verticalSurround
    marginBoxWidth := frame.marginBoxWidth
    marginBoxHeight := frame.marginBoxHeight
    flowHeight := tree.fragment.flowHeight tree.box.children
    outOfFlow := tree.box.outOfFlow
    flexContext := tree.box.kind.isFlex
    flexItem := tree.box.participates
    flexItems := countFlexItems tree.box.children }

def arrange (env : Environment) (request : Arranging) (tree : Tree) :
    Run Failure (Arrangement × Tree) := do
  let container :=
    Container.prepare env.resolve tree.box.style tree.fragment.frame request.available
  let kids := Kid.ofBoxes env tree.box.children tree.fragment.children
  let (filled, kids) ← match request.items with
    | some items => container.arrange request.lines.length items kids
    | none => pure ([], kids)
  let lines := request.lines ++ filled.map FilledLine.line
  let gaps :=
    if request.items.isSome then Pixel.gapsBetween lines.length container.crossGap else 0
  let mainSize := request.mainSize.getD (Line.mainExtent filled)
  let crossSize := request.crossSize.getD (Line.crossExtent filled + gaps)
  let frame := if request.finish then container.finalFrame mainSize crossSize else container.frame
  let arrangement : Arrangement :=
    { container := container
      items := filled.flatMap FilledLine.items
      lines := lines
      mainSize := mainSize
      crossSize := crossSize }
  let fragment : Fragment := { frame := frame, children := kids.map Kid.fragment }
  return (arrangement, { tree with fragment := fragment })

def act (env : Environment) (tree : Tree) : Action → Run Failure (Answer × Tree)
  | .layOutFlex available => do
      let fragment ← tree.box.layOutFlex env tree.fragment available
      return (.done, { tree with fragment := fragment })
  | .layOut available => do
      let fragment ← tree.box.layOut env tree.fragment available
      return (.done, { tree with fragment := fragment })
  | .spreadSlack =>
      return (.done, { tree with fragment := Slack.spread env.resolve tree.box tree.fragment })
  | .withEdges available =>
      let frame := tree.fragment.frame.withEdges env.resolve tree.box.style available
      return (.done, { tree with fragment := { tree.fragment with frame := frame } })
  | .withSizes available =>
      let frame := tree.fragment.frame.withSizes env.resolve tree.box.style available
      return (.limits (frame.limits env.resolve tree.box.style available),
        { tree with fragment := { tree.fragment with frame := frame } })
  | .contentSize specified inset =>
      return (.size (tree.box.style.contentSize specified inset), tree)
  | .measure => return (.measures (measuresOf tree), tree)
  | .edit change => return (.done, change tree)
  | .arrange request => do
      let (arrangement, tree) ← arrange env request tree
      return (.arrangement arrangement, tree)

/-- Carry out one step; `none` when its path leads nowhere. -/
def step (host : Host) (tree : Tree) (step : Step) : Option Report := do
  let subtree ← tree.at? step.path
  let env := (step.host.getD host).environment
  match (act env subtree step.action).outcome #[] with
  | (.ok (answer, changed), calls) => return ⟨.ok answer, tree.replace step.path changed, calls⟩
  | (.error failure, calls) => return ⟨.error failure, tree, calls⟩

def run (host : Host) : Tree → List Step → Option (List Report)
  | _, [] => some []
  | tree, next :: rest => do
      let report ← step host tree next
      let reports ← run host report.tree rest
      return report :: reports

end Session

end FlexLayout
