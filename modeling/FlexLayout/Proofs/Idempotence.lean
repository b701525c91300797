/-
# FlexLayout.Proofs.Idempotence -- layout of what is laid out already

A container that is laid out a second time has its first result to start from.  What
that holds of the items and of what is below them is made anew
(`Box.layOutFlex_eq_of_renewed`), and the container has the width that it had on entry or
would resolve again.  What is new is its height: it was found last, and is imposed now.

So where the height makes no difference to how the items are measured, broken into lines
and placed (`Container.Lasting`), nothing changes (`Box.layOutFlex_again`).  It does make one
where the height that was found is not the one that the items were placed in: limits hold
it after they were placed (`Box.layOutFlex_again_held`).
-/
import FlexLayout.Proofs.Idempotence.Changes
import FlexLayout.Proofs.Idempotence.Resumed

namespace FlexLayout

set_option autoImplicit false

open Pairing

namespace Container

/-- The height that a container gets makes no difference when it is laid out in it again.
Its items were laid out in that height.  Or it is a row whose lines leave nothing of it
free, such as one that finds its height and does not start from the far end.  Or it is a
column that its items fill, such as one that got what they ask for. -/
def Lasting (resolve : Resolver) (style : Style) (frame : Frame) (kids : List Kid)
    (available height : Int) (log : CallLog) : Prop :=
  let container := prepare resolve style frame available
  container.definiteHeight = some height ∨
    container.axes.horizontal = true ∧
      (frame.height = none ∧ style.wrap ≠ .wrapReverse ∧ kids.length < 2147483648 ∨
        Run.Succeeds (·.Fills height) (flow resolve style frame kids available) log) ∨
    container.axes.horizontal = false ∧
      Run.Succeeds (fun measured => container.Asked height measured.1 ∨
          container.Fills height (Item.sortByOrder measured.1))
        (Item.measureAll resolve container 0 0 kids) log

section

variable {resolve : Resolver} [resolve.OrderBlind] {style : Style} {frame : Frame}
  {available height : Int} {kids : List Kid} {log after : CallLog}

/-- **A container that is laid out again in the height that it got has the same run**, if
the height makes no difference. -/
theorem layOut_resumed (fixed : style.RowGapFixed resolve)
    (tracks : same.Tracks (fun _ kid kid' => kid.Enters Coupling.exact same kid') 0 0 kids kids)
    (bases : ∀ kid ∈ kids, kid.box.participates = true → kid.box.style.BasisFixed resolve)
    {result : Fragment}
    (done : (layOut resolve style frame kids available).outcome log = (.ok result, after))
    (laid : result.frame.height = some height)
    (lasting : Lasting resolve style frame kids available height log) :
    (layOut resolve style result.frame kids available).outcome log = (.ok result, after) := by
  obtain ⟨mainSize, crossSize, ends⟩ := layOut_frame resolve style frame kids available _ _ _ done
  have resumed := prepare_resumed fixed ends laid
  refine layOut_rerun rfl rfl resumed.alike tracks (fun kid member participates =>
    Item.basisAlike_of_fixed resumed.alike (bases kid member participates)) done ?_ ?_ ?_
  · intro flow items sized start _ measured _
    have fit (column : (prepare resolve style frame available).axes.horizontal = false) :=
      Item.measureAll_fit column 0 0 kids _ _ _ measured
    refine resumed.lines_alike ?_ fun column item member =>
      fit column item ((Item.sortByOrder_perm items).mem_iff.1 member)
    refine lasting.imp_right (.imp And.left ?_)
    rintro ⟨column, fills⟩
    exact ⟨column, (fills.holds measured).elim (fun asked => asked.fills (fit column)) id⟩
  · intro flow flow' mid placed at_ at' closes aligned
    rw [← at_, ← at'] at resumed
    refine resumed.spreads_alike aligned ?_
    rw [at_]
    rcases lasting with definite | ⟨row, own | fills⟩ | ⟨column, -⟩
    · exact .inl definite
    · obtain ⟨auto, forward, few⟩ := own
      exact (fills_of_row rfl auto row forward few placed (closes ▸ laid)).imp_right .inr
    · exact .inr (.inr (fills.holds placed))
    · exact .inr (.inl column)
  · intro mainSize crossSize closes
    rw [closes] at laid
    rw [resumed.finalFrame_eq laid, closes]

end

end Container

namespace Box

/-- **Layout is idempotent where the height that it finds makes no difference.**  A flex
container is laid out, and again in what it got; its row gap and the flex bases of
its items are free of percentages, and no column is a generated child of a column below
its children.  Then the second layout succeeds as the first did, with the same result and
the same calls. -/
theorem layOutFlex_again (host : Host) (box : Box) (frame : Frame) (fragments : List Fragment)
    (available : Int)
    (gap : ∀ length, box.style.rowGap = some length → length.absolute = true)
    (bases : ∀ child ∈ box.children, child.participates = true →
      ∀ length, child.style.basis = .length length → length.absolute = true)
    (spares : ∀ child ∈ box.children, child.sparesGenerated = true)
    {log after : CallLog} {result : Fragment} {height : Int}
    (done : (box.layOutFlex host.environment ⟨frame, fragments⟩ available).outcome log =
      (.ok result, after))
    (laid : result.frame.height = some height)
    (lasting : Container.Lasting host.resolve box.style frame
      (Kid.ofBoxes host.environment box.children fragments) available height log) :
    (box.layOutFlex host.environment result available).outcome log = (.ok result, after) := by
  have anew := box.layOutFlex_anew_of host spares (Box.layOut_renewed_all host box.children spares)
    _ _ _ _ _ done
  have tracks := Kid.ofBoxes_tracks host.exact_keeps box.children 0 (stale_refl box.children fragments)
  -- What is below the items is made anew, so they may start from what they were before.
  show (box.layOutFlex host.environment ⟨result.frame, result.children⟩ available).outcome log = _
  rw [box.layOutFlex_eq_of_renewed host result.frame anew available]
  refine Container.layOut_resumed ?_ tracks ?_ done laid lasting
  · intro length reference given
    exact host.resolve_absolute box.style (gap length given) reference
  · intro kid member participates length reference given
    refine host.resolve_absolute kid.box.style (bases kid.box ?_ participates length given) reference
    rw [← Kid.map_box_ofBoxes host.environment box.children fragments]
    exact List.mem_map_of_mem member

/-- A column with a gap, of a row and a box whose child is stacked. -/
theorem layOutFlex_again_stack :
    let host : Host := { conduct := .stack }
    let tall : Box := { style := { height := some (.px 30) } }
    let row : Box := { kind := .flex, children := [tall] }
    let stack : Box := { style := { margin := .all (some (.px 2)) }, children := [tall] }
    let box : Box :=
      { kind := .flex
        style := { direction := .column, rowGap := some (.px 5) }
        children := [row, stack] }
    ∃ result after,
      (box.layOutFlex host.environment {} 100).outcome #[] = (.ok result, after) ∧
      result.frame.height = some 69 ∧
      result.children.map (fun child => (child.frame.y, child.frame.height)) =
        [(0, some 30), (37, some 30)] ∧
      (box.layOutFlex host.environment result 100).outcome #[] = (.ok result, after) := by
  intro host tall row stack box
  have whole : Run.Succeeds (fun result => result.frame.height = some 69 ∧
      result.children.map (fun child => (child.frame.y, child.frame.height)) =
        [(0, some 30), (37, some 30)])
      (box.layOutFlex host.environment {} 100) #[] := by
    simp only [layOutFlex, Container.layOut]
    rw [Container.flow_eq_insertionSort]
    decide +kernel
  have asked : Run.Succeeds
      (fun measured => (Container.prepare host.resolve box.style {} 100).Asked 69 measured.1)
      (Item.measureAll host.resolve (Container.prepare host.resolve box.style {} 100) 0 0
        (Kid.ofBoxes host.environment box.children [])) #[] := by
    decide +kernel
  obtain ⟨result, after, done, laid, placed⟩ := whole
  refine ⟨result, after, done, laid, placed, ?_⟩
  refine layOutFlex_again host box {} [] 100 ?_ ?_ (by decide) done laid
    (.inr (.inr ⟨rfl, asked.mono fun _ => .inl⟩))
  · intro length given
    obtain rfl : Length.px 5 = length := Option.some.inj given
    rfl
  · intro child member _ length basis
    have auto : child.style.basis = .auto := by
      simp only [box, row, stack, List.mem_cons, List.not_mem_nil, or_false] at member
      rcases member with rfl | rfl <;> rfl
    rw [auto] at basis
    exact Basis.noConfusion basis

/-- A maximum height holds a column that its item has been laid out in already, without
shrinking.  Laid out again, the column has that height for its items, and the item
shrinks. -/
theorem layOutFlex_again_held :
    let block : Box := { style := { height := some (.px 100), minHeight := some (.px 0) } }
    let box : Box :=
      { kind := .flex
        style := { direction := .column, maxHeight := some (.px 50) }
        children := [block] }
    let heights (result : Fragment) := result.children.map fun child => child.frame.height
    Run.Succeeds (fun result => result.frame.height = some 50 ∧ heights result = [some 100] ∧
        Run.Succeeds (fun again => again.frame.height = some 50 ∧ heights again = [some 50])
          (box.layOutFlex ({} : Host).environment result 100) #[])
      (box.layOutFlex ({} : Host).environment {} 100) #[] := by
  intro block box heights
  simp only [layOutFlex, Container.layOut, Container.flow_eq_insertionSort]
  decide +kernel

end Box

end FlexLayout
