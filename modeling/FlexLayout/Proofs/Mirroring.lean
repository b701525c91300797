/-
# FlexLayout.Proofs.Mirroring -- reversed directions are mirror images

A container of block, table and grid boxes is laid out, and laid out again with its direction
turned around: a row against a reversed row, a column against a reversed column.  The
container and all boxes in it come out with the same sizes, and with the same place across
the main axis; along it, every item in flow stands at the mirror image of where it stood, on
lines that have no `auto` margins along the axis (`Box.layOutFlex_mirrored`).

Images are taken of margin boxes, in the room that a line is laid out in.  Margins, padding and
border of an item stay on their sides.
-/
import FlexLayout.Proofs.Mirroring.Walks
import FlexLayout.Proofs.Tiling.Placing

namespace FlexLayout

set_option autoImplicit false

/-- A container and the same container turned around, with their items placed and after
layout. -/
structure Flow.Mirrored (flow flow' : Flow) (result result' : Fragment) : Prop where
  container : flow'.container = flow.container.turned
  /-- The same items are on the same lines, with the same sizes. -/
  lines : flow'.lines = flow.lines
  frame : result'.frame = result.frame
  /-- Children differ in their coordinate along the main axis at most. -/
  children : List.Forall₂ (Fragment.Agrees (flow.container.axes.horizontal = false)
    (flow.container.axes.horizontal = true)) result.children result'.children
  /-- Margin boxes are mirror images in the room of their line. -/
  images : ∀ filled ∈ flow.lines, filled.line.autoMargins = 0 →
    ∀ item ∈ filled.items, item.outOfFlow = false →
      let axes := flow.container.axes
      let frame := item.frameIn result.children
      axes.mainCoordinate frame + axes.mainCoordinate (item.frameIn result'.children) =
        2 * flow.container.frame.padding.get axes.lowMain + filled.line.room flow.container +
          2 * (frame.fixedMargin axes.lowMain + frame.border.get axes.lowMain) -
          axes.mainOuter frame

theorem Item.sameExtent_of_agrees {axes : Axes} {px py : Prop} {fragments others : List Fragment}
    (agree : List.Forall₂ (Fragment.Agrees px py) fragments others) (item : Item) :
    axes.SameExtent (item.frameIn fragments) (item.frameIn others) := by
  simp only [Item.frameIn]
  by_cases inside : item.child < fragments.length
  · have inside' : item.child < others.length := agree.length_eq ▸ inside
    have frames : fragments[item.child].frame.Agrees px py others[item.child].frame :=
      (agree.get inside inside').frame
    rw [List.getElem?_eq_getElem inside, List.getElem?_eq_getElem inside']
    exact ⟨⟨frames.margin, frames.padding, frames.border⟩, frames.same axes.mainSize fun _ _ _ => rfl⟩
  · rw [List.getElem?_eq_none (Nat.le_of_not_lt inside),
      List.getElem?_eq_none (agree.length_eq ▸ Nat.le_of_not_lt inside)]
    exact .refl axes _

/-- **Containers that are placed in opposite directions close as mirror images.** -/
theorem Flow.close_mirrored (resolve : Resolver) [resolve.OrderBlind] {flow flow' : Flow}
    (turned : flow.Turned flow') (placed : flow.Placed) (placed' : flow'.Placed) :
    Coupling.exact.Holds (Flow.Mirrored flow flow') (flow.close resolve) (flow'.close resolve) := by
  have closed := Coupling.exact.ensure (Flow.close_turned resolve turned)
    (Flow.close_laid resolve placed) (Flow.close_laid resolve placed')
  refine Coupling.exact.mono closed ?_
  rintro result result' ⟨⟨frame, children⟩, laid, laid'⟩
  rw [turned.container, turned.lines] at laid'
  refine ⟨turned.container, turned.lines, frame, children, fun filled member none => ?_⟩
  exact (laid filled member).mirrored (laid' filled member)
    (fun item _ => item.sameExtent_of_agrees children) none

namespace Box

/-- **Reversed directions are exact mirrors.**  When the direction of a container is turned
around whose items are no flex containers, layout fails as before or succeeds as before, with
the same calls, and what comes out is the mirror image. -/
theorem layOutFlex_mirrored (host : Host) (box : Box)
    (plain : ∀ child ∈ box.children, child.participates = true → child.kind ≠ .flex)
    (fragment : Fragment) (available : Int) (log : CallLog) :
    (∀ failure after, (box.layOutFlex host.environment fragment available).outcome log =
        (.error failure, after) →
      (box.turned.layOutFlex host.environment fragment available).outcome log =
        (.error failure, after)) ∧
    ∀ result after, (box.layOutFlex host.environment fragment available).outcome log =
        (.ok result, after) →
      ∃ flow flow' mid result',
        (Container.flow host.resolve box.style fragment.frame
          (Kid.ofBoxes host.environment box.children fragment.children) available).outcome log =
            (.ok flow, mid) ∧
        (Container.flow host.resolve box.turned.style fragment.frame
          (Kid.ofBoxes host.environment box.children fragment.children) available).outcome log =
            (.ok flow', mid) ∧
        (box.turned.layOutFlex host.environment fragment available).outcome log =
          (.ok result', after) ∧
        Flow.Mirrored flow flow' result result' := by
  have tracks := Kid.ofBoxes_tracks host.exact_keeps box.children 0
    (stale_refl box.children fragment.children)
  have all := Kid.plain_ofBoxes host plain fragment.children
  have flows := Coupling.exact.ensure
    (Container.flow_turned (host.resolve_turned box.style) fragment.frame available tracks)
    (Container.flow_placed all) (Container.flow_placed all)
  have closes (flow flow' : Flow) (related : flow.Turned flow' ∧ flow.Placed ∧ flow'.Placed) :=
    Flow.close_mirrored host.resolve related.1 related.2.1 related.2.2
  refine ⟨fun failure after failed => ?_, fun result after done => ?_⟩
  · have ends := Coupling.exact.bind flows fun flow flow' related =>
      Coupling.exact.mono (S := fun _ _ => True) (closes flow flow' related) fun _ _ _ => trivial
    exact Coupling.error_of_exact ends failed
  · obtain ⟨flow, mid, placed, closed⟩ := Run.outcome_bind_eq_ok done
    obtain ⟨flow', placed', related⟩ := Coupling.exists_of_exact flows placed
    obtain ⟨result', closed', mirrored⟩ := Coupling.exists_of_exact (closes _ _ related) closed
    exact ⟨flow, flow', mid, result', placed, placed',
      (Run.outcome_bind_ok placed' _).trans closed', mirrored⟩

/-- Two rows with padding, gaps and pixels that do not divide evenly, where an item has a margin
and a border on one side only. -/
theorem layOutFlex_mirrored_rows :
    let box : Box :=
      { kind := .flex
        style :=
          { wrap := .wrap, justify := .spaceEvenly, width := some (.px 100),
            columnGap := some (.px 3), padding := { Sides.all (.px 0) with left := .px 7 } }
        children :=
          [{ style := { width := some (.px 20), height := some (.px 5) } },
            { style :=
                { width := some (.px 30), height := some (.px 6)
                  borderWidth := { Sides.all 0 with left := 4 }
                  margin := { Sides.all (some (.px 0)) with left := some (.px 2) } } },
            { style := { position := .absolute, width := some (.px 90) } },
            { style := { width := some (.px 60) } }] }
    ∃ flow flow' result result' after,
      (box.layOutFlex ({} : Host).environment {} 200).outcome #[] = (.ok result, after) ∧
      (box.turned.layOutFlex ({} : Host).environment {} 200).outcome #[] = (.ok result', after) ∧
      flow.lines.map (fun filled => (filled.line.inFlow, filled.line.autoMargins)) =
        [(2, 0), (1, 0)] ∧
      result.children.map (fun fragment => fragment.frame.x) = [21, 64, 94, 27] ∧
      Flow.Mirrored flow flow' result result' := by
  intro box
  have plain : ∀ child ∈ box.children, child.participates = true → child.kind ≠ .flex := by
    decide
  have begun : Run.Succeeds (fun flow =>
      flow.lines.map (fun filled => (filled.line.inFlow, filled.line.autoMargins)) =
        [(2, 0), (1, 0)])
      (Container.flow ({} : Host).resolve box.style {} (Kid.ofBoxes ({} : Host).environment
        box.children []) 200) #[] := by
    rw [Container.flow_eq_insertionSort]
    decide +kernel
  have ended : Run.Succeeds (fun result =>
      result.children.map (fun fragment => fragment.frame.x) = [21, 64, 94, 27])
      (box.layOutFlex ({} : Host).environment {} 200) #[] := by
    simp only [layOutFlex, Container.layOut]
    rw [Container.flow_eq_insertionSort]
    decide +kernel
  obtain ⟨flow, mid, placed, counts⟩ := begun
  obtain ⟨result, after, done, places⟩ := ended
  obtain ⟨first, flow', mid', result', placed', -, done', mirrored⟩ :=
    (layOutFlex_mirrored {} box plain {} 200 #[]).2 result after done
  have equal := placed'.symm.trans placed
  rw [Prod.mk.injEq, Except.ok.injEq] at equal
  obtain ⟨rfl, -⟩ := equal
  exact ⟨first, flow', result, result', after, done, done', counts, places, mirrored⟩

end Box

end FlexLayout
