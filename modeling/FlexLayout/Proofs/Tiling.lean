/-
# FlexLayout.Proofs.Tiling -- items in flow tile their line

A container of block, table and grid boxes is laid out.  On every line that does not
overflow, the margin boxes of the items in flow then lie one after the other from
main-start, with at least the gap between neighbours, and end inside; how much is left
at the end depends on `auto` margins and on the justification (`Box.layOutFlex_tiled`).

Margin boxes start inside as well, except that margins can make one negative in size,
and what comes after it starts before it (`Box.layOutFlex_starts_outside`).
-/
import FlexLayout.Proofs.Tiling.Placing

namespace FlexLayout

set_option autoImplicit false

namespace Box

/-- **Items in flow tile their line.**  When a container whose items are no flex
containers is laid out, the margin boxes of the items in flow tile every line that
does not overflow the room it is laid out in. -/
theorem layOutFlex_tiled (host : Host) (box : Box)
    (plain : ∀ child ∈ box.children, child.participates = true → child.kind ≠ .flex)
    (fragment : Fragment) (available : Int) {log mid after : CallLog} {flow : Flow}
    {result : Fragment}
    (placed : (Container.flow host.resolve box.style fragment.frame
      (Kid.ofBoxes host.environment box.children fragment.children) available).outcome log =
        (.ok flow, mid))
    (done : (box.layOutFlex host.environment fragment available).outcome log = (.ok result, after))
    {filled : FilledLine} (member : filled ∈ flow.lines)
    (fits : filled.line.used ≤ filled.line.room flow.container)
    (few : filled.line.inFlow < 2147483648)
    (running : Pixel.Running (filled.line.countingOrder filled.items flow.container.mainSpace
      flow.container.mainGap ++ [Pixel.gapsBetween filled.line.inFlow flow.container.mainGap])) :
    Line.Tiled flow.container filled.line (filled.line.marginBoxes flow.container
      (Line.framesInFlow (Item.frameIn result.children) filled.items)) := by
  obtain ⟨flow', mid', first, closed⟩ := Run.outcome_bind_eq_ok done
  have equal := first.symm.trans placed
  rw [Prod.mk.injEq, Except.ok.injEq] at equal
  obtain ⟨rfl, rfl⟩ := equal
  have all : ∀ kid ∈ Kid.ofBoxes host.environment box.children fragment.children,
      kid.box.participates = true → kid.Plain := by
    intro kid among participates
    refine Kid.plain_of_host host among (plain kid.box ?_ participates)
    rw [← Kid.map_box_ofBoxes host.environment box.children fragment.children]
    exact List.mem_map_of_mem among
  have lines := Container.flow_placed all _ _ _ first
  have laid := Flow.close_laid host.resolve lines _ _ _ closed filled member
  exact Line.tiled_of_laid laid (lines.sound filled member) lines.gap few
    ((lines.placed filled member).used running) fits

/-- A reversed row with a gap, where an `auto` margin takes what is free, and a child
out of flow stands between the others. -/
theorem layOutFlex_tiled_reversed :
    let auto : Sides (Option Length) := { Sides.all (some (.px 0)) with right := none }
    let box : Box :=
      { kind := .flex
        style :=
          { direction := .rowReverse, width := some (.px 100), columnGap := some (.px 5) }
        children :=
          [{ style := { width := some (.px 20), margin := auto } },
            { style := { position := .absolute, width := some (.px 90) } },
            { style := { width := some (.px 40) } }] }
    ∃ flow result mid after,
      (Container.flow ({} : Host).resolve box.style {} (Kid.ofBoxes ({} : Host).environment
        box.children []) 100).outcome #[] = (.ok flow, mid) ∧
      (box.layOutFlex ({} : Host).environment {} 100).outcome #[] = (.ok result, after) ∧
      flow.lines.map (fun filled => (filled.line.inFlow, filled.line.autoMargins)) = [(2, 1)] ∧
      ∀ filled ∈ flow.lines, filled.line.used < filled.line.room flow.container ∧
        Line.Tiled flow.container filled.line (filled.line.marginBoxes flow.container
          (Line.framesInFlow (Item.frameIn result.children) filled.items)) := by
  intro auto box
  have plain : ∀ child ∈ box.children, child.participates = true → child.kind ≠ .flex := by
    decide
  have begun : Run.Succeeds (fun flow =>
      flow.lines.map (fun filled => (filled.line.inFlow, filled.line.autoMargins)) = [(2, 1)] ∧
      ∀ filled ∈ flow.lines, filled.line.used < filled.line.room flow.container ∧
        filled.line.inFlow < 2147483648 ∧
        Pixel.Running (filled.line.countingOrder filled.items flow.container.mainSpace
          flow.container.mainGap ++ [Pixel.gapsBetween filled.line.inFlow flow.container.mainGap]))
      (Container.flow ({} : Host).resolve box.style {} (Kid.ofBoxes ({} : Host).environment
        box.children []) 100) #[] := by
    rw [Container.flow_eq_insertionSort]
    decide +kernel
  have ended : Run.Succeeds (fun _ => True) (box.layOutFlex ({} : Host).environment {} 100) #[] := by
    simp only [layOutFlex, Container.layOut]
    rw [Container.flow_eq_insertionSort]
    decide +kernel
  obtain ⟨flow, mid, placed, counts, lines⟩ := begun
  obtain ⟨result, after, done, -⟩ := ended
  refine ⟨flow, result, mid, after, placed, done, counts, fun filled member => ?_⟩
  obtain ⟨less, few, running⟩ := lines filled member
  exact ⟨less, layOutFlex_tiled {} box plain {} 100 placed done member (Int.le_of_lt less) few
    running⟩

/-- A margin of -50 makes the first margin box end 50 before the content edge, and the
second one starts there. -/
theorem layOutFlex_starts_outside :
    let box : Box :=
      { kind := .flex
        style := { width := some (.px 100) }
        children :=
          [{ style :=
              { width := some (.px 0), height := some (.px 10)
                margin := { Sides.all (some (.px 0)) with left := some (.px (-50)) } } },
            { style := { width := some (.px 50), height := some (.px 10) } }] }
    Run.Succeeds (fun flow => Run.Succeeds (fun result =>
        ∃ filled ∈ flow.lines, filled.line.used ≤ filled.line.room flow.container ∧
          ∃ margin ∈ filled.line.marginBoxes flow.container
            (Line.framesInFlow (Item.frameIn result.children) filled.items), margin.start < 0)
        (box.layOutFlex ({} : Host).environment {} 100) #[])
      (Container.flow ({} : Host).resolve box.style {} (Kid.ofBoxes ({} : Host).environment
        box.children []) 100) #[] := by
  intro box
  simp only [layOutFlex, Container.layOut]
  rw [Container.flow_eq_insertionSort, Container.flow_eq_insertionSort]
  decide +kernel

end Box

end FlexLayout
