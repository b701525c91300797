/-
# FlexLayout.Proofs.Mirroring.Turned -- a container that starts from the other end

Turning a container around leaves its main axis where it is and starts from the other end
of it.  Only the coordinates along the axis ask for that end.  So the container is
prepared as before (`Container.prepare_turned`), the items are measured, broken into lines
and flexed as before (`Container.flow_turned`), and everything comes to stand where it
stood across the main axis (`Flow.close_turned`).
-/
import FlexLayout.Proofs.Relayout

namespace FlexLayout

set_option autoImplicit false

open Pairing

/-- The direction along the same axis from the other end. -/
def Direction.opposite : Direction → Direction
  | .row => .rowReverse
  | .rowReverse => .row
  | .column => .columnReverse
  | .columnReverse => .column

theorem Direction.axes_opposite (direction : Direction) :
    direction.opposite.axes = direction.axes.facing (!direction.axes.reversed) := by
  cases direction <;> rfl

def Style.turned (style : Style) : Style := { style with direction := style.direction.opposite }

def Box.turned (box : Box) : Box := { box with style := box.style.turned }

theorem Host.resolve_turned (host : Host) (style : Style) :
    host.resolve style.turned = host.resolve style := by
  simp only [Host.resolve]
  split
  · funext length reference
    cases length <;> rfl
  · rfl

namespace Container

variable {resolve : Resolver} {style : Style}

def turned (container : Container) : Container := { container with style := container.style.turned }

theorem axes_turned (container : Container) :
    container.turned.axes = container.axes.facing (!container.axes.reversed) :=
  container.style.direction.axes_opposite

theorem akin_turned (container : Container) : container.Akin container.turned where
  horizontal := by
    rw [container.axes_turned]
    rfl
  contentWidth := rfl
  mainGap := rfl
  crossGap := rfl
  justify := rfl
  alignItems := rfl
  wrap := rfl
  padding := rfl

/-- Sizes and space do not depend on where the axis starts. -/
theorem prepare_turned (blind : resolve style.turned = resolve style) (frame : Frame)
    (available : Int) :
    prepare resolve style.turned frame available = (prepare resolve style frame available).turned := by
  have horizontal : style.turned.direction.axes.horizontal = style.direction.axes.horizontal := by
    show style.direction.opposite.axes.horizontal = _
    rw [style.direction.axes_opposite]
    rfl
  have sizes (frame : Frame) :
      frame.withSizes resolve style.turned available = frame.withSizes resolve style available := by
    simp only [Frame.withSizes, Frame.withEdges, Style.contentSize?]
    rw [blind]
    rfl
  have limits (frame : Frame) :
      frame.limits resolve style.turned available = frame.limits resolve style available := by
    simp only [Frame.limits, Style.contentSize?]
    rw [blind]
    rfl
  have gaps (frame : Frame) : style.turned.gaps resolve frame = style.gaps resolve frame := by
    simp only [Style.gaps, Style.gapPixels]
    rw [blind, horizontal]
    rfl
  simp only [prepare, resolveFrame, turned, sizes, limits, gaps, horizontal]

theorem finalFrame_turned (container : Container) (mainSize crossSize : Int) :
    container.turned.finalFrame mainSize crossSize = container.finalFrame mainSize crossSize := by
  simp only [finalFrame]
  rw [container.akin_turned.horizontal]
  rfl

theorem basisAlike_turned (resolve : Resolver) (container : Container) (style : Style) :
    Item.BasisAlike resolve container container.turned style := by
  intro sized
  simp only [Item.basisOf]
  rw [container.axes_turned]
  rfl

theorem lines_turned (container : Container) (lines : List FilledLine) :
    Line.Lines (Line.PlacedAlike same False container container.turned) lines lines := by
  have itself := Line.lines_same container.alike_refl rfl lines
  refine itself.mono fun filled _ filled' placed => ⟨placed.main, placed.cross, placed.items, ?_⟩
  intro autos index index'
  exact ⟨False.elim, (placed.flexed autos index index').items⟩

/-- Lines that were flexed from the same lines and placed alike are the same. -/
theorem eq_of_flexedAll {container : Container} {index : Nat} {lines made made' : List FilledLine}
    (flexed : Line.FlexedAll container index lines made)
    (flexed' : Line.FlexedAll container.turned index lines made')
    (aligned : List.Forall₂ (Line.AlignedAlike same) made made') : made' = made := by
  refine List.ext_getElem aligned.length_eq.symm fun k within' within => ?_
  have inside : k < lines.length := flexed.length ▸ within
  have alike : Line.AlignedAlike same made[k] made'[k] := aligned.get within within'
  have first := flexed.each k _ _ (List.getElem?_eq_getElem inside) (List.getElem?_eq_getElem within)
  have second := flexed'.each k _ _ (List.getElem?_eq_getElem inside)
    (List.getElem?_eq_getElem within')
  rw [alike.autoMargins, alike.cross] at second
  rw [second]
  exact first.symm

end Container

/-- A container whose items are placed, and the same container turned around: all but the
places along the main axis is the same. -/
structure Flow.Turned (flow flow' : Flow) : Prop where
  alike : FlowAlike Coupling.exact same.aligned False flow flow'
  container : flow'.container = flow.container.turned
  lines : flow'.lines = flow.lines

/-- **A container that is turned around measures, breaks and flexes its items as before.** -/
theorem Container.flow_turned {resolve : Resolver} [resolve.OrderBlind] {style : Style}
    (blind : resolve style.turned = resolve style) (frame : Frame) (available : Int) {kids : List Kid}
    (tracks : same.Tracks (fun _ kid kid' => kid.Enters Coupling.exact same kid') 0 0 kids kids) :
    Coupling.exact.Holds Flow.Turned (flow resolve style frame kids available)
      (flow resolve style.turned frame kids available) := by
  simp only [flow]
  rw [prepare_turned blind]
  generalize prepare resolve style frame available = container
  have measured := Item.measureAll_coupled Coupling.exact container.akin_turned rfl tracks
    (numbers_same 0 0 _) (fun _ drop => Bool.noConfusion drop)
    fun kid _ _ => container.basisAlike_turned resolve kid.box.style
  refine Coupling.exact.bind (Coupling.exact.ensure measured (Item.measureAll_numbered 0 0 kids)
    (Run.ensures_true _)) ?_
  rintro ⟨items, sized⟩ ⟨items', sized'⟩ ⟨⟨equal, tracks'⟩, ⟨numbered, length⟩, -⟩
  dsimp only at equal tracks' numbered length ⊢
  rw [items_same] at equal
  subst equal
  have arranged := arrange_measured (τ := same.aligned) (Γ := Coupling.exact)
    container.akin_turned.horizontal rfl numbered (by rwa [items_same]) length tracks'
    (weightless_same items') (by rw [items_same]; exact container.lines_turned _)
    fun _ drop => Bool.noConfusion drop
  rw [items_same] at arranged
  refine Coupling.exact.bind (Coupling.exact.ensure arranged
    (Line.placeAll_flexedAs container 0 _ sized)
    (Line.placeAll_flexedAs container.turned 0 _ sized')) ?_
  rintro ⟨lines, laid⟩ ⟨lines', laid'⟩ ⟨flows, flexed, flexed'⟩
  exact Coupling.exact.pure ⟨flows, rfl,
    eq_of_flexedAll flexed flexed' (Line.forall₂_of_lines (fun _ => rfl) flows.lines)⟩

theorem Pairing.forall₂_of_tracks {R : Kid → Kid → Prop} {child child' : Nat} {kids kids' : List Kid}
    (tracks : same.Tracks (fun _ => R) child child' kids kids') : List.Forall₂ R kids kids' := by
  induction tracks with
  | nil => exact .nil
  | keep _ _ related _ ih => exact .cons related ih
  | drop drops _ _ => exact Bool.noConfusion drops

/-- **A container that is turned around ends with the same size, and with its children where
they were across the main axis.** -/
theorem Flow.close_turned (resolve : Resolver) [resolve.OrderBlind] {flow flow' : Flow}
    (turned : flow.Turned flow') :
    Coupling.exact.Holds (fun result result' => result'.frame = result.frame ∧
        List.Forall₂ (Fragment.Agrees (flow.container.axes.horizontal = false)
          (flow.container.axes.horizontal = true)) result.children result'.children)
      (flow.close resolve) (flow'.close resolve) := by
  have aligned := Line.forall₂_of_lines (fun _ => rfl) turned.alike.lines
  have akin : flow.container.Akin flow'.container := turned.container ▸ flow.container.akin_turned
  have crossSize : flow'.crossSize = flow.crossSize := Flow.crossSize_alike aligned akin.crossGap
  have spread : Container.SpreadsAlike same flow flow' := by
    apply Line.lines_of_forall₂
    rw [crossSize]
    exact Line.spreadLines_alike aligned akin.wrap akin.crossGap (by rw [turned.container]; rfl) _
  have ended := Flow.close_coupled_abreast (Γ := Coupling.exact) resolve akin turned.alike spread
    fun _ drop => Bool.noConfusion drop
  refine Coupling.exact.mono ended ?_
  rintro result result' ⟨frame, frame', kids, kids', children, children', tracks⟩
  refine ⟨?_, ?_⟩
  · rw [frame', frame, crossSize, Flow.mainSize_alike aligned, turned.container]
    exact flow.container.finalFrame_turned _ _
  · rw [children, children', List.forall₂_map_left_iff, List.forall₂_map_right_iff]
    apply forall₂_of_tracks
    refine same.aligned.mono tracks fun i kid kid' _ among => ?_
    by_cases inside : i ∈ childrenOf flow.lines
    · have agrees : kid.fragment.Agrees _ _ kid'.fragment := ((among_of_mem inside).1 among).related
      exact ⟨agrees.frame.mono (fun column row => absurd (row.symm.trans column) (by decide))
        fun row column => absurd (row.symm.trans column) (by decide), agrees.children⟩
    · have equal : kid'.fragment = kid.fragment := ((among_of_not_mem inside).1 among).related
      rw [equal]
      exact ⟨.refl _ _ _, rfl⟩

end FlexLayout
