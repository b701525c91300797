/-
# FlexLayout.Proofs.Stages.Rerun -- what a successful run tells of another

A container was laid out.  Another one, with the same rules and children but other space,
is laid out the same, calls included, if the space makes no difference at the three points
that read it: the lines correspond, they stand in the same places, and the final size
is the same (`Container.layOut_rerun`).  At each of them, what the first run came to is known.
-/
import FlexLayout.Proofs.Relayout

namespace FlexLayout

set_option autoImplicit false

open Pairing

namespace Container

variable {resolve : Resolver} {style style' : Style} {frame frame' : Frame} {available : Int}
  {kids : List Kid} {log mid after : CallLog} {container other : Container}

/-- What a successful flow consists of: the items were measured, and placed from the
lines that they were broken into. -/
theorem flow_ok (here : prepare resolve style frame available = container) {flow : Flow}
    (placed : (Container.flow resolve style frame kids available).outcome log = (.ok flow, mid)) :
    flow.container = container ∧ ∃ items sized start,
      (Item.measureAll resolve container 0 0 kids).outcome log = (.ok (items, sized), start) ∧
      (container.arrange 0 (Item.sortByOrder items) sized).outcome start =
        (.ok (flow.lines, flow.kids), mid) ∧
      List.Forall₂ Line.PlacedFrom (Line.breakAll container.breaking (Item.sortByOrder items))
        flow.lines := by
  subst here
  obtain ⟨⟨items, sized⟩, start, measured, rest⟩ := Run.outcome_bind_eq_ok placed
  obtain ⟨⟨lines, laid⟩, stop, arranged, returned⟩ := Run.outcome_bind_eq_ok rest
  rw [Run.outcome_pure, Prod.mk.injEq, Except.ok.injEq] at returned
  obtain ⟨rfl, rfl⟩ := returned
  obtain ⟨numbered, length⟩ := Item.measureAll_numbered 0 0 kids _ _ _ measured
  refine ⟨rfl, items, sized, start, measured, arranged, ?_⟩
  refine (Line.placeAll_ensures _ 0 ?_ _ _ _ arranged).1
  rw [Line.items_flatMap_breakAll]
  exact fun item member => ((sorted_facts numbered).2 item member).2.of_length length

variable [resolve.OrderBlind] {a : Prop}

/-- **Items of another container are measured and placed alike**, if their lines
correspond. -/
theorem flow_rerun (here : prepare resolve style frame available = container)
    (there : prepare resolve style' frame' available = other) (akin : container.Akin other)
    (tracks : same.Tracks (fun _ kid kid' => kid.Enters Coupling.exact same kid') 0 0 kids kids)
    (basis : ∀ kid ∈ kids, kid.box.participates = true →
      Item.BasisAlike resolve container other kid.box.style) {flow : Flow}
    (placed : (Container.flow resolve style frame kids available).outcome log = (.ok flow, mid))
    (lines : ∀ items sized start,
      (Item.measureAll resolve container 0 0 kids).outcome log = (.ok (items, sized), start) →
      (container.arrange 0 (Item.sortByOrder items) sized).outcome start =
        (.ok (flow.lines, flow.kids), mid) →
      List.Forall₂ Line.PlacedFrom (Line.breakAll container.breaking (Item.sortByOrder items))
        flow.lines →
      Line.Lines (Line.PlacedAlike same a container other)
        (Line.breakAll container.breaking (Item.sortByOrder items))
        (Line.breakAll other.breaking (Item.sortByOrder items))) :
    ∃ flow', (Container.flow resolve style' frame' kids available).outcome log = (.ok flow', mid) ∧
      flow'.container = other ∧ FlowAlike Coupling.exact same.aligned a flow flow' := by
  obtain ⟨at_, items, sized, start, measured, arranged, kept⟩ := flow_ok here placed
  have corresponding := lines items sized start measured arranged kept
  simp only [Container.flow]
  rw [there]
  obtain ⟨_, lines, laid⟩ := flow
  subst at_
  -- The children are measured alike.
  have coupled := Item.measureAll_coupled Coupling.exact akin (p := same) rfl tracks
    (numbers_same 0 0 _) (fun _ drop => Bool.noConfusion drop) basis
  obtain ⟨⟨items', sized'⟩, measured', ⟨equal, tracks'⟩, ⟨numbered, length⟩, -⟩ :=
    Coupling.exists_of_exact (Coupling.exact.ensure coupled (Item.measureAll_numbered 0 0 kids)
      (Run.ensures_true _)) measured
  rw [items_same] at equal
  dsimp only at equal tracks' numbered length arranged
  obtain rfl := equal.symm
  -- So are the lines placed that the items are broken into.
  have same_items : same.items items = items := items_same items
  have arranged' := arrange_measured (τ := same.aligned) (Γ := Coupling.exact) akin.horizontal rfl
    numbered (same_items.symm ▸ numbered) length tracks' (weightless_same items)
    (by rw [items_same]; exact corresponding) fun _ drop => Bool.noConfusion drop
  obtain ⟨⟨lines', laid'⟩, placed', flows⟩ := Coupling.exists_of_exact arranged' arranged
  rw [same_items] at placed'
  refine ⟨⟨other, lines', laid'⟩, ?_, rfl, flows⟩
  rw [Run.outcome_bind, measured']
  dsimp only
  rw [Run.outcome_bind, placed']
  rfl

/-- **A container in which other space makes no difference is laid out the same.** -/
theorem layOut_rerun (here : prepare resolve style frame available = container)
    (there : prepare resolve style' frame' available = other) (alike : container.Alike other)
    (tracks : same.Tracks (fun _ kid kid' => kid.Enters Coupling.exact same kid') 0 0 kids kids)
    (basis : ∀ kid ∈ kids, kid.box.participates = true →
      Item.BasisAlike resolve container other kid.box.style) {result : Fragment}
    (done : (layOut resolve style frame kids available).outcome log = (.ok result, after))
    (lines : ∀ (flow : Flow) items sized start,
      result.frame = container.finalFrame flow.mainSize flow.crossSize →
      (Item.measureAll resolve container 0 0 kids).outcome log = (.ok (items, sized), start) →
      List.Forall₂ Line.PlacedFrom (Line.breakAll container.breaking (Item.sortByOrder items))
        flow.lines →
      Line.Lines (Line.PlacedAlike same True container other)
        (Line.breakAll container.breaking (Item.sortByOrder items))
        (Line.breakAll other.breaking (Item.sortByOrder items)))
    (spread : ∀ (flow flow' : Flow) mid,
      (Container.flow resolve style frame kids available).outcome log = (.ok flow, mid) →
      flow.container = container → flow'.container = other →
      result.frame = container.finalFrame flow.mainSize flow.crossSize →
      List.Forall₂ (Line.AlignedAlike same) flow.lines flow'.lines → SpreadsAlike same flow flow')
    (final : ∀ mainSize crossSize, result.frame = container.finalFrame mainSize crossSize →
      other.finalFrame mainSize crossSize = result.frame) :
    (layOut resolve style' frame' kids available).outcome log = (.ok result, after) := by
  obtain ⟨flow, mid, placed, closed⟩ := Run.outcome_bind_eq_ok done
  obtain ⟨at_, -⟩ := flow_ok here placed
  have ends := flow.close_frame resolve _ _ _ closed
  rw [at_] at ends
  obtain ⟨flow', placed', at', flows⟩ := flow_rerun here there alike.toAkin tracks basis placed
    fun items sized start measured _ => lines flow items sized start ends measured
  -- Lines that are placed alike end up in the same places.
  have aligned := Line.forall₂_of_lines (fun _ => rfl) flows.lines
  have same_frame : flow'.container.finalFrame flow'.mainSize flow'.crossSize =
      flow.container.finalFrame flow.mainSize flow.crossSize := by
    rw [Flow.mainSize_alike aligned,
      Flow.crossSize_alike aligned (by rw [at_, at']; exact alike.crossGap), at', at_,
      final _ _ ends, ends]
  have ended := Flow.close_coupled (Γ := Coupling.exact) resolve (by rw [at_, at']; exact alike.toAkin) flows
    (spread flow flow' mid placed at_ at' ends aligned) (fun _ drop => Bool.noConfusion drop)
    (Frame.Agrees.of_eq True True same_frame)
  obtain ⟨result', closed', agrees, children⟩ := Coupling.exists_of_exact ended closed
  rw [kept_same] at children
  have equal : result' = result := Fragment.Agrees.eq ⟨agrees, children⟩
  rw [layOut, Run.outcome_bind, placed', ← equal]
  exact closed'

end Container

end FlexLayout
