/-
# FlexLayout.Proofs.Stages.Close -- lines that keep their sizes keep their places

Where lines stand across the main axis depends on their cross sizes and on the space
that is shared between them.  Two containers that agree on that, line by line, stack
their lines alike (`spreadLines_alike`).
-/
import FlexLayout.Proofs.Stages.Flow

namespace FlexLayout

set_option autoImplicit false

open Pairing

variable {p : Pairing} {container other : Container} {lines lines' : List FilledLine}

namespace Line

/-- Where every child has a counterpart, every line has one. -/
theorem forall₂_of_lines (all : ∀ i, p.keep i = true)
    (lines_alike : Lines (AlignedAlike p) lines lines') :
    List.Forall₂ (AlignedAlike p) lines lines' := by
  induction lines_alike with
  | nil => exact .nil
  | cons related _ ih => exact .cons related ih
  | @skip filled lines lines' some idle _ _ =>
      have none := List.forall₂_nil_right_iff.1 idle.items
      rw [List.filter_eq_self.2 fun item _ => all item.child] at none
      exact absurd none some

theorem lines_of_forall₂ {R : FilledLine → FilledLine → Prop} (alike : List.Forall₂ R lines lines') :
    Lines R lines lines' := by
  induction alike with
  | nil => exact .nil
  | cons related _ ih => exact .cons related ih

theorem crossExtent_alike (alike : List.Forall₂ (AlignedAlike p) lines lines') :
    crossExtent lines' = crossExtent lines := by
  simp only [crossExtent]
  induction alike with
  | nil => rfl
  | cons related _ ih => rw [List.map_cons, List.map_cons, List.sum_cons, List.sum_cons,
      related.cross, ih]

theorem mainExtent_congr {R : FilledLine → FilledLine → Prop} (alike : List.Forall₂ R lines lines')
    (main : ∀ filled filled', R filled filled' → filled'.line.main = filled.line.main) :
    mainExtent lines' = mainExtent lines := by
  simp only [mainExtent]
  generalize (0 : Int) = start
  induction alike generalizing start with
  | nil => rfl
  | cons related _ ih => rw [List.foldl_cons, List.foldl_cons, main _ _ related, ih]

theorem mainExtent_nonneg (lines : List FilledLine) : 0 ≤ mainExtent lines :=
  (le_foldl_max (fun filled : FilledLine => filled.line.main) lines 0).1

theorem le_mainExtent {lines : List FilledLine} {filled : FilledLine} (member : filled ∈ lines) :
    filled.line.main ≤ mainExtent lines :=
  (le_foldl_max (fun filled : FilledLine => filled.line.main) lines 0).2 filled member

theorem stackLines_alike (reversed : Bool) (gap share pos remainder : Int)
    (alike : List.Forall₂ (AlignedAlike p) lines lines') :
    List.Forall₂ (Container.SpreadAlike p) (stackLines reversed gap share pos remainder lines)
      (stackLines reversed gap share pos remainder lines') := by
  induction alike generalizing pos remainder with
  | nil => exact .nil
  | cons related _ ih =>
      rw [stackLines, stackLines, related.cross]
      exact .cons ⟨rfl, rfl, related.items⟩ (ih _ _)

/-- The cross space that the lines leave free: none without a definite cross space. -/
theorem spreadLines_eq (container : Container) (crossSize : Int) (lines : List FilledLine) :
    spreadLines container crossSize lines =
      let free := max 0 (container.crossSpace.getD crossSize - crossSize)
      let count := max 1 (lines.length : Int)
      stackLines (container.style.wrap == .wrapReverse) container.crossGap (free.tdiv count)
        (if container.style.wrap == .wrapReverse then container.crossSpace.getD crossSize else 0)
        (free.tmod count) lines := by
  simp only [spreadLines]
  cases container.crossSpace with
  | none => simp
  | some space => rfl

/-- **Lines of the same cross sizes, with the same space to share, stand in the same
places**, if they start from the same edge. -/
theorem spreadLines_alike_of_free (alike : List.Forall₂ (AlignedAlike p) lines lines')
    (wrap : other.style.wrap = container.style.wrap) (gap : other.crossGap = container.crossGap)
    {crossSize : Int}
    (free : max 0 (other.crossSpace.getD crossSize - crossSize) =
      max 0 (container.crossSpace.getD crossSize - crossSize))
    (start : container.style.wrap = .wrapReverse →
      other.crossSpace.getD crossSize = container.crossSpace.getD crossSize) :
    List.Forall₂ (Container.SpreadAlike p) (spreadLines container crossSize lines)
      (spreadLines other crossSize lines') := by
  have edge : (if container.style.wrap == .wrapReverse then other.crossSpace.getD crossSize else 0) =
      if container.style.wrap == .wrapReverse then container.crossSpace.getD crossSize else 0 := by
    split
    next reversed => exact start (by simpa using reversed)
    next => rfl
  rw [spreadLines_eq, spreadLines_eq, wrap, gap, free, edge, ← alike.length_eq]
  exact stackLines_alike _ _ _ _ _ alike

/-- Lines of the same cross sizes, in the same cross space. -/
theorem spreadLines_alike (alike : List.Forall₂ (AlignedAlike p) lines lines')
    (wrap : other.style.wrap = container.style.wrap) (gap : other.crossGap = container.crossGap)
    (space : other.crossSpace = container.crossSpace) (crossSize : Int) :
    List.Forall₂ (Container.SpreadAlike p) (spreadLines container crossSize lines)
      (spreadLines other crossSize lines') :=
  spreadLines_alike_of_free alike wrap gap (by rw [space]) fun _ => by rw [space]

end Line

namespace Flow

variable {flow flow' : Flow}

theorem mainSize_alike (alike : List.Forall₂ (Line.AlignedAlike p) flow.lines flow'.lines) :
    flow'.mainSize = flow.mainSize :=
  Line.mainExtent_congr alike fun _ _ related => related.main

theorem crossSize_alike (alike : List.Forall₂ (Line.AlignedAlike p) flow.lines flow'.lines)
    (gap : flow'.container.crossGap = flow.container.crossGap) :
    flow'.crossSize = flow.crossSize := by
  simp only [crossSize]
  rw [Line.crossExtent_alike alike, ← alike.length_eq, gap]

theorem close_frame (resolve : Resolver) (flow : Flow) :
    Run.Ensures (fun result => result.frame = flow.container.finalFrame flow.mainSize flow.crossSize)
      (flow.close resolve) :=
  Run.ensures_bind (Run.ensures_true _) fun _ _ => Run.ensures_pure rfl

end Flow

theorem Container.layOut_frame (resolve : Resolver) (style : Style) (frame : Frame)
    (kids : List Kid) (available : Int) :
    Run.Ensures (fun result => ∃ mainSize crossSize,
        result.frame = (prepare resolve style frame available).finalFrame mainSize crossSize)
      (layOut resolve style frame kids available) := by
  have begun : Run.Ensures (fun flow => flow.container = prepare resolve style frame available)
      (flow resolve style frame kids available) :=
    Run.ensures_bind (Run.ensures_true _) fun _ _ =>
      Run.ensures_bind (Run.ensures_true _) fun _ _ => Run.ensures_pure rfl
  refine Run.ensures_bind begun fun flow same => (flow.close_frame resolve).mono fun result ends => ?_
  exact ⟨_, _, same ▸ ends⟩

theorem Container.length_alignAll (resolve : Resolver) (container : Container)
    (entries : List (Line × Item)) (kids : List Kid) :
    Run.Ensures (fun after => after.length = kids.length) (alignAll resolve container entries kids) := by
  induction entries generalizing kids with
  | nil => exact Run.ensures_pure rfl
  | cons entry rest ih =>
      rw [alignAll]
      split
      · exact ih kids
      · refine Run.ensures_bind (Run.ensures_true _) fun kid _ => (ih _).mono fun after length => ?_
        rw [length, List.length_set]

theorem Container.layOut_length (resolve : Resolver) (style : Style) (frame : Frame)
    (kids : List Kid) (available : Int) :
    Run.Ensures (fun result => result.children.length = kids.length)
      (layOut resolve style frame kids available) := by
  simp only [layOut, flow, Flow.close, bind_assoc]
  refine Run.ensures_bind (Item.measureAll_numbered 0 0 kids) ?_
  rintro ⟨items, sized⟩ ⟨numbered, measured⟩
  have seated : ∀ item ∈ (Line.breakAll (prepare resolve style frame available).breaking
      (Item.sortByOrder items)).flatMap FilledLine.items, item.Seated sized := by
    rw [Line.items_flatMap_breakAll]
    exact fun item member => ((sorted_facts numbered).2 item member).2.of_length measured
  refine Run.ensures_bind (Line.placeAll_ensures _ 0 seated) ?_
  rintro ⟨lines, laid⟩ ⟨-, placed⟩
  rw [pure_bind]
  refine Run.ensures_bind (length_alignAll resolve _ _ laid) fun after aligned => ?_
  refine Run.ensures_pure ?_
  rw [List.length_map, aligned, placed, measured]

end FlexLayout
