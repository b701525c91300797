/-
# FlexLayout.Proofs.Removal -- children out of flow and the layout of the others

Children out of flow stay among the items of a container: they are sorted, put on
lines and counted there.  They have no influence on the layout of the children in flow
(`Box.layOutFlex_inFlow`), with one exception.  Items out of flow that come first, before
an item that does not fit the container, keep a line to themselves.  Such a line has no
size, but there is a gap after it, and it gets its share of free cross space
(`Flow.Snug` says when that is nothing, `Box.layOutFlex_outOfFlow_first` what happens
when it is not).
-/
import FlexLayout.Proofs.Relayout

namespace FlexLayout

set_option autoImplicit false

/-! ## The children in flow -/

namespace Box

def inFlow (box : Box) : Bool := !box.outOfFlow

def withoutOutOfFlow (box : Box) : Box := { box with children := box.children.filter Box.inFlow }

end Box

def inFlowOf {α : Type} (boxes : List Box) (list : List α) : List α :=
  ((boxes.zip list).filter fun entry => entry.1.inFlow).map Prod.snd

theorem inFlowOf_nil {α : Type} (boxes : List Box) : inFlowOf boxes ([] : List α) = [] := by
  simp only [inFlowOf]
  rw [List.zip_nil_right]
  rfl

theorem inFlowOf_cons {α : Type} (box : Box) (boxes : List Box) (a : α) (list : List α) :
    inFlowOf (box :: boxes) (a :: list) =
      if box.inFlow then a :: inFlowOf boxes list else inFlowOf boxes list := by
  simp only [inFlowOf]
  rw [List.zip_cons_cons, List.filter_cons]
  split <;> rfl

namespace Pairing

def inFlow (boxes : List Box) : Pairing where
  keep i := (boxes[i]?).any Box.inFlow
  child i := (boxes.take i).countP Box.inFlow
  index i _ := (boxes.take i).countP fun box => box.inFlow && box.participates
  line number := number

section

variable (before : List Box) (box : Box) (boxes : List Box)

theorem keep_inFlow : (inFlow (before ++ box :: boxes)).keep before.length = box.inFlow := by
  simp [inFlow]

theorem child_inFlow :
    (inFlow (before ++ boxes)).child before.length = before.countP Box.inFlow := by
  simp [inFlow]

theorem index_inFlow (number : Nat) :
    (inFlow (before ++ boxes)).index before.length number =
      before.countP fun box => box.inFlow && box.participates := by
  simp [inFlow]

end

/-- Items are numbered one after the other without the children out of flow, too. -/
theorem numbers_inFlow (before boxes : List Box) (index : Nat) :
    (inFlow (before ++ boxes)).Numbers before.length index
      (before.countP fun box => box.inFlow && box.participates) boxes := by
  induction boxes generalizing before index with
  | nil => trivial
  | cons box rest ih =>
      refine ⟨fun _ _ => index_inFlow before (box :: rest) index, ?_⟩
      have later := ih (before ++ [box]) (index + box.participates.toNat)
      rw [List.append_assoc, List.singleton_append, List.length_append, List.length_singleton,
        List.countP_append, List.countP_singleton] at later
      rw [keep_inFlow]
      cases both : box.inFlow && box.participates <;> simpa [both] using later

theorem tracks_inFlow {Γ : Coupling} {env : Environment} [env.resolve.OrderBlind]
    (keeps : Γ.Keeps env) (before boxes : List Box) (fragments : List Fragment) :
    (inFlow (before ++ boxes)).Tracks
      (fun _ kid kid' => kid.Enters Γ (inFlow (before ++ boxes)) kid') before.length
      (before.countP Box.inFlow) (Kid.ofBoxes env boxes fragments)
      (Kid.ofBoxes env (boxes.filter Box.inFlow) (inFlowOf boxes fragments)) := by
  induction boxes generalizing before fragments with
  | nil =>
      rw [List.filter_nil, Kid.ofBoxes, Kid.ofBoxes]
      exact .nil _ _
  | cons box rest ih =>
      have later := ih (before ++ [box])
      rw [List.append_assoc, List.singleton_append, List.length_append, List.length_singleton,
        List.countP_append, List.countP_singleton] at later
      have keep := keep_inFlow before box rest
      have entry (fragment : Fragment) : Kid.Enters Γ (inFlow (before ++ box :: rest))
          ⟨box, fragment, box.layOut env⟩ ⟨box, fragment, box.layOut env⟩ :=
        .of_routine (box.routine keeps) (Item.entry_refl box fragment) rfl
      cases flow : box.inFlow with
      | true =>
          rw [flow] at keep later
          rw [List.filter_cons, if_pos flow]
          cases fragments with
          | nil =>
              have rests := later []
              rw [inFlowOf_nil] at rests ⊢
              exact .keep keep (child_inFlow before (box :: rest)) (entry {}) rests
          | cons fragment fragments =>
              rw [inFlowOf_cons, if_pos flow]
              exact .keep keep (child_inFlow before (box :: rest)) (entry fragment)
                (later fragments)
      | false =>
          rw [flow] at keep later
          rw [List.filter_cons, if_neg (by simp [flow])]
          cases fragments with
          | nil =>
              have rests := later []
              rw [inFlowOf_nil] at rests ⊢
              exact .drop keep rests
          | cons fragment fragments =>
              rw [inFlowOf_cons, if_neg (by simp [flow])]
              exact .drop keep (later fragments)

theorem kept_eq_nil {α : Type} {p : Pairing} {child : Nat} (none : ∀ i, child ≤ i → p.keep i = false)
    (list : List α) : p.kept child list = [] := by
  induction list generalizing child with
  | nil => rfl
  | cons a rest ih =>
      rw [kept, none child (Nat.le_refl _), if_neg Bool.false_ne_true]
      exact ih fun i later => none i (Nat.le_of_succ_le later)

theorem kept_inFlow {α : Type} (before boxes : List Box) (list : List α) :
    (inFlow (before ++ boxes)).kept before.length list = inFlowOf boxes list := by
  induction list generalizing before boxes with
  | nil => rw [inFlowOf_nil, kept]
  | cons a list ih =>
      cases boxes with
      | nil =>
          refine kept_eq_nil (fun i later => ?_) (a :: list)
          show ((before ++ [])[i]?).any Box.inFlow = false
          rw [List.append_nil, List.getElem?_eq_none later]
          rfl
      | cons box rest =>
          have later := ih (before ++ [box]) rest
          rw [List.append_assoc, List.singleton_append, List.length_append,
            List.length_singleton] at later
          rw [kept, keep_inFlow, later, inFlowOf_cons]

end Pairing

/-! ## Lines without items in flow -/

open Pairing

variable {p : Pairing} {Γ : Coupling} {lines lines' : List FilledLine} {flow flow' : Flow}

namespace Line

/-- Two lines to be aligned alike; one without counterparts has no size. -/
structure FlatAlike (p : Pairing) (filled filled' : FilledLine) : Prop extends
    AlignedAlike p filled filled' where
  inFlow_idle : filled'.items = [] → filled.line.inFlow = 0
  main_idle : filled'.items = [] → filled.line.main = 0
  cross_idle : filled'.items = [] → filled.line.cross = 0

theorem flatAlike {filled filled' : FilledLine} (alike : AlignedAlike p filled filled')
    (sound : Sound filled) (weightless : p.Weightless filled.items) :
    FlatAlike p filled filled' := by
  have none (idle : filled'.items = []) : filled.line.inFlow = 0 := by
    refine sound.inFlow_eq_zero.2 fun item member => weightless item member ?_
    have items := alike.items
    rw [idle] at items
    have dropped := List.forall₂_nil_right_iff.1 items
    exact Bool.eq_false_of_not_eq_true (List.filter_eq_nil_iff.1 dropped item member)
  exact ⟨alike, none, fun idle => sound.main (none idle), fun idle => sound.cross (none idle)⟩

theorem lines_flat (flows : FlowAlike Γ p.aligned True flow flow') :
    Lines (FlatAlike p) flow.lines flow'.lines :=
  flows.lines.mono fun filled member _ alike =>
    flatAlike alike (flows.sound filled member) (flows.weightless filled member)

theorem forall₂_of_inFlow (flat : Lines (FlatAlike p) lines lines')
    (some : ∀ filled ∈ lines, filled.line.inFlow ≠ 0) :
    List.Forall₂ (AlignedAlike p) lines lines' := by
  induction flat with
  | nil => exact .nil
  | cons related _ ih =>
      exact .cons related.toAlignedAlike (ih (List.forall_mem_cons.1 some).2)
  | skip _ idle _ _ => exact absurd (idle.inFlow_idle rfl) (some _ List.mem_cons_self)

theorem crossExtent_of_flat (flat : Lines (FlatAlike p) lines lines') :
    crossExtent lines' = crossExtent lines := by
  simp only [crossExtent]
  induction flat with
  | nil => rfl
  | cons related _ ih =>
      rw [List.map_cons, List.map_cons, List.sum_cons, List.sum_cons, related.cross, ih]
  | skip _ idle _ ih =>
      rw [List.map_cons, List.sum_cons, idle.cross_idle rfl, Int.zero_add, ih]

theorem mainExtent_of_flat (flat : Lines (FlatAlike p) lines lines') :
    mainExtent lines' = mainExtent lines := by
  have from_ (start : Int) (nonneg : 0 ≤ start) :
      lines'.foldl (fun size filled => max size filled.line.main) start =
        lines.foldl (fun size filled => max size filled.line.main) start := by
    induction flat generalizing start with
    | nil => rfl
    | cons related _ ih =>
        rw [List.foldl_cons, List.foldl_cons, related.main]
        exact ih _ (Int.le_trans nonneg (Int.le_max_left _ _))
    | skip _ idle _ ih =>
        rw [List.foldl_cons, idle.main_idle rfl, Int.max_eq_left nonneg]
        exact ih _ nonneg
  exact from_ 0 (Int.le_refl 0)

theorem length_of_flat (flat : Lines (FlatAlike p) lines lines') :
    lines'.length ≤ lines.length := by
  induction flat with
  | nil => exact Nat.le_refl _
  | cons _ _ ih => exact Nat.succ_le_succ ih
  | skip _ _ _ ih => exact Nat.le_succ_of_le ih

/-- With nothing between lines, one without size does not move the others. -/
theorem stackLines_of_flat (reversed : Bool) (pos : Int)
    (flat : Lines (FlatAlike p) lines lines') :
    Lines (Container.SpreadAlike p) (stackLines reversed 0 0 pos 0 lines)
      (stackLines reversed 0 0 pos 0 lines') := by
  induction flat generalizing pos with
  | nil => exact .nil
  | cons related _ ih =>
      rw [stackLines, stackLines, related.cross]
      exact .cons ⟨rfl, rfl, related.items⟩ (ih _)
  | skip some idle _ ih =>
      rw [stackLines, idle.cross_idle rfl]
      refine .skip some ⟨rfl, rfl, idle.items⟩ ?_
      have stays := ih pos
      cases reversed <;> simpa [Pixel.bonus] using stays

end Line

namespace Flow

def freeCross (flow : Flow) : Int :=
  match flow.container.crossSpace with
  | none => 0
  | some available => max 0 (available - flow.crossSize)

/-- A line without items in flow takes no room: there is none, or no other line, or
there is no gap between lines and no free space to share. -/
def Snug (flow : Flow) : Prop :=
  (∀ filled ∈ flow.lines, filled.line.inFlow ≠ 0) ∨ flow.lines.length ≤ 1 ∨
    (flow.container.crossGap = 0 ∧ flow.freeCross = 0)

instance (flow : Flow) : Decidable flow.Snug :=
  inferInstanceAs (Decidable (_ ∨ _ ∨ (_ ∧ _)))

theorem spreadLines_eq (flow : Flow) (lines : List FilledLine) :
    Line.spreadLines flow.container flow.crossSize lines =
      Line.stackLines (flow.container.style.wrap == .wrapReverse) flow.container.crossGap
        (flow.freeCross.tdiv (max 1 (lines.length : Int)))
        (if flow.container.style.wrap == .wrapReverse then
          flow.container.crossSpace.getD flow.crossSize else 0)
        (flow.freeCross.tmod (max 1 (lines.length : Int))) lines := rfl

theorem crossSize_of_snug (flat : Line.Lines (Line.FlatAlike p) flow.lines flow'.lines)
    (same : flow'.container = flow.container) (snug : flow.Snug) :
    flow'.crossSize = flow.crossSize := by
  have gaps : Pixel.gapsBetween flow'.lines.length flow.container.crossGap =
      Pixel.gapsBetween flow.lines.length flow.container.crossGap := by
    rcases snug with some | few | ⟨none, -⟩
    · rw [(Line.forall₂_of_inFlow flat some).length_eq]
    · have few' := Nat.le_trans (Line.length_of_flat flat) few
      simp only [Pixel.gapsBetween]
      rw [if_neg (Nat.not_lt.2 few), if_neg (Nat.not_lt.2 few')]
    · simp only [Pixel.gapsBetween]
      rw [none, Int.mul_zero, Int.mul_zero, ite_self, ite_self]
  simp only [crossSize]
  rw [Line.crossExtent_of_flat flat, same, gaps]

/-- **Lines that take no room leave the others where they are.** -/
theorem spreads_of_snug (flat : Line.Lines (Line.FlatAlike p) flow.lines flow'.lines)
    (same : flow'.container = flow.container) (snug : flow.Snug) :
    Container.SpreadsAlike p flow flow' := by
  simp only [Container.SpreadsAlike]
  rw [crossSize_of_snug flat same snug, same]
  rcases snug with some | few | ⟨gap, free⟩
  · have all := Line.forall₂_of_inFlow flat some
    exact Line.lines_of_forall₂ (Line.spreadLines_alike all rfl rfl rfl flow.crossSize)
  · generalize flow.lines = lines at flat few ⊢
    generalize flow'.lines = lines' at flat ⊢
    cases flat with
    | nil => exact .nil
    | @cons filled filled' rest rest' related later =>
        have none : rest = [] := List.length_eq_zero_iff.1 (by simpa using few)
        subst none
        cases later
        exact Line.lines_of_forall₂ (Line.spreadLines_alike (.cons related.toAlignedAlike .nil)
          rfl rfl rfl flow.crossSize)
    | @skip filled rest rest' some idle later =>
        have none : rest = [] := List.length_eq_zero_iff.1 (by simpa using few)
        subst none
        cases later
        exact .skip some ⟨rfl, rfl, idle.items⟩ .nil
  · rw [spreadLines_eq, spreadLines_eq, free, gap, Int.zero_tdiv, Int.zero_tdiv, Int.zero_tmod,
      Int.zero_tmod]
    exact Line.stackLines_of_flat _ _ flat

end Flow

/-! ## Layout without the children out of flow -/

namespace Host

variable {host : Host}

theorem onSuccess_keeps (leaf : host.conduct = .leaf) : Coupling.onSuccess.Keeps host.environment := by
  apply Coupling.keeps_of_below rfl
  intro px py kind available frame other kids agrees _
  refine Coupling.onSuccess_of_ensures
    (Run.ensures_mapFailure (layOutContents_of_leaf leaf kind available frame kids))
    (Run.ensures_mapFailure (layOutContents_of_leaf leaf kind available other kids)) ?_
  rintro a b rfl rfl
  simp only [Frame.filled]
  rw [agrees.height, agrees.width]
  exact ⟨agrees.resized _ _, rfl⟩

end Host

namespace Container

theorem entryAlike_inFlow {env : Environment} [env.resolve.OrderBlind]
    (keeps : Coupling.onSuccess.Keeps env) (resolve : Resolver) [resolve.OrderBlind]
    (container : Container) (boxes : List Box) (fragments : List Fragment) :
    EntryAlike Coupling.onSuccess (inFlow boxes) resolve container container
      (Kid.ofBoxes env boxes fragments)
      (Kid.ofBoxes env (boxes.filter Box.inFlow) (inFlowOf boxes fragments)) where
  akin := container.alike_refl.toAkin
  tracks := tracks_inFlow keeps [] boxes fragments
  numbers := by
    rw [Kid.map_box_ofBoxes]
    exact numbers_inFlow [] boxes 0
  line := rfl
  order := rfl
  basis _ _ _ _ := rfl
  out i kid found drop := by
    have there : boxes[i]? = some kid.box := by
      rw [← Kid.map_box_ofBoxes env boxes fragments, List.getElem?_map, found]
      rfl
    simpa [inFlow, there, Box.inFlow] using drop
  lines _ weightless := Line.lines_breakAll container.alike_refl rfl _ weightless
  dropped _ _ := trivial

end Container

namespace Box

/-- **Children out of flow have no influence on the layout of the others.**  When a
container of leaves is laid out with and without its children out of flow, it gets the
same geometry, and so does every other child with all that is below it -- as long as a
line without items in flow takes no room. -/
theorem layOutFlex_inFlow {host : Host} (leaf : host.conduct = .leaf) (box : Box) (frame : Frame)
    (fragments : List Fragment) (available : Int) {log log' after after' : CallLog}
    {result result' : Fragment}
    (snug : Run.Succeeds Flow.Snug (Container.flow host.resolve box.style frame
      (Kid.ofBoxes host.environment box.children fragments) available) log)
    (whole : (box.layOutFlex host.environment ⟨frame, fragments⟩ available).outcome log =
      (.ok result, after))
    (part : (box.withoutOutOfFlow.layOutFlex host.environment
      ⟨frame, inFlowOf box.children fragments⟩ available).outcome log' = (.ok result', after')) :
    result'.frame = result.frame ∧ result'.children = inFlowOf box.children result.children := by
  obtain ⟨flow, mid, placed, closed⟩ := Run.outcome_bind_eq_ok whole
  obtain ⟨flow', mid', placed', closed'⟩ := Run.outcome_bind_eq_ok part
  have entry := Container.entryAlike_inFlow (host.onSuccess_keeps leaf) host.resolve
    (Container.prepare host.resolve box.style frame available) box.children fragments
  obtain ⟨flows, begun, begun'⟩ :=
    Container.flow_coupled entry log log' mid mid' flow flow' placed placed'
  have same : flow'.container = flow.container := begun'.trans begun.symm
  have room : flow.Snug := by
    obtain ⟨other, later, first, room⟩ := snug
    have equal := first.symm.trans placed
    rw [Prod.mk.injEq, Except.ok.injEq] at equal
    rwa [← equal.1]
  have flat := Line.lines_flat flows
  have final : (flow.container.finalFrame flow.mainSize flow.crossSize).Agrees True True
      (flow'.container.finalFrame flow'.mainSize flow'.crossSize) := by
    rw [same, Flow.crossSize_of_snug flat same room,
      show flow'.mainSize = flow.mainSize from Line.mainExtent_of_flat flat]
    exact Frame.Agrees.refl _ _ _
  obtain ⟨frames, children⟩ := Flow.close_coupled host.resolve (same ▸ flow.container.alike_refl.toAkin) flows
    (Flow.spreads_of_snug flat same room) entry.dropped final mid mid' after after' result result'
    closed closed'
  exact ⟨frames.eq, children.trans (kept_inFlow [] box.children result.children)⟩

/-- A container as wide as its two items, with one out of flow between them. -/
theorem layOutFlex_inFlow_between :
    let box : Box :=
      { kind := .flex
        style := { width := some (.px 60) }
        children :=
          [{ style := { width := some (.px 20), height := some (.px 5) } },
            { style := { position := .absolute, width := some (.px 90) } },
            { style := { width := some (.px 40), height := some (.px 7) } }] }
    ∃ result result' after after',
      (box.layOutFlex ({} : Host).environment {} 100).outcome #[] = (.ok result, after) ∧
      (box.withoutOutOfFlow.layOutFlex ({} : Host).environment {} 100).outcome #[] =
        (.ok result', after') ∧
      result'.frame = result.frame ∧ result'.children = inFlowOf box.children result.children := by
  intro box
  have snug : Run.Succeeds Flow.Snug (Container.flow ({} : Host).resolve box.style {}
      (Kid.ofBoxes ({} : Host).environment box.children []) 100) #[] := by
    rw [Container.flow_eq_insertionSort]
    decide +kernel
  have whole : Run.Succeeds (fun _ => True) (box.layOutFlex ({} : Host).environment {} 100) #[] := by
    simp only [layOutFlex, Container.layOut]
    rw [Container.flow_eq_insertionSort]
    decide +kernel
  have part : Run.Succeeds (fun _ => True)
      (box.withoutOutOfFlow.layOutFlex ({} : Host).environment {} 100) #[] := by
    simp only [layOutFlex, Container.layOut]
    rw [Container.flow_eq_insertionSort]
    decide +kernel
  obtain ⟨result, after, done, -⟩ := whole
  obtain ⟨result', after', done', -⟩ := part
  exact ⟨result, result', after, after', done, done',
    layOutFlex_inFlow rfl box {} [] 100 snug done done'⟩

/-- A child out of flow that comes first keeps a line for itself when the next one does
not fit: the gap after that line moves the other child down, and the container gets
higher. -/
theorem layOutFlex_outOfFlow_first :
    let box : Box :=
      { kind := .flex
        style := { width := some (.px 100), wrap := .wrap, rowGap := some (.px 10) }
        children :=
          [{ style := { position := .absolute } },
            { style :=
                { width := some (.px 150), height := some (.px 20), minWidth := some (.px 150)
                  shrink := 0 } }] }
    Run.Succeeds (fun result => result.frame.height = some 30 ∧
        result.children.map (fun child => child.frame.y) = [0, 10])
      (box.layOutFlex ({} : Host).environment {} 100) #[] ∧
    Run.Succeeds (fun result => result.frame.height = some 20 ∧
        result.children.map (fun child => child.frame.y) = [0])
      (box.withoutOutOfFlow.layOutFlex ({} : Host).environment {} 100) #[] := by
  intro box
  simp only [layOutFlex, Container.layOut]
  rw [Container.flow_eq_insertionSort, Container.flow_eq_insertionSort]
  constructor <;> decide +kernel

end Box

end FlexLayout
