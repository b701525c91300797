/-
# FlexLayout.Proofs.Idempotence.Renewed -- geometry that a host makes anew

A host that stacks the children of a box lays each of them out again, whatever geometry
it had.  So below such a box more may differ than below one that is handed over and
left as it is (`Box.Renewed`), and a flex container still has the same run
(`Box.layOutFlex_eq_of_renewed`).
-/
import FlexLayout.Proofs.Relayout

namespace FlexLayout

set_option autoImplicit false

open Pairing

/-- The box is laid out with its parent: an item of a flex container is, and in other
boxes a `deep` host lays out all children. -/
def Box.relaid (deep flex : Bool) (box : Box) : Bool := if flex then box.participates else deep

mutual

/-- What may differ below a box that is about to be laid out.  A `deep` host lays out the
children of boxes that are no flex containers; others leave them as they are. -/
def Box.Renewed (deep : Bool) : Box → List Fragment → List Fragment → Prop
  | ⟨kind, _, _, _, _, boxes⟩, children, others => Anew deep kind.isFlex boxes children others

/-- The geometry of the children of a box in two versions.  That of a child which is
laid out with the box may differ as layout does not look at it; a child without
geometry starts from the default. -/
def Anew (deep flex : Bool) : List Box → List Fragment → List Fragment → Prop
  | [], _, _ => True
  | box :: boxes, fragments, others =>
      (if box.relaid deep flex then
        box.Renewed deep (fragments.headD {}).children (others.headD {}).children
      else others.headD {} = fragments.headD {}) ∧
        Anew deep flex boxes fragments.tail others.tail

end

mutual

theorem Box.renewed_refl (deep : Bool) (box : Box) (children : List Fragment) :
    box.Renewed deep children children := by
  obtain ⟨kind, style, generated, least, most, boxes⟩ := box
  exact anew_refl deep kind.isFlex boxes children

theorem anew_refl (deep flex : Bool) (boxes : List Box) (fragments : List Fragment) :
    Anew deep flex boxes fragments fragments := by
  match boxes with
  | [] => exact trivial
  | box :: boxes =>
      refine ⟨?_, anew_refl deep flex boxes fragments.tail⟩
      split
      · exact box.renewed_refl deep _
      · rfl

end

mutual

theorem Box.Renewed.trans {deep : Bool} {box : Box} {first second third : List Fragment}
    (before : box.Renewed deep first second) (after : box.Renewed deep second third) :
    box.Renewed deep first third := by
  obtain ⟨kind, style, generated, least, most, boxes⟩ := box
  have before : Anew deep kind.isFlex boxes first second := before
  exact before.trans after

theorem Anew.trans {deep flex : Bool} {boxes : List Box} {first second third : List Fragment}
    (before : Anew deep flex boxes first second) (after : Anew deep flex boxes second third) :
    Anew deep flex boxes first third := by
  match boxes with
  | [] => exact trivial
  | box :: boxes =>
      refine ⟨?_, before.2.trans after.2⟩
      have head := before.1
      have head' := after.1
      split
      next laid =>
        rw [if_pos laid] at head head'
        exact head.trans head'
      next aside =>
        rw [if_neg aside] at head head'
        exact head'.trans head

end

/-! ## The coupling -/

namespace Coupling

/-- From one log, the runs end alike and leave the same log; below a box, what the host
makes anew may differ. -/
def renewed (deep : Bool) : Coupling :=
  { exact with Below := Box.Renewed deep, below_refl := Box.renewed_refl deep }

theorem stale_of_anew {deep : Bool} {boxes : List Box} {fragments others : List Fragment}
    (redone : Anew deep true boxes fragments others) :
    (renewed deep).Stale boxes fragments others := by
  induction boxes generalizing fragments others with
  | nil => trivial
  | cons box rest ih => exact ⟨redone.1, ih redone.2⟩

/-- A run that ends alike may be replaced, if what follows does the same with either
result. -/
theorem mapFailure_bind_eq {ε α β : Type} {g : Failure → ε} {R : α → α → Prop}
    {run other : Run Failure α} (related : exact.Holds R run other) {next next' : α → Run ε β}
    (same : ∀ a b, R a b → next' b = next a) :
    Run.mapFailure g other >>= next' = Run.mapFailure g run >>= next := by
  apply Run.ext
  intro log
  rw [Run.outcome_bind, Run.outcome_bind, Run.outcome_mapFailure, Run.outcome_mapFailure]
  have ends := related log
  generalize run.outcome log = end₁ at ends ⊢
  generalize other.outcome log = end₂ at ends ⊢
  cases ends with
  | ok holds => exact congrArg (Run.outcome · _) (same _ _ holds)
  | error => rfl

end Coupling

/-! ## Hosts -/

namespace Host

/-- The host lays out the children of boxes that are no flex containers. -/
def deep (host : Host) : Bool := host.conduct == .stack

section

variable {deep : Bool} {resolve : Resolver} [resolve.OrderBlind]

theorem stackedFrame_agrees (width : Int) {kid kid' : Kid} {order : Int}
    (box : kid'.box = kid.box.ordered order) :
    (stackedFrame resolve width kid).Agrees False False (stackedFrame resolve width kid') := by
  have sizes : (kid.frame.withSizes resolve kid.box.style width).Agrees False False
      (kid'.frame.withSizes resolve kid.box.style width) :=
    (Frame.Agrees.withSizes _ _ _ _ _).mono False.elim False.elim
  have surround := sizes.same Frame.horizontalSurround fun _ _ _ => rfl
  have same : kid'.frame.withSizes resolve kid'.box.style width =
      kid'.frame.withSizes resolve kid.box.style width := by
    rw [box]
    exact Style.withSizes_ordered resolve _ order _ _
  have kind : kid'.box.kind = kid.box.kind := by
    rw [box]
    rfl
  simp only [stackedFrame]
  rw [same, kind, sizes.width, surround]
  split
  · exact { sizes with width := rfl }
  · exact sizes

/-- **Children are stacked the same, whatever geometry they had.** -/
theorem stackKids_eq (left width cursor : Int) {kids kids' : List Kid}
    (pairs : List.Forall₂ (fun kid kid' => kid.Pair (Coupling.renewed deep)
      (Fresh (Coupling.renewed deep)) kid') kids kids') :
    stackKids resolve left width cursor kids' = stackKids resolve left width cursor kids := by
  induction pairs generalizing cursor with
  | nil => rfl
  | @cons kid kid' rest rest' pair _ ih =>
      obtain ⟨order, box⟩ := pair.box
      simp only [stackKids]
      refine Coupling.mapFailure_bind_eq
        (pair.layOut (stackedFrame_agrees width box) pair.related width) ?_
      intro fragment other agrees
      have frames := agrees.frame
      have margin (side : Side) : other.frame.fixedMargin side = fragment.frame.fixedMargin side :=
        frames.same (Frame.fixedMargin · side) fun _ _ _ => rfl
      have outer : other.frame.marginBoxHeight = fragment.frame.marginBoxHeight :=
        frames.same Frame.marginBoxHeight fun _ _ _ => rfl
      rw [margin, margin, outer, frames.border, ih, frames.moved, agrees.children]

end

variable {host : Host}

/-- The children of a box that is no flex container are handed over the same, or stacked
the same. -/
theorem layOutContents_eq_of_anew (kind : BoxKind) (available : Option Int) (frame : Frame)
    {boxes : List Box} {fragments others : List Fragment}
    (redone : Anew host.deep false boxes fragments others)
    (routines : ∀ box ∈ boxes, Routine (Coupling.renewed host.deep) box
      (box.layOut host.environment) (box.layOut host.environment)) :
    host.layOutContents kind available frame (Kid.ofBoxes host.environment boxes others) =
      host.layOutContents kind available frame (Kid.ofBoxes host.environment boxes fragments) := by
  cases deep : host.deep with
  | false =>
      rw [deep] at redone
      have same : Kid.ofBoxes host.environment boxes others =
          Kid.ofBoxes host.environment boxes fragments := by
        clear routines
        induction boxes generalizing fragments others with
        | nil => rw [Kid.ofBoxes, Kid.ofBoxes]
        | cons box rest ih =>
            rw [Kid.ofBoxes_cons, Kid.ofBoxes_cons, ih redone.2]
            exact congrArg (fun fragment => (⟨box, fragment, _⟩ : Kid) :: _) redone.1
      rw [same]
  | true =>
      have conduct : host.conduct = .stack := by simpa [Host.deep] using deep
      have pairs : List.Forall₂ (fun kid kid' => kid.Pair (Coupling.renewed host.deep)
          (Fresh (Coupling.renewed host.deep)) kid')
          (Kid.ofBoxes host.environment boxes fragments)
          (Kid.ofBoxes host.environment boxes others) := by
        induction boxes generalizing fragments others with
        | nil =>
            rw [Kid.ofBoxes, Kid.ofBoxes]
            exact .nil
        | cons box rest ih =>
            obtain ⟨routine, routines⟩ := List.forall_mem_cons.1 routines
            obtain ⟨first, later⟩ := redone
            rw [Box.relaid, if_neg Bool.false_ne_true, if_pos deep] at first
            rw [Kid.ofBoxes_cons, Kid.ofBoxes_cons]
            exact .cons ⟨⟨box.style.order, box.ordered_self.symm⟩, routine, first⟩
              (ih later routines)
      have length := pairs.length_eq
      simp only [layOutContents, conduct]
      rw [length, stackKids_eq _ _ _ pairs]

/-- A host does the same from geometry that it makes anew. -/
theorem renewed_keeps (host : Host) : (Coupling.renewed host.deep).Keeps host.environment where
  flex box children others flex redone := by
    obtain ⟨kind, style, generated, least, most, boxes⟩ := box
    obtain rfl : kind = .flex := flex
    exact Coupling.stale_of_anew redone
  contents px py box available frame other children others kind agrees redone routines := by
    obtain ⟨kind', style, generated, least, most, boxes⟩ := box
    have aside : kind'.isFlex = false := by simpa [BoxKind.isFlex] using kind
    have redone : Anew host.deep kind'.isFlex boxes children others := redone
    rw [aside] at redone
    have same := layOutContents_eq_of_anew kind' available other redone routines
    show Coupling.exact.Holds _ _ (Run.mapFailure _
      (host.layOutContents kind' available other (Kid.ofBoxes host.environment boxes others)))
    rw [same]
    exact host.exact_holds agrees kind' available _

end Host

/-- **Layout does not read geometry that the host makes anew.** -/
theorem Box.layOutFlex_eq_of_renewed (host : Host) (box : Box) (frame : Frame)
    {children others : List Fragment} (redone : Anew host.deep true box.children children others)
    (available : Int) :
    box.layOutFlex host.environment ⟨frame, others⟩ available =
      box.layOutFlex host.environment ⟨frame, children⟩ available := by
  have tracks := Kid.ofBoxes_tracks_of_stale box.children
    (Box.routines host.renewed_keeps box.children) 0 (Coupling.stale_of_anew redone)
  have coupled : (Coupling.renewed host.deep).Holds (Fragment.Agrees True True)
      (box.layOutFlex host.environment ⟨frame, children⟩ available)
      (box.layOutFlex host.environment ⟨frame, others⟩ available) :=
    Container.layOut_coupled_same tracks rfl rfl (fun _ => rfl) (fun _ => rfl)
  exact (Coupling.eq_of_exact (Coupling.exact.mono coupled fun _ _ agrees => agrees.eq.symm)).symm

end FlexLayout
