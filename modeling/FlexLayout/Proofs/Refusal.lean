/-
# FlexLayout.Proofs.Refusal -- layout fails when a call is refused

A leaf or a box that a host leaves alone is one call, which is answered or refused
(`Host.layOutContents_outcome`).  Flex layout has no failures of its own and calls nobody
after a failure, at whatever depth of nested flex containers it happens.  So a layout
fails exactly when a call is refused, with the failure of that call, which is the last
(`Box.layOutFlex_refused`).

The argument is a coupling of a layout with itself, `Coupling.stopping`: runs that end
alike and stop at the first refusal.  The stages of layout keep every coupling, so what
has to be shown is what a sequence of runs and a call do.
-/
import FlexLayout.Proofs.Relayout

namespace FlexLayout

set_option autoImplicit false

open Pairing

namespace Host

/-- The host refuses none of these calls, which are made from a position of the log on. -/
def Answers (host : Host) (position : Nat) (made : Array Call) : Prop :=
  ∀ i call, made[i]? = some call → host.refuses call.kind (position + i) = false

variable {host : Host} {position : Nat} {made later : Array Call} {call : Call}

theorem answers_empty (host : Host) (position : Nat) : host.Answers position #[] := by
  intro i call found
  simp at found

theorem Answers.append (first : host.Answers position made)
    (second : host.Answers (position + made.size) later) :
    host.Answers position (made ++ later) := by
  intro i call found
  rw [Array.getElem?_append] at found
  split at found
  · exact first i call found
  · rename_i beyond
    have answered := second (i - made.size) call found
    rwa [show position + made.size + (i - made.size) = position + i by omega] at answered

theorem answers_singleton (answered : host.refuses call.kind position = false) :
    host.Answers position #[call] := by
  intro i other found
  obtain ⟨inside, same⟩ := Array.getElem?_eq_some_iff.1 found
  have first : i = 0 := by simpa using inside
  subst first
  exact (show call = other from same) ▸ answered

/-- A refused call that follows answered ones is the only one. -/
theorem Answers.refused_last (answered : host.Answers position made) {i : Nat} {other : Call}
    (found : (made.push call)[i]? = some other)
    (refused : host.refuses other.kind (position + i) = true) : i = made.size ∧ other = call := by
  rw [Array.getElem?_push] at found
  split at found
  · next last => exact ⟨last, (Option.some.inj found).symm⟩
  · exact absurd (refused.symm.trans (answered i other found)) (by decide)

end Host

def Call.refusal (call : Call) : Failure := .child call.kind (.refused call.kind call.children)

/-- The runs end alike from a log: with results, and no call was refused; or with the
failure of the last call, and it is the only one that was refused. -/
inductive Host.Stopped (host : Host) {α β : Type} (R : α → β → Prop) (log : CallLog) :
    Except Failure α × CallLog → Except Failure β × CallLog → Prop where
  | ok {a : α} {b : β} {made : Array Call} (related : R a b) (answered : host.Answers log.size made) :
      Stopped host R log (.ok a, log ++ made) (.ok b, log ++ made)
  | refused {made : Array Call} {call : Call} (answered : host.Answers log.size made)
      (refused : host.refuses call.kind (log.size + made.size) = true) :
      Stopped host R log (.error call.refusal, log ++ made.push call)
        (.error call.refusal, log ++ made.push call)

namespace Coupling

/-- From one log, the runs end alike, and stop at the first call that is refused. -/
def stopping (host : Host) : Coupling where
  Below := Box.Below
  below_refl := Box.below_refl
  Holds R run other := ∀ log, host.Stopped R log (run.outcome log) (other.outcome log)
  drops := False
  pure {_ _ _ a b} related := by
    intro log
    have ends : host.Stopped _ log (.ok a, log ++ #[]) (.ok b, log ++ #[]) :=
      .ok related (host.answers_empty log.size)
    rwa [Array.append_empty] at ends
  bind {_ _ _ _} {R S run other next next'} first second := by
    intro log
    rw [Run.outcome_bind, Run.outcome_bind]
    have ends := first log
    generalize run.outcome log = end₁ at ends ⊢
    generalize other.outcome log = end₂ at ends ⊢
    cases ends with
    | refused answered refused => exact .refused answered refused
    | @ok a b made related answered =>
        dsimp only
        have rest := second a b related (log ++ made)
        generalize (next a).outcome (log ++ made) = end₁ at rest ⊢
        generalize (next' b).outcome (log ++ made) = end₂ at rest ⊢
        have size : (log ++ made).size = log.size + made.size := Array.size_append
        cases rest with
        | ok related answered' =>
            rw [Array.append_assoc]
            exact .ok related (answered.append (size ▸ answered'))
        | refused answered' refused =>
            rw [Array.append_assoc, Array.append_push]
            rw [size, Nat.add_assoc, ← Array.size_append] at refused
            exact .refused (answered.append (size ▸ answered')) refused
  pass allowed := allowed.elim
  ensure {_ _} {R P Q run other} related left right := by
    intro log
    have ends := related log
    have first := left log
    have second := right log
    generalize run.outcome log = end₁ at ends first ⊢
    generalize other.outcome log = end₂ at ends second ⊢
    cases ends with
    | ok related answered => exact .ok ⟨related, first _ _ rfl, second _ _ rfl⟩ answered
    | refused answered refused => exact .refused answered refused

end Coupling

namespace Host

variable {host : Host}

/-- A host that lays out no children makes one call for a box, and fails if that is
refused. -/
theorem layOutContents_outcome (simple : host.conduct ≠ .stack) (kind : BoxKind)
    (available : Option Int) (frame : Frame) (kids : List Kid) (log : CallLog) :
    ∃ result call, (host.layOutContents kind available frame kids).outcome log =
        (result, log.push call) ∧ call.kind = kind ∧
      if host.refuses call.kind log.size then result = .error (.refused call.kind call.children)
      else ∃ fragment, result = .ok fragment := by
  let call : Call :=
    { kind := kind, available := available, width := frame.width, height := frame.height
      children := kids.length }
  simp only [layOutContents]
  rw [Run.outcome_bind_ok (Run.outcome_record call log)]
  cases refused : host.refuses kind log.size with
  | true =>
      refine ⟨.error (.refused kind kids.length), call, ?_, rfl, ?_⟩
      · rfl
      · rw [if_pos refused]
  | false =>
      have goes (fragment : Fragment) : ∃ result other, (.ok fragment, log.push call) =
          (result, log.push other) ∧ other.kind = kind ∧
        if host.refuses other.kind log.size then
          result = Except.error (Cause.refused other.kind other.children)
        else ∃ fragment, result = .ok fragment := by
        refine ⟨.ok fragment, call, rfl, rfl, ?_⟩
        rw [if_neg (by rw [refused]; exact Bool.false_ne_true)]
        exact ⟨fragment, rfl⟩
      cases conduct : host.conduct with
      | leaf => exact goes _
      | noop => exact goes _
      | stack => exact absurd conduct simple

/-- **A box that is no flex container stops at the first refusal.** -/
theorem stopping_holds (simple : host.conduct ≠ .stack) {px py : Prop} {frame other : Frame}
    (agrees : frame.Agrees px py other) (kind : BoxKind) (available : Option Int) (kids : List Kid) :
    (Coupling.stopping host).Holds (Fragment.Agrees px py)
      (Run.mapFailure (Failure.child kind) (host.layOutContents kind available frame kids))
      (Run.mapFailure (Failure.child kind) (host.layOutContents kind available other kids)) := by
  intro log
  obtain ⟨result, call, ran, rfl, ends⟩ :=
    layOutContents_outcome simple kind available frame kids log
  have matched := host.exact_holds agrees call.kind available kids log
  have first : (Run.mapFailure (Failure.child call.kind)
      (host.layOutContents call.kind available frame kids)).outcome log =
        (result.mapError (Failure.child call.kind), log ++ #[call]) := by
    rw [Run.outcome_mapFailure, ran]
    rfl
  rw [first] at matched ⊢
  generalize (Run.mapFailure (Failure.child call.kind)
    (host.layOutContents call.kind available other kids)).outcome log = second at matched ⊢
  cases refused : host.refuses call.kind log.size with
  | true =>
      rw [if_pos refused] at ends
      subst ends
      cases matched
      exact .refused (host.answers_empty log.size) refused
  | false =>
      rw [if_neg (by rw [refused]; exact Bool.false_ne_true)] at ends
      obtain ⟨fragment, rfl⟩ := ends
      cases matched with
      | ok related => exact .ok related (answers_singleton refused)

theorem stopping_keeps (simple : host.conduct ≠ .stack) :
    (Coupling.stopping host).Keeps host.environment :=
  Coupling.keeps_of_below rfl fun _ _ kind available _ _ kids agrees _ =>
    stopping_holds simple agrees kind available kids

end Host

namespace Box

theorem layOutFlex_stopped {host : Host} (simple : host.conduct ≠ .stack) (box : Box)
    (fragment : Fragment) (available : Int) :
    (Coupling.stopping host).Holds (Fragment.Agrees True True)
      (box.layOutFlex host.environment fragment available)
      (box.layOutFlex host.environment fragment available) := by
  have keeps := Host.stopping_keeps simple
  have stale := Coupling.stale_of_below (Γ := Coupling.stopping host) rfl
    (stale_refl box.children fragment.children)
  exact Container.layOut_coupled_same
    (Kid.ofBoxes_tracks_of_stale box.children (Box.routines keeps box.children) 0 stale)
    rfl rfl (fun _ => rfl) (fun _ => rfl)

/-- **Layout fails exactly when a call is refused.**  Below any number of nested flex
containers, from any log and for any host that refuses calls of one kind or at one
position: if one of the calls made is refused, it is the last, and the failure names the
kind of its box and has its refusal as the only cause; if none is, there is a result. -/
theorem layOutFlex_refused (host : Host) (simple : host.conduct ≠ .stack) (box : Box)
    (fragment : Fragment) (available : Int) (log : CallLog) :
    ∃ result made, (box.layOutFlex host.environment fragment available).outcome log =
        (result, log ++ made) ∧
      ((∃ failure, result = .error failure) ↔
        ∃ i call, made[i]? = some call ∧ host.refuses call.kind (log.size + i) = true) ∧
      (∀ i call, made[i]? = some call → host.refuses call.kind (log.size + i) = true →
        i + 1 = made.size ∧ ∃ failure, result = .error failure ∧
          failure = .child call.kind (.refused call.kind call.children) ∧
          failure.chain = [(Cause.refused call.kind call.children).message]) ∧
      ((∃ laid, result = .ok laid) ↔
        ∀ i call, made[i]? = some call → host.refuses call.kind (log.size + i) = false) := by
  have ends := layOutFlex_stopped simple box fragment available log
  generalize (box.layOutFlex host.environment fragment available).outcome log = outcome at ends ⊢
  cases ends with
  | @ok laid _ made _ answered =>
      have never (i : Nat) (call : Call) (found : made[i]? = some call) :
          host.refuses call.kind (log.size + i) ≠ true := by
        rw [answered i call found]
        decide
      refine ⟨.ok laid, made, rfl, ⟨?_, ?_⟩, ?_, ⟨fun _ => answered, fun _ => ⟨laid, rfl⟩⟩⟩
      · rintro ⟨failure, wrong⟩
        cases wrong
      · rintro ⟨i, call, found, refused⟩
        exact absurd refused (never i call found)
      · exact fun i call found refused => absurd refused (never i call found)
  | @refused made call answered refused =>
      have last : (made.push call)[made.size]? = some call := Array.getElem?_push_size
      refine ⟨.error call.refusal, made.push call, rfl, ⟨?_, ?_⟩, ?_, ⟨?_, ?_⟩⟩
      · exact fun _ => ⟨made.size, call, last, refused⟩
      · exact fun _ => ⟨call.refusal, rfl⟩
      · intro i other found refused'
        obtain ⟨rfl, rfl⟩ := answered.refused_last found refused'
        exact ⟨(Array.size_push other).symm, other.refusal, rfl, rfl, rfl⟩
      · rintro ⟨laid, wrong⟩
        cases wrong
      · intro all
        exact absurd (refused.symm.trans (all made.size call last)) (by decide)

/-- The second of three calls is refused, inside a flex container inside another. -/
theorem layOutFlex_refused_nested :
    let inner : Box := { kind := .flex, children := [{}, { kind := .table, children := [{}] }, {}] }
    let box : Box := { kind := .flex, children := [inner] }
    let host : Host := { failing := some .table }
    host.conduct ≠ .stack ∧ ∃ made : CallLog,
      (box.layOutFlex host.environment {} 100).outcome #[] =
        (.error (.child .table (.refused .table 1)), made) ∧
      made.toList.map Call.kind = [.block, .table] := by
  intro inner box host
  have simple : host.conduct ≠ .stack := by decide
  have calls : ((box.layOutFlex host.environment {} 100).outcome #[]).2.toList.map
      (fun call => (call.kind, call.children)) = [(.block, 0), (.table, 1)] := by
    simp only [layOutFlex, Container.layOut, Container.flow_eq_insertionSort, Kid.ofBoxes,
      Box.layOut, box, inner]
    decide +kernel
  obtain ⟨result, made, ran, -, refusal, -⟩ := layOutFlex_refused host simple box {} 100 #[]
  rw [ran, Array.empty_append] at calls
  obtain ⟨call, found, same⟩ : ∃ call, made[1]? = some call ∧
      (call.kind, call.children) = (.table, 1) := by
    rw [← Option.map_eq_some_iff, ← Array.getElem?_toList, ← List.getElem?_map, calls]
    rfl
  obtain ⟨kind, children⟩ := Prod.mk.inj same
  obtain ⟨-, failure, rfl, refused, -⟩ := refusal 1 call found (by rw [kind]; rfl)
  rw [refused, kind, children, Array.empty_append] at ran
  refine ⟨simple, made, ran, ?_⟩
  have kinds := congrArg (List.map Prod.fst) calls
  rwa [List.map_map] at kinds

end Box

end FlexLayout
