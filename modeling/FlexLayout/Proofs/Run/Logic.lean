/-
# FlexLayout.Proofs.Run.Logic -- what runs guarantee, alone and side by side

`Run.Ensures P run` says that every successful outcome of a run satisfies `P`.
It is closed under sequencing (`ensures_bind`), so what a stage of layout
guarantees is put together from what its steps guarantee.

`Run.Yields a run` says that the run succeeds with `a`, whatever was called before.

A `Coupling` compares the layout of two trees, their runs through a relation on the
results.  What it says about failures and calls is its own affair: the algorithm only
needs that results can be returned and sequences compared step by step.  It also says
what old geometry may differ below a box that is about to be laid out, which for these
three is what no layout reads.

* `Coupling.exact`: from one log both runs fail alike or both succeed, and leave
  the same log.
* `Coupling.onSuccess`: whenever both runs succeed, from whatever logs, their
  results are related.  Here a step of the first run may have no counterpart in
  the second (`Coupling.pass`).
* `Coupling.sure`: both runs yield a result, and the results are related.
-/
import FlexLayout.Proofs.Children.Below
import FlexLayout.Run

namespace FlexLayout

set_option autoImplicit false

namespace Run

variable {ε δ α β γ : Type}

/-- Every successful outcome satisfies `P`. -/
def Ensures (P : α → Prop) (run : Run ε α) : Prop :=
  ∀ log after a, run.outcome log = (.ok a, after) → P a

/-- From a log, the run succeeds with a result that satisfies `P`. -/
def Succeeds (P : α → Prop) (run : Run ε α) (log : CallLog) : Prop :=
  ∃ a after, run.outcome log = (.ok a, after) ∧ P a

instance (P : α → Prop) [DecidablePred P] (run : Run ε α) (log : CallLog) :
    Decidable (Succeeds P run log) :=
  match ran : run.outcome log with
  | (.ok a, after) =>
      decidable_of_iff (P a) ⟨fun holds => ⟨a, after, ran, holds⟩, fun ⟨b, later, same, holds⟩ => by
        rw [ran, Prod.mk.injEq, Except.ok.injEq] at same
        exact same.1 ▸ holds⟩
  | (.error e, after) => isFalse fun ⟨b, later, same, _⟩ => by simp [ran] at same

theorem Succeeds.mono {P Q : α → Prop} {run : Run ε α} {log : CallLog} (done : Succeeds P run log)
    (weaker : ∀ a, P a → Q a) : Succeeds Q run log := by
  obtain ⟨a, after, ran, holds⟩ := done
  exact ⟨a, after, ran, weaker a holds⟩

theorem eq_of_outcome_ok {run : Run ε α} {log mid after : CallLog} {a b : α}
    (ran : outcome run log = (.ok a, mid)) (again : outcome run log = (.ok b, after)) :
    a = b ∧ mid = after := by
  have equal := ran.symm.trans again
  rwa [Prod.mk.injEq, Except.ok.injEq] at equal

theorem Succeeds.holds {P : α → Prop} {run : Run ε α} {log after : CallLog} {a : α}
    (done : Succeeds P run log) (ran : outcome run log = (.ok a, after)) : P a := by
  obtain ⟨b, mid, done, holds⟩ := done
  exact (eq_of_outcome_ok done ran).1 ▸ holds

theorem ensures_pure {P : α → Prop} {a : α} (holds : P a) : Ensures P (pure a : Run ε α) := by
  intro log after b done
  simp only [outcome_pure, Prod.mk.injEq, Except.ok.injEq] at done
  exact done.1 ▸ holds

theorem outcome_bind_eq_ok {run : Run ε α} {next : α → Run ε β} {log after : CallLog} {b : β}
    (done : outcome (run >>= next) log = (.ok b, after)) :
    ∃ a mid, outcome run log = (.ok a, mid) ∧ outcome (next a) mid = (.ok b, after) := by
  rw [outcome_bind] at done
  rcases first : outcome run log with ⟨result, mid⟩
  rw [first] at done
  cases result with
  | error e => simp at done
  | ok a => exact ⟨a, mid, rfl, done⟩

/-- A sequence goes on from where its first run ended. -/
theorem outcome_rest {run : Run ε α} {next : α → Run ε β} {log mid after : CallLog} {a : α} {b : β}
    (first : outcome run log = (.ok a, mid))
    (done : outcome (run >>= next) log = (.ok b, after)) :
    outcome (next a) mid = (.ok b, after) :=
  (outcome_bind_ok first next).symm.trans done

theorem ensures_bind {P : α → Prop} {Q : β → Prop} {run : Run ε α} {next : α → Run ε β}
    (first : Ensures P run) (second : ∀ a, P a → Ensures Q (next a)) :
    Ensures Q (run >>= next) := by
  intro log after b done
  obtain ⟨a, mid, ran, rest⟩ := outcome_bind_eq_ok done
  exact second a (first log mid a ran) mid after b rest

theorem Ensures.mono {P Q : α → Prop} {run : Run ε α} (holds : Ensures P run)
    (weaker : ∀ a, P a → Q a) : Ensures Q run :=
  fun log after a done => weaker a (holds log after a done)

theorem Ensures.and {P Q : α → Prop} {run : Run ε α} (left : Ensures P run) (right : Ensures Q run) :
    Ensures (fun a => P a ∧ Q a) run :=
  fun log after a done => ⟨left log after a done, right log after a done⟩

theorem ensures_true (run : Run ε α) : Ensures (fun _ => True) run := fun _ _ _ _ => trivial

theorem ensures_mapFailure {P : α → Prop} {f : ε → δ} {run : Run ε α} (holds : Ensures P run) :
    Ensures P (mapFailure f run) := by
  intro log after a done
  rw [outcome_mapFailure] at done
  rcases ran : outcome run log with ⟨result, calls⟩
  rw [ran] at done
  cases result with
  | error e => cases done
  | ok b =>
      cases done
      exact holds log calls a ran

/-- Continuations need to agree only on the results that the first run has. -/
theorem bind_congr_of_ensures {P : α → Prop} {run : Run ε α} {next other : α → Run ε β}
    (holds : Ensures P run) (same : ∀ a, P a → next a = other a) :
    run >>= next = run >>= other := by
  apply Run.ext
  intro log
  rw [outcome_bind, outcome_bind]
  rcases ran : outcome run log with ⟨result, mid⟩
  cases result with
  | error e => rfl
  | ok a => simp only [same a (holds log mid a ran)]

/-- From every log, the run succeeds with this result. -/
def Yields (a : α) (run : Run ε α) : Prop := ∀ log, ∃ after, run.outcome log = (.ok a, after)

theorem yields_pure (a : α) : Yields a (pure a : Run ε α) := fun log => ⟨log, rfl⟩

theorem yields_bind {a : α} {b : β} {run : Run ε α} {next : α → Run ε β} (first : Yields a run)
    (second : Yields b (next a)) : Yields b (run >>= next) := by
  intro log
  obtain ⟨mid, ran⟩ := first log
  obtain ⟨after, rest⟩ := second mid
  exact ⟨after, (outcome_bind_ok ran next).trans rest⟩

/-- The position of a call makes no difference if it does not tell in the result. -/
theorem yields_record_bind {b : β} (call : Call) {next : Nat → Run ε β}
    (second : ∀ position, Yields b (next position)) : Yields b (record call >>= next) := by
  intro log
  obtain ⟨after, rest⟩ := second log.size (log.push call)
  exact ⟨after, (outcome_bind_ok (outcome_record call log) next).trans rest⟩

theorem yields_mapFailure {a : α} {run : Run ε α} (f : ε → δ) (yields : Yields a run) :
    Yields a (mapFailure f run) := by
  intro log
  obtain ⟨after, ran⟩ := yields log
  refine ⟨after, ?_⟩
  rw [outcome_mapFailure, ran]
  rfl

theorem yields_map {a : α} {run : Run ε α} (f : α → β) (yields : Yields a run) :
    Yields (f a) (f <$> run) := by
  rw [map_eq_pure_bind]
  exact yields_bind yields (yields_pure (f a))

/-- What a run ensures holds of the result that it yields. -/
theorem Yields.of_ensures {a : α} {P : α → Prop} {run : Run ε α} (yields : Yields a run)
    (holds : Ensures P run) : P a := by
  obtain ⟨after, ran⟩ := yields #[]
  exact holds #[] after a ran

end Run

/-- A way of comparing two layouts through a relation on the results of their runs. -/
structure Coupling where
  /-- What may differ below a box that is about to be laid out. -/
  Below : Box → List Fragment → List Fragment → Prop
  below_refl (box : Box) (children : List Fragment) : Below box children children
  Holds {α β : Type} (R : α → β → Prop) (run : Run Failure α) (other : Run Failure β) : Prop
  /-- Steps of the first run may be passed over. -/
  drops : Prop
  pure {α β : Type} {R : α → β → Prop} {a : α} {b : β} (related : R a b) :
    Holds R (Pure.pure a) (Pure.pure b)
  bind {α β α' β' : Type} {R : α → β → Prop} {S : α' → β' → Prop} {run : Run Failure α}
    {other : Run Failure β} {next : α → Run Failure α'} {next' : β → Run Failure β'}
    (first : Holds R run other) (second : ∀ a b, R a b → Holds S (next a) (next' b)) :
    Holds S (run >>= next) (other >>= next')
  pass {α α' β : Type} {P : α → Prop} {S : α' → β → Prop} {run : Run Failure α}
    {next : α → Run Failure α'} {other : Run Failure β} (allowed : drops)
    (first : Run.Ensures P run) (second : ∀ a, P a → Holds S (next a) other) :
    Holds S (run >>= next) other
  ensure {α β : Type} {R : α → β → Prop} {P : α → Prop} {Q : β → Prop} {run : Run Failure α}
    {other : Run Failure β} (related : Holds R run other) (left : Run.Ensures P run)
    (right : Run.Ensures Q other) : Holds (fun a b => R a b ∧ P a ∧ Q b) run other

namespace Coupling

variable {α β α' β' : Type}

theorem mono (Γ : Coupling) {R S : α → β → Prop} {run : Run Failure α} {other : Run Failure β}
    (related : Γ.Holds R run other) (weaker : ∀ a b, R a b → S a b) : Γ.Holds S run other := by
  have returned := Γ.bind related fun a b holds => Γ.pure (weaker a b holds)
  simpa only [bind_pure] using returned

/-! ## The three couplings -/

/-- Both runs fail alike or both succeed, with the same calls. -/
inductive Matched (R : α → β → Prop) :
    Except Failure α × CallLog → Except Failure β × CallLog → Prop where
  | ok {a : α} {b : β} {calls : CallLog} (related : R a b) :
      Matched R (.ok a, calls) (.ok b, calls)
  | error {e : Failure} {calls : CallLog} : Matched R (.error e, calls) (.error e, calls)

/-- From one log, the runs end alike and leave the same log. -/
def exact : Coupling where
  Below := Box.Below
  below_refl := Box.below_refl
  Holds R run other := ∀ log, Matched R (run.outcome log) (other.outcome log)
  drops := False
  pure related := fun _ => .ok related
  bind {_ _ _ _} {R S run other next next'} first second := by
    intro log
    rw [Run.outcome_bind, Run.outcome_bind]
    have ends := first log
    generalize run.outcome log = end₁ at ends ⊢
    generalize other.outcome log = end₂ at ends ⊢
    cases ends with
    | ok related => exact second _ _ related _
    | error => exact .error
  pass allowed := allowed.elim
  ensure {_ _} {R P Q run other} related left right := by
    intro log
    have ends := related log
    have first := left log
    have second := right log
    generalize run.outcome log = end₁ at ends first ⊢
    generalize other.outcome log = end₂ at ends second ⊢
    cases ends with
    | ok related => exact .ok ⟨related, first _ _ rfl, second _ _ rfl⟩
    | error => exact .error

/-- Whenever both runs succeed, from whatever logs, their results are related. -/
def onSuccess : Coupling where
  Below := Box.Below
  below_refl := Box.below_refl
  Holds R run other := ∀ log log' after after' a b,
    run.outcome log = (.ok a, after) → other.outcome log' = (.ok b, after') → R a b
  drops := True
  pure {_ _ R a b} related := by
    intro log log' after after' c d done done'
    simp only [Run.outcome_pure, Prod.mk.injEq, Except.ok.injEq] at done done'
    exact done.1 ▸ done'.1 ▸ related
  bind first second := by
    intro log log' after after' c d done done'
    obtain ⟨a, mid, ran, rest⟩ := Run.outcome_bind_eq_ok done
    obtain ⟨b, mid', ran', rest'⟩ := Run.outcome_bind_eq_ok done'
    exact second a b (first _ _ _ _ _ _ ran ran') _ _ _ _ _ _ rest rest'
  pass _ first second := by
    intro log log' after after' c d done done'
    obtain ⟨a, mid, ran, rest⟩ := Run.outcome_bind_eq_ok done
    exact second a (first _ _ _ ran) _ _ _ _ _ _ rest done'
  ensure related left right := by
    intro log log' after after' a b done done'
    exact ⟨related _ _ _ _ _ _ done done', left _ _ _ done, right _ _ _ done'⟩

/-- Both runs yield a result, and the results are related. -/
def sure : Coupling where
  Below := Box.Below
  below_refl := Box.below_refl
  Holds R run other := ∃ a b, R a b ∧ run.Yields a ∧ other.Yields b
  drops := False
  pure {_ _ R a b} related := ⟨a, b, related, Run.yields_pure a, Run.yields_pure b⟩
  bind first second := by
    obtain ⟨a, b, related, yields, yields'⟩ := first
    obtain ⟨c, d, related', rest, rest'⟩ := second a b related
    exact ⟨c, d, related', Run.yields_bind yields rest, Run.yields_bind yields' rest'⟩
  pass allowed := allowed.elim
  ensure related left right := by
    obtain ⟨a, b, related, yields, yields'⟩ := related
    exact ⟨a, b, ⟨related, yields.of_ensures left, yields'.of_ensures right⟩, yields, yields'⟩

/-- A success has a counterpart under the exact coupling. -/
theorem exists_of_exact {R : α → β → Prop} {run : Run Failure α} {other : Run Failure β}
    (related : exact.Holds R run other) {log after : CallLog} {a : α}
    (done : run.outcome log = (.ok a, after)) :
    ∃ b, other.outcome log = (.ok b, after) ∧ R a b := by
  have ends := related log
  rw [done] at ends
  generalize other.outcome log = end_ at ends ⊢
  cases ends with
  | ok holds => exact ⟨_, rfl, holds⟩

theorem error_of_exact {R : α → β → Prop} {run : Run Failure α} {other : Run Failure β}
    (related : exact.Holds R run other) {log after : CallLog} {failure : Failure}
    (failed : run.outcome log = (.error failure, after)) :
    other.outcome log = (.error failure, after) := by
  have ends := related log
  rw [failed] at ends
  generalize other.outcome log = end_ at ends ⊢
  cases ends with
  | error => rfl

/-- Equal results under the exact coupling: the runs are the same. -/
theorem eq_of_exact {run other : Run Failure α} (same : exact.Holds (fun a b => a = b) run other) :
    run = other := by
  apply Run.ext
  intro log
  have ends := same log
  generalize run.outcome log = end₁ at ends ⊢
  generalize other.outcome log = end₂ at ends ⊢
  cases ends with
  | ok related => rw [related]
  | error => rfl

end Coupling

end FlexLayout
