import Transcriber.Library.Execution

/-! Fencing of one resource by single-use tokens.
A start issues a token never issued before; a use or a finish is accepted from the newest
token only. Nothing about clocks is assumed: a holder may lose the resource at any time.
-/

namespace Fencing

open Execution

variable {τ π : Type*}

/-- Every token issued so far, newest first, and the accepted result with its token. -/
structure State (τ π : Type*) where
  issued : List τ
  result : Option (τ × π)

/-- A resource nobody has started. -/
def State.initial : State τ π := ⟨[], none⟩

inductive Event (τ π : Type*)
  | start (token : τ)
  | use (token : τ)
  | finish (token : τ) (payload : π)

/-- The token a start issues. -/
def Event.started? : Event τ π → Option τ
  | .start token => some token
  | .use _ | .finish _ _ => none

/-- The token that a use or a finish carries. -/
def Event.token? : Event τ π → Option τ
  | .use token | .finish token _ => some token
  | .start _ => none

/-- The result an event brings. -/
def Event.finished? : Event τ π → Option (τ × π)
  | .finish token payload => some (token, payload)
  | .start _ | .use _ => none

inductive Step : State τ π → Event τ π → State τ π → Prop
  | start {s token} (unfinished : s.result = none) (fresh : token ∉ s.issued)
    : Step s (.start token) { s with issued := token :: s.issued }
  | use {s token} (unfinished : s.result = none) (newest : s.issued.head? = some token)
    : Step s (.use token) s
  | finish {s token payload} (unfinished : s.result = none)
    (newest : s.issued.head? = some token)
    : Step s (.finish token payload) { s with result := some (token, payload) }

/-- The tokens issued by a list of events, newest first. -/
def issued (events : List (Event τ π)) : List τ := (events.filterMap Event.started?).reverse

/-- The issued tokens of a state are those of its history. -/
theorem issued_history {s : State τ π} {events : List (Event τ π)}
    (run : Run Step State.initial events s)
    : s.issued = issued events := by
  refine run.history (I := fun past state => state.issued = issued past) ?_ rfl
  intro past s event t known step
  have split : issued (past ++ [event]) = issued [event] ++ s.issued := by
    rw [known, issued, List.filterMap_append, List.reverse_append]
    rfl
  rw [split]
  cases step <;> rfl

/-- Only the newest token is accepted. -/
theorem accepted_newest {s t : State τ π} {event : Event τ π} {token : τ}
    (step : Step s event t) (accepted : event.token? = some token)
    : s.issued.head? = some token := by
  cases step with
  | start => simp [Event.token?] at accepted
  | use unfinished newest | finish unfinished newest =>
      simp only [Event.token?, Option.some.injEq] at accepted
      exact accepted ▸ newest

/-- An issued token that is not the newest never becomes the newest again: a start issues a
fresh token, and no other step changes the list.
-/
theorem stale_step {s t : State τ π} {event : Event τ π} {token : τ}
    (stale : token ∈ s.issued ∧ s.issued.head? ≠ some token) (step : Step s event t)
    : token ∈ t.issued ∧ t.issued.head? ≠ some token := by
  cases step with
  | start unfinished fresh =>
      refine ⟨List.mem_cons_of_mem _ stale.1, ?_⟩
      rw [List.head?_cons, ne_eq, Option.some.injEq]
      rintro rfl
      exact fresh stale.1
  | use | finish => exact stale

/-- An issued token that is accepted in some continuation is the newest one now. -/
theorem continues_newest {s t u : State τ π} {events : List (Event τ π)} {event : Event τ π}
    {token : τ} (known : token ∈ s.issued) (run : Run Step s events t)
    (step : Step t event u) (accepted : event.token? = some token)
    : s.issued.head? = some token := by
  by_contra other
  have stale := run.invariant (I := fun state => token ∈ state.issued
    ∧ state.issued.head? ≠ some token) (fun _ _ _ old step => stale_step old step)
    ⟨known, other⟩
  exact stale.2 (accepted_newest step accepted)

/-- The result is the only finished one: a finish sets it and ends all acceptance. -/
theorem result_history {s : State τ π} {events : List (Event τ π)}
    (run : Run Step State.initial events s)
    : events.filterMap Event.finished? = s.result.toList := by
  refine run.history (I := fun past state => past.filterMap Event.finished?
    = state.result.toList) ?_ rfl
  intro past s event t known step
  rw [List.filterMap_append, known]
  cases step with
  | start | use => simp [Event.finished?]
  | finish unfinished => simp [Event.finished?, unfinished]

end Fencing
