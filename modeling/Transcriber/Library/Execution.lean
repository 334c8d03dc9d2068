import Mathlib.Data.List.Basic

/-! Finite executions of a labelled step relation, with their histories.
Invariants may mention the history, so that a fact about every past event is carried by
the same induction as a fact about the current state.
-/

namespace Execution

universe u v w x

variable {σ : Type u} {ε : Type v}

/-- `Run step s events t`: the events, in order, lead from `s` to `t`. The relation grows at
its end, which is where a history invariant is extended.
-/
inductive Run (step : σ → ε → σ → Prop) : σ → List ε → σ → Prop
  | nil (s : σ) : Run step s [] s
  | snoc {s t u : σ} {events : List ε} {event : ε} (run : Run step s events t)
    (last : step t event u)
    : Run step s (events ++ [event]) u

namespace Run

variable {step : σ → ε → σ → Prop} {s t u : σ} {events more : List ε} {event : ε}

theorem single (h : step s event t) : Run step s [event] t :=
  snoc (nil s) h

/-- A run of no event stays. -/
theorem of_nil (run : Run step s events t) (none : events = []) : s = t := by
  cases run with
  | nil => rfl
  | snoc => simp at none

/-- A run of one event is a step. -/
theorem of_single (run : Run step s events t) (one : events = [event]) : step s event t := by
  cases run with
  | nil => simp at one
  | @snoc _ _ past other run last =>
      have parts : past ++ [other] = [] ++ [event] := one
      obtain ⟨none, same⟩ := List.append_inj' parts rfl
      cases run.of_nil none
      cases same
      exact last

/-- Runs compose, by induction on the second run. -/
theorem append (first : Run step s events t) (second : Run step t more u)
    : Run step s (events ++ more) u := by
  induction second with
  | nil => simpa using first
  | snoc _ last ih => simpa only [List.append_assoc] using ih.snoc last

theorem cons (h : step s event t) (rest : Run step t events u)
    : Run step s (event :: events) u :=
  (single h).append rest

/-- A property kept by every step is kept by every run. -/
theorem invariant {I : σ → Prop} (keeps : ∀ s event t, I s → step s event t → I t)
    (run : Run step s events t) (initial : I s)
    : I t := by
  induction run with
  | nil => exact initial
  | snoc _ last ih => exact keeps _ _ _ ih last

/-- A property of the history and the state, extended by every step, holds after every run.
-/
theorem history {I : List ε → σ → Prop}
    (extend : ∀ past s event t, I past s → step s event t → I (past ++ [event]) t)
    (run : Run step s events t) (initial : I [] s)
    : I events t := by
  induction run with
  | nil => exact initial
  | snoc _ last ih => exact extend _ _ _ _ ih last

/-- The events of a run determine where it leads if its steps are functional. -/
theorem deterministic (functional : ∀ s event t t', step s event t → step s event t' → t = t')
    (run : Run step s events t) (run' : Run step s events u)
    : t = u := by
  induction run generalizing u with
  | nil => exact run'.of_nil rfl
  | @snoc t _ past event _ last ih =>
      generalize same : past ++ [event] = all at run'
      cases run' with
      | nil => simp at same
      | @snoc t' _ past' event' earlier last' =>
          obtain ⟨rfl, one⟩ := List.append_inj' same rfl
          cases one
          obtain rfl := ih earlier
          exact functional _ _ _ _ last last'

/-- A run may be read through a weaker step relation. -/
theorem mono {weaker : σ → ε → σ → Prop}
    (implies : ∀ s event t, step s event t → weaker s event t)
    (run : Run step s events t)
    : Run weaker s events t := by
  induction run with
  | nil => exact nil _
  | snoc _ last ih => exact ih.snoc (implies _ _ _ last)

/-- A run whose events all meet a condition is a run of the steps that meet it. -/
theorem restrict {P : ε → Prop} (run : Run step s events t) (all : ∀ event ∈ events, P event)
    : Run (fun s event t => step s event t ∧ P event) s events t := by
  induction run with
  | nil => exact nil _
  | snoc _ last ih =>
      rw [List.forall_mem_append, List.forall_mem_singleton] at all
      exact (ih all.1).snoc ⟨last, all.2⟩

/-- Simulation: if each concrete step is matched by a run of its observed abstract events,
so is each concrete run.
-/
theorem simulate {α : Type w} {β : Type x} {abstract : α → β → α → Prop}
    {related : σ → α → Prop} {observe : ε → List β}
    (matched : ∀ s event t a, related s a → step s event t
      → ∃ b, Run abstract a (observe event) b ∧ related t b)
    (run : Run step s events t) {a : α} (initial : related s a)
    : ∃ b, Run abstract a (events.flatMap observe) b ∧ related t b := by
  induction run with
  | nil => exact ⟨a, nil a, initial⟩
  | snoc _ last ih =>
      obtain ⟨middle, earlier, reached⟩ := ih
      obtain ⟨final, later, kept⟩ := matched _ _ _ _ reached last
      refine ⟨final, ?_, kept⟩
      simpa only [List.flatMap_append, List.flatMap_cons, List.flatMap_nil, List.append_nil]
        using earlier.append later

/-- The last step of a run. -/
theorem last (run : Run step s (events ++ [event]) u)
    : ∃ t, Run step s events t ∧ step t event u := by
  generalize same : events ++ [event] = all at run
  cases run with
  | nil => simp at same
  | snoc run last =>
      obtain ⟨rfl, one⟩ := List.append_inj' same rfl
      cases one
      exact ⟨_, run, last⟩

/-- A run passes through a state after each prefix of its events, by induction on the rest. -/
theorem of_append (run : Run step s (events ++ more) u) : ∃ t, Run step s events t := by
  induction more generalizing events with
  | nil => exact ⟨u, by simpa using run⟩
  | cons event rest ih =>
      have whole : Run step s ((events ++ [event]) ++ rest) u := by simpa using run
      obtain ⟨t, further⟩ := ih whole
      obtain ⟨t, earlier, _⟩ := further.last
      exact ⟨t, earlier⟩

/-- A run passes through one state between two parts of its events, by induction on the run. -/
theorem split (run : Run step s (events ++ more) u)
    : ∃ t, Run step s events t ∧ Run step t more u := by
  generalize same : events ++ more = all at run
  induction run generalizing more with
  | nil =>
      obtain ⟨rfl, rfl⟩ := List.append_eq_nil_iff.mp same
      exact ⟨_, nil _, nil _⟩
  | @snoc _ v past event run last ih =>
      rcases List.eq_nil_or_concat more with rfl | ⟨rest, final, rfl⟩
      · rw [List.append_nil] at same
        exact ⟨v, same ▸ run.snoc last, nil v⟩
      · have parts : (events ++ rest) ++ [final] = past ++ [event] := by simpa using same
        obtain ⟨earlier, one⟩ := List.append_inj' parts rfl
        cases one
        obtain ⟨t, first, second⟩ := ih earlier
        exact ⟨t, first, by simpa using second.snoc last⟩

/-- A step of a run with the runs around it. -/
theorem split_at (run : Run step s (events ++ event :: more) u)
    : ∃ t t', Run step s events t ∧ step t event t' ∧ Run step t' more u := by
  have parts : Run step s ((events ++ [event]) ++ more) u := by simpa using run
  obtain ⟨t', first, rest⟩ := parts.split
  obtain ⟨t, before, taken⟩ := first.last
  exact ⟨t, t', before, taken, rest⟩

end Run

/-- An event of a history that grew by one stands at its end or before it. -/
theorem snoc_split {past before after : List ε} {last event : ε}
    (split : past ++ [last] = before ++ event :: after)
    : past = before ∧ last = event ∧ after = []
      ∨ ∃ earlier, after = earlier ++ [last] ∧ past = before ++ event :: earlier := by
  rcases List.eq_nil_or_concat after with rfl | ⟨earlier, final, rfl⟩
  · obtain ⟨same, one⟩ := List.append_inj' split rfl
    exact .inl ⟨same, List.head_eq_of_cons_eq one, rfl⟩
  · have parts : past ++ [last] = (before ++ event :: earlier) ++ [final] := by
      simpa using split
    obtain ⟨same, one⟩ := List.append_inj' parts rfl
    cases one
    exact .inr ⟨earlier, List.concat_eq_append, same⟩

-----------------------------------------------------------------------------------------
-- Guarded runs
-----------------------------------------------------------------------------------------

/-- A run each of whose steps meets a condition on the events before it, the state and its
event.
-/
inductive GuardedRun (step : σ → ε → σ → Prop) (guard : List ε → σ → ε → Prop)
    : σ → List ε → σ → Prop
  | nil (s : σ) : GuardedRun step guard s [] s
  | snoc {s t u : σ} {events : List ε} {event : ε} (run : GuardedRun step guard s events t)
    (met : guard events t event) (last : step t event u)
    : GuardedRun step guard s (events ++ [event]) u

/-- A property of the history and the state that every guarded step extends. -/
theorem GuardedRun.history {step : σ → ε → σ → Prop} {guard : List ε → σ → ε → Prop}
    {I : List ε → σ → Prop} {s t : σ} {events : List ε}
    (extend
      : ∀ past s event t,
          I past s → guard past s event → step s event t → I (past ++ [event]) t)
    (run : GuardedRun step guard s events t) (initial : I [] s)
    : I events t := by
  induction run with
  | nil => exact initial
  | snoc _ met last ih => exact extend _ _ _ _ ih met last

/-- A guarded run is a run of the steps that its guard admits. -/
theorem GuardedRun.run {step admitted : σ → ε → σ → Prop} {guard : List ε → σ → ε → Prop}
    {s t : σ} {events : List ε} (run : GuardedRun step guard s events t)
    (admits : ∀ past s event t, guard past s event → step s event t → admitted s event t)
    : Run admitted s events t := by
  induction run with
  | nil => exact .nil _
  | snoc _ met last ih => exact ih.snoc (admits _ _ _ _ met last)

-----------------------------------------------------------------------------------------
-- Executable systems
-----------------------------------------------------------------------------------------

/-- Actions one after another after a history, without those that the state or the guard does
not admit.
-/
def play {α : Type w} (perform : σ → α → Option (ε × σ)) (guard : List ε → σ → ε → Bool)
    (past : List ε) (s : σ)
    : List α → List ε × σ
  | [] => (past, s)
  | action :: rest =>
      match perform s action with
      | none => play perform guard past s rest
      | some (event, t) =>
          if guard past s event then
            play perform guard (past ++ [event]) t rest
          else
            play perform guard past s rest

/-- Played actions prolong a guarded run, by induction on them. -/
theorem play_run {α : Type w} {step : σ → ε → σ → Prop} {perform : σ → α → Option (ε × σ)}
    {guard : List ε → σ → ε → Bool}
    (sound : ∀ s action event t, perform s action = some (event, t) → step s event t)
    {start s : σ} {past : List ε}
    (run : GuardedRun step (fun past s event => guard past s event) start past s)
    (actions : List α)
    : GuardedRun step (fun past s event => guard past s event) start
        (play perform guard past s actions).1 (play perform guard past s actions).2 := by
  induction actions generalizing past s with
  | nil => exact run
  | cons action rest ih =>
      unfold play
      split
      · exact ih run
      · rename_i event t done
        split
        · rename_i met
          exact ih (run.snoc met (sound _ _ _ _ done))
        · exact ih run

end Execution
