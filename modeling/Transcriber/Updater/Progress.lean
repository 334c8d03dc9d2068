import Transcriber.Updater.CrashSafety

/-! When `recover` can end: it needs the old container or a healthy replacement, and refuses a
replacement that is not managed. A crash between the removal of the old container and the save of
the journal leaves only the replacement.
-/

namespace Transcriber.Updater

variable {project : String} {s t u : State} {entry : Pending} {request : Request} {label : Label}
variable {docker next : Docker} {old new container : Container} {past : List Label}
variable {health : Health} {caller : Caller} {first second : RecoverStage}

-----------------------------------------------------------------------------------------
-- Requests that succeed
-----------------------------------------------------------------------------------------

namespace Docker

theorem perform_kill {id : String} (signal : Signal) (found : docker.byId id = some old)
    (running : old.running = true)
    : ∃ next, docker.perform (.kill id signal) = some next := by
  simp [perform, found, running]

theorem perform_start {id : String} (found : docker.byId id = some old)
    (stopped : old.running = false)
    : ∃ next, docker.perform (.start id) = some next := by
  simp [perform, found, stopped]

theorem perform_rename {id name : String} (found : docker.byId id = some old)
    (free : docker.byName name = none)
    : ∃ next, docker.perform (.rename id name) = some next := by
  simp [perform, found, free]

theorem perform_remove {id : String} (found : docker.byId id = some old)
    : ∃ next, docker.perform (.remove id) = some next := by
  simp [perform, found]

end Docker

-----------------------------------------------------------------------------------------
-- Recovery with every call answered
-----------------------------------------------------------------------------------------

/-- A step in which the call is answered and an inspected container has the given health. -/
def State.AnsweredStep (project : String) (health : Health) (s : State) (label : Label)
    (t : State) : Prop :=
  s.run project { health } = (label, t)

/-- From here `recover` returns normally, with the entry cleared. -/
def Clears (project : String) (health : Health) (entry : Pending) (s : State) : Prop :=
  ∃ past t,
    Execution.Run (State.AnsweredStep project health) s (past ++ [.cleared entry]) t
    ∧ (∀ message, .raised message ∉ past)
    ∧ t.journal.pending = none

/-- A call of `recover` returns normally, with the entry cleared. -/
def Completes (project : String) (health : Health) (entry : Pending) (s : State) (caller : Caller)
    : Prop :=
  Clears project health entry (s.recover caller)

/-- The old container exists or the replacement is healthy, and the container under the name is
managed.
-/
def Recoverable (project : String) (entry : Pending) (docker : Docker) (health : Health) : Prop :=
  ((docker.byId entry.old).isSome = true
    ∨ ∃ new, docker.byName entry.name = some new ∧ new.healthy health = true)
  ∧ ∀ new, docker.byName entry.name = some new → new.config.managed project = true

theorem Clears.step (step : s.AnsweredStep project health label t)
    (quiet : ∀ message, label ≠ .raised message) (clears : Clears project health entry t)
    : Clears project health entry s := by
  obtain ⟨past, u, run, silent, none⟩ := clears
  refine ⟨label :: past, u, .cons step run, ?_, none⟩
  intro message member
  rcases List.mem_cons.mp member with same | later
  · exact quiet message same.symm
  · exact silent message later

/-- The save is the end. -/
theorem clears_clearing (s : State) (rolledBack : Bool)
    : Clears project health entry (s.at_ (.recovering caller entry (.clearing rolledBack))) := by
  obtain ⟨pc, moved, _⟩ := State.returned_at
    { s with
      journal :=
        ⟨if rolledBack then s.journal.quarantine entry.service entry.image else s.journal.failed,
          none⟩
      pc := .recovering caller entry (.clearing rolledBack) } caller
  refine ⟨[], _, .single rfl, by simp, ?_⟩
  exact congrArg (fun t => t.journal.pending) moved

theorem State.issue_answered {answered failed : State → State}
    (performed : s.docker.perform request = some docker)
    : s.issue entry request .answered answered failed
      = (.call entry request .answered, answered { s with docker }) := by
  simp [State.issue, performed]

/-- A stage whose call succeeds goes on where the call leads. -/
theorem clears_call (performed : ∃ docker, s.docker.perform request = some docker)
    (step
      : (s.at_ (.recovering caller entry first)).run project { health }
        = (s.at_ (.recovering caller entry first)).issue entry request .answered
            (fun u => u.at_ (.recovering caller entry second)) (fun u => u.raised caller))
    (wf : s.docker.Wf)
    (clears
      : ∀ docker,
          s.docker.Effect request docker
          → docker.Wf
          → Clears project health entry
              ({ s with docker }.at_ (.recovering caller entry second)))
    : Clears project health entry (s.at_ (.recovering caller entry first)) := by
  obtain ⟨docker, performed⟩ := performed
  obtain ⟨effect, kept⟩ := Docker.perform_effect wf performed
  have answered : State.AnsweredStep project health (s.at_ (.recovering caller entry first))
      (.call entry request .answered) ({ s with docker }.at_ (.recovering caller entry second)) :=
    step.trans (State.issue_answered performed)
  exact (clears docker effect kept).step answered nofun

/-- An old container under its name is kept. -/
theorem Intact.clears (wf : s.docker.Wf) (intact : Intact project entry s.docker old)
    (decided : State.recovery project entry (some old) (some old) health = .ok first)
    : Clears project health entry (s.at_ (.recovering caller entry first)) := by
  simp only [State.recovery, intact.id, if_true, intact.managed, Bool.not_true,
    Bool.false_eq_true, if_false] at decided
  split at decided
  · rename_i stopped
    cases decided
    refine clears_call (Docker.perform_start intact.found (by simpa using stopped)) rfl wf ?_
    exact fun _ _ _ => clears_clearing _ false
  · rename_i runs
    split at decided <;> cases decided
    · refine clears_call (Docker.perform_kill .usr2 intact.found (by simpa using runs)) rfl wf ?_
      exact fun _ _ _ => clears_clearing _ false
    · exact clears_clearing s false

/-- A stopped old container gets its free name back and starts. -/
theorem BackedUp.clears (wf : s.docker.Wf) (backedUp : BackedUp project entry s.docker old)
    : Clears project health entry (s.at_ (.recovering caller entry (.restoring old))) := by
  have found : s.docker.byId old.id = some old := by
    rw [backedUp.id]
    exact backedUp.found
  refine clears_call (Docker.perform_rename found backedUp.free) rfl wf ?_
  intro docker effect kept
  rw [backedUp.id] at effect
  have intact := backedUp.rename effect
  have renamed := intact.found
  rw [← backedUp.id] at renamed
  refine clears_call (Docker.perform_start renamed backedUp.stopped) rfl kept ?_
  exact fun _ _ _ => clears_clearing _ true

/-- A replacement is kept if it is healthy, and else given up, as long as it is managed. -/
theorem Replaced.clears (wf : s.docker.Wf) (replaced : Replaced project entry s.docker old new)
    (decided : State.recovery project entry (some old) (some new) health = .ok first)
    : Clears project health entry (s.at_ (.recovering caller entry first)) := by
  simp only [State.recovery, replaced.apart, if_false, replaced.managed, if_true, Bool.not_true,
    Bool.false_eq_true] at decided
  split at decided
  · cases decided
    have found : s.docker.byId old.id = some old := by
      rw [replaced.id]
      exact replaced.found
    refine clears_call (Docker.perform_remove found) rfl wf ?_
    exact fun _ _ _ => clears_clearing _ false
  · split at decided <;> cases decided
    refine clears_call (Docker.perform_remove (replaced.foundNew wf)) rfl wf ?_
    intro docker effect kept
    have backedUp := replaced.removeNew wf effect
    exact BackedUp.clears kept backedUp

-----------------------------------------------------------------------------------------
-- The two inspections
-----------------------------------------------------------------------------------------

/-- `recover` ends from its decision on. -/
theorem clears_decided (standing : Standing project s) (pending : s.journal.pending = some entry)
    (decided
      : State.recovery project entry (s.docker.byId entry.old) (s.docker.byName entry.name) health
        = .ok first)
    : Clears project health entry (s.at_ (.recovering caller entry first)) := by
  cases standing.situation entry pending with
  | intact intact =>
      rw [intact.found, intact.bound] at decided
      exact intact.clears standing.wf decided
  | backedUp backedUp =>
      rw [backedUp.found, backedUp.free] at decided
      simp only [State.recovery, backedUp.managed, if_true] at decided
      cases decided
      exact backedUp.clears standing.wf
  | replaced replaced =>
      rw [replaced.found, replaced.bound] at decided
      exact replaced.clears standing.wf decided
  | @committed new committed =>
      rw [committed.gone, committed.bound] at decided
      simp only [State.recovery] at decided
      split at decided
      · rename_i same
        have found := standing.wf.byId_of_byName committed.bound
        rw [same, committed.gone] at found
        cases found
      · split at decided <;> cases decided
        exact clears_clearing s false

/-- The decision is made exactly in the states that `recover` can settle. -/
theorem Situation.recovery_iff (situation : Situation project entry docker) (wf : docker.Wf)
    : (∃ stage,
        State.recovery project entry (docker.byId entry.old) (docker.byName entry.name) health
          = .ok stage)
      ↔ Recoverable project entry docker health := by
  cases situation with
  | @intact old intact =>
      rw [Recoverable, intact.found, intact.bound]
      constructor
      · intro _
        refine ⟨.inl rfl, ?_⟩
        rintro new ⟨⟩
        exact intact.managed
      · intro _
        simp only [State.recovery, intact.id, if_true, intact.managed, Bool.not_true,
          Bool.false_eq_true, if_false]
        split
        · exact ⟨_, rfl⟩
        · split <;> exact ⟨_, rfl⟩
  | @backedUp old backedUp =>
      rw [Recoverable, backedUp.found, backedUp.free]
      constructor
      · intro _
        refine ⟨.inl rfl, ?_⟩
        rintro new ⟨⟩
      · intro _
        simp only [State.recovery, backedUp.managed, if_true]
        exact ⟨_, rfl⟩
  | @replaced old new replaced =>
      rw [Recoverable, replaced.found, replaced.bound]
      simp only [State.recovery, replaced.apart, if_false, replaced.managed, if_true,
        Bool.not_true, Bool.false_eq_true]
      constructor
      · rintro ⟨stage, decided⟩
        refine ⟨.inl rfl, ?_⟩
        rintro new ⟨⟩
        split at decided
        · rename_i healthy
          exact (Bool.and_eq_true_iff.mp healthy).1
        · split at decided <;> cases decided
          assumption
      · rintro ⟨_, managed⟩
        rw [managed new rfl]
        split
        · exact ⟨_, rfl⟩
        · exact ⟨_, rfl⟩
  | @committed new committed =>
      have apart : new.id ≠ entry.old := by
        intro same
        have found := wf.byId_of_byName committed.bound
        rw [same, committed.gone] at found
        cases found
      rw [Recoverable, committed.gone, committed.bound]
      simp only [State.recovery, apart, if_false, committed.managed, Bool.true_and]
      constructor
      · rintro ⟨stage, decided⟩
        split at decided
        · rename_i healthy
          refine ⟨.inr ⟨new, rfl, healthy⟩, ?_⟩
          rintro other ⟨⟩
          exact committed.managed
        · cases decided
      · rintro ⟨none | ⟨other, ⟨⟩, healthy⟩, _⟩
        · cases none
        · rw [if_pos healthy]
          exact ⟨_, rfl⟩

/-- Where no decision is made `recover` raises. -/
theorem not_clears (s : State) {message : String}
    (refused
      : State.recovery project entry (s.docker.byId entry.old) (s.docker.byName entry.name) health
        = .error message)
    : ¬ Clears project health entry (s.at_ (.recovering caller entry .inspectingOld)) := by
  rintro ⟨past, t, run, silent, _⟩
  have shown := run.history
    (I := fun past u =>
      past = [] ∧ u = s.at_ (.recovering caller entry .inspectingOld)
      ∨ past = [.silent]
        ∧ u = s.at_ (.recovering caller entry (.inspectingNew (s.docker.byId entry.old)))
      ∨ .raised message ∈ past)
    (by
      rintro past u label v (⟨rfl, rfl⟩ | ⟨rfl, rfl⟩ | raised) step
      · cases step
        exact .inr (.inl ⟨rfl, rfl⟩)
      · have shown : label = .raised message := by
          refine (congrArg Prod.fst step).symm.trans ?_
          simp [State.run, State.recovering, refused]
        exact .inr (.inr (by simp [shown]))
      · exact .inr (.inr (List.mem_append_left _ raised)))
    (.inl ⟨rfl, rfl⟩)
  rcases shown with ⟨none, _⟩ | ⟨one, _⟩ | raised
  · simp at none
  · have parts : past ++ [.cleared entry] = [] ++ [.silent] := one
    obtain ⟨_, last⟩ := List.append_inj' parts rfl
    cases last
  · rcases List.mem_append.mp raised with before | last
    · exact silent message before
    · cases List.mem_singleton.mp last

/-- In a sound state a call of `recover` with answered calls clears the entry exactly where it can
be settled.
-/
theorem Standing.completes_iff (standing : Standing project s)
    (pending : s.journal.pending = some entry) (caller : Caller)
    : Completes project health entry s caller ↔ Recoverable project entry s.docker health := by
  rw [← (standing.situation entry pending).recovery_iff standing.wf, Completes, State.recover,
    pending]
  constructor
  · intro clears
    cases decided : State.recovery project entry (s.docker.byId entry.old)
        (s.docker.byName entry.name) health with
    | ok stage => exact ⟨stage, rfl⟩
    | error message => exact absurd clears (not_clears s decided)
  · rintro ⟨stage, decided⟩
    have inspectedOld : State.AnsweredStep project health
        (s.at_ (.recovering caller entry .inspectingOld)) .silent
        (s.at_ (.recovering caller entry (.inspectingNew (s.docker.byId entry.old)))) := rfl
    have inspectedNew : State.AnsweredStep project health
        (s.at_ (.recovering caller entry (.inspectingNew (s.docker.byId entry.old))))
        (.inspected entry (s.docker.byName entry.name) health)
        (s.at_ (.recovering caller entry stage)) := by
      simp [State.AnsweredStep, State.run, State.recovering, decided]
    refine Clears.step inspectedOld (by simp) (Clears.step inspectedNew (by simp) ?_)
    exact clears_decided standing pending decided

/-- In every state that runs with crashes and failing calls reach, `recover` ends if every call is
answered from then on exactly where the old container still exists or the replacement is healthy,
and the replacement is managed.
-/
theorem recover_completes_iff {start : State} (starts : start.Starts)
    (run : Execution.Run (State.OrdinaryStep project) start past s)
    (pending : s.journal.pending = some entry) (caller : Caller)
    : Completes project health entry s caller ↔ Recoverable project entry s.docker health := by
  have safe : Safe project start past s :=
    run.history (fun _ _ _ _ safe step => safe.step step) starts.safe
  exact safe.sound.toStanding.completes_iff pending caller

-----------------------------------------------------------------------------------------
-- A crash between the removal and the save
-----------------------------------------------------------------------------------------

/-- The replacement becomes healthy, the old container is removed, and the updater crashes before
it saves the journal.
-/
def removedUnsaved : List Label × State :=
  Execution.play (State.exec "workers") (fun _ _ label => label.ordinary) [] device
    (chooseWorker ++ replaceWorker ++ List.replicate 5 (.run {}) ++ [.crash])

theorem removedUnsaved_run
    : Execution.Run (State.OrdinaryStep "workers") device removedUnsaved.1 removedUnsaved.2 :=
  (Execution.play_run (State.Step.of_exec "workers") (.nil _) _).run
    (fun _ _ _ _ met step => ⟨step, met⟩)

theorem removedUnsaved_pending : removedUnsaved.2.journal.pending = some sampleEntry := by
  decide +kernel

/-- With the replacement healthy again the recovery ends there. -/
theorem recover_completes_iff_healthy
    : Completes "workers" .healthy sampleEntry removedUnsaved.2 .reconcile := by
  have reached : (removedUnsaved.2.docker.byName "worker-cpu-1").any
      (fun new => new.healthy .healthy && new.config.managed "workers") = true := by
    decide +kernel
  obtain ⟨new, bound, holds⟩ := (Option.any_eq_true _ _).mp reached
  obtain ⟨healthy, managed⟩ := Bool.and_eq_true_iff.mp holds
  refine (recover_completes_iff device_starts removedUnsaved_run
    removedUnsaved_pending .reconcile).mpr ⟨.inr ⟨new, bound, healthy⟩, ?_⟩
  intro other same
  cases bound.symm.trans same
  exact managed

/-- While it is not healthy every recovery there raises. -/
theorem recover_blocked
    : removedUnsaved.2.journal.pending = some sampleEntry
      ∧ ((removedUnsaved.2.run "workers" {}).2.run "workers" {}).2.run "workers"
          { health := .starting }
        = (.raised "Worker rollback backup unavailable", removedUnsaved.2)
      ∧ ¬ Completes "workers" .starting sampleEntry removedUnsaved.2 .reconcile := by
  refine ⟨removedUnsaved_pending, by decide +kernel, ?_⟩
  have standing : Standing "workers" removedUnsaved.2 :=
    (removedUnsaved_run.history (fun _ _ _ _ safe step => safe.step step)
      device_starts.safe).sound.toStanding
  rw [standing.completes_iff removedUnsaved_pending]
  rintro ⟨old | ⟨new, bound, healthy⟩, _⟩
  · have gone : removedUnsaved.2.docker.byId "a1" = none := by decide +kernel
    rw [show sampleEntry.old = "a1" from rfl, gone] at old
    cases old
  · simp [Container.healthy] at healthy

end Transcriber.Updater
