import Transcriber.Library.Execution
import Transcriber.Updater.Soundness

/-! No worker stays drained, and no stop is on its way to one, once no entry is pending for it: in
every run in which a SIGUSR1 reaches the process whose start the entry has recorded, and no SIGUSR1
and no stop is still on its way when `recover` decides.
-/

namespace Transcriber.Updater

open Function

-----------------------------------------------------------------------------------------
-- The condition
-----------------------------------------------------------------------------------------

/-- The requests that take a worker away. -/
def Request.disturbs (id : String) : Request → Bool
  | .stop other => other = id
  | .kill other .usr1 => other = id
  | _ => false

/-- The process that runs in a container is the one that the entry has recorded. -/
def State.recordedProcess (s : State) (id : String) : Bool :=
  (s.docker.byId id).all (fun container =>
    !container.running
    || s.journal.pending.all (fun entry => container.started = entry.started))

/-- A SIGUSR1 reaches the recorded process, and no request that takes the old container away is on
its way when `recover` decides.
-/
def State.punctual (s : State) : Label → Bool
  | .call _ (.kill id .usr1) .answered
  | .call _ (.kill id .usr1) .unanswered
  | .took (.kill id .usr1) _ => s.recordedProcess id
  | .inspected entry _ _ => s.inflight.all (fun request => !request.disturbs entry.old)
  | _ => true

variable {project : String} {s t : State} {entry : Pending} {request : Request} {label : Label}
variable {docker next : Docker} {old new container : Container} {id : String}

-----------------------------------------------------------------------------------------
-- Draining processes
-----------------------------------------------------------------------------------------

/-- Nothing comes back, and no process begins to drain but one of the ids given. -/
structure Docker.Settles (docker next : Docker) (signalled : String → Prop) : Prop where
  wf : next.Wf
  used : ∀ id ∈ docker.used, id ∈ next.used
  gone : ∀ id ∈ docker.used, docker.byId id = none → next.byId id = none
  draining
    : ∀ id new,
        next.byId id = some new
        → new.draining = true
        → ∃ old,
            docker.byId id = some old
            ∧ old.started = new.started
            ∧ (old.draining = true ∨ signalled id ∧ old.running = true)

namespace Docker

/-- A change of one container, whose process begins to drain only if it is signalled. -/
theorem Changes.settles {signalled : String → Prop} (changes : docker.Changes next old new)
    (wf : next.Wf)
    (drains
      : new.draining = true
        → old.started = new.started
          ∧ (old.draining = true ∨ signalled old.id ∧ old.running = true))
    : docker.Settles next signalled where
  wf := wf
  used := fun _ used => changes.used ▸ used
  gone := fun _ _ gone => changes.gone gone
  draining := by
    intro id after found draining
    rw [changes.byId, update_apply] at found
    split at found
    · rename_i same
      cases found
      subst same
      exact ⟨old, changes.found, drains draining⟩
    · exact ⟨after, found, rfl, .inl draining⟩

/-- A request makes a process drain only as a SIGUSR1 to it. -/
theorem Effect.settles (effect : docker.Effect request next) (wf : next.Wf)
    : docker.Settles next (fun id => request = .kill id .usr1) := by
  have used : ∀ id ∈ docker.used, id ∈ next.used := fun _ used => effect.used used
  have gone : ∀ id ∈ docker.used, docker.byId id = none → next.byId id = none :=
    fun _ used gone => effect.gone used gone
  cases effect with
  | kill signal running changes =>
      refine changes.settles wf (fun draining => ⟨rfl, .inr ⟨?_, running⟩⟩)
      cases signal with
      | usr1 => rfl
      | usr2 => simp at draining
  | stop running changes => exact changes.settles wf (fun draining => by cases draining)
  | start started stopped changes => exact changes.settles wf (fun draining => by cases draining)
  | rename name free changes => exact changes.settles wf (fun draining => ⟨rfl, .inl draining⟩)
  | create name new image config adds =>
      refine ⟨wf, used, gone, ?_⟩
      intro id after found draining
      rw [adds.byId, update_apply] at found
      split at found
      · cases found
        cases draining
      · exact ⟨after, found, rfl, .inl draining⟩
  | remove removes =>
      refine ⟨wf, used, gone, ?_⟩
      intro id after found draining
      rw [removes.byId, update_apply] at found
      split at found
      · cases found
      · exact ⟨after, found, rfl, .inl draining⟩

/-- A process is not draining when it has just started or received a SIGUSR2. -/
theorem Effect.started_undrained (effect : docker.Effect (.start id) next)
    (found : next.byId id = some container)
    : container.draining = false := by
  obtain ⟨old, started, before, _, changes⟩ := effect.of_start
  rw [changes.byId, byId_id before, update_self] at found
  cases found
  rfl

theorem Effect.resumed_undrained (effect : docker.Effect (.kill id .usr2) next)
    (found : next.byId id = some container)
    : container.draining = false := by
  obtain ⟨old, before, _, changes⟩ := effect.of_kill
  rw [changes.byId, byId_id before, update_self] at found
  cases found
  rfl

theorem Effect.removed_gone (effect : docker.Effect (.remove id) next) : next.byId id = none := by
  obtain ⟨old, before, removes⟩ := effect.of_remove
  rw [removes.byId, byId_id before, update_self]

end Docker

-----------------------------------------------------------------------------------------
-- Accounted disturbances
-----------------------------------------------------------------------------------------

/-- Every draining process, and every request on its way that takes a container away, is the pending
entry's.
-/
structure Accounted (s : State) : Prop where
  wf : s.docker.Wf
  used : ∀ entry, s.journal.pending = some entry → entry.old ∈ s.docker.used
  draining
    : ∀ id container,
        s.docker.byId id = some container
        → container.draining = true
        → ∃ entry,
            s.journal.pending = some entry
            ∧ entry.old = id
            ∧ entry.started = container.started
  inflight
    : ∀ request ∈ s.inflight, ∀ id,
        request.disturbs id = true
        → ∃ entry, s.journal.pending = some entry ∧ entry.old = id

/-- No request on its way takes the entry's container away. -/
def Undisturbed (entry : Pending) (inflight : List Request) : Prop :=
  ∀ request ∈ inflight, request.disturbs entry.old = false

/-- What holds at each stage of `recover`. -/
def RecoverAccount (entry : Pending) (docker : Docker) (inflight : List Request)
    : RecoverStage → Prop
  | .inspectingOld => True
  | .inspectingNew old =>
      (∀ container, old = some container → container.id = entry.old)
      ∧ (old = none → docker.byId entry.old = none)
  | .starting | .resuming => Undisturbed entry inflight
  | .committing old | .removing old _ | .restoring old | .restarting old =>
      Undisturbed entry inflight ∧ old.id = entry.old
  | .clearing _ =>
      Undisturbed entry inflight
      ∧ ∀ container, docker.byId entry.old = some container → container.draining = false

/-- What holds where the updater is. -/
def Account (s : State) : Pc → Prop
  | .idle => True
  | .releasing | .listing _ | .choosing _ => s.journal.pending = none
  | .pulling update _ => s.journal.pending = none ∧ update.old.id ∈ s.docker.used
  | .updating update _ .recording =>
      s.journal.pending = none ∧ update.old.id ∈ s.docker.used
  | .updating update _ _ => s.journal.pending = some update.pending
  | .recovering _ entry stage =>
      s.journal.pending = some entry ∧ RecoverAccount entry s.docker s.inflight stage

/-- All that an ordinary or late step must keep. -/
structure Quiet (s : State) : Prop extends Accounted s where
  place : Account s s.pc

/-- Other parties may settle containers and requests on their way may take effect anywhere. -/
theorem Account.settle {signalled : String → Prop} {pc : Pc} (account : Account s pc)
    (accounted : Accounted s) (settles : s.docker.Settles t.docker signalled)
    (journal : t.journal = s.journal) (inflight : t.inflight ⊆ s.inflight)
    (unsignalled : ∀ id, signalled id → ∃ request ∈ s.inflight, request.disturbs id = true)
    : Account t pc := by
  have undisturbed : ∀ entry, Undisturbed entry s.inflight → Undisturbed entry t.inflight :=
    fun entry undisturbed request member => undisturbed request (inflight member)
  cases pc with
  | idle => trivial
  | releasing | listing | choosing => exact (congrArg Journal.pending journal).trans account
  | pulling update health =>
      exact ⟨(congrArg Journal.pending journal).trans account.1, settles.used _ account.2⟩
  | updating update target stage =>
      cases stage with
      | recording =>
          exact ⟨(congrArg Journal.pending journal).trans account.1, settles.used _ account.2⟩
      | _ => exact (congrArg Journal.pending journal).trans account
  | recovering caller entry stage =>
      obtain ⟨pending, account⟩ := account
      refine ⟨(congrArg Journal.pending journal).trans pending, ?_⟩
      have used := accounted.used entry pending
      cases stage with
      | inspectingOld => trivial
      | inspectingNew old => exact ⟨account.1, fun none => settles.gone _ used (account.2 none)⟩
      | starting | resuming => exact undisturbed entry account
      | committing | removing | restoring | restarting =>
          exact ⟨undisturbed entry account.1, account.2⟩
      | clearing rolledBack =>
          refine ⟨undisturbed entry account.1, ?_⟩
          intro container found
          cases draining : container.draining with
          | false => rfl
          | true =>
              obtain ⟨old, before, _, drained | ⟨signalled, _⟩⟩ :=
                settles.draining _ _ found draining
              · cases (account.2 old before).symm.trans drained
              · obtain ⟨request, member, disturbs⟩ := unsignalled _ signalled
                cases (account.1 request member).symm.trans disturbs

/-- The accounts stay right where a process that is signalled is the recorded one. -/
theorem Accounted.settle {signalled : String → Prop} (accounted : Accounted s)
    (settles : s.docker.Settles t.docker signalled) (journal : t.journal = s.journal)
    (inflight
      : ∀ request ∈ t.inflight, ∀ id,
          request.disturbs id = true
          → ∃ entry, s.journal.pending = some entry ∧ entry.old = id)
    (recorded
      : ∀ id old,
          signalled id
          → s.docker.byId id = some old
          → old.running = true
          → ∃ entry,
              s.journal.pending = some entry ∧ entry.old = id ∧ entry.started = old.started)
    : Accounted t where
  wf := settles.wf
  used := fun entry pending => settles.used _ (accounted.used entry (journal ▸ pending))
  draining := by
    intro id container found draining
    rw [journal]
    obtain ⟨old, before, started, drained | ⟨signal, running⟩⟩ :=
      settles.draining id container found draining
    · rw [← started]
      exact accounted.draining id old before drained
    · rw [← started]
      exact recorded id old signal before running
  inflight := by
    rw [journal]
    exact inflight

theorem Accounted.at_ {pc : Pc} (accounted : Accounted s) (account : Account s pc)
    : Quiet (s.at_ pc) :=
  ⟨⟨accounted.wf, accounted.used, accounted.draining, accounted.inflight⟩, account⟩

theorem Accounted.returned (accounted : Accounted s) (none : s.journal.pending = none)
    (caller : Caller)
    : Quiet (s.returned caller) := by
  cases caller with
  | reconcile | deferred | finished => exact accounted.at_ none
  | handler => exact accounted.at_ trivial

theorem Accounted.recover (accounted : Accounted s) (caller : Caller)
    : Quiet (s.recover caller) := by
  unfold State.recover
  split
  · rename_i none
    exact accounted.returned none caller
  · rename_i pending
    exact accounted.at_ ⟨pending, trivial⟩

theorem Accounted.raised (accounted : Accounted s) (caller : Caller)
    : Quiet (s.raised caller) := by
  cases caller with
  | reconcile | handler => exact accounted.at_ trivial
  | deferred _ | finished _ => exact accounted.recover .handler

/-- The recorded process by the condition on a SIGUSR1. -/
theorem State.recordedProcess_started (recorded : s.recordedProcess id = true)
    (pending : s.journal.pending = some entry) (found : s.docker.byId id = some container)
    (running : container.running = true)
    : entry.started = container.started := by
  have started : container.started = entry.started := by
    simpa [State.recordedProcess, found, running, pending] using recorded
  exact started.symm

/-- A call of the updater: it takes away at most the entry's container. -/
theorem Accounted.issue (accounted : Accounted s) (pending : s.journal.pending = some entry)
    (own : ∀ id, request.disturbs id = true → entry.old = id) {pc : Pc}
    {failed : State → State} {reply : Reply}
    (answered
      : ∀ docker,
          s.docker.Effect request docker
          → s.docker.Settles docker (fun id => request = .kill id .usr1)
          → Account { s with docker } pc)
    (errors : ∀ t, Accounted t → Quiet (failed t))
    (done : s.issue entry request reply (fun t => t.at_ pc) failed = (label, t))
    (punctual : s.punctual label = true)
    : Quiet t := by
  have performed : ∀ docker, s.docker.perform request = some docker
      → (∀ id, request = .kill id .usr1 → s.recordedProcess id = true)
      → s.docker.Effect request docker
        ∧ s.docker.Settles docker (fun id => request = .kill id .usr1)
        ∧ Accounted { s with docker } := by
    intro docker performed recorded
    obtain ⟨effect, wf⟩ := Docker.perform_effect accounted.wf performed
    have settles := effect.settles wf
    refine ⟨effect, settles, accounted.settle settles rfl accounted.inflight ?_⟩
    intro id old signal found running
    refine ⟨entry, pending, own id ?_, ?_⟩
    · rw [signal]
      simp [Request.disturbs]
    · exact State.recordedProcess_started (recorded id signal) pending found running
  unfold State.issue at done
  split at done
  · rename_i docker succeeded
    cases done
    obtain ⟨effect, settles, after⟩ := performed docker succeeded (by
      rintro id rfl
      exact punctual)
    exact after.at_ (answered docker effect settles)
  · rename_i docker succeeded
    cases done
    obtain ⟨_, _, after⟩ := performed docker succeeded (by
      rintro id rfl
      exact punctual)
    exact errors _ after
  · cases done
    refine errors _ ⟨accounted.wf, accounted.used, accounted.draining, ?_⟩
    intro other member id disturbs
    rcases List.mem_append.mp member with before | last
    · exact accounted.inflight other before id disturbs
    · cases List.mem_singleton.mp last
      exact ⟨entry, pending, own id disturbs⟩
  · cases done
    exact errors s accounted

-----------------------------------------------------------------------------------------
-- Steps
-----------------------------------------------------------------------------------------

/-- A process that `recover` neither resumes nor starts again is not draining: its start is not the
recorded one.
-/
theorem Accounted.recovery (accounted : Accounted s) (pending : s.journal.pending = some entry)
    {inspected : Option Container} {health : Health} {stage : RecoverStage}
    (account : RecoverAccount entry s.docker s.inflight (.inspectingNew inspected))
    (undisturbed : Undisturbed entry s.inflight)
    (decided
      : State.recovery project entry inspected (s.docker.byName entry.name) health = .ok stage)
    : RecoverAccount entry s.docker s.inflight stage := by
  generalize bound : s.docker.byName entry.name = under at decided
  unfold State.recovery at decided
  split at decided
  · rename_i new old
    split at decided
    · rename_i same
      split at decided
      · cases decided
      · split at decided
        · cases decided
          exact undisturbed
        · split at decided <;> cases decided
          · exact undisturbed
          · rename_i restarted
            refine ⟨undisturbed, ?_⟩
            intro container found
            have here := accounted.wf.byId_of_byName bound
            rw [same, found] at here
            obtain rfl := Option.some.inj here
            by_contra drains
            obtain ⟨other, recorded, _, started⟩ :=
              accounted.draining _ _ found (Bool.eq_true_of_not_eq_false drains)
            cases pending.symm.trans recorded
            exact restarted started.symm
    · split at decided
      · split at decided
        · cases decided
          refine ⟨undisturbed, ?_⟩
          intro container found
          cases (account.2 rfl).symm.trans found
        · split at decided <;> cases decided
          exact ⟨undisturbed, account.1 _ rfl⟩
      · split at decided
        · cases decided
        · split at decided
          · cases decided
          · split at decided <;> cases decided
            exact ⟨undisturbed, account.1 _ rfl⟩
  · cases decided
  · split at decided <;> cases decided
    exact ⟨undisturbed, account.1 _ rfl⟩

/-- A step of `recover`, by cases on its stage. -/
theorem Accounted.recovering (accounted : Accounted s)
    (pending : s.journal.pending = some entry) {stage : RecoverStage}
    (account : RecoverAccount entry s.docker s.inflight stage) {c : Choice} {caller : Caller}
    (done : s.recovering project c caller entry stage = (label, t))
    (punctual : s.punctual label = true)
    : Quiet t := by
  have errors : ∀ u, Accounted u → Quiet (u.raised caller) :=
    fun u accounted => accounted.raised caller
  cases stage with
  | inspectingOld =>
      simp only [State.recovering] at done
      split at done <;> cases done
      · refine accounted.at_ ⟨pending, ?_, id⟩
        intro container found
        exact Docker.byId_id found
      · exact errors s accounted
  | inspectingNew old =>
      simp only [State.recovering] at done
      split at done
      · split at done <;> cases done
        · rename_i decided
          have undisturbed : Undisturbed entry s.inflight := by
            simpa [State.punctual, Undisturbed] using punctual
          exact accounted.at_ ⟨pending, accounted.recovery pending account undisturbed decided⟩
        · exact errors s accounted
      · cases done
        exact errors s accounted
  | starting =>
      refine accounted.issue pending (fun _ disturbs => by cases disturbs) ?_ errors done punctual
      intro docker effect settles
      exact ⟨pending, account, fun _ found => effect.started_undrained found⟩
  | resuming =>
      refine accounted.issue pending (fun _ disturbs => by cases disturbs) ?_ errors done punctual
      intro docker effect settles
      exact ⟨pending, account, fun _ found => effect.resumed_undrained found⟩
  | committing old =>
      refine accounted.issue pending (fun _ disturbs => by cases disturbs) ?_ errors done punctual
      intro docker effect settles
      refine ⟨pending, account.1, ?_⟩
      intro container found
      rw [← account.2] at found
      cases effect.removed_gone.symm.trans found
  | removing old new | restoring old =>
      refine accounted.issue pending (fun _ disturbs => by cases disturbs) ?_ errors done punctual
      intro docker effect settles
      exact ⟨pending, account⟩
  | restarting old =>
      refine accounted.issue pending (fun _ disturbs => by cases disturbs) ?_ errors done punctual
      intro docker effect settles
      refine ⟨pending, account.1, ?_⟩
      intro container found
      rw [← account.2] at found
      exact effect.started_undrained found
  | clearing rolledBack =>
      obtain ⟨undisturbed, undrained⟩ := account
      simp only [State.recovering] at done
      generalize (if rolledBack then _ else _) = failed at done
      have cleared : Accounted { s with journal := ⟨failed, none⟩ } := by
        refine ⟨accounted.wf, fun _ none => (by cases none), ?_, ?_⟩
        · intro id container found draining
          obtain ⟨other, recorded, rfl, _⟩ := accounted.draining id container found draining
          cases pending.symm.trans recorded
          cases (undrained container found).symm.trans draining
        · intro request member id disturbs
          obtain ⟨other, recorded, rfl⟩ := accounted.inflight request member id disturbs
          cases pending.symm.trans recorded
          cases (undisturbed request member).symm.trans disturbs
      cases done
      exact cleared.returned rfl caller

/-- The entry of a container that exists is recorded while none is, or again. -/
theorem Accounted.record (accounted : Accounted s) (used : entry.old ∈ s.docker.used)
    (before : s.journal.pending = none ∨ s.journal.pending = some entry)
    : Accounted { s with journal := { s.journal with pending := some entry } } := by
  have recorded : ∀ other, s.journal.pending = some other → other = entry := by
    intro other pending
    rcases before with none | same
    · cases none.symm.trans pending
    · exact (Option.some.inj (same.symm.trans pending)).symm
  refine ⟨accounted.wf, ?_, ?_, ?_⟩
  · rintro other ⟨⟩
    exact used
  · intro id container found draining
    obtain ⟨other, pending, holds⟩ := accounted.draining id container found draining
    exact ⟨entry, rfl, recorded other pending ▸ holds⟩
  · intro request member id disturbs
    obtain ⟨other, pending, holds⟩ := accounted.inflight request member id disturbs
    exact ⟨entry, rfl, recorded other pending ▸ holds⟩

/-- A step of `update` after its checks, by cases on its stage. -/
theorem Accounted.updating (accounted : Accounted s) {update : Update} {target : Image}
    {stage : UpdateStage} (account : Account s (.updating update target stage)) {c : Choice}
    (done : s.updating c update target stage = (label, t))
    (punctual : s.punctual label = true)
    : Quiet t := by
  have errors : ∀ u, Accounted u → Quiet (u.recover .handler) :=
    fun u accounted => accounted.recover .handler
  cases stage with
  | recording =>
      have used : update.pending.old ∈ s.docker.used := account.2
      have recorded := accounted.record used (.inl account.1)
      cases done
      exact recorded.at_ (show Account _ (.updating update target .signalling) from rfl)
  | rerecording =>
      have pending : s.journal.pending = some update.pending := account
      have recorded := accounted.record (accounted.used _ pending) (.inr pending)
      cases done
      exact recorded.at_ (show Account _ (.updating update target .stopping) from rfl)
  | draining =>
      simp only [State.updating] at done
      split at done
      · cases done
        exact errors s accounted
      · split at done
        · cases done
          exact accounted.at_ account
        · split at done <;> cases done
          · exact accounted.recover _
          · exact accounted.at_ account
  | reading =>
      simp only [State.updating] at done
      split at done <;> cases done
      · exact accounted.at_ account
      · exact errors s accounted
  | watching created =>
      simp only [State.updating] at done
      split at done
      · cases done
        exact accounted.recover _
      · split at done
        · cases done
          exact errors s accounted
        · split at done
          · split at done <;> cases done
            · exact accounted.recover _
            · exact accounted.at_ account
          · cases done
            exact accounted.recover _
  | signalling | stopping =>
      have pending : s.journal.pending = some update.pending := account
      refine accounted.issue pending ?_ ?_ errors done punctual
      · intro id disturbs
        exact of_decide_eq_true disturbs
      · intro docker effect settles
        exact pending
  | _ =>
      have pending : s.journal.pending = some update.pending := account
      refine accounted.issue pending (fun _ disturbs => by cases disturbs) ?_ errors done punctual
      intro docker effect settles
      exact pending

/-- Between two updates no entry is pending. -/
theorem Quiet.between (quiet : Quiet s) (at_ : s.pc.between = true)
    : s.journal.pending = none := by
  have place := quiet.place
  generalize s.pc = pc at at_ place
  cases pc with
  | releasing | listing | choosing => exact place
  | pulling => exact place.1
  | _ => cases at_

/-- Another party's step settles containers in place. -/
theorem Quiet.settle {signalled : String → Prop} (quiet : Quiet s)
    (settles : s.docker.Settles t.docker signalled) (journal : t.journal = s.journal)
    (pc : t.pc = s.pc) (inflight : t.inflight ⊆ s.inflight)
    (own : ∀ id, signalled id → ∃ request ∈ s.inflight, request.disturbs id = true)
    (recorded : ∀ id, signalled id → s.recordedProcess id = true)
    : Quiet t := by
  refine ⟨quiet.toAccounted.settle settles journal ?_ ?_, ?_⟩
  · exact fun request member => quiet.inflight request (inflight member)
  · intro id old signal found running
    obtain ⟨request, member, disturbs⟩ := own id signal
    obtain ⟨entry, pending, same⟩ := quiet.inflight request member id disturbs
    exact ⟨entry, pending, same,
      State.recordedProcess_started (recorded id signal) pending found running⟩
  · rw [pc]
    exact quiet.place.settle quiet.toAccounted settles journal inflight own

/-- Every step that meets the condition keeps all accounts, by cases on it. -/
theorem Quiet.step (quiet : Quiet s) (step : s.Step project label t)
    (punctual : s.punctual label = true)
    : Quiet t := by
  have accounted := quiet.toAccounted
  have account := quiet.place
  cases step.moves with
  | crash => exact accounted.at_ trivial
  | start => exact accounted.recover .reconcile
  | stop => exact accounted.at_ trivial
  | list _ at_ | skip _ at_ => exact accounted.at_ (quiet.between at_)
  | choose health loop at_ found managed admitted =>
      exact accounted.at_ ⟨quiet.between at_, accounted.wf.used_of_byId found⟩
  | proceed target at_ =>
      rw [at_] at account
      exact accounted.at_ account
  | updating at_ done =>
      rw [at_] at account
      exact accounted.updating account done punctual
  | recovering at_ done =>
      rw [at_] at account
      exact accounted.recovering account.1 account.2 done punctual
  | restart id runs =>
      obtain ⟨old, found, _⟩ := (Option.any_eq_true _ _).mp runs
      obtain ⟨changes, wf⟩ := Docker.begin_changes quiet.wf found
      have settles : s.docker.Settles (s.docker.begin id) (fun _ => False) :=
        changes.settles wf (fun draining => by cases draining)
      exact quiet.settle settles rfl rfl (List.Subset.refl _) (fun _ => False.elim)
        (fun _ => False.elim)
  | @take index request found =>
      have member : request ∈ s.inflight := List.mem_of_getElem? found
      have fewer : s.inflight.eraseIdx index ⊆ s.inflight := List.eraseIdx_subset
      cases performed : s.docker.perform request with
      | none =>
          have settles : s.docker.Settles s.docker (fun _ => False) :=
            ⟨quiet.wf, fun _ used => used, fun _ _ gone => gone,
              fun _ new found draining => ⟨new, found, rfl, .inl draining⟩⟩
          exact quiet.settle settles rfl rfl fewer (fun _ => False.elim) (fun _ => False.elim)
      | some docker =>
          obtain ⟨effect, wf⟩ := Docker.perform_effect quiet.wf performed
          refine quiet.settle (effect.settles wf) rfl rfl fewer ?_ ?_
          · rintro id rfl
            exact ⟨_, member, by simp [Request.disturbs]⟩
          · rintro id rfl
            exact punctual

-----------------------------------------------------------------------------------------
-- Runs
-----------------------------------------------------------------------------------------

theorem State.Starts.quiet (starts : s.Starts) (answered : s.inflight = [])
    (undrained : ∀ container ∈ s.docker.containers, container.draining = false)
    : Quiet s where
  wf := starts.wf
  used := by
    intro entry pending
    cases starts.settled.symm.trans pending
  draining := by
    intro id container found draining
    cases (undrained container (Table.lookup_mem found)).symm.trans draining
  inflight := by
    intro request member
    rw [answered] at member
    cases member
  place := by
    rw [starts.idle]
    trivial

/-- In every run whose steps meet the condition a container that no entry is pending for is not
draining, and no request that takes it away is on its way, by induction on the run.
-/
theorem settled_undrained (starts : s.Starts) (answered : s.inflight = [])
    (undrained : ∀ container ∈ s.docker.containers, container.draining = false)
    {past : List Label}
    (run
      : Execution.GuardedRun (State.Step project) (fun _ s label => s.punctual label = true) s past
          t)
    (member : container ∈ t.docker.containers)
    (settled : ∀ entry, t.journal.pending = some entry → entry.old ≠ container.id)
    : container.draining = false
      ∧ ∀ request ∈ t.inflight, request.disturbs container.id = false := by
  have quiet : Quiet t := by
    refine run.history (I := fun _ t => Quiet t) ?_ (starts.quiet answered undrained)
    intro past s label t quiet met step
    exact quiet.step step met
  constructor
  · by_contra drains
    obtain ⟨entry, pending, same, _⟩ := quiet.draining _ _ (quiet.wf.byId_of_mem member)
      (Bool.eq_true_of_not_eq_false drains)
    exact settled entry pending same
  · intro request flying
    by_contra disturbs
    obtain ⟨entry, pending, same⟩ := quiet.inflight request flying container.id
      (Bool.eq_true_of_not_eq_false disturbs)
    exact settled entry pending same

/-- The update after the choice of the worker up to its SIGUSR1. -/
def signalWorker : List Action :=
  [.run { image := ⟨"v2", [], [], none, none, none⟩ }, .run {}, .run {}]

/-- A drain that is not done in time, and the recovery after it. -/
def deferDrain : List Action := .run { drained := false, quit := true } :: List.replicate 4 (.run {})

/-- A worker whose drain is deferred. -/
def deferredDrain : List Label × State :=
  Execution.play (State.exec "workers") (fun _ s label => s.punctual label) [] device
    (chooseWorker ++ signalWorker ++ deferDrain)

theorem deferredDrain_run
    : Execution.GuardedRun (State.Step "workers") (fun _ s label => s.punctual label = true) device
        deferredDrain.1 deferredDrain.2 :=
  Execution.play_run (State.Step.of_exec "workers") (.nil _) _

/-- The drain that is deferred is cancelled. -/
theorem settled_undrained_deferred
    : .cleared sampleEntry ∈ deferredDrain.1
      ∧ ∀ container ∈ deferredDrain.2.docker.containers, container.draining = false := by
  have settled : deferredDrain.2.journal.pending = none := by decide +kernel
  refine ⟨by decide +kernel, ?_⟩
  intro container member
  refine (settled_undrained device_starts rfl (by decide) deferredDrain_run member ?_).1
  intro entry pending
  cases settled.symm.trans pending

/-- The container restarts during the pull, and its drain is deferred. -/
def restartedDuringPull : List Label × State :=
  Execution.play (State.exec "workers") (fun _ _ _ => true) [] device
    (chooseWorker ++ [.restart "a1"] ++ signalWorker ++ deferDrain)

/-- The stop of a drained container times out at the client. -/
def lateStop : List Label × State :=
  Execution.play (State.exec "workers") (fun _ _ _ => true) [] device
    (chooseWorker ++ signalWorker ++ [.run {}, .run {}, .run { reply := .late }]
      ++ List.replicate 4 (.run {}))

/-- The restarted process stays drained, and the late stop is still to take effect, when the entry
has been cleared and the container kept.
-/
theorem left_drained
    : Execution.Run (State.Step "workers") device restartedDuringPull.1 restartedDuringPull.2
      ∧ .cleared sampleEntry ∈ restartedDuringPull.1
      ∧ restartedDuringPull.2.journal.pending = none
      ∧ (restartedDuringPull.2.docker.byName "worker-cpu-1").any (fun container =>
          container.id = "a1" && container.running && container.draining) = true
      ∧ Execution.Run (State.Step "workers") device lateStop.1 lateStop.2
      ∧ .cleared sampleEntry ∈ lateStop.1
      ∧ lateStop.2.journal.pending = none
      ∧ .stop "a1" ∈ lateStop.2.inflight := by
  refine ⟨?_, by decide +kernel, by decide +kernel, by decide +kernel, ?_, by decide +kernel,
    by decide +kernel, by decide +kernel⟩
  · exact (Execution.play_run (State.Step.of_exec "workers") (.nil _) _).run
      (fun _ _ _ _ _ step => step)
  · exact (Execution.play_run (State.Step.of_exec "workers") (.nil _) _).run
      (fun _ _ _ _ _ step => step)

end Transcriber.Updater
