import Transcriber.Updater.Program

/-! What one step can do: the moves of the updater outside `update` and `recover`, the stages of
these two, and what other parties do. A label shows where it was made.
-/

namespace Transcriber.Updater

/-- Between two updates of a round no entry is pending. -/
def Pc.between : Pc → Bool
  | .releasing | .listing _ | .choosing _ | .pulling _ _ => true
  | _ => false

/-- Where the updater is after a call of `recover` and after it. -/
def Pc.resting : Pc → Bool
  | .idle | .releasing | .choosing _ | .recovering _ _ .inspectingOld => true
  | _ => false

/-- What a step can do. -/
inductive Moves (project : String) (s : State) : Label → State → Prop
  | crash : Moves project s .crashed (s.at_ .idle)
  | restart (id : String) (running : (s.docker.byId id).any Container.running = true)
    : Moves project s (.restarted id) { s with docker := s.docker.begin id }
  | take {index : Nat} {request : Request} (found : s.inflight[index]? = some request)
    : Moves project s (.took request (s.docker.perform request).isSome)
        { s with
          docker := (s.docker.perform request).getD s.docker
          inflight := s.inflight.eraseIdx index }
  | start (at_ : s.pc = .idle) : Moves project s .silent (s.recover .reconcile)
  | stop (at_ : s.pc.between = true) : Moves project s .silent (s.at_ .idle)
  | list (images : List (String × String)) (at_ : s.pc.between = true)
    : Moves project s .silent (s.at_ (.listing images))
  | skip (loop : Loop) (at_ : s.pc.between = true)
    : Moves project s .silent (s.at_ (.choosing loop))
  | choose {old : Container} {image : String} (health : Health) (loop : Loop)
    (at_ : s.pc.between = true) (found : s.docker.byId old.id = some old)
    (managed : old.config.managed project = true)
    (admitted : s.journal.failed.lookup old.config.role ≠ some image)
    : Moves project s .silent (s.at_ (.pulling ⟨old, image, loop⟩ health))
  | proceed {update : Update} {health : Health} (target : Image)
    (at_ : s.pc = .pulling update health)
    : Moves project s .silent (s.at_ (.updating update target .recording))
  | updating {c : Choice} {update : Update} {target : Image} {stage : UpdateStage} {label : Label}
    {t : State} (at_ : s.pc = .updating update target stage)
    (done : s.updating c update target stage = (label, t))
    : Moves project s label t
  | recovering {c : Choice} {caller : Caller} {entry : Pending} {stage : RecoverStage}
    {label : Label} {t : State} (at_ : s.pc = .recovering caller entry stage)
    (done : s.recovering project c caller entry stage = (label, t))
    : Moves project s label t

namespace State

variable {project : String} {s t : State} {entry made : Pending} {request sent : Request}
variable {label : Label} {reply ended : Reply}

@[simp] theorem at_docker (pc : Pc) : (s.at_ pc).docker = s.docker := rfl
@[simp] theorem at_journal (pc : Pc) : (s.at_ pc).journal = s.journal := rfl
@[simp] theorem at_inflight (pc : Pc) : (s.at_ pc).inflight = s.inflight := rfl
@[simp] theorem at_pc (pc : Pc) : (s.at_ pc).pc = pc := rfl
@[simp] theorem at_at (first second : Pc) : (s.at_ first).at_ second = s.at_ second := rfl

/-- A call and an error of `recover` only move the updater, to a place of rest. -/
theorem returned_at (s : State) (caller : Caller)
    : ∃ pc, s.returned caller = s.at_ pc ∧ pc.resting = true := by
  cases caller <;> exact ⟨_, rfl, rfl⟩

theorem recover_at (s : State) (caller : Caller)
    : ∃ pc, s.recover caller = s.at_ pc ∧ pc.resting = true := by
  unfold recover
  split
  · exact s.returned_at caller
  · exact ⟨_, rfl, rfl⟩

theorem raised_at (s : State) (caller : Caller)
    : ∃ pc, s.raised caller = s.at_ pc ∧ pc.resting = true := by
  cases caller with
  | reconcile | handler => exact ⟨_, rfl, rfl⟩
  | deferred _ | finished _ => exact s.recover_at .handler

/-- A step of the updater, by cases on where it is. -/
theorem run_moves {c : Choice} (done : s.run project c = (label, t)) : Moves project s label t := by
  unfold run at done
  cases at_ : s.pc with
  | idle =>
      simp only [at_] at done
      cases done
      exact .start at_
  | releasing =>
      simp only [at_] at done
      cases done
      split
      · exact .list c.images (by rw [at_]; rfl)
      · exact .stop (by rw [at_]; rfl)
  | listing images =>
      simp only [at_] at done
      cases done
      split
      · exact .skip ⟨images, c.ids⟩ (by rw [at_]; rfl)
      · exact .stop (by rw [at_]; rfl)
  | choosing loop =>
      obtain ⟨images, ids⟩ := loop
      have between : s.pc.between = true := by rw [at_]; rfl
      cases ids with
      | nil =>
          simp only [at_] at done
          cases done
          exact .stop between
      | cons id ids =>
          simp only [at_] at done
          split at done
          · split at done
            · rename_i old found
              split at done
              · rename_i chosen
                obtain ⟨_, managed⟩ := Bool.and_eq_true_iff.mp chosen
                split at done <;> cases done
                · unfold update
                  split
                  · exact .skip ⟨images, ids⟩ between
                  · rename_i admitted
                    have own := found
                    rw [← Table.lookup_key found] at own
                    exact .choose c.health ⟨images, ids⟩ between own managed admitted
                · exact .stop between
              · cases done
                exact .skip ⟨images, ids⟩ between
            · cases done
              exact .skip ⟨images, ids⟩ between
          · cases done
            exact .stop between
  | pulling update health =>
      have between : s.pc.between = true := by rw [at_]; rfl
      simp only [at_] at done
      split at done
      · split at done <;> cases done
        · exact .proceed c.image at_
        · exact .skip update.loop between
      · cases done
        exact .stop between
  | updating update target stage =>
      simp only [at_] at done
      exact .updating at_ done
  | recovering caller entry stage =>
      simp only [at_] at done
      exact .recovering at_ done

theorem Step.moves (step : s.Step project label t) : Moves project s label t := by
  obtain ⟨action, done⟩ := step
  cases action with
  | run c => exact run_moves (Option.some.inj done)
  | crash =>
      cases done
      exact .crash
  | restart id =>
      simp only [exec] at done
      split at done <;> cases done
      rename_i running
      exact .restart id running
  | take index =>
      obtain ⟨request, found, same⟩ := Option.map_eq_some_iff.mp done
      cases same
      exact .take found

end State

-----------------------------------------------------------------------------------------
-- Calls
-----------------------------------------------------------------------------------------

/-- The call that a stage of `recover` makes. -/
def RecoverStage.request (entry : Pending) : RecoverStage → Option Request
  | .starting => some (.start entry.old)
  | .resuming => some (.kill entry.old .usr2)
  | .committing old => some (.remove old.id)
  | .removing _ new => some (.remove new.id)
  | .restoring old => some (.rename old.id entry.name)
  | .restarting old => some (.start old.id)
  | .inspectingOld | .inspectingNew _ | .clearing _ => none

/-- The call that a stage of `update` makes; the daemon chooses a new id. -/
def UpdateStage.request (update : Update) (target : Image) (id : String)
    : UpdateStage → Option Request
  | .signalling => some (.kill update.old.id .usr1)
  | .stopping => some (.stop update.old.id)
  | .backingUp => some (.rename update.old.id update.backup)
  | .creating oldDefaults =>
      some
        (.create update.old.name id target.id
          (replacement update.old.config update.image target.id oldDefaults target.config))
  | .starting created => some (.start created)
  | .recording | .draining | .rerecording | .reading | .watching _ => none

/-- A call for an entry is made at one of these places. -/
inductive CalledAt (entry : Pending) (request : Request) : Pc → Prop
  | recovering (caller : Caller) {stage : RecoverStage} (made : stage.request entry = some request)
    : CalledAt entry request (.recovering caller entry stage)
  | updating (id : String) {update : Update} {target : Image} {stage : UpdateStage}
    (pending : update.pending = entry) (made : stage.request update target id = some request)
    : CalledAt entry request (.updating update target stage)

namespace State

variable {project : String} {s t : State} {entry made : Pending} {request sent : Request}
variable {label : Label} {reply ended : Reply}

/-- A call shows its entry and its request. -/
theorem issue_call {answered failed : State → State}
    (done : s.issue made sent ended answered failed = (.call entry request reply, t))
    : made = entry ∧ sent = request := by
  unfold issue at done
  split at done <;> cases done <;> exact ⟨rfl, rfl⟩

/-- A call leads on or to the error path, from the state with its effect, if any. -/
theorem issue_next {answered failed : State → State}
    (done : s.issue made sent ended answered failed = (label, t))
    : ∃ u : State, u.journal = s.journal ∧ (t = answered u ∨ t = failed u) := by
  unfold issue at done
  split at done <;> cases done
  · refine ⟨_, ?_, .inl rfl⟩
    rfl
  · refine ⟨_, ?_, .inr rfl⟩
    rfl
  · refine ⟨_, ?_, .inr rfl⟩
    rfl
  · exact ⟨s, rfl, .inr rfl⟩

/-- A step of `update` stays in it or comes to rest; the quarantine stays. -/
theorem updating_next {c : Choice} {update : Update} {target : Image} {stage : UpdateStage}
    (done : s.updating c update target stage = (label, t))
    : t.journal.failed = s.journal.failed
      ∧ ((∃ next, t.pc = .updating update target next) ∨ t.pc.resting = true) := by
  have rests : ∀ (u : State) caller, u.journal = s.journal
      → (u.recover caller).journal.failed = s.journal.failed
        ∧ ((∃ next, (u.recover caller).pc = .updating update target next)
          ∨ (u.recover caller).pc.resting = true) := by
    intro u caller journal
    obtain ⟨pc, moved, resting⟩ := u.recover_at caller
    rw [moved]
    exact ⟨congrArg Journal.failed journal, .inr resting⟩
  cases stage with
  | recording | rerecording =>
      cases done
      exact ⟨rfl, .inl ⟨_, rfl⟩⟩
  | draining =>
      simp only [updating] at done
      split at done
      · cases done
        exact rests s _ rfl
      · split at done
        · cases done
          exact ⟨rfl, .inl ⟨_, rfl⟩⟩
        · split at done <;> cases done
          · exact rests s _ rfl
          · exact ⟨rfl, .inl ⟨_, rfl⟩⟩
  | reading =>
      simp only [updating] at done
      split at done <;> cases done
      · exact ⟨rfl, .inl ⟨_, rfl⟩⟩
      · exact rests s _ rfl
  | watching created =>
      simp only [updating] at done
      split at done
      · cases done
        exact rests s _ rfl
      · split at done
        · cases done
          exact rests s _ rfl
        · split at done
          · split at done <;> cases done
            · exact rests s _ rfl
            · exact ⟨rfl, .inl ⟨_, rfl⟩⟩
          · cases done
            exact rests s _ rfl
  | _ =>
      simp only [updating] at done
      obtain ⟨u, journal, rfl | rfl⟩ := issue_next done
      · exact ⟨congrArg Journal.failed journal, .inl ⟨_, rfl⟩⟩
      · exact rests u _ journal

/-- A step of `recover` stays in it or comes to rest; the quarantine changes at the end of a
rollback only.
-/
theorem recovering_next {c : Choice} {caller : Caller} {stage : RecoverStage}
    (done : s.recovering project c caller made stage = (label, t))
    : (t.journal.failed = s.journal.failed
        ∨ stage = .clearing true
          ∧ label = .cleared made
          ∧ t.journal.failed = s.journal.quarantine made.service made.image)
      ∧ ((∃ next, t.pc = .recovering caller made next) ∨ t.pc.resting = true) := by
  have rests : ∀ u : State, u.journal = s.journal
      → (u.raised caller).journal.failed = s.journal.failed
        ∧ (u.raised caller).pc.resting = true := by
    intro u journal
    obtain ⟨pc, moved, resting⟩ := u.raised_at caller
    rw [moved]
    exact ⟨congrArg Journal.failed journal, resting⟩
  cases stage with
  | inspectingOld =>
      simp only [recovering] at done
      split at done <;> cases done
      · exact ⟨.inl rfl, .inl ⟨_, rfl⟩⟩
      · exact ⟨.inl (rests s rfl).1, .inr (rests s rfl).2⟩
  | inspectingNew old =>
      simp only [recovering] at done
      split at done
      · split at done <;> cases done
        · exact ⟨.inl rfl, .inl ⟨_, rfl⟩⟩
        · exact ⟨.inl (rests s rfl).1, .inr (rests s rfl).2⟩
      · cases done
        exact ⟨.inl (rests s rfl).1, .inr (rests s rfl).2⟩
  | clearing rolledBack =>
      cases rolledBack with
      | true =>
          obtain ⟨pc, moved, resting⟩ := State.returned_at
            { s with journal := ⟨s.journal.quarantine made.service made.image, none⟩ } caller
          cases done
          rw [if_pos rfl, moved]
          exact ⟨.inr ⟨rfl, rfl, rfl⟩, .inr resting⟩
      | false =>
          obtain ⟨pc, moved, resting⟩ := State.returned_at
            { s with journal := ⟨s.journal.failed, none⟩ } caller
          cases done
          rw [if_neg (by simp), moved]
          exact ⟨.inl rfl, .inr resting⟩
  | _ =>
      simp only [recovering] at done
      obtain ⟨u, journal, rfl | rfl⟩ := issue_next done
      · exact ⟨.inl (congrArg Journal.failed journal), .inl ⟨_, rfl⟩⟩
      · exact ⟨.inl (rests u journal).1, .inr (rests u journal).2⟩

theorem recovering_call {c : Choice} {caller : Caller} {stage : RecoverStage}
    (done : s.recovering project c caller made stage = (.call entry request reply, t))
    : CalledAt entry request (.recovering caller made stage) := by
  cases stage with
  | inspectingOld =>
      simp only [recovering] at done
      split at done <;> cases done
  | inspectingNew old =>
      simp only [recovering] at done
      split at done
      · split at done <;> cases done
      · cases done
  | clearing rolledBack => cases done
  | _ =>
      simp only [recovering] at done
      obtain ⟨rfl, sent⟩ := issue_call done
      exact .recovering caller (congrArg some sent)

theorem updating_call {c : Choice} {update : Update} {target : Image} {stage : UpdateStage}
    (done : s.updating c update target stage = (.call entry request reply, t))
    : CalledAt entry request (.updating update target stage) := by
  cases stage with
  | recording | rerecording => cases done
  | draining =>
      simp only [updating] at done
      split at done
      · cases done
      · split at done
        · cases done
        · split at done <;> cases done
  | reading =>
      simp only [updating] at done
      split at done <;> cases done
  | watching created =>
      simp only [updating] at done
      split at done
      · cases done
      · split at done
        · cases done
        · split at done
          · split at done <;> cases done
          · cases done
  | _ =>
      simp only [updating] at done
      obtain ⟨pending, sent⟩ := issue_call done
      exact .updating c.id pending (congrArg some sent)

/-- The label of a call shows the place of the updater before it. -/
theorem Step.call (step : s.Step project (.call entry request reply) t)
    : CalledAt entry request s.pc := by
  generalize called : Label.call entry request reply = label at step
  cases step.moves with
  | updating at_ done =>
      subst called
      rw [at_]
      exact updating_call done
  | recovering at_ done =>
      subst called
      rw [at_]
      exact recovering_call done
  | _ => cases called

/-- A stop is asked for at the one stage that does. -/
theorem Step.stop {id : String} (step : s.Step project (.call entry (.stop id) reply) t)
    : ∃ update target,
        s.pc = .updating update target .stopping ∧ update.pending = entry ∧ id = entry.old := by
  have called := step.call
  generalize s.pc = pc at called
  cases called with
  | @recovering caller stage made => cases stage <;> cases made
  | @updating _ update target stage pending made =>
      cases stage <;> cases made
      exact ⟨update, target, rfl, pending, pending ▸ rfl⟩

/-- A removal is asked for by a commit or by a rollback. -/
theorem Step.remove {id : String} (step : s.Step project (.call entry (.remove id) reply) t)
    : ∃ caller,
        (∃ old, s.pc = .recovering caller entry (.committing old) ∧ id = old.id)
        ∨ ∃ old new, s.pc = .recovering caller entry (.removing old new) ∧ id = new.id := by
  have called := step.call
  generalize s.pc = pc at called
  cases called with
  | @recovering caller stage made =>
      cases stage with
      | committing old =>
          cases made
          exact ⟨caller, .inl ⟨old, rfl, rfl⟩⟩
      | removing old new =>
          cases made
          exact ⟨caller, .inr ⟨old, new, rfl, rfl⟩⟩
      | _ => cases made
  | @updating _ update target stage pending made => cases stage <;> cases made

end State

end Transcriber.Updater
