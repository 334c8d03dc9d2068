import Transcriber.Updater.Situations

/-! Where nobody else touches the containers and no request takes effect after its call has ended,
the updater is at each point in a situation that allows what it does next.
-/

namespace Transcriber.Updater

open Function

/-- A step of the updater in which no other party acts and no request stays on its way. -/
def Label.ordinary : Label → Bool
  | .restarted _ | .took _ _ | .call _ _ .late => false
  | _ => true

/-- Nothing but the updater's own place has changed. -/
def Label.quiet : Label → Bool
  | .silent | .inspected _ _ _ | .drained _ _ | .raised _ | .crashed | .call _ _ .refused => true
  | _ => false

-----------------------------------------------------------------------------------------
-- Places
-----------------------------------------------------------------------------------------

/-- What holds at each stage of `recover`. -/
def RecoverPlace (project : String) (entry : Pending) (docker : Docker) : RecoverStage → Prop
  | .inspectingOld => True
  | .inspectingNew old => old = docker.byId entry.old
  | .starting => ∃ old, Intact project entry docker old
  | .resuming => ∃ old, Intact project entry docker old ∧ old.running = true
  | .committing old =>
      ∃ new,
        Replaced project entry docker old new ∧ new.config.managed project = true
        ∧ new.running = true
  | .removing old new => Replaced project entry docker old new
  | .restoring old => old.id = entry.old ∧ ∃ old, BackedUp project entry docker old
  | .restarting old => old.id = entry.old ∧ ∃ old, Intact project entry docker old
  | .clearing _ =>
      (∃ old, Intact project entry docker old ∧ old.running = true)
      ∨ ∃ new, Committed project entry docker new

/-- What holds at each stage of `update` after its checks. -/
def UpdatePlace (project : String) (docker : Docker) (journal : Journal) (update : Update)
    : UpdateStage → Prop
  | .recording =>
      journal.pending = none ∧ docker.byId update.old.id = some update.old
      ∧ update.old.config.managed project = true
  | .signalling | .draining | .rerecording | .stopping =>
      journal.pending = some update.pending
      ∧ ∃ old,
          Intact project update.pending docker old ∧ old.config = update.old.config
  | .backingUp =>
      journal.pending = some update.pending
      ∧ ∃ old,
          Intact project update.pending docker old ∧ old.config = update.old.config
          ∧ old.running = false
  | .reading | .creating _ =>
      journal.pending = some update.pending
      ∧ ∃ old,
          BackedUp project update.pending docker old ∧ old.config = update.old.config
  | .starting created =>
      journal.pending = some update.pending
      ∧ ∃ old new, Replaced project update.pending docker old new ∧ new.id = created
  | .watching _ => journal.pending = some update.pending

/-- What holds where the updater is. -/
def Place (project : String) (docker : Docker) (journal : Journal) : Pc → Prop
  | .idle => True
  | .releasing | .listing _ | .choosing _ => journal.pending = none
  | .pulling update _ =>
      journal.pending = none ∧ docker.byId update.old.id = some update.old
      ∧ update.old.config.managed project = true
  | .updating update _ stage => UpdatePlace project docker journal update stage
  | .recovering _ entry stage =>
      journal.pending = some entry ∧ RecoverPlace project entry docker stage

/-- The containers are well formed, and a pending entry's are in one of its situations. -/
structure Standing (project : String) (s : State) : Prop where
  wf : s.docker.Wf
  situation : ∀ entry, s.journal.pending = some entry → Situation project entry s.docker

structure Sound (project : String) (s : State) : Prop extends Standing project s where
  place : Place project s.docker s.journal s.pc

-----------------------------------------------------------------------------------------
-- Calls of recover
-----------------------------------------------------------------------------------------

section

variable {project : String} {s t : State} {entry : Pending} {request : Request} {label : Label}
variable {docker next : Docker} {caller : Caller} {stage : RecoverStage}

theorem Standing.at_ (standing : Standing project s) {pc : Pc}
    (place : Place project s.docker s.journal pc)
    : Sound project (s.at_ pc) :=
  ⟨⟨standing.wf, standing.situation⟩, place⟩

theorem Standing.returned (standing : Standing project s) (none : s.journal.pending = none)
    (caller : Caller)
    : Sound project (s.returned caller) := by
  cases caller with
  | reconcile | deferred | finished => exact standing.at_ none
  | handler => exact standing.at_ trivial

theorem Standing.recover (standing : Standing project s) (caller : Caller)
    : Sound project (s.recover caller) := by
  unfold State.recover
  split
  · rename_i none
    exact standing.returned none caller
  · rename_i pending
    exact standing.at_ ⟨pending, trivial⟩

theorem Standing.raised (standing : Standing project s) (caller : Caller)
    : Sound project (s.raised caller) := by
  cases caller with
  | reconcile | handler => exact standing.at_ trivial
  | deferred _ | finished _ => exact standing.recover .handler

/-- The decision of `recover` fits the situation, by cases on it. -/
theorem Situation.recovery (situation : Situation project entry docker) (wf : docker.Wf)
    {health : Health}
    (decided : State.recovery project entry (docker.byId entry.old) (docker.byName entry.name)
      health = .ok stage)
    : RecoverPlace project entry docker stage := by
  cases situation with
  | @intact old intact =>
      rw [intact.found, intact.bound] at decided
      simp only [State.recovery, intact.id, if_true, intact.managed, Bool.not_true,
        Bool.false_eq_true, if_false] at decided
      split at decided
      · cases decided
        exact ⟨old, intact⟩
      · rename_i stopped
        have running : old.running = true := by simpa using stopped
        split at decided <;> cases decided
        · exact ⟨old, intact, running⟩
        · exact .inl ⟨old, intact, running⟩
  | @backedUp old backedUp =>
      rw [backedUp.found, backedUp.free] at decided
      simp only [State.recovery, backedUp.managed, if_true] at decided
      cases decided
      exact ⟨backedUp.id, old, backedUp⟩
  | @replaced old new replaced =>
      rw [replaced.found, replaced.bound] at decided
      simp only [State.recovery, replaced.apart, if_false, replaced.managed, if_true,
        Bool.not_true, Bool.false_eq_true] at decided
      split at decided
      · rename_i healthy
        obtain ⟨managed, healthy⟩ := Bool.and_eq_true_iff.mp healthy
        obtain ⟨running, _⟩ := Bool.and_eq_true_iff.mp healthy
        cases decided
        exact ⟨new, replaced, managed, running⟩
      · split at decided <;> cases decided
        exact replaced
  | @committed new committed =>
      have apart : new.id ≠ entry.old := by
        intro same
        have found := wf.byId_of_byName committed.bound
        rw [same, committed.gone] at found
        cases found
      rw [committed.gone, committed.bound] at decided
      simp only [State.recovery, apart, if_false] at decided
      split at decided <;> cases decided
      exact .inr ⟨new, committed⟩

/-- A call that is answered leads on, one that is not leads to the error path. -/
theorem State.issue_outcome {answered failed : State → State} {reply : Reply}
    (done : s.issue entry request reply answered failed = (label, t))
    (ordinary : label.ordinary = true)
    : label = .call entry request .refused ∧ t = failed s
      ∨ ∃ docker,
          s.docker.perform request = some docker
          ∧ (label = .call entry request .answered ∧ t = answered { s with docker }
            ∨ label = .call entry request .unanswered ∧ t = failed { s with docker }) := by
  unfold State.issue at done
  split at done
  · rename_i docker performed
    cases done
    exact .inr ⟨docker, performed, .inl ⟨rfl, rfl⟩⟩
  · rename_i docker performed
    cases done
    exact .inr ⟨docker, performed, .inr ⟨rfl, rfl⟩⟩
  · cases done
    cases ordinary
  · cases done
    exact .inl ⟨rfl, rfl⟩

-----------------------------------------------------------------------------------------
-- Steps
-----------------------------------------------------------------------------------------

/-- What an ordinary step changes. -/
inductive Alters (project : String) (s : State) : Label → State → Prop
  | quiet {label : Label} {t : State} (quiet : label.quiet = true) (docker : t.docker = s.docker)
    (journal : t.journal = s.journal)
    : Alters project s label t
  | call {entry : Pending} {request : Request} {reply : Reply} {t : State}
    (effective : reply = .answered ∨ reply = .unanswered)
    (pending : s.journal.pending = some entry) (allowed : Allowed project entry s.docker request)
    (effect : s.docker.Effect request t.docker) (journal : t.journal = s.journal)
    : Alters project s (.call entry request reply) t
  | record {entry : Pending} {t : State} {old : Container}
    (intact : Intact project entry s.docker old) (docker : t.docker = s.docker)
    (before : s.journal.pending = none ∨ s.journal.pending = some entry)
    (journal : t.journal = { s.journal with pending := some entry })
    : Alters project s (.recorded entry) t
  | clear {entry : Pending} {t : State} (pending : s.journal.pending = some entry)
    (settled
      : (∃ old, Intact project entry s.docker old ∧ old.running = true)
        ∨ ∃ new, Committed project entry s.docker new)
    (docker : t.docker = s.docker) (journal : t.journal.pending = none)
    : Alters project s (.cleared entry) t

/-- A sound step: it alters what it may, and the updater is where its situation allows. -/
def Kept (project : String) (s : State) (label : Label) (t : State) : Prop :=
  Alters project s label t ∧ Sound project t

theorem Kept.quiet (quiet : label.quiet = true) (sound : Sound project t)
    (docker : t.docker = s.docker) (journal : t.journal = s.journal)
    : Kept project s label t :=
  ⟨.quiet quiet docker journal, sound⟩

/-- A silent move of the updater. -/
theorem Standing.move (standing : Standing project s) (quiet : label.quiet = true) {pc : Pc}
    (place : Place project s.docker s.journal pc)
    : Kept project s label (s.at_ pc) :=
  .quiet quiet (standing.at_ place) rfl rfl

theorem Standing.moveRecover (standing : Standing project s) (quiet : label.quiet = true)
    (caller : Caller)
    : Kept project s label (s.recover caller) := by
  obtain ⟨pc, moved, _⟩ := s.recover_at caller
  exact .quiet quiet (standing.recover caller) (by rw [moved]; rfl) (by rw [moved]; rfl)

theorem Standing.moveRaised (standing : Standing project s) (quiet : label.quiet = true)
    (caller : Caller)
    : Kept project s label (s.raised caller) := by
  obtain ⟨pc, moved, _⟩ := s.raised_at caller
  exact .quiet quiet (standing.raised caller) (by rw [moved]; rfl) (by rw [moved]; rfl)

/-- The containers after a call that is allowed. -/
theorem Standing.after (standing : Standing project s) (pending : s.journal.pending = some entry)
    (allowed : Allowed project entry s.docker request)
    (performed : s.docker.perform request = some docker)
    : s.docker.Effect request docker ∧ Standing project { s with docker } := by
  obtain ⟨effect, wf⟩ := Docker.perform_effect standing.wf performed
  refine ⟨effect, wf, ?_⟩
  intro other same
  cases pending.symm.trans same
  exact allowed.situation standing.wf effect

/-- An allowed call is sound if its answer leads to a place that fits, since its error path always
does.
-/
theorem Standing.issue (standing : Standing project s) (pending : s.journal.pending = some entry)
    (allowed : Allowed project entry s.docker request) {pc : Pc} {failed : State → State}
    {reply : Reply}
    (answered
      : ∀ docker,
          s.docker.Effect request docker
          → docker.Wf
          → Place project docker s.journal pc)
    (errors : ∀ t, Standing project t → Sound project (failed t) ∧ ∃ pc, failed t = t.at_ pc)
    (done : s.issue entry request reply (fun t => t.at_ pc) failed = (label, t))
    (ordinary : label.ordinary = true)
    : Kept project s label t := by
  rcases State.issue_outcome done ordinary with
    ⟨rfl, rfl⟩ | ⟨docker, performed, ⟨rfl, rfl⟩ | ⟨rfl, rfl⟩⟩
  · obtain ⟨sound, pc, moved⟩ := errors s standing
    exact .quiet rfl sound (by rw [moved]; rfl) (by rw [moved]; rfl)
  · obtain ⟨effect, after⟩ := standing.after pending allowed performed
    exact ⟨.call (.inl rfl) pending allowed effect rfl, after.at_ (answered docker effect after.wf)⟩
  · obtain ⟨effect, after⟩ := standing.after pending allowed performed
    obtain ⟨sound, pc, moved⟩ := errors _ after
    exact ⟨.call (.inr rfl) pending allowed (by rw [moved]; exact effect) (by rw [moved]; rfl),
      sound⟩

/-- A step of `recover`, by cases on its stage. -/
theorem Standing.recovering (standing : Standing project s)
    (pending : s.journal.pending = some entry)
    (place : RecoverPlace project entry s.docker stage) {c : Choice}
    (done : s.recovering project c caller entry stage = (label, t))
    (ordinary : label.ordinary = true)
    : Kept project s label t := by
  have errors : ∀ u, Standing project u
      → Sound project (u.raised caller) ∧ ∃ pc, u.raised caller = u.at_ pc :=
    fun u standing => ⟨standing.raised caller, (u.raised_at caller).imp (fun _ moved => moved.1)⟩
  cases stage with
  | inspectingOld =>
      simp only [State.recovering] at done
      split at done <;> cases done
      · exact standing.move rfl ⟨pending, rfl⟩
      · exact standing.moveRaised rfl caller
  | inspectingNew old =>
      cases place
      simp only [State.recovering] at done
      split at done
      · split at done <;> cases done
        · rename_i decided
          exact standing.move rfl
            ⟨pending, (standing.situation entry pending).recovery standing.wf decided⟩
        · exact standing.moveRaised rfl caller
      · cases done
        exact standing.moveRaised rfl caller
  | starting =>
      obtain ⟨old, intact⟩ := place
      refine standing.issue pending (.restart intact) ?_ errors done ordinary
      intro docker effect wf
      obtain ⟨started, intact⟩ := intact.start effect
      exact ⟨pending, .inl ⟨_, intact, rfl⟩⟩
  | resuming =>
      obtain ⟨old, intact, running⟩ := place
      refine standing.issue pending (.signal .usr2 intact) ?_ errors done ordinary
      intro docker effect wf
      exact ⟨pending, .inl ⟨_, (intact.kill effect).1, running⟩⟩
  | committing old =>
      obtain ⟨new, replaced, managed, running⟩ := place
      simp only [State.recovering, replaced.id] at done
      refine standing.issue pending (.commit replaced managed running) ?_ errors done ordinary
      intro docker effect wf
      exact ⟨pending, .inr ⟨new, replaced.removeOld standing.wf managed running effect⟩⟩
  | removing old new =>
      have replaced : Replaced project entry s.docker old new := place
      refine standing.issue pending (.discard replaced) ?_ errors done ordinary
      intro docker effect wf
      exact ⟨pending, replaced.id, old, replaced.removeNew standing.wf effect⟩
  | restoring old =>
      obtain ⟨id, old, backedUp⟩ := place
      simp only [State.recovering, id] at done
      refine standing.issue pending (.restore backedUp) ?_ errors done ordinary
      intro docker effect wf
      exact ⟨pending, id, _, backedUp.rename effect⟩
  | restarting old =>
      obtain ⟨id, old, intact⟩ := place
      simp only [State.recovering, id] at done
      refine standing.issue pending (.restart intact) ?_ errors done ordinary
      intro docker effect wf
      obtain ⟨started, intact⟩ := intact.start effect
      exact ⟨pending, .inl ⟨_, intact, rfl⟩⟩
  | clearing rolledBack =>
      simp only [State.recovering] at done
      generalize (if rolledBack then _ else _) = failed at done
      obtain ⟨pc, moved, _⟩ := State.returned_at { s with journal := ⟨failed, none⟩ } caller
      have cleared : Standing project { s with journal := ⟨failed, none⟩ } :=
        ⟨standing.wf, fun _ none => (by cases none)⟩
      cases done
      refine ⟨.clear pending place (by rw [moved]; rfl) (by rw [moved]; rfl), ?_⟩
      exact cleared.returned rfl caller

/-- The entry of an old container under its name is recorded. -/
theorem Standing.record (standing : Standing project s) {old : Container}
    (intact : Intact project entry s.docker old)
    : Standing project { s with journal := { s.journal with pending := some entry } } where
  wf := standing.wf
  situation := by
    rintro entry ⟨⟩
    exact .intact intact

/-- A step of `update` after its checks, by cases on its stage. -/
theorem Standing.updating (standing : Standing project s) {update : Update} {target : Image}
    {stage : UpdateStage} (place : UpdatePlace project s.docker s.journal update stage)
    {c : Choice} (done : s.updating c update target stage = (label, t))
    (ordinary : label.ordinary = true)
    : Kept project s label t := by
  have errors : ∀ u, Standing project u
      → Sound project (u.recover .handler) ∧ ∃ pc, u.recover .handler = u.at_ pc :=
    fun u standing => ⟨standing.recover .handler, (u.recover_at .handler).imp (fun _ moved => moved.1)⟩
  cases stage with
  | recording =>
      obtain ⟨none, found, managed⟩ := place
      have intact : Intact project update.pending s.docker update.old :=
        ⟨found, standing.wf.byName_of_byId found, managed⟩
      cases done
      exact ⟨.record intact rfl (.inl none) rfl,
        (standing.record intact).at_ (show UpdatePlace _ _ _ _ .signalling from
          ⟨rfl, update.old, intact, rfl⟩)⟩
  | signalling =>
      obtain ⟨pending, old, intact, config⟩ := place
      refine standing.issue pending (.signal .usr1 intact) ?_ errors done ordinary
      intro docker effect wf
      exact ⟨pending, _, (intact.kill effect).1, config⟩
  | draining =>
      simp only [State.updating] at done
      split at done
      · cases done
        exact standing.moveRecover rfl .handler
      · split at done
        · cases done
          exact standing.move rfl place
        · split at done <;> cases done
          · exact standing.moveRecover rfl (.deferred update.loop)
          · exact standing.move rfl place
  | rerecording =>
      obtain ⟨pending, old, intact, config⟩ := place
      cases done
      exact ⟨.record intact rfl (.inr pending) rfl,
        (standing.record intact).at_ (show UpdatePlace _ _ _ _ .stopping from
          ⟨rfl, old, intact, config⟩)⟩
  | stopping =>
      obtain ⟨pending, old, intact, config⟩ := place
      refine standing.issue pending (.stop intact) ?_ errors done ordinary
      intro docker effect wf
      exact ⟨pending, _, intact.stop effect, config, rfl⟩
  | backingUp =>
      obtain ⟨pending, old, intact, config, stopped⟩ := place
      refine standing.issue pending (.backUp update.backup intact stopped) ?_ errors done ordinary
      intro docker effect wf
      exact ⟨pending, _, intact.rename stopped effect, config⟩
  | reading =>
      simp only [State.updating] at done
      split at done <;> cases done
      · exact standing.move rfl place
      · exact standing.moveRecover rfl .handler
  | creating oldDefaults =>
      obtain ⟨pending, old, backedUp, config⟩ := place
      have replaces : Replaces old.config
          (replacement update.old.config update.image target.id oldDefaults target.config) := by
        rw [config]
        exact ⟨_, _, _, _, rfl⟩
      refine standing.issue pending (.create c.id target.id _ backedUp replaces) ?_ errors done
        ordinary
      intro docker effect wf
      have replaced := backedUp.create standing.wf effect.of_create rfl replaces
      exact ⟨pending, old, _, replaced, rfl⟩
  | starting created =>
      obtain ⟨pending, old, new, replaced, rfl⟩ := place
      refine standing.issue pending (.start replaced) ?_ errors done ordinary
      intro docker effect wf
      exact pending
  | watching created =>
      simp only [State.updating] at done
      split at done
      · cases done
        exact standing.moveRecover rfl (.finished update.loop)
      · split at done
        · cases done
          exact standing.moveRecover rfl .handler
        · split at done
          · split at done <;> cases done
            · exact standing.moveRecover rfl (.finished update.loop)
            · exact standing.move rfl place
          · cases done
            exact standing.moveRecover rfl (.finished update.loop)

/-- Between two updates no entry is pending. -/
theorem Sound.between (sound : Sound project s) (at_ : s.pc.between = true)
    : s.journal.pending = none := by
  have place := sound.place
  generalize s.pc = pc at at_ place
  cases pc with
  | releasing | listing | choosing => exact place
  | pulling => exact place.1
  | _ => cases at_

/-- Every ordinary step is sound, by cases on it. -/
theorem Sound.step (sound : Sound project s) (step : s.Step project label t)
    (ordinary : label.ordinary = true)
    : Kept project s label t := by
  have standing := sound.toStanding
  have place := sound.place
  cases step.moves with
  | crash => exact standing.move rfl trivial
  | restart | take => cases ordinary
  | start => exact standing.moveRecover rfl .reconcile
  | stop => exact standing.move rfl trivial
  | list _ at_ | skip _ at_ => exact standing.move rfl (sound.between at_)
  | choose health loop at_ found managed admitted =>
      exact standing.move rfl ⟨sound.between at_, found, managed⟩
  | proceed target at_ =>
      rw [at_] at place
      exact standing.move rfl place
  | updating at_ done =>
      rw [at_] at place
      exact standing.updating place done ordinary
  | recovering at_ done =>
      rw [at_] at place
      exact standing.recovering place.1 place.2 done ordinary

end

end Transcriber.Updater
