import Transcriber.Updater.CrashSafety

/-! The quarantine of a release whose replacement is rolled back. It is written at the end of a
rollback only: after the old container has its name back, a crash or a failing call before the save
leads the next `recover` to keep the container without it.
-/

namespace Transcriber.Updater

open Function

variable {project : String} {s t : State} {entry : Pending} {request : Request} {label : Label}
variable {docker next : Docker} {old new container : Container} {past : List Label} {id : String}
variable {reply : Reply} {caller : Caller} {stage : RecoverStage}

-----------------------------------------------------------------------------------------
-- The condition
-----------------------------------------------------------------------------------------

/-- The request creates a replacement for the entry. -/
def Request.creates (entry : Pending) : Request → Bool
  | .create name _ _ config => name = entry.name && config.image = entry.image
  | _ => false

/-- The pending entry, and whether a replacement has been created for it. -/
structure Creation where
  entry : Option Pending
  done : Bool

/-- The request takes effect. -/
def Creation.effect (creation : Creation) (request : Request) : Creation :=
  { creation with
    done := creation.done || creation.entry.any (fun entry => request.creates entry) }

def Creation.after (creation : Creation) : Label → Creation
  | .recorded entry => { creation with entry := some entry }
  | .cleared _ => ⟨none, false⟩
  | .call _ request .answered | .call _ request .unanswered | .took request true =>
      creation.effect request
  | _ => creation

def creations (past : List Label) : Creation := past.foldl Creation.after ⟨none, false⟩

/-- A replacement has been created for the pending entry, by its call or later. -/
def created (past : List Label) : Bool := (creations past).done

/-- A crash, or a call that ends otherwise than with its answer. -/
def Label.interrupts : Label → Bool
  | .crashed => true
  | .call _ _ reply => reply ≠ .answered
  | _ => false

/-- A rename that gives the old container its name back though its call ended in an error. -/
def Label.restores (entry : Pending) : Label → Bool
  | .call _ request .unanswered | .took request true => request = .rename entry.old entry.name
  | _ => false

/-- Where the old container has its name back and the save is still to come. -/
def Pc.rollingBack : Pc → Bool
  | .recovering _ _ (.restarting _) | .recovering _ _ (.clearing true) => true
  | _ => false

/-- Once a replacement has been created, the old container gets its name back by an answered rename
only, and from there to the save the rollback is not interrupted.
-/
def State.uninterrupted (s : State) (past : List Label) (label : Label) : Bool :=
  !created past
  || if s.pc.rollingBack then
      !label.interrupts
    else
      s.journal.pending.all (fun entry => !label.restores entry)

theorem creations_snoc (past : List Label) (label : Label)
    : creations (past ++ [label]) = (creations past).after label := by
  simp [creations, List.foldl_append]

/-- No rename in spite of an error gives the old container its name back. -/
theorem State.not_restores (uninterrupted : s.uninterrupted past label = true)
    (since : created past = true) (forward : s.pc.rollingBack = false)
    (pending : s.journal.pending = some entry)
    : label.restores entry = false := by
  simpa [State.uninterrupted, since, forward, pending] using uninterrupted

/-- The end of a rollback is not interrupted. -/
theorem State.not_rollingBack (uninterrupted : s.uninterrupted past label = true)
    (since : created past = true) (interrupts : label.interrupts = true)
    : s.pc.rollingBack = false := by
  by_contra rollingBack
  have ending := Bool.eq_true_of_not_eq_false rollingBack
  simp [State.uninterrupted, since, ending, interrupts] at uninterrupted

theorem Pc.between_forward {pc : Pc} (between : pc.between = true) : pc.rollingBack = false := by
  cases pc with
  | recovering => cases between
  | _ => rfl

-----------------------------------------------------------------------------------------
-- The name of the old container
-----------------------------------------------------------------------------------------

/-- The old container is not under its name. -/
def Away (entry : Pending) (docker : Docker) : Prop :=
  ∀ container, docker.byName entry.name = some container → container.id ≠ entry.old

/-- A container that is changed takes the name of the old one only if it is another. -/
theorem Docker.Changes.away (wf : docker.Wf) (changes : docker.Changes next old new)
    (away : Away entry docker)
    (other : new.name = entry.name → new.name = old.name ∨ new.id ≠ entry.old)
    : Away entry next := by
  intro container bound
  rw [changes.byName, update_apply] at bound
  split at bound
  · rename_i same
    cases bound
    rcases other same.symm with kept | differs
    · rw [changes.id]
      refine away old ?_
      rw [same, kept]
      exact wf.byName_of_byId changes.found
    · exact differs
  · rw [update_apply] at bound
    split at bound
    · cases bound
    · exact away container bound

/-- A new container is another. -/
theorem Docker.Adds.away (adds : docker.Adds next new) (used : entry.old ∈ docker.used)
    (away : new.name = entry.name ∨ Away entry docker)
    : Away entry next := by
  intro container bound
  rw [adds.byName, update_apply] at bound
  split at bound
  · cases bound
    rintro same
    exact adds.fresh (same ▸ used)
  · rename_i differs
    rcases away with same | away
    · exact absurd same.symm differs
    · exact away container bound

/-- Only a rename gives the old container its name back, by cases on the request. -/
theorem Docker.Effect.away (effect : docker.Effect request next) (wf : docker.Wf)
    (used : entry.old ∈ docker.used) (away : Away entry docker)
    (other : request ≠ .rename entry.old entry.name)
    : Away entry next := by
  cases effect with
  | kill _ _ changes | stop _ changes | start _ _ changes =>
      exact changes.away wf away (fun _ => .inl rfl)
  | @rename name old _ free changes =>
      refine changes.away wf away (fun same => .inr ?_)
      rintro own
      have id : old.id = entry.old := own
      have name : name = entry.name := same
      exact other (by rw [id, name])
  | create _ _ _ _ adds => exact adds.away used (.inr away)
  | remove removes =>
      intro container bound
      rw [removes.byName, update_apply] at bound
      split at bound
      · cases bound
      · exact away container bound

/-- The name of the backup is another name. -/
theorem Update.backup_ne (update : Update) : update.backup ≠ update.pending.name := by
  intro same
  have lengths := congrArg String.length same
  simp only [Update.backup, Update.pending, String.length_append] at lengths
  have suffix : "-rollback-".length = 10 := rfl
  omega

-----------------------------------------------------------------------------------------
-- Marks
-----------------------------------------------------------------------------------------

/-- The containers and the pending entry. -/
structure Noted (creation : Creation) (s : State) : Prop where
  wf : s.docker.Wf
  used : ∀ entry, s.journal.pending = some entry → entry.old ∈ s.docker.used
  pending : creation.entry = s.journal.pending
  settled : s.journal.pending = none → creation.done = false

/-- Once a replacement has been created the old container is not under its name. -/
def Parted (creation : Creation) (s : State) : Prop :=
  ∀ entry, s.journal.pending = some entry → creation.done = true → Away entry s.docker

/-- The old container that `recover` holds is the entry's. -/
def RecoverStage.Own (entry : Pending) : RecoverStage → Prop
  | .inspectingNew old => ∀ container, old = some container → container.id = entry.old
  | .committing old | .removing old _ | .restoring old | .restarting old => old.id = entry.old
  | _ => True

/-- What holds where the updater is. -/
def Located (s : State) : Pc → Prop
  | .idle => True
  | .releasing | .listing _ | .choosing _ => s.journal.pending = none
  | .pulling update _ | .updating update _ .recording =>
      s.journal.pending = none ∧ update.old.id ∈ s.docker.used
  | .updating update _ _ => s.journal.pending = some update.pending
  | .recovering _ entry stage => s.journal.pending = some entry ∧ stage.Own entry

/-- Where the old container has its name back after a replacement has been created, the rollback is
at its end.
-/
structure Marked (creation : Creation) (s : State) : Prop extends Noted creation s where
  place : Located s s.pc
  parted : s.pc.rollingBack = false → Parted creation s

variable {creation : Creation} {pc : Pc}

/-- The containers may change anywhere. -/
theorem Located.keep (located : Located s pc) (journal : t.journal = s.journal)
    (used : ∀ id ∈ s.docker.used, id ∈ t.docker.used)
    : Located t pc := by
  cases pc with
  | idle => trivial
  | releasing | listing | choosing => exact (congrArg Journal.pending journal).trans located
  | pulling =>
      exact ⟨(congrArg Journal.pending journal).trans located.1, used _ located.2⟩
  | updating update target stage =>
      cases stage with
      | recording => exact ⟨(congrArg Journal.pending journal).trans located.1, used _ located.2⟩
      | _ => exact (congrArg Journal.pending journal).trans located
  | recovering => exact ⟨(congrArg Journal.pending journal).trans located.1, located.2⟩

/-- Between two updates no entry is pending. -/
theorem Located.between (located : Located s s.pc) (at_ : s.pc.between = true)
    : s.journal.pending = none := by
  generalize s.pc = pc at located at_
  cases pc with
  | releasing | listing | choosing => exact located
  | pulling => exact located.1
  | _ => cases at_

theorem Noted.at_ (noted : Noted creation s) (place : Located s pc)
    (parted : pc.rollingBack = false → Parted creation s)
    : Marked creation (s.at_ pc) := by
  refine ⟨⟨noted.wf, noted.used, noted.pending, noted.settled⟩, ?_, parted⟩
  cases pc with
  | updating update target stage => cases stage <;> exact place
  | _ => exact place

theorem Noted.returned (noted : Noted creation s) (parted : Parted creation s)
    (none : s.journal.pending = none) (caller : Caller)
    : Marked creation (s.returned caller) := by
  cases caller with
  | reconcile | deferred | finished => exact noted.at_ none (fun _ => parted)
  | handler => exact noted.at_ trivial (fun _ => parted)

theorem Noted.recover (noted : Noted creation s) (parted : Parted creation s) (caller : Caller)
    : Marked creation (s.recover caller) := by
  unfold State.recover
  split
  · rename_i none
    exact noted.returned parted none caller
  · rename_i pending
    exact noted.at_ ⟨pending, trivial⟩ (fun _ => parted)

theorem Noted.raised (noted : Noted creation s) (parted : Parted creation s) (caller : Caller)
    : Marked creation (s.raised caller) := by
  cases caller with
  | reconcile | handler => exact noted.at_ trivial (fun _ => parted)
  | deferred _ | finished _ => exact noted.recover parted .handler

/-- The decision of `recover` keeps the old container that it has inspected. -/
theorem State.recovery_own {inspected under : Option Container} {health : Health}
    (own : RecoverStage.Own entry (.inspectingNew inspected))
    (decided : State.recovery project entry inspected under health = .ok stage)
    : stage.Own entry := by
  unfold State.recovery at decided
  split at decided
  · split at decided
    · split at decided
      · cases decided
      · split at decided
        · cases decided
          trivial
        · split at decided <;> cases decided <;> trivial
    · split at decided
      · split at decided
        · cases decided
          trivial
        · split at decided <;> cases decided
          exact own _ rfl
      · split at decided
        · cases decided
        · split at decided
          · cases decided
          · split at decided <;> cases decided
            exact own _ rfl
  · cases decided
  · split at decided <;> cases decided
    exact own _ rfl

-----------------------------------------------------------------------------------------
-- Effects
-----------------------------------------------------------------------------------------

/-- A request takes effect. -/
theorem Noted.effect (noted : Noted creation s) (effect : s.docker.Effect request docker)
    (wf : docker.Wf)
    : Noted (creation.effect request) { s with docker } where
  wf := wf
  used := fun entry pending => effect.used (noted.used entry pending)
  pending := noted.pending
  settled := by
    intro none
    simp [Creation.effect, noted.settled none, noted.pending.trans none]

/-- A request that takes effect keeps the old container away from its name, or creates. -/
theorem Noted.parted (noted : Noted creation s) (effect : s.docker.Effect request docker)
    (before
      : ∀ entry,
          s.journal.pending = some entry
          → creation.done = true
          → Away entry s.docker ∧ request ≠ .rename entry.old entry.name)
    : Parted (creation.effect request) { s with docker } := by
  intro entry pending since
  have used := noted.used entry pending
  cases done : creation.done with
  | true =>
      obtain ⟨away, other⟩ := before entry pending done
      exact effect.away noted.wf used away other
  | false =>
      simp only [Creation.effect, done, Bool.false_or, noted.pending.trans pending,
        Option.any_some] at since
      cases request with
      | create name id image config =>
          simp only [Request.creates, Bool.and_eq_true, decide_eq_true_eq] at since
          exact effect.of_create.away used (.inl since.1)
      | _ => cases since

/-- A call keeps the marks: its answer leads on, to the end of a rollback where it gives the old
container its name back, and any other end leads to the error path.
-/
theorem Noted.issue (noted : Noted (creations past) s)
    (parted : s.pc.rollingBack = false → Parted (creations past) s)
    (pending : s.journal.pending = some entry) {failed : State → State}
    (located : ∀ docker, Located { s with docker } pc)
    (forward
      : pc.rollingBack = false
        → s.pc.rollingBack = false ∧ request ≠ .rename entry.old entry.name)
    (errors : ∀ creation t, Noted creation t → Parted creation t → Marked creation (failed t))
    (done : s.issue entry request reply (fun t => t.at_ pc) failed = (label, t))
    (uninterrupted : s.uninterrupted past label = true)
    : Marked (creations (past ++ [label])) t := by
  rw [creations_snoc]
  unfold State.issue at done
  split at done
  · rename_i docker performed
    cases done
    obtain ⟨effect, wf⟩ := Docker.perform_effect noted.wf performed
    refine (noted.effect effect wf).at_ (located docker) ?_
    intro ahead
    obtain ⟨here, differs⟩ := forward ahead
    refine noted.parted effect ?_
    intro other same since
    cases pending.symm.trans same
    exact ⟨parted here entry pending since, differs⟩
  · rename_i docker performed
    cases done
    obtain ⟨effect, wf⟩ := Docker.perform_effect noted.wf performed
    refine errors _ _ (noted.effect effect wf) (noted.parted effect ?_)
    intro other same since
    cases pending.symm.trans same
    have here := State.not_rollingBack uninterrupted since rfl
    refine ⟨parted here entry pending since, ?_⟩
    rintro rfl
    have restores := State.not_restores uninterrupted since here pending
    simp [Label.restores] at restores
  all_goals
    cases done
    refine errors _ _ ⟨noted.wf, noted.used, noted.pending, noted.settled⟩ ?_
    intro other same since
    exact parted (State.not_rollingBack uninterrupted since rfl) other same since

-----------------------------------------------------------------------------------------
-- Steps
-----------------------------------------------------------------------------------------

/-- A step of `recover`, by cases on its stage. -/
theorem Marked.recovering (marked : Marked (creations past) s)
    (at_ : s.pc = .recovering caller entry stage) {c : Choice}
    (done : s.recovering project c caller entry stage = (label, t))
    (uninterrupted : s.uninterrupted past label = true)
    : Marked (creations (past ++ [label])) t := by
  have noted := marked.toNoted
  have parted := marked.parted
  have place := marked.place
  rw [at_] at place
  obtain ⟨pending, own⟩ := place
  have errors : ∀ creation u, Noted creation u → Parted creation u
      → Marked creation (u.raised caller) :=
    fun creation u noted parted => noted.raised parted caller
  cases stage with
  | inspectingOld =>
      have parted := parted (by rw [at_]; rfl)
      simp only [State.recovering] at done
      split at done <;> cases done <;> rw [creations_snoc]
      · exact noted.at_ ⟨pending, fun _ found => Docker.byId_id found⟩ (fun _ => parted)
      · exact errors _ s noted parted
  | inspectingNew old =>
      have parted := parted (by rw [at_]; rfl)
      simp only [State.recovering] at done
      split at done
      · split at done <;> cases done <;> rw [creations_snoc]
        · rename_i decided
          exact noted.at_ ⟨pending, State.recovery_own own decided⟩ (fun _ => parted)
        · exact errors _ s noted parted
      · cases done
        rw [creations_snoc]
        exact errors _ s noted parted
  | starting | resuming | committing =>
      have here : s.pc.rollingBack = false := by rw [at_]; rfl
      refine noted.issue parted pending ?_ ?_ errors done uninterrupted
      · exact fun _ => ⟨pending, trivial⟩
      · exact fun _ => ⟨here, fun same => by cases same⟩
  | removing old new =>
      have here : s.pc.rollingBack = false := by rw [at_]; rfl
      refine noted.issue parted pending ?_ ?_ errors done uninterrupted
      · exact fun _ => ⟨pending, own⟩
      · exact fun _ => ⟨here, fun same => by cases same⟩
  | restoring old =>
      have same : old.id = entry.old := own
      simp only [State.recovering, same] at done
      refine noted.issue parted pending ?_ ?_ errors done uninterrupted
      · exact fun _ => ⟨pending, same⟩
      · intro ahead
        cases ahead
  | restarting old =>
      refine noted.issue parted pending ?_ ?_ errors done uninterrupted
      · exact fun _ => ⟨pending, trivial⟩
      · intro ahead
        cases ahead
  | clearing rolledBack =>
      simp only [State.recovering] at done
      generalize (if rolledBack then _ else _) = failed at done
      have cleared : Noted ⟨none, false⟩ { s with journal := ⟨failed, none⟩ } :=
        ⟨noted.wf, fun _ none => (by cases none), rfl, fun _ => rfl⟩
      cases done
      rw [creations_snoc]
      exact cleared.returned (fun _ none => (by cases none)) rfl caller

/-- A step of `update` after its checks, by cases on its stage. -/
theorem Marked.updating (marked : Marked (creations past) s) {update : Update} {target : Image}
    {stage : UpdateStage} (at_ : s.pc = .updating update target stage) {c : Choice}
    (done : s.updating c update target stage = (label, t))
    (uninterrupted : s.uninterrupted past label = true)
    : Marked (creations (past ++ [label])) t := by
  have noted := marked.toNoted
  have here : s.pc.rollingBack = false := by rw [at_]; rfl
  have parted := marked.parted here
  have place := marked.place
  rw [at_] at place
  have errors : ∀ creation u, Noted creation u → Parted creation u
      → Marked creation (u.recover .handler) :=
    fun creation u noted parted => noted.recover parted .handler
  cases stage with
  | recording =>
      obtain ⟨none, used⟩ := place
      cases done
      rw [creations_snoc]
      have fresh := noted.settled none
      have recorded : Noted ((creations past).after (.recorded update.pending))
          { s with journal := { s.journal with pending := some update.pending } } := by
        refine ⟨noted.wf, ?_, rfl, fun none => (by cases none)⟩
        rintro other ⟨⟩
        exact used
      exact recorded.at_ (show Located _ (.updating update target .signalling) from rfl)
        (fun _ _ _ since => by cases fresh.symm.trans since)
  | rerecording =>
      have pending : s.journal.pending = some update.pending := place
      have same : { s.journal with pending := some update.pending } = s.journal := by
        rw [← pending]
      have again : (creations past).after (.recorded update.pending) = creations past := by
        rw [Creation.after, ← pending, ← noted.pending]
      cases done
      rw [creations_snoc, again, same]
      exact noted.at_ (show Located s (.updating update target .stopping) from pending)
        (fun _ => parted)
  | draining =>
      simp only [State.updating] at done
      split at done
      · cases done
        rw [creations_snoc]
        exact errors _ s noted parted
      · split at done
        · cases done
          rw [creations_snoc]
          exact noted.at_ place (fun _ => parted)
        · split at done <;> cases done <;> rw [creations_snoc]
          · exact noted.recover parted (.deferred update.loop)
          · exact noted.at_ place (fun _ => parted)
  | reading =>
      simp only [State.updating] at done
      split at done <;> cases done <;> rw [creations_snoc]
      · exact noted.at_ place (fun _ => parted)
      · exact errors _ s noted parted
  | watching created =>
      simp only [State.updating] at done
      split at done
      · cases done
        rw [creations_snoc]
        exact noted.recover parted (.finished update.loop)
      · split at done
        · cases done
          rw [creations_snoc]
          exact errors _ s noted parted
        · split at done
          · split at done <;> cases done <;> rw [creations_snoc]
            · exact noted.recover parted (.finished update.loop)
            · exact noted.at_ place (fun _ => parted)
          · cases done
            rw [creations_snoc]
            exact noted.recover parted (.finished update.loop)
  | creating oldDefaults =>
      have pending : s.journal.pending = some update.pending := place
      refine noted.issue (fun _ => parted) pending ?_ ?_ errors done uninterrupted
      · exact fun _ => pending
      · exact fun _ => ⟨here, fun same => by cases same⟩
  | backingUp =>
      have pending : s.journal.pending = some update.pending := place
      refine noted.issue (fun _ => parted) pending ?_ ?_ errors done uninterrupted
      · exact fun _ => pending
      · refine fun _ => ⟨here, ?_⟩
        intro same
        injection same with _ name
        exact update.backup_ne name
  | signalling | stopping | starting =>
      have pending : s.journal.pending = some update.pending := place
      refine noted.issue (fun _ => parted) pending ?_ ?_ errors done uninterrupted
      · exact fun _ => pending
      · exact fun _ => ⟨here, fun same => by cases same⟩

/-- A late request keeps the marks where it does not give the old container its name back. -/
theorem Marked.take (marked : Marked (creations past) s)
    {index : Nat}
    (uninterrupted
      : s.uninterrupted past (.took request (s.docker.perform request).isSome) = true)
    : Marked (creations (past ++ [.took request (s.docker.perform request).isSome]))
        { s with
          docker := (s.docker.perform request).getD s.docker
          inflight := s.inflight.eraseIdx index } := by
  rw [creations_snoc]
  cases performed : s.docker.perform request with
  | none =>
      exact ⟨⟨marked.wf, marked.used, marked.pending, marked.settled⟩, marked.place.keep rfl
        (fun _ used => used), marked.parted⟩
  | some docker =>
      obtain ⟨effect, wf⟩ := Docker.perform_effect marked.wf performed
      rw [performed] at uninterrupted
      have noted := marked.toNoted.effect effect wf
      refine ⟨⟨noted.wf, noted.used, noted.pending, noted.settled⟩,
        marked.place.keep rfl (fun _ => effect.used), ?_⟩
      intro forward
      refine marked.toNoted.parted effect ?_
      intro other pending since
      refine ⟨marked.parted forward other pending since, ?_⟩
      rintro rfl
      have restores := State.not_restores uninterrupted since forward pending
      simp [Label.restores] at restores

theorem State.Starts.marked (starts : s.Starts) : Marked (creations []) s := by
  have none : ∀ entry, s.journal.pending ≠ some entry := by
    intro entry pending
    cases starts.settled.symm.trans pending
  refine ⟨⟨starts.wf, fun _ pending => (none _ pending).elim, starts.settled.symm, fun _ => rfl⟩,
    ?_, fun _ _ pending => (none _ pending).elim⟩
  rw [starts.idle]
  trivial

/-- Every step of an uninterrupted run keeps the marks, by cases on it. -/
theorem Marked.step (marked : Marked (creations past) s) (step : s.Step project label t)
    (uninterrupted : s.uninterrupted past label = true)
    : Marked (creations (past ++ [label])) t := by
  have noted := marked.toNoted
  have place := marked.place
  cases step.moves with
  | crash =>
      rw [creations_snoc]
      refine noted.at_ trivial (fun _ other pending since => ?_)
      exact marked.parted (State.not_rollingBack uninterrupted since rfl) other pending since
  | restart id runs =>
      rw [creations_snoc]
      obtain ⟨old, found, _⟩ := (Option.any_eq_true _ _).mp runs
      obtain ⟨changes, wf⟩ := Docker.begin_changes noted.wf found
      have used : ∀ id ∈ s.docker.used, id ∈ (s.docker.begin id).used :=
        fun _ used => changes.used ▸ used
      refine ⟨⟨wf, fun other pending => used _ (noted.used other pending), noted.pending,
        noted.settled⟩, place.keep rfl used, ?_⟩
      intro forward other pending since
      exact changes.away noted.wf (marked.parted forward other pending since) (fun _ => .inl rfl)
  | take found => exact marked.take uninterrupted
  | start at_ =>
      rw [creations_snoc]
      exact noted.recover (marked.parted (by rw [at_]; rfl)) .reconcile
  | stop at_ =>
      rw [creations_snoc]
      exact noted.at_ trivial (fun _ => marked.parted (Pc.between_forward at_))
  | list _ at_ | skip _ at_ =>
      rw [creations_snoc]
      exact noted.at_ (place.between at_) (fun _ => marked.parted (Pc.between_forward at_))
  | choose health loop at_ found managed admitted =>
      rw [creations_snoc]
      exact noted.at_ ⟨place.between at_, noted.wf.used_of_byId found⟩
        (fun _ => marked.parted (Pc.between_forward at_))
  | proceed target at_ =>
      rw [creations_snoc]
      rw [at_] at place
      exact noted.at_ place (fun _ => marked.parted (by rw [at_]; rfl))
  | updating at_ done => exact marked.updating at_ done uninterrupted
  | recovering at_ done => exact marked.recovering at_ done uninterrupted

-----------------------------------------------------------------------------------------
-- What the quarantine does
-----------------------------------------------------------------------------------------

/-- An entry under another key is found in what a filter on the keys leaves, by list induction. -/
theorem lookup_filter_ne {entries : List (String × String)} {service other : String}
    (differs : other ≠ service)
    : (entries.filter (fun entry => entry.1 ≠ service)).lookup other = entries.lookup other := by
  induction entries with
  | nil => rfl
  | cons head tail ih =>
      obtain ⟨key, value⟩ := head
      by_cases same : key = service
      · subst same
        have away : (other == key) = false := by simpa using differs
        rw [List.filter_cons_of_neg (by simp), ih, List.lookup_cons, away]
      · rw [List.filter_cons_of_pos (by simpa using same), List.lookup_cons, List.lookup_cons, ih]

theorem Journal.lookup_quarantine (journal : Journal) (service image other : String)
    : (journal.quarantine service image).lookup other
      = if other = service then some image else journal.failed.lookup other := by
  rw [Journal.quarantine, List.lookup_cons]
  split
  · rename_i same
    rw [if_pos (by simpa using same)]
  · rename_i differs
    rw [if_neg (by simpa using differs), lookup_filter_ne (by simpa using differs)]

/-- Where `update` is under way its image is not in quarantine for the worker's role. -/
def Admitted (journal : Journal) : Pc → Prop
  | .pulling update _ | .updating update _ _ =>
      journal.failed.lookup update.old.config.role ≠ some update.image
  | _ => True

theorem Admitted.rest {pc : Pc} (resting : pc.resting = true) (journal : Journal)
    : Admitted journal pc := by
  cases pc with
  | pulling | updating => cases resting
  | _ => trivial

/-- Every step keeps it, by cases on the step. -/
theorem Admitted.step (admitted : Admitted s.journal s.pc) (step : s.Step project label t)
    : Admitted t.journal t.pc := by
  cases step.moves with
  | start =>
      obtain ⟨pc, moved, resting⟩ := s.recover_at .reconcile
      rw [moved]
      exact .rest resting _
  | restart | take => exact admitted
  | choose _ _ _ _ _ admitted => exact admitted
  | proceed _ at_ =>
      rw [at_] at admitted
      exact admitted
  | updating at_ done =>
      rw [at_] at admitted
      obtain ⟨failed, ⟨next, here⟩ | resting⟩ := State.updating_next done
      · rw [here, Admitted, failed]
        exact admitted
      · exact .rest resting _
  | recovering at_ done =>
      obtain ⟨_, ⟨next, here⟩ | resting⟩ := State.recovering_next done
      · rw [here]
        trivial
      · exact .rest resting _
  | _ => trivial

/-- A SIGUSR1 is sent only for an image that is not in quarantine. -/
theorem Admitted.drained {id : String} {reply : Reply} (admitted : Admitted s.journal s.pc)
    (step : s.Step project (.call entry (.kill id .usr1) reply) t)
    : s.journal.failed.lookup entry.service ≠ some entry.image := by
  have called := step.call
  generalize s.pc = pc at called admitted
  cases called with
  | @recovering caller stage made => cases stage <;> cases made
  | @updating _ update target stage same made =>
      subst same
      exact admitted

/-- A quarantine lasts until another image is put there for the role. -/
theorem State.Step.quarantine (step : s.Step project label t) {service image : String}
    (held : s.journal.failed.lookup service = some image)
    : t.journal.failed.lookup service = some image
      ∨ ∃ entry,
          label = .cleared entry
          ∧ entry.service = service
          ∧ t.journal.failed.lookup service = some entry.image := by
  cases step.moves with
  | start =>
      obtain ⟨pc, moved, _⟩ := s.recover_at .reconcile
      rw [moved]
      exact .inl held
  | updating at_ done =>
      rw [(State.updating_next done).1]
      exact .inl held
  | @recovering _ _ entry _ _ _ at_ done =>
      rcases (State.recovering_next done).1 with failed | ⟨_, rfl, failed⟩
      · rw [failed]
        exact .inl held
      · rw [failed, Journal.lookup_quarantine]
        split
        · rename_i same
          exact .inr ⟨entry, rfl, same.symm, rfl⟩
        · exact .inl held
  | _ => exact .inl held

theorem State.issue_uncleared {sent : Request} {ended : Reply} {made : Pending}
    {answered failed : State → State}
    (done : s.issue made sent ended answered failed = (.cleared entry, t))
    : False := by
  unfold State.issue at done
  split at done <;> cases done

/-- An entry is cleared at one stage of `recover`, which is followed by its return. -/
theorem State.Step.clear (step : s.Step project (.cleared entry) t)
    : ∃ caller rolledBack,
        s.pc = .recovering caller entry (.clearing rolledBack)
        ∧ t
          = { s with
              journal :=
                ⟨if rolledBack then s.journal.quarantine entry.service entry.image
                  else s.journal.failed,
                  none⟩ }.returned caller := by
  generalize shown : Label.cleared entry = label at step
  cases step.moves with
  | @recovering _ caller made stage _ _ at_ done =>
      subst shown
      cases stage with
      | clearing rolledBack =>
          cases done
          exact ⟨caller, rolledBack, at_, rfl⟩
      | inspectingOld =>
          simp only [State.recovering] at done
          split at done <;> cases done
      | inspectingNew =>
          simp only [State.recovering] at done
          split at done
          · split at done <;> cases done
          · cases done
      | _ =>
          simp only [State.recovering] at done
          exact (State.issue_uncleared done).elim
  | @updating _ update target stage _ _ at_ done =>
      subst shown
      cases stage with
      | recording | rerecording => cases done
      | draining =>
          simp only [State.updating] at done
          split at done
          · cases done
          · split at done
            · cases done
            · split at done <;> cases done
      | reading =>
          simp only [State.updating] at done
          split at done <;> cases done
      | watching =>
          simp only [State.updating] at done
          split at done
          · cases done
          · split at done
            · cases done
            · split at done
              · split at done <;> cases done
              · cases done
      | _ =>
          simp only [State.updating] at done
          exact (State.issue_uncleared done).elim
  | _ => cases shown

/-- What the quarantine does at a state after a history: it holds the image of every replacement
that is rolled back, keeps the updater from draining for an image that it holds, and lasts until it
holds another one.
-/
structure Quarantined (project : String) (past : List Label) (s : State) : Prop where
  rolledBack
    : ∀ entry old t,
        s.Step project (.cleared entry) t
        → created past = true
        → t.docker.byName entry.name = some old
        → old.id = entry.old
        → t.journal.failed.lookup entry.service = some entry.image
  undrained
    : ∀ entry id reply t,
        s.Step project (.call entry (.kill id .usr1) reply) t
        → s.journal.failed.lookup entry.service ≠ some entry.image
  kept
    : ∀ service image label t,
        s.Step project label t
        → s.journal.failed.lookup service = some image
        → t.journal.failed.lookup service = some image
          ∨ ∃ entry,
              label = .cleared entry
              ∧ entry.service = service
              ∧ t.journal.failed.lookup service = some entry.image

/-- A save with the old container under its name is that of a rollback, which writes the quarantine.
-/
theorem Marked.rolledBack (marked : Marked (creations past) s)
    (step : s.Step project (.cleared entry) t) (since : created past = true)
    (bound : t.docker.byName entry.name = some old) (own : old.id = entry.old)
    : t.journal.failed.lookup entry.service = some entry.image := by
  obtain ⟨caller, rolledBack, at_, rfl⟩ := step.clear
  generalize cleared : (⟨if rolledBack then _ else _, none⟩ : Journal) = journal at bound ⊢
  obtain ⟨pc, moved, _⟩ := State.returned_at { s with journal } caller
  rw [moved] at bound ⊢
  cases rolledBack with
  | true =>
      subst cleared
      exact (s.journal.lookup_quarantine _ _ _).trans (if_pos rfl)
  | false =>
      have place := marked.place
      rw [at_] at place
      exact (marked.parted (by rw [at_]; rfl) entry place.1 since old bound own).elim

/-- In every run whose rollbacks are not interrupted the image of every replacement that is rolled
back is in quarantine, by induction on the run.
-/
theorem rolled_back_quarantined {start : State} (starts : start.Starts)
    (run
      : Execution.GuardedRun (State.Step project)
          (fun past s label => s.uninterrupted past label = true) start past s)
    : Quarantined project past s := by
  have kept : Marked (creations past) s ∧ Admitted s.journal s.pc := by
    refine run.history
      (I := fun past s => Marked (creations past) s ∧ Admitted s.journal s.pc) ?_ ?_
    · rintro past s label t ⟨marked, admitted⟩ uninterrupted step
      exact ⟨marked.step step uninterrupted, admitted.step step⟩
    · refine ⟨starts.marked, ?_⟩
      rw [starts.idle]
      trivial
  obtain ⟨marked, admitted⟩ := kept
  exact {
    rolledBack := fun entry old t step since bound own =>
      marked.rolledBack step since bound own
    undrained := fun entry id reply t step => admitted.drained step
    kept := fun service image label t step held => step.quarantine held }

-----------------------------------------------------------------------------------------
-- A rollback after a crash, and one with a crash in it
-----------------------------------------------------------------------------------------

/-- The recovery of an update that crashed after the creation, up to its save. -/
def rollback : List Label × State :=
  Execution.play (State.exec "workers")
    (fun past s label => s.uninterrupted past label) [] device
    (chooseWorker ++ replaceWorker ++ [.crash] ++ List.replicate 6 (.run { health := .starting }))

theorem rollback_run
    : Execution.GuardedRun (State.Step "workers")
        (fun past s label => s.uninterrupted past label = true) device
        rollback.1 rollback.2 :=
  Execution.play_run (State.Step.of_exec "workers") (.nil _) _

/-- The save puts the release in quarantine. -/
theorem rolled_back_quarantined_release
    : ∃ t,
        rollback.2.Step "workers" (.cleared sampleEntry) t
        ∧ t.journal.failed.lookup "cpu" = some "release" := by
  have shown : (rollback.2.run "workers" {}).1 = .cleared sampleEntry := by decide +kernel
  have step : rollback.2.Step "workers" (.cleared sampleEntry)
      (rollback.2.run "workers" {}).2 := by
    rw [← shown]
    exact ⟨.run {}, rfl⟩
  have bound : ((rollback.2.run "workers" {}).2.docker.byName "worker-cpu-1").any
      (fun old => old.id = "a1") = true := by
    decide +kernel
  obtain ⟨old, bound, own⟩ := (Option.any_eq_true _ _).mp bound
  exact ⟨_, step, (rolled_back_quarantined device_starts rollback_run).rolledBack sampleEntry old _
    step (by decide +kernel) bound (of_decide_eq_true own)⟩

/-- The same, but for a crash between the rename and the start of the old container. -/
def crashedRollback : List Label × State :=
  Execution.play (State.exec "workers") (fun _ _ label => label.ordinary) [] device
    (chooseWorker ++ replaceWorker ++ [.crash] ++ List.replicate 5 (.run { health := .starting })
      ++ [.crash] ++ List.replicate 5 (.run {}))

/-- The old container is back under its name, and the release is not in quarantine. -/
theorem not_quarantined
    : Execution.Run (State.OrdinaryStep "workers") device crashedRollback.1 crashedRollback.2
      ∧ (∃ earlier, crashedRollback.1 = earlier ++ [.cleared sampleEntry] ∧ created earlier = true)
      ∧ (crashedRollback.2.docker.byName "worker-cpu-1").any (fun old => old.id = "a1") = true
      ∧ crashedRollback.2.journal.failed.lookup "cpu" = none := by
  refine ⟨?_, ⟨crashedRollback.1.dropLast, by decide +kernel, by decide +kernel⟩,
    by decide +kernel, by decide +kernel⟩
  exact (Execution.play_run (State.Step.of_exec "workers") (.nil _) _).run
    (fun _ _ _ _ met step => ⟨step, met⟩)

end Transcriber.Updater
