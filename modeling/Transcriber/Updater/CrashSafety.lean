import Transcriber.Library.Execution
import Transcriber.Updater.Soundness

/-! What holds for the workers of a device in every run of the updater with crashes and failing
calls: a worker always has a managed container, the old one and its replacement never run both, and
a recovery that returns leaves one of them, running under the name.
-/

namespace Transcriber.Updater

open Function

variable {project : String} {s t u : State} {entry : Pending} {request : Request} {label : Label}
variable {docker next : Docker} {old new container : Container} {past : List Label}

-----------------------------------------------------------------------------------------
-- Workers keep a container
-----------------------------------------------------------------------------------------

/-- A worker is served by a container under its name, or by the old one of the entry for it while
that exists.
-/
inductive Serves (project : String) (config : Config) (name : String) (s : State) : Prop
  | named {container : Container} (bound : s.docker.byName name = some container)
    (managed : container.config.managed project = true)
    (derived : Derived config container.config)
    (own
      : ∀ entry,
          s.journal.pending = some entry
          → entry.name ≠ name ∧ container.id ≠ entry.old
            ∨ entry.name = name ∧ s.docker.byId entry.old = none)
  | kept {entry : Pending} {old : Container} (pending : s.journal.pending = some entry)
    (name : entry.name = name) (found : s.docker.byId entry.old = some old)
    (managed : old.config.managed project = true) (derived : Derived config old.config)

theorem Replaces.derived {config first second : Config} (replaces : Replaces first second)
    (derived : Derived config first)
    : Derived config second := by
  obtain ⟨image, imageId, oldDefaults, newDefaults, rfl⟩ := replaces
  exact .replacement derived image imageId oldDefaults newDefaults

/-- The old container keeps its configuration through an allowed call, or is gone for its
replacement.
-/
theorem Allowed.keepsOld (wf : docker.Wf) (allowed : Allowed project entry docker request)
    (effect : docker.Effect request next) (found : docker.byId entry.old = some old)
    : (∃ after, next.byId entry.old = some after ∧ after.config = old.config)
      ∨ ∃ new, Committed project entry next new ∧ Replaces old.config new.config := by
  cases allowed with
  | signal signal intact =>
      cases intact.found.symm.trans found
      exact .inl ⟨_, (intact.kill effect).1.found, rfl⟩
  | stop intact =>
      cases intact.found.symm.trans found
      exact .inl ⟨_, (intact.stop effect).found, rfl⟩
  | restart intact =>
      cases intact.found.symm.trans found
      obtain ⟨started, intact⟩ := intact.start effect
      exact .inl ⟨_, intact.found, rfl⟩
  | backUp name intact stopped =>
      cases intact.found.symm.trans found
      exact .inl ⟨_, (intact.rename stopped effect).found, rfl⟩
  | create id image config backedUp replaces =>
      cases backedUp.found.symm.trans found
      exact .inl ⟨_, (backedUp.create wf effect.of_create rfl replaces).found, rfl⟩
  | start replaced =>
      cases replaced.found.symm.trans found
      obtain ⟨started, replaced⟩ := replaced.start wf effect
      exact .inl ⟨_, replaced.found, rfl⟩
  | commit replaced managed running =>
      cases replaced.found.symm.trans found
      exact .inr ⟨_, replaced.removeOld wf managed running effect, replaced.replaces⟩
  | discard replaced =>
      cases replaced.found.symm.trans found
      exact .inl ⟨_, (replaced.removeNew wf effect).found, rfl⟩
  | restore backedUp =>
      cases backedUp.found.symm.trans found
      exact .inl ⟨_, (backedUp.rename effect).found, rfl⟩

/-- While calls are allowed the old container exists. -/
theorem Allowed.exists_old (allowed : Allowed project entry docker request)
    : ∃ old, docker.byId entry.old = some old := by
  cases allowed with
  | signal _ intact | stop intact | restart intact | backUp _ intact _ =>
      exact ⟨_, intact.found⟩
  | create _ _ _ backedUp _ | restore backedUp => exact ⟨_, backedUp.found⟩
  | start replaced | commit replaced _ _ | discard replaced => exact ⟨_, replaced.found⟩

/-- An allowed call names the old container, the one under the name, or a new one. -/
theorem Allowed.target (wf : docker.Wf) (allowed : Allowed project entry docker request)
    (effect : docker.Effect request next) {name : String}
    (bound : docker.byName name = some container) (elsewhere : entry.name ≠ name)
    (other : container.id ≠ entry.old)
    : container.id ≠ Docker.target request := by
  cases allowed with
  | signal | stop | restart | backUp | commit | restore => exact other
  | create id image config backedUp replaces =>
      have fresh : id ∉ docker.used := effect.of_create.fresh
      have used := wf.used_of_byId (wf.byId_of_byName bound)
      rintro rfl
      exact fresh used
  | start replaced | discard replaced =>
      intro same
      have found := wf.byId_of_byName bound
      rw [same, Docker.target, replaced.foundNew wf] at found
      cases found
      exact elsewhere (replaced.name.symm.trans (Docker.byName_name bound))

/-- A step keeps every worker served. -/
theorem Serves.step {config : Config} {name : String} (wf : s.docker.Wf)
    (serves : Serves project config name s) (alters : Alters project s label t)
    : Serves project config name t := by
  cases alters with
  | quiet quiet docker journal =>
      cases serves with
      | named bound managed derived own =>
          exact .named (docker ▸ bound) managed derived (by rw [docker, journal]; exact own)
      | kept pending name found managed derived =>
          exact .kept (journal ▸ pending) name (docker ▸ found) managed derived
  | @record entry _ old intact docker before journal =>
      cases serves with
      | @named container bound managed derived own =>
          rcases before with none | same
          · by_cases here : container.id = entry.old
            · have found := wf.byId_of_byName bound
              rw [here, intact.found] at found
              cases found
              exact .kept (by rw [journal])
                (intact.name.symm.trans (Docker.byName_name bound)) (docker ▸ intact.found)
                managed derived
            · refine .named (docker ▸ bound) managed derived ?_
              intro other pending
              rw [journal] at pending
              cases pending
              refine .inl ⟨?_, here⟩
              rintro rfl
              cases intact.bound.symm.trans bound
              exact here intact.id
          · exact .named (docker ▸ bound) managed derived
              (by rw [docker, journal, ← same]; exact own)
      | kept pending name found managed derived =>
          rcases before with none | same
          · cases none.symm.trans pending
          · cases same.symm.trans pending
            exact .kept (by rw [journal]) name (docker ▸ found) managed derived
  | clear pending settled docker journal =>
      cases serves with
      | named bound managed derived own =>
          exact .named (docker ▸ bound) managed derived (by rw [journal]; nofun)
      | kept here name found managed derived =>
          cases pending.symm.trans here
          rcases settled with ⟨old, intact, _⟩ | ⟨new, committed⟩
          · cases intact.found.symm.trans found
            exact .named (docker ▸ name ▸ intact.bound) managed derived (by rw [journal]; nofun)
          · cases committed.gone.symm.trans found
  | @call entry request reply _ _ pending allowed effect journal =>
      cases serves with
      | named bound managed derived own =>
          rcases own entry pending with ⟨elsewhere, other⟩ | ⟨_, gone⟩
          · have target := allowed.target wf effect bound elsewhere other
            refine .named (effect.frame wf bound target) managed derived ?_
            intro next same
            rw [journal, pending] at same
            cases same
            exact .inl ⟨elsewhere, other⟩
          · obtain ⟨old, found⟩ := allowed.exists_old
            cases gone.symm.trans found
      | kept here name found managed derived =>
          cases pending.symm.trans here
          rcases allowed.keepsOld wf effect found with
            ⟨after, found, same⟩ | ⟨new, committed, replaces⟩
          · exact .kept (journal ▸ pending) name found (same ▸ managed) (same ▸ derived)
          · refine .named (name ▸ committed.bound) committed.managed (replaces.derived derived) ?_
            intro other same
            rw [journal, pending] at same
            cases same
            exact .inr ⟨name, committed.gone⟩

-----------------------------------------------------------------------------------------
-- The old container and its replacement
-----------------------------------------------------------------------------------------

/-- An update of `old` has created `new`. -/
def Succeeds (past : List Label) (old new : String) : Prop :=
  ∃ entry name image config reply,
    .call entry (.create name new image config) reply ∈ past
    ∧ reply ≠ .refused
    ∧ entry.old = old

/-- Both exist only as the two containers of the pending entry. -/
structure Apart (s : State) (old new : String) : Prop where
  differ : new ≠ old
  usedOld : old ∈ s.docker.used
  usedNew : new ∈ s.docker.used
  exclusive
    : s.docker.byId old = none
      ∨ s.docker.byId new = none
      ∨ ∃ entry container,
          s.journal.pending = some entry
          ∧ entry.old = old
          ∧ s.docker.byName entry.name = some container
          ∧ container.id = new

theorem Apart.of_same {old new : String} (apart : Apart s old new) (docker : t.docker = s.docker)
    (pending : t.journal.pending = s.journal.pending)
    : Apart t old new :=
  ⟨apart.differ, docker ▸ apart.usedOld, docker ▸ apart.usedNew,
    by rw [docker, pending]; exact apart.exclusive⟩

/-- A step keeps the two apart. -/
theorem Apart.step {old new : String} (wf : s.docker.Wf) (apart : Apart s old new)
    (alters : Alters project s label t)
    : Apart t old new := by
  cases alters with
  | quiet quiet docker journal => exact apart.of_same docker (by rw [journal])
  | record intact docker before journal =>
      rcases before with none | same
      · refine ⟨apart.differ, docker ▸ apart.usedOld, docker ▸ apart.usedNew, ?_⟩
        rw [docker]
        rcases apart.exclusive with gone | gone | ⟨entry, container, pending, _⟩
        · exact .inl gone
        · exact .inr (.inl gone)
        · cases none.symm.trans pending
      · exact apart.of_same docker (by rw [journal, same])
  | clear pending settled docker journal =>
      refine ⟨apart.differ, docker ▸ apart.usedOld, docker ▸ apart.usedNew, ?_⟩
      rw [docker]
      rcases apart.exclusive with gone | gone | ⟨entry, container, here, rfl, bound, rfl⟩
      · exact .inl gone
      · exact .inr (.inl gone)
      · cases pending.symm.trans here
        rcases settled with ⟨old, intact, _⟩ | ⟨new, committed⟩
        · cases intact.bound.symm.trans bound
          exact absurd intact.id apart.differ
        · exact .inl committed.gone
  | @call entry request reply _ _ pending allowed effect journal =>
      refine ⟨apart.differ, effect.used apart.usedOld, effect.used apart.usedNew, ?_⟩
      rcases apart.exclusive with gone | gone | ⟨entry, container, here, rfl, bound, rfl⟩
      · exact .inl (effect.gone apart.usedOld gone)
      · exact .inr (.inl (effect.gone apart.usedNew gone))
      · cases pending.symm.trans here
        cases allowed with
        | signal _ intact | stop intact | restart intact | backUp _ intact _ =>
            cases intact.bound.symm.trans bound
            exact absurd intact.id apart.differ
        | create _ _ _ backedUp _ | restore backedUp => cases backedUp.free.symm.trans bound
        | start replaced =>
            cases replaced.bound.symm.trans bound
            obtain ⟨started, replaced⟩ := replaced.start wf effect
            exact .inr (.inr ⟨entry, _, journal ▸ pending, rfl, replaced.bound, rfl⟩)
        | commit replaced managed running =>
            exact .inl (replaced.removeOld wf managed running effect).gone
        | discard replaced =>
            cases replaced.bound.symm.trans bound
            obtain ⟨removed, found, removes⟩ := effect.of_remove
            refine .inr (.inl ?_)
            rw [removes.byId, Docker.byId_id found, update_self]

/-- A creation sets the two apart. -/
theorem Apart.created {name image : String} {config : Config} {reply : Reply} {new : String}
    (wf : s.docker.Wf) (alters : Alters project s (.call entry (.create name new image config) reply) t)
    (effective : reply ≠ .refused)
    : Apart t entry.old new := by
  cases alters with
  | quiet quiet =>
      simp only [Label.quiet] at quiet
      split at quiet <;> simp_all
  | call _ pending allowed effect journal =>
      cases allowed with
      | create _ _ _ backedUp replaces =>
          have replaced := backedUp.create wf effect.of_create rfl replaces
          have used := wf.used_of_byId backedUp.found
          refine ⟨replaced.apart, effect.used used, ?_, ?_⟩
          · rw [effect.of_create.used]
            exact List.mem_cons_self
          · exact .inr (.inr ⟨entry, _, journal ▸ pending, rfl, replaced.bound, rfl⟩)

/-- Of two containers that are apart at most one runs. -/
theorem Apart.never_both {old new : String} (apart : Apart s old new)
    (standing : Standing project s)
    : ¬ ((s.docker.byId old).any Container.running = true
        ∧ (s.docker.byId new).any Container.running = true) := by
  rintro ⟨runsOld, runsNew⟩
  rcases apart.exclusive with gone | gone | ⟨entry, container, pending, rfl, bound, rfl⟩
  · simp [gone] at runsOld
  · simp [gone] at runsNew
  · cases standing.situation entry pending with
    | intact intact =>
        cases intact.bound.symm.trans bound
        exact apart.differ intact.id
    | backedUp backedUp => cases backedUp.free.symm.trans bound
    | replaced replaced => simp [replaced.found, replaced.stopped] at runsOld
    | committed committed => simp [committed.gone] at runsOld

-----------------------------------------------------------------------------------------
-- The evidence for a stop and a removal
-----------------------------------------------------------------------------------------

/-- What the updater has just seen where it stops the old container or removes it. -/
def Evidence (past : List Label) (docker : Docker) : Pc → Prop
  | .updating update _ .rerecording => ∃ earlier, past = earlier ++ [.drained update.old.id true]
  | .updating update _ .stopping =>
      ∃ earlier, past = earlier ++ [.drained update.old.id true, .recorded update.pending]
  | .recovering _ entry (.committing _) =>
      ∃ earlier new health,
        past = earlier ++ [.inspected entry (some new) health]
        ∧ new.healthy health = true
        ∧ docker.byName entry.name = some new
  | _ => True

theorem Evidence.rest (resting : s.pc.resting = true) (past : List Label)
    : Evidence past s.docker s.pc := by
  generalize s.pc = pc at resting
  cases pc with
  | recovering caller entry stage =>
      cases stage with
      | inspectingOld => trivial
      | _ => cases resting
  | updating => cases resting
  | _ => trivial

theorem State.returned_evidence (s : State) (caller : Caller) (past : List Label)
    : Evidence past (s.returned caller).docker (s.returned caller).pc := by
  obtain ⟨pc, moved, resting⟩ := s.returned_at caller
  exact .rest (by rw [moved]; exact resting) past

theorem State.recover_evidence (s : State) (caller : Caller) (past : List Label)
    : Evidence past (s.recover caller).docker (s.recover caller).pc := by
  obtain ⟨pc, moved, resting⟩ := s.recover_at caller
  exact .rest (by rw [moved]; exact resting) past

theorem State.raised_evidence (s : State) (caller : Caller) (past : List Label)
    : Evidence past (s.raised caller).docker (s.raised caller).pc := by
  obtain ⟨pc, moved, resting⟩ := s.raised_at caller
  exact .rest (by rw [moved]; exact resting) past

/-- The evidence after a call, which depends on neither its effect nor its reply. -/
theorem State.issue_evidence {answered failed : State → State} {reply : Reply}
    (goes : ∀ u, Evidence past (answered u).docker (answered u).pc)
    (fails : ∀ u, Evidence past (failed u).docker (failed u).pc)
    (done : s.issue entry request reply answered failed = (label, t))
    : Evidence past t.docker t.pc := by
  unfold State.issue at done
  split at done <;> cases done
  · exact goes _
  · exact fails _
  · exact fails _
  · exact fails _

/-- `recover` decides for a removal only on a healthy replacement. -/
theorem State.recovery_committing {found bound : Option Container} {health : Health}
    (decided : State.recovery project entry found bound health = .ok (.committing old))
    : ∃ new, bound = some new ∧ new.healthy health = true := by
  unfold State.recovery at decided
  split at decided
  · split at decided
    · split at decided
      · cases decided
      · split at decided
        · cases decided
        · split at decided <;> cases decided
    · split at decided
      · rename_i healthy
        exact ⟨_, rfl, (Bool.and_eq_true_iff.mp healthy).2⟩
      · split at decided
        · cases decided
        · split at decided
          · cases decided
          · split at decided <;> cases decided
  · cases decided
  · split at decided <;> cases decided

theorem State.recovering_evidence {c : Choice} {caller : Caller} {stage : RecoverStage}
    (done : s.recovering project c caller entry stage = (label, t))
    : Evidence (past ++ [label]) t.docker t.pc := by
  have fails : ∀ u : State, Evidence (past ++ [label]) (u.raised caller).docker
      (u.raised caller).pc := fun u => u.raised_evidence caller _
  cases stage with
  | inspectingOld =>
      simp only [State.recovering] at done
      split at done <;> cases done
      · trivial
      · exact fails s
  | inspectingNew old =>
      simp only [State.recovering] at done
      split at done
      · split at done <;> cases done
        · rename_i stage decided
          cases stage with
          | committing old =>
              obtain ⟨new, bound, healthy⟩ := State.recovery_committing decided
              exact ⟨past, new, c.health, by rw [bound], healthy, bound⟩
          | _ => trivial
        · exact fails s
      · cases done
        exact fails s
  | clearing rolledBack =>
      cases done
      exact State.returned_evidence _ caller _
  | _ =>
      simp only [State.recovering] at done
      refine State.issue_evidence ?_ fails done
      intro u
      trivial

theorem State.updating_evidence {c : Choice} {update : Update} {target : Image}
    {stage : UpdateStage} (evidence : Evidence past s.docker (.updating update target stage))
    (done : s.updating c update target stage = (label, t))
    : Evidence (past ++ [label]) t.docker t.pc := by
  have fails : ∀ u : State, Evidence (past ++ [label]) (u.recover .handler).docker
      (u.recover .handler).pc := fun u => u.recover_evidence .handler _
  cases stage with
  | recording =>
      cases done
      trivial
  | draining =>
      simp only [State.updating] at done
      split at done
      · cases done
        exact fails s
      · split at done
        · cases done
          exact ⟨past, rfl⟩
        · split at done <;> cases done
          · exact s.recover_evidence _ _
          · trivial
  | rerecording =>
      obtain ⟨earlier, rfl⟩ := evidence
      cases done
      exact ⟨earlier, by simp⟩
  | reading =>
      simp only [State.updating] at done
      split at done <;> cases done
      · trivial
      · exact fails s
  | watching created =>
      simp only [State.updating] at done
      split at done
      · cases done
        exact s.recover_evidence _ _
      · split at done
        · cases done
          exact fails s
        · split at done
          · split at done <;> cases done
            · exact s.recover_evidence _ _
            · trivial
          · cases done
            exact s.recover_evidence _ _
  | _ =>
      simp only [State.updating] at done
      refine State.issue_evidence ?_ fails done
      intro u
      trivial

/-- Each step leaves the evidence that its place needs, by cases on it. -/
theorem State.Step.evidence (step : s.Step project label t) (evidence : Evidence past s.docker s.pc)
    (ordinary : label.ordinary = true)
    : Evidence (past ++ [label]) t.docker t.pc := by
  cases step.moves with
  | start => exact s.recover_evidence _ _
  | restart | take => cases ordinary
  | updating at_ done =>
      rw [at_] at evidence
      exact State.updating_evidence evidence done
  | recovering at_ done => exact State.recovering_evidence done
  | _ => trivial

-----------------------------------------------------------------------------------------
-- Runs
-----------------------------------------------------------------------------------------

/-- A step in which only the updater touches the containers. -/
def State.OrdinaryStep (project : String) (s : State) (label : Label) (t : State) : Prop :=
  s.Step project label t ∧ label.ordinary = true

/-- What a history and its state have kept since the start. -/
structure Safe (project : String) (s : State) (past : List Label) (t : State) : Prop where
  sound : Sound project t
  evidence : Evidence past t.docker t.pc
  apart : ∀ old new, Succeeds past old new → Apart t old new
  serves
    : ∀ worker ∈ s.docker.containers,
        worker.config.managed project = true → Serves project worker.config worker.name t

theorem State.Starts.safe (starts : s.Starts) : Safe project s [] s where
  sound :=
    { wf := starts.wf
      situation := by
        rw [starts.settled]
        nofun
      place := by
        rw [starts.idle]
        trivial }
  evidence := by
    rw [starts.idle]
    trivial
  apart := by
    rintro old new ⟨entry, name, image, config, reply, member, _⟩
    cases member
  serves := by
    intro worker member managed
    refine .named (Table.lookup_of_mem starts.wf.names member) managed .refl ?_
    rw [starts.settled]
    nofun

/-- An ordinary step keeps all of it. -/
theorem Safe.step (safe : Safe project s past t) (step : t.OrdinaryStep project label u)
    : Safe project s (past ++ [label]) u := by
  obtain ⟨alters, sound⟩ := safe.sound.step step.1 step.2
  refine ⟨sound, step.1.evidence safe.evidence step.2, ?_, ?_⟩
  · rintro old new ⟨entry, name, image, config, reply, member, effective, rfl⟩
    rcases List.mem_append.mp member with before | last
    · exact (safe.apart _ _ ⟨entry, name, image, config, reply, before, effective, rfl⟩).step
        safe.sound.wf alters
    · obtain rfl := List.mem_singleton.mp last
      exact .created safe.sound.wf alters effective
  · intro worker member managed
    exact (safe.serves worker member managed).step safe.sound.wf alters

/-- The safety of the workers that a device started with, at a state after a history and in its
next step.
-/
structure CrashSafe (project : String) (s : State) (past : List Label) (t : State) : Prop where
  exclusive
    : ∀ old new,
        Succeeds past old new
        → ¬ ((t.docker.byId old).any Container.running = true
            ∧ (t.docker.byId new).any Container.running = true)
  available
    : ∀ worker ∈ s.docker.containers,
        worker.config.managed project = true
        → ∃ container ∈ t.docker.containers,
            container.config.managed project = true
            ∧ Derived worker.config container.config
            ∧ (container.name = worker.name
              ∨ ∃ entry,
                  t.journal.pending = some entry
                  ∧ entry.name = worker.name
                  ∧ container.id = entry.old)
  stopped
    : ∀ entry id reply u,
        t.OrdinaryStep project (.call entry (.stop id) reply) u
        → id = entry.old ∧ ∃ earlier, past = earlier ++ [.drained id true, .recorded entry]
  removed
    : ∀ entry id reply u,
        t.OrdinaryStep project (.call entry (.remove id) reply) u
        → ∃ old new,
            Replaced project entry t.docker old new
            ∧ (id = new.id
              ∨ id = entry.old
                ∧ ∃ earlier health,
                    past = earlier ++ [.inspected entry (some new) health]
                    ∧ new.healthy health = true)
  recovered
    : ∀ entry u,
        t.OrdinaryStep project (.cleared entry) u
        → u.journal.pending = none
          ∧ (∃ container,
              u.docker.byName entry.name = some container
              ∧ container.running = true
              ∧ container.config.managed project = true)
          ∧ ∃! container,
              container ∈ u.docker.containers
              ∧ (container.id = entry.old ∨ container.name = entry.name)

namespace Safe

theorem available (safe : Safe project s past t) {worker : Container}
    (member : worker ∈ s.docker.containers) (managed : worker.config.managed project = true)
    : ∃ container ∈ t.docker.containers,
        container.config.managed project = true
        ∧ Derived worker.config container.config
        ∧ (container.name = worker.name
          ∨ ∃ entry,
              t.journal.pending = some entry
              ∧ entry.name = worker.name
              ∧ container.id = entry.old) := by
  cases safe.serves worker member managed with
  | named bound managed derived _ =>
      exact ⟨_, Table.lookup_mem bound, managed, derived, .inl (Docker.byName_name bound)⟩
  | kept pending name found managed derived =>
      exact ⟨_, Table.lookup_mem found, managed, derived,
        .inr ⟨_, pending, name, Docker.byId_id found⟩⟩

theorem stopped (safe : Safe project s past t) {id : String} {reply : Reply}
    (step : t.Step project (.call entry (.stop id) reply) u)
    : id = entry.old ∧ ∃ earlier, past = earlier ++ [.drained id true, .recorded entry] := by
  obtain ⟨update, target, at_, rfl, rfl⟩ := step.stop
  have evidence := safe.evidence
  rw [at_] at evidence
  exact ⟨rfl, evidence⟩

theorem removed (safe : Safe project s past t) {id : String} {reply : Reply}
    (step : t.Step project (.call entry (.remove id) reply) u)
    : ∃ old new,
        Replaced project entry t.docker old new
        ∧ (id = new.id
          ∨ id = entry.old
            ∧ ∃ earlier health,
                past = earlier ++ [.inspected entry (some new) health]
                ∧ new.healthy health = true) := by
  have place := safe.sound.place
  have evidence := safe.evidence
  obtain ⟨caller, ⟨old, at_, rfl⟩ | ⟨old, new, at_, rfl⟩⟩ := step.remove
  · rw [at_] at place evidence
    obtain ⟨_, new, replaced, _, _⟩ := place
    obtain ⟨earlier, seen, health, rfl, healthy, bound⟩ := evidence
    cases replaced.bound.symm.trans bound
    exact ⟨old, new, replaced, .inr ⟨replaced.id, earlier, health, rfl, healthy⟩⟩
  · rw [at_] at place
    exact ⟨old, new, place.2, .inl rfl⟩

theorem recovered (safe : Safe project s past t)
    (step : t.OrdinaryStep project (.cleared entry) u)
    : u.journal.pending = none
      ∧ (∃ container,
          u.docker.byName entry.name = some container
          ∧ container.running = true
          ∧ container.config.managed project = true)
      ∧ ∃! container,
          container ∈ u.docker.containers
          ∧ (container.id = entry.old ∨ container.name = entry.name) := by
  obtain ⟨alters, sound⟩ := safe.sound.step step.1 step.2
  cases alters with
  | quiet quiet => cases quiet
  | clear pending settled docker journal =>
      rw [docker]
      have wf := safe.sound.wf
      rcases settled with ⟨old, intact, running⟩ | ⟨new, committed⟩
      · refine ⟨journal, ⟨old, intact.bound, running, intact.managed⟩, old,
          ⟨Table.lookup_mem intact.found, .inl intact.id⟩, ?_⟩
        rintro other ⟨member, id | name⟩
        · have found := Table.lookup_of_mem wf.ids member
          rw [id] at found
          exact Option.some.inj (found.symm.trans intact.found)
        · have bound := Table.lookup_of_mem wf.names member
          rw [name] at bound
          exact Option.some.inj (bound.symm.trans intact.bound)
      · refine ⟨journal, ⟨new, committed.bound, committed.running, committed.managed⟩, new,
          ⟨Table.lookup_mem committed.bound, .inr (Docker.byName_name committed.bound)⟩, ?_⟩
        rintro other ⟨member, id | name⟩
        · have found := Table.lookup_of_mem wf.ids member
          rw [id] at found
          cases committed.gone.symm.trans found
        · have bound := Table.lookup_of_mem wf.names member
          rw [name] at bound
          exact Option.some.inj (bound.symm.trans committed.bound)

end Safe

/-- Every run with crashes and failing calls is safe, by induction on it. -/
theorem crash_safe (starts : s.Starts) (run : Execution.Run (State.OrdinaryStep project) s past t)
    : CrashSafe project s past t := by
  have safe : Safe project s past t :=
    run.history (fun _ _ _ _ safe step => safe.step step) starts.safe
  exact {
    exclusive := fun old new succeeds =>
      (safe.apart old new succeeds).never_both safe.sound.toStanding
    available := fun worker member managed => safe.available member managed
    stopped := fun entry id reply u step => safe.stopped step.1
    removed := fun entry id reply u step => safe.removed step.1
    recovered := fun entry u step => safe.recovered step }

/-- A crash after the creation of the replacement, and the recovery after it. -/
def interrupted : List Label × State :=
  Execution.play (State.exec "workers") (fun _ _ label => label.ordinary) [] device
    (chooseWorker ++ replaceWorker ++ [.crash] ++ List.replicate 7 (.run { health := .starting }))

theorem interrupted_run
    : Execution.Run (State.OrdinaryStep "workers") device interrupted.1 interrupted.2 :=
  (Execution.play_run (State.Step.of_exec "workers") (.nil _) _).run
    (fun _ _ _ _ met step => ⟨step, met⟩)

/-- The recovery of the interrupted update ends and leaves the worker. -/
theorem crash_safe_interrupted
    : .crashed ∈ interrupted.1
      ∧ interrupted.2.journal = ⟨[("cpu", "release")], none⟩
      ∧ CrashSafe "workers" device interrupted.1 interrupted.2 :=
  ⟨by decide +kernel, by decide +kernel,
    crash_safe device_starts interrupted_run⟩

end Transcriber.Updater
