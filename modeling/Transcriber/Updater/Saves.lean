import Transcriber.Library.Durable
import Transcriber.Library.JsonTree
import Transcriber.Updater.Moves

/-! The journal file: what `Updater.save` writes with `atomic_json`, a few system calls at a time,
and what `Updater.__init__` reads of it. With its process crashing anywhere the updater with this
file is the updater whose journal is saved in one step.
-/

open Execution Json

namespace Transcriber.Updater

-----------------------------------------------------------------------------------------
-- The text of a journal
-----------------------------------------------------------------------------------------

/-- The texts that stand for times, `StartedAt`. -/
structure Stamps where
  write : Nat → String
  read : String → Option Nat
  read_write : ∀ time, read (write time) = some time

def Pending.tree (stamps : Stamps) (entry : Pending) : Tree :=
  .dict
    [
      (text "old", .str (text entry.old)),
      (text "started", .str (text (stamps.write entry.started))),
      (text "name", .str (text entry.name)),
      (text "service", .str (text entry.service)),
      (text "image", .str (text entry.image))
    ]

/-- `self.state`: an entry is the key `pending`. -/
def Journal.tree (stamps : Stamps) (journal : Journal) : Tree :=
  .dict
    ((text "failed", .dict (journal.failed.map (fun entry =>
        (text entry.1, .str (text entry.2)))))
      :: journal.pending.toList.map (fun entry => (text "pending", entry.tree stamps)))

/-- What `json.dump` writes. -/
def Journal.file (stamps : Stamps) (journal : Journal) : List UInt8 :=
  encode ((journal.tree stamps).dumps true)

/-- A string of a dictionary. -/
def stringOf (members : List (Text × Json.Value)) (key : String) : Option String :=
  match lookup members (text key) with
  | some (.str value) => some (ofText value)
  | _ => none

def Pending.ofValue (stamps : Stamps) : Json.Value → Option Pending
  | .dict members => do
      let old ← stringOf members "old"
      let started ← (stringOf members "started").bind stamps.read
      let name ← stringOf members "name"
      let service ← stringOf members "service"
      let image ← stringOf members "image"
      return ⟨old, started, name, service, image⟩
  | _ => none

/-- The entries of `failed`. -/
def failedOf : List (Text × Json.Value) → Option (List (String × String))
  | [] => some []
  | (service, .str image) :: rest =>
      (failedOf rest).map ((ofText service, ofText image) :: ·)
  | _ :: _ => none

def Journal.ofValue (stamps : Stamps) : Json.Value → Option Journal
  | .dict members => do
      let failed ←
        match lookup members (text "failed") with
        | some (.dict entries) => failedOf entries
        | _ => none
      match lookup members (text "pending") with
      | none => some ⟨failed, none⟩
      | some entry => (Pending.ofValue stamps entry).map (fun entry => ⟨failed, some entry⟩)
  | _ => none

/-- `Updater.__init__`: `json.loads(self.path.read_text())`, or the first journal without a file. -/
def Journal.load (stamps : Stamps) (limit : Nat) : Option (List UInt8) → Option Journal
  | none => some ⟨[], none⟩
  | some data =>
      match (utf8 (data.map UInt8.toNat)).map (parse limit) with
      | some (.ok value) => Journal.ofValue stamps value
      | _ => none

variable {stamps : Stamps} {limit : Nat}

theorem Pending.tree_depth (entry : Pending) : (entry.tree stamps).depth = 1 := by
  simp [Pending.tree, Tree.depth, Tree.depthEntries, Tree.depthEntry]

theorem Pending.tree_unpaired (entry : Pending) : (entry.tree stamps).Unpaired := by
  simp [Pending.tree, Tree.Unpaired, Tree.UnpairedEntries, Tree.UnpairedEntry, text_unpaired]

theorem failed_entries (failed : List (String × String))
    : Tree.UnpairedEntries
        (failed.map (fun entry => (text entry.1, Tree.str (text entry.2))))
      ∧ Tree.depthEntries
          (failed.map (fun entry => (text entry.1, Tree.str (text entry.2))))
        = 0
      ∧ failedOf
          (Tree.members (failed.map (fun entry => (text entry.1, Tree.str (text entry.2)))))
        = some failed := by
  induction failed with
  | nil => exact ⟨trivial, rfl, rfl⟩
  | cons entry rest ih =>
      obtain ⟨unpaired, depth, read⟩ := ih
      refine ⟨⟨⟨text_unpaired _, text_unpaired _⟩, unpaired⟩, ?_, ?_⟩
      · simp [Tree.depthEntries, Tree.depthEntry, Tree.depth, depth]
      · simp [Tree.members, Tree.member, Tree.value, failedOf, read, ofText_text]

theorem Journal.tree_unpaired (journal : Journal) : (journal.tree stamps).Unpaired := by
  refine ⟨⟨text_unpaired _, (failed_entries journal.failed).1⟩, ?_⟩
  cases journal.pending with
  | none => trivial
  | some entry => exact ⟨⟨text_unpaired _, entry.tree_unpaired⟩, trivial⟩

theorem Journal.tree_depth (journal : Journal) : (journal.tree stamps).depth ≤ 2 := by
  have failed := (failed_entries journal.failed).2.1
  cases pending : journal.pending with
  | none =>
      simp [Journal.tree, pending, Tree.depth, Tree.depthEntries, Tree.depthEntry, failed]
  | some entry =>
      simp [Journal.tree, pending, Tree.depth, Tree.depthEntries, Tree.depthEntry, failed,
        entry.tree_depth]

theorem text_inj {s t : String} : text s = text t ↔ s = t := by
  refine ⟨fun same => ?_, congrArg text⟩
  rw [← ofText_text s, same, ofText_text]

theorem lookup_cons (entry : Text × Json.Value) (members : List (Text × Json.Value)) (name : Text)
    : lookup (entry :: members) name
      = (lookup members name).or (if entry.1 = name then some entry.2 else none) := by
  simp only [lookup, List.reverse_cons, List.find?_append, List.find?_cons, List.find?_nil]
  cases members.reverse.find? (fun entry => entry.1 = name) with
  | some found => simp
  | none => by_cases own : entry.1 = name <;> simp [own]

theorem lookup_nil (name : Text) : lookup [] name = none := rfl

theorem Pending.ofValue_tree (entry : Pending)
    : Pending.ofValue stamps (entry.tree stamps).value = some entry := by
  simp [Pending.tree, Tree.value, Tree.members, Tree.member, Pending.ofValue, stringOf,
    lookup_cons, lookup_nil, text_inj, ofText_text, stamps.read_write]

theorem Journal.ofValue_tree (journal : Journal)
    : Journal.ofValue stamps (journal.tree stamps).value = some journal := by
  obtain ⟨failed, pending⟩ := journal
  have read := (failed_entries failed).2.2
  cases pending with
  | none =>
      simp [Journal.tree, Tree.value, Tree.members, Tree.member, Journal.ofValue, lookup_cons,
        lookup_nil, text_inj, read]
  | some entry =>
      simp [Journal.tree, Tree.value, Tree.members, Tree.member, Journal.ofValue, lookup_cons,
        lookup_nil, text_inj, read, entry.ofValue_tree]

/-- A journal that was saved is loaded. -/
theorem Journal.load_file (journal : Journal)
    : Journal.load stamps (limit + 2) (some (journal.file stamps)) = some journal := by
  have printed : Printed true ((journal.tree stamps).dumps true) :=
    Tree.dumps_printed _ journal.tree_unpaired
  have parsed
      : parse (limit + 2) ((journal.tree stamps).dumps true ++ [])
        = .ok (journal.tree stamps).value :=
    Tree.parse_dumps _ journal.tree_unpaired
      (journal.tree_depth.trans (Nat.le_add_left 2 limit)) rfl
  rw [List.append_nil] at parsed
  simp only [Journal.load, Journal.file, encode_toNat printed.isAscii,
    utf8_ascii printed.isAscii, Option.map_some, parsed, journal.ofValue_tree]

/-- A load of what holds a journal, or of no file, which stands for the first one. -/
theorem Journal.load_candidate (saved : Option Journal)
    : Journal.load stamps (limit + 2) (saved.map (Journal.file stamps))
      = some (saved.getD ⟨[], none⟩) := by
  cases saved with
  | none => rfl
  | some journal => exact journal.load_file

-----------------------------------------------------------------------------------------
-- Losses of power
-----------------------------------------------------------------------------------------

open Durable in
/-- What `__init__` reads, in any run of saves, errors, crashes and losses of power: the journal of
the last save that returned, or of one that took its place since, and never anything else; without
a loss of power the one that took its place last.
-/
theorem restarts_saved {path : String} {initial : Option Journal} {s t : Register Journal}
    {past before after : List (Durable.Label Journal)} {data : Option (List UInt8)}
    (settled : Settled (Journal.file stamps) path initial s)
    (run : Run (Register.Step (Journal.file stamps) path) s past t)
    (split : past = before ++ .loaded data :: after)
    : ∃ journal,
        Journal.load stamps (limit + 2) data = some journal
        ∧ journal ∈ (candidates initial before).map (fun saved => saved.getD ⟨[], none⟩)
        ∧ (.lost ∉ before → journal = (newest initial before).getD ⟨[], none⟩) := by
  obtain ⟨⟨saved, known, read⟩, recent⟩ := loaded settled run split
  rw [read, Journal.load_candidate]
  refine ⟨_, rfl, List.mem_map_of_mem known, fun kept => ?_⟩
  have same := congrArg (Journal.load stamps (limit + 2)) (read.symm.trans (recent kept))
  rw [Journal.load_candidate, Journal.load_candidate] at same
  exact Option.some.inj same

-----------------------------------------------------------------------------------------
-- The updater with its file
-----------------------------------------------------------------------------------------

/-- The updater, the file of its journal, and whether its process is down. -/
structure Machine where
  updater : State
  register : Durable.Register Journal
  down : Bool

/-- A step that saves nothing, of the updater or its surroundings; a part of a save; a crash; the
start of another process.
-/
inductive MachineAction
  | model (action : Action)
  | save (temp : String)
  | write (count : Nat)
  | sync
  | replace
  | finish
  | crash
  | restart
  deriving DecidableEq, Repr

/-- The step of the updater that saves its journal, where it is about to. -/
def State.saving (project : String) (s : State) : Option (Label × State) :=
  match s.pc with
  | .updating _ _ .recording | .updating _ _ .rerecording | .recovering _ _ (.clearing _) =>
      some (s.run project {})
  | _ => none

namespace Machine

/-- The machine after a step of its file alone. -/
def filed (s : Machine) (done : Option (Durable.Label Journal × Durable.Register Journal))
    : Option (Option Label × Machine) :=
  done.map (fun done => (none, { s with register := done.2 }))

/-- A save holds the updater until it returns; what it writes is the journal after its step. -/
def exec (project : String) (stamps : Stamps) (limit : Nat) (path : String) (s : Machine)
    : MachineAction → Option (Option Label × Machine) :=
  let file := s.register.exec (Journal.file stamps) path
  fun
  | .model (.run choice) =>
      if s.down || s.register.stage ≠ .idle || (s.updater.saving project).isSome then
        none
      else
        some
          (some (s.updater.run project choice).1,
            { s with updater := (s.updater.run project choice).2 })
  | .model .crash => none
  | .model action =>
      (s.updater.exec project action).map (fun done =>
        (some done.1, { s with updater := done.2 }))
  | .save temp =>
      if s.down then
        none
      else
        (s.updater.saving project).bind (fun done => s.filed (file (.save done.2.journal temp)))
  | .write count => s.filed (file (.write count))
  | .sync => s.filed (file .sync)
  | .replace =>
      (s.updater.saving project).bind (fun done =>
        (file .replace).map (fun saved => (some done.1, ⟨done.2, saved.2, s.down⟩)))
  | .finish => s.filed (file .finish)
  | .crash =>
      (file .crash).map (fun saved => (some .crashed, ⟨s.updater.at_ .idle, saved.2, true⟩))
  | .restart =>
      if s.down then
        (Journal.load stamps limit (s.register.disk.read path)).map (fun journal =>
          (none, ⟨{ s.updater with journal }, s.register, false⟩))
      else
        none

def Step (project : String) (stamps : Stamps) (limit : Nat) (path : String) (s : Machine)
    (label : Option Label) (t : Machine)
    : Prop :=
  ∃ action, s.exec project stamps limit path action = some (label, t)

theorem Step.of_exec (project : String) (stamps : Stamps) (limit : Nat) (path : String)
    (s : Machine) (action : MachineAction) (label : Option Label) (t : Machine)
    (done : s.exec project stamps limit path action = some (label, t))
    : s.Step project stamps limit path label t :=
  ⟨action, done⟩

end Machine

-----------------------------------------------------------------------------------------
-- What keeps the journal
-----------------------------------------------------------------------------------------

namespace State

variable {project : String} {s t : State} {label : Label} {done : Label × State}

theorem saving_run (saving : s.saving project = some done) : s.run project {} = done := by
  unfold State.saving at saving
  split at saving <;> cases saving <;> rfl

theorem recover_journal (s : State) (caller : Caller) : (s.recover caller).journal = s.journal := by
  obtain ⟨pc, moved, _⟩ := s.recover_at caller
  rw [moved, at_journal]

theorem raised_journal (s : State) (caller : Caller) : (s.raised caller).journal = s.journal := by
  obtain ⟨pc, moved, _⟩ := s.raised_at caller
  rw [moved, at_journal]

theorem returned_journal (s : State) (caller : Caller)
    : (s.returned caller).journal = s.journal := by
  obtain ⟨pc, moved, _⟩ := s.returned_at caller
  rw [moved, at_journal]

/-- A call leaves the journal as it is. -/
theorem issue_journal {entry : Pending} {request : Request} {reply : Reply}
    {answered failed : State → State}
    (done : s.issue entry request reply answered failed = (label, t))
    (led : ∀ u, (answered u).journal = u.journal) (ended : ∀ u, (failed u).journal = u.journal)
    : t.journal = s.journal := by
  obtain ⟨u, same, rfl | rfl⟩ := issue_next done
  · exact (led u).trans same
  · exact (ended u).trans same

theorem updating_journal {c : Choice} {update : Update} {target : Image} {stage : UpdateStage}
    (at_ : s.pc = .updating update target stage) (unsaving : s.saving project = none)
    (done : s.updating c update target stage = (label, t))
    : t.journal = s.journal := by
  cases stage with
  | recording | rerecording => simp [saving, at_] at unsaving
  | draining =>
      simp only [updating] at done
      split at done
      · cases done
        exact s.recover_journal _
      · split at done
        · cases done
          rfl
        · split at done <;> cases done
          · exact s.recover_journal _
          · rfl
  | reading =>
      simp only [updating] at done
      split at done <;> cases done
      · rfl
      · exact s.recover_journal _
  | watching created =>
      simp only [updating] at done
      split at done
      · cases done
        exact s.recover_journal _
      · split at done
        · cases done
          exact s.recover_journal _
        · split at done
          · split at done <;> cases done
            · exact s.recover_journal _
            · rfl
          · cases done
            exact s.recover_journal _
  | signalling | stopping | backingUp | creating | starting =>
      simp only [updating] at done
      exact issue_journal done (fun _ => rfl) (fun u => u.recover_journal _)

theorem recovering_journal {c : Choice} {caller : Caller} {entry : Pending}
    {stage : RecoverStage} (at_ : s.pc = .recovering caller entry stage)
    (unsaving : s.saving project = none)
    (done : s.recovering project c caller entry stage = (label, t))
    : t.journal = s.journal := by
  cases stage with
  | clearing => simp [saving, at_] at unsaving
  | inspectingOld =>
      simp only [recovering] at done
      split at done <;> cases done
      · rfl
      · exact s.raised_journal _
  | inspectingNew old =>
      simp only [recovering] at done
      split at done
      · split at done <;> cases done
        · rfl
        · exact s.raised_journal _
      · cases done
        exact s.raised_journal _
  | starting | resuming | committing | removing | restoring | restarting =>
      simp only [recovering] at done
      exact issue_journal done (fun _ => rfl) (fun u => u.raised_journal _)

/-- Only the steps that save change the journal. -/
theorem Step.journal (step : s.Step project label t) (unsaving : s.saving project = none)
    : t.journal = s.journal := by
  cases step.moves with
  | start => exact s.recover_journal _
  | updating at_ done => exact updating_journal at_ unsaving done
  | recovering at_ done => exact recovering_journal at_ unsaving done
  | _ => rfl

/-- What happens around the updater keeps where it is and its journal. -/
theorem exec_around {action : Action} (around : ∀ choice, action ≠ .run choice)
    (alive : action ≠ .crash) (done : s.exec project action = some (label, t))
    : t.journal = s.journal ∧ t.pc = s.pc := by
  cases action with
  | run choice => exact absurd rfl (around choice)
  | crash => exact absurd rfl alive
  | restart id =>
      simp only [exec] at done
      split at done <;> cases done
      exact ⟨rfl, rfl⟩
  | take index =>
      obtain ⟨_, _, same⟩ := Option.map_eq_some_iff.mp done
      cases same
      exact ⟨rfl, rfl⟩

/-- The journal that a save writes depends on the place of the updater and its journal. -/
theorem saving_same (journal : t.journal = s.journal) (pc : t.pc = s.pc)
    (saving : s.saving project = some done)
    : ∃ other, t.saving project = some other ∧ other.2.journal = done.2.journal := by
  unfold State.saving at saving ⊢
  cases at_ : s.pc with
  | updating update target stage =>
      cases stage with
      | recording | rerecording =>
          simp only [at_, Option.some.injEq] at saving
          simp [pc, at_, run, updating, journal, ← saving]
      | _ => simp [at_] at saving
  | recovering caller entry stage =>
      cases stage with
      | clearing rolledBack =>
          simp only [at_, Option.some.injEq] at saving
          simp [pc, at_, run, recovering, journal, returned_journal, ← saving]
      | _ => simp [at_] at saving
  | _ => simp [at_] at saving

end State

-----------------------------------------------------------------------------------------
-- The refinement
-----------------------------------------------------------------------------------------

namespace Machine

variable {project path : String} {initial : Option Journal} {s t : Machine}
variable {filed : List (Durable.Label Journal)} {label : Option Label}

/-- A save under way writes the journal of the updater's next step. -/
def Writes (project : String) (s : Machine) : Durable.Stage Journal → Prop
  | .idle => True
  | .writing value _ _ _ | .synced value _ _ =>
      s.down = false ∧ ∃ done, s.updater.saving project = some done ∧ done.2.journal = value
  | .replaced _ => s.down = false
  | .discarding _ _ => False

/-- The journal of the updater is the one that took the file's name last. -/
structure Sound (project : String) (stamps : Stamps) (path : String) (initial : Option Journal)
    (filed : List (Durable.Label Journal)) (s : Machine)
    : Prop where
  register : Durable.Sound (Journal.file stamps) path initial filed s.register
  powered : .lost ∉ filed
  journal : (Durable.newest initial filed).getD ⟨[], none⟩ = s.updater.journal
  writes : s.Writes project s.register.stage

/-- A process that starts finds the journal. -/
theorem Sound.load (sound : Sound project stamps path initial filed s)
    : Journal.load stamps (limit + 2) (s.register.disk.read path) = some s.updater.journal := by
  rw [(sound.register.newest sound.powered).read, Journal.load_candidate, sound.journal]

/-- A step of the file alone. -/
theorem Sound.file (sound : Sound project stamps path initial filed s)
    {action : Durable.Action Journal} {shown : Durable.Label Journal}
    {register : Durable.Register Journal}
    (done : s.register.exec (Journal.file stamps) path action = some (shown, register))
    (powered : shown ≠ .lost)
    (same : Durable.newest initial (filed ++ [shown]) = Durable.newest initial filed)
    (writes : s.Writes project register.stage)
    : Sound project stamps path initial (filed ++ [shown]) { s with register } where
  register := sound.register.step ⟨action, done⟩
  powered := by simp [sound.powered, powered.symm]
  journal := by
    rw [same]
    exact sound.journal
  writes := by
    cases stage : register.stage with
    | discarding =>
        rw [stage] at writes
        exact writes.elim
    | _ =>
        rw [stage] at writes
        exact writes

/-- The file takes its new contents in the updater's step. -/
theorem Sound.replace (sound : Sound project stamps path initial filed s)
    {done : Label × State} {shown : Durable.Label Journal}
    {register : Durable.Register Journal} (saving : s.updater.saving project = some done)
    (replaced : s.register.exec (Journal.file stamps) path .replace = some (shown, register))
    : Sound project stamps path initial (filed ++ [shown]) ⟨done.2, register, s.down⟩ := by
  have kept := sound.register.step ⟨_, replaced⟩
  have writes := sound.writes
  simp only [Durable.Register.exec] at replaced
  split at replaced <;> cases replaced
  rename_i value temp file stage
  rw [stage] at writes
  obtain ⟨up, next, same, journal⟩ := writes
  cases saving.symm.trans same
  exact ⟨kept, by simp [sound.powered], by simp [journal], up⟩

/-- What a step is: one of the model, or one that leaves the updater as it is. -/
theorem Sound.step (sound : Sound project stamps path initial filed s)
    (step : s.Step project stamps (limit + 2) path label t)
    : (∃ filed, Sound project stamps path initial filed t)
      ∧ (label = none ∧ t.updater = s.updater
        ∨ ∃ shown, label = some shown ∧ s.updater.Step project shown t.updater) := by
  obtain ⟨action, done⟩ := step
  have writes := sound.writes
  cases action with
  | model action =>
      cases action with
      | run choice =>
          simp only [exec] at done
          split at done <;> cases done
          rename_i free
          simp only [Bool.or_eq_true, decide_eq_true_eq, not_or, Bool.not_eq_true,
            Option.isSome_eq_false_iff, Option.isNone_iff_eq_none, not_not] at free
          obtain ⟨⟨up, idle⟩, unsaving⟩ := free
          have ran : s.updater.Step project (s.updater.run project choice).1
              (s.updater.run project choice).2 :=
            ⟨.run choice, rfl⟩
          refine ⟨⟨filed, sound.register, sound.powered, ?_, ?_⟩, .inr ⟨_, rfl, ran⟩⟩
          · rw [sound.journal]
            exact (ran.journal unsaving).symm
          · show Writes project _ s.register.stage
            rw [idle]
            trivial
      | crash => cases done
      | restart | take =>
          obtain ⟨around, taken, same⟩ := Option.map_eq_some_iff.mp done
          cases same
          obtain ⟨journal, pc⟩ := State.exec_around (by simp) (by simp) taken
          refine ⟨⟨filed, sound.register, sound.powered, sound.journal.trans journal.symm, ?_⟩,
            .inr ⟨_, rfl, _, taken⟩⟩
          show Writes project _ s.register.stage
          cases stage : s.register.stage with
          | writing | synced =>
              rw [stage] at writes
              obtain ⟨up, next, saving, value⟩ := writes
              obtain ⟨other, also, same⟩ := State.saving_same journal pc saving
              exact ⟨up, other, also, same.trans value⟩
          | _ =>
              rw [stage] at writes
              exact writes
  | save temp =>
      simp only [exec] at done
      split at done
      · cases done
      rename_i up
      obtain ⟨next, saving, filing⟩ := Option.bind_eq_some_iff.mp done
      obtain ⟨⟨shown, register⟩, taken, same⟩ := Option.map_eq_some_iff.mp filing
      cases same
      refine ⟨⟨_, sound.file taken ?_ ?_ ?_⟩, .inl ⟨rfl, rfl⟩⟩
      all_goals
        simp only [Durable.Register.exec] at taken
        split at taken
        · split at taken <;> cases taken
          simp_all [Writes]
        · cases taken
  | write | sync | finish =>
      obtain ⟨⟨shown, register⟩, taken, same⟩ := Option.map_eq_some_iff.mp done
      cases same
      refine ⟨⟨_, sound.file taken ?_ ?_ ?_⟩, .inl ⟨rfl, rfl⟩⟩
      all_goals
        simp only [Durable.Register.exec] at taken
        split at taken <;> cases taken <;> simp_all [Writes]
  | replace =>
      obtain ⟨next, saving, filing⟩ := Option.bind_eq_some_iff.mp done
      obtain ⟨⟨shown, register⟩, taken, same⟩ := Option.map_eq_some_iff.mp filing
      cases same
      exact ⟨⟨_, sound.replace saving taken⟩,
        .inr ⟨_, rfl, .run {}, congrArg some (State.saving_run saving)⟩⟩
  | crash =>
      cases done
      have kept : Durable.Sound (Journal.file stamps) path initial (filed ++ [.crashed])
          ⟨s.register.disk, .idle⟩ :=
        sound.register.step ⟨.crash, rfl⟩
      refine ⟨⟨_, kept, ?_, ?_, trivial⟩, .inr ⟨_, rfl, .crash, rfl⟩⟩
      · simp [sound.powered]
      · simp [sound.journal]
  | restart =>
      simp only [exec] at done
      split at done
      · obtain ⟨journal, taken, same⟩ := Option.map_eq_some_iff.mp done
        cases same
        cases taken.symm.trans sound.load
        refine ⟨⟨filed, sound.register, sound.powered, sound.journal, ?_⟩, .inl ⟨rfl, rfl⟩⟩
        show Writes project _ s.register.stage
        cases stage : s.register.stage <;> simp_all [Writes]
      · cases done

/-- The updater with its file does what the updater does that saves its journal in one step, with
each save at the moment in which the file takes its new contents; and a process that is down can
start again.
-/
theorem journal_refines {past : List (Option Label)}
    (settled : Durable.Settled (Journal.file stamps) path initial s.register)
    (journal : initial.getD ⟨[], none⟩ = s.updater.journal)
    (run : Run (Step project stamps (limit + 2) path) s past t)
    : Run (State.Step project) s.updater (past.filterMap id) t.updater
      ∧ (t.down = true
        → t.exec project stamps (limit + 2) path .restart
          = some (none, { t with down := false })) := by
  have start : Sound project stamps path initial [] s := by
    refine ⟨settled.sound, by simp, journal, ?_⟩
    rw [settled.idle]
    trivial
  have kept : (∃ filed, Sound project stamps path initial filed t)
      ∧ Run (State.Step project) s.updater (past.filterMap id) t.updater := by
    refine run.history
      (I := fun past t => (∃ filed, Sound project stamps path initial filed t)
        ∧ Run (State.Step project) s.updater (past.filterMap id) t.updater)
      ?_ ⟨⟨[], start⟩, .nil _⟩
    rintro past u label v ⟨⟨filed, sound⟩, ran⟩ step
    obtain ⟨sound, ⟨rfl, same⟩ | ⟨shown, rfl, taken⟩⟩ := sound.step step
    · refine ⟨sound, ?_⟩
      rw [same]
      simpa using ran
    · refine ⟨sound, ?_⟩
      simpa using ran.snoc taken
  obtain ⟨⟨filed, sound⟩, ran⟩ := kept
  refine ⟨ran, fun down => ?_⟩
  simp [exec, down, sound.load]

-----------------------------------------------------------------------------------------
-- Concrete runs
-----------------------------------------------------------------------------------------

/-- A directory without files. -/
def sampleRegister : Durable.Register Journal :=
  ⟨⟨fun _ => ⟨[], false⟩, 0, fun _ => none, fun _ => []⟩, .idle⟩

theorem sampleRegister_settled
    : Durable.Settled (Journal.file stamps) path none sampleRegister where
  idle := rfl
  holds := rfl
  older := rfl
  numbered := fun file own => by cases own

/-- A time as that many dashes. -/
def sampleStamps : Stamps where
  write time := String.ofList (List.replicate time '-')
  read stamp := some stamp.toList.length
  read_write time := by simp

/-- The file is written up to its new name. -/
def fileJournal : List MachineAction := [.save "tmp", .write 100, .write 100, .sync, .replace]

/-- The updater records that it updates the worker, crashes, and starts again. -/
def playSaved : List (Option Label) × Machine :=
  Execution.play (exec "workers" sampleStamps 2 "state.json") (fun _ _ _ => true) []
    ⟨device, sampleRegister, false⟩
    (chooseWorker.map .model ++ [.model (.run { image := ⟨"v2", [], [], none, none, none⟩ })]
      ++ fileJournal ++ [.crash, .restart])

theorem playSaved_run
    : Run (Step "workers" sampleStamps 2 "state.json") ⟨device, sampleRegister, false⟩
        playSaved.1 playSaved.2 :=
  (Execution.play_run (Step.of_exec "workers" sampleStamps 2 "state.json") (.nil _) _).run
    (fun _ _ _ _ _ step => step)

/-- The process that starts finds the entry. -/
theorem journal_refines_restarted
    : Run (State.Step "workers") device (playSaved.1.filterMap id) playSaved.2.updater
      ∧ some .crashed ∈ playSaved.1
      ∧ playSaved.2.updater.journal = ⟨[], some sampleEntry⟩ := by
  refine ⟨?_, by decide +kernel, by decide +kernel⟩
  exact (journal_refines sampleRegister_settled rfl
    playSaved_run).1

end Machine

/-- A save that returns, and one that takes the file's place before the power is lost. -/
def playLost : List (Durable.Label Journal) × Durable.Register Journal :=
  let save := fun journal temp =>
    [.save journal temp, .write 200, .sync, .replace]
  Execution.play (Durable.Register.exec (Journal.file Machine.sampleStamps) "state.json")
    (fun _ _ _ => true) [] Machine.sampleRegister
    (save ⟨[], some sampleEntry⟩ "tmp1" ++ [.finish] ++ save ⟨[("cpu", "release")], none⟩ "tmp2"
      ++ [.lose (fun _ => 1) (fun _ => [0]), .load])

theorem playLost_run
    : Run (Durable.Register.Step (Journal.file Machine.sampleStamps) "state.json")
        Machine.sampleRegister playLost.1 playLost.2 :=
  (Execution.play_run (Durable.Register.Step.of_exec _ _) (.nil _) _).run
    (fun _ _ _ _ _ step => step)

/-- The power is lost before the directory is synced: the file has the journal that it had. -/
theorem restarts_saved_lost
    : .loaded (some (Journal.file Machine.sampleStamps ⟨[], some sampleEntry⟩)) ∈ playLost.1
      ∧ ∃ journal ∈ [⟨[("cpu", "release")], none⟩, ⟨[], some sampleEntry⟩],
        Journal.load Machine.sampleStamps 2 (playLost.2.disk.read "state.json")
        = some journal := by
  have split
      : playLost.1
        = playLost.1.take 10
          ++ .loaded (some (Journal.file Machine.sampleStamps ⟨[], some sampleEntry⟩)) :: [] := by
    decide +kernel
  have read
      : playLost.2.disk.read "state.json"
        = some (Journal.file Machine.sampleStamps ⟨[], some sampleEntry⟩) := by
    decide +kernel
  obtain ⟨journal, loaded, saved, _⟩ :=
    restarts_saved Machine.sampleRegister_settled playLost_run split
  have kept
      : (Durable.candidates none (playLost.1.take 10)).map
          (fun saved => saved.getD ⟨[], none⟩)
        = [⟨[("cpu", "release")], none⟩, ⟨[], some sampleEntry⟩] := by
    decide +kernel
  rw [kept] at saved
  rw [read]
  exact ⟨by rw [split]; simp, journal, saved, loaded⟩

end Transcriber.Updater
