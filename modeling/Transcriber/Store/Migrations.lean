import Mathlib.Data.String.Basic
import Mathlib.Data.List.Sort
import Mathlib.Logic.Function.Basic
import Transcriber.Library.Execution

/-! The migrations of `init_schema`, run by processes of different releases at once. Each process is
one transaction under an advisory lock; it may die at any moment, with its commit on the way or not.
-/

namespace Transcriber.Migrations

open Execution

-----------------------------------------------------------------------------------------
-- The processes and the database
-----------------------------------------------------------------------------------------

/-- A file of `sql/migrations`. -/
structure Migration where
  name : String
  text : String
  deriving DecidableEq, Repr

/-- `sorted(glob("*.sql"))` -/
def order (files : List Migration) : List Migration :=
  files.insertionSort (fun first second => first.name ≤ second.name)

/-- The next statement of `init_schema`, with the migrations that are left. -/
inductive Stage
  | locking
  | creating
  | selecting (rest : List Migration)
  | executing (migration : Migration) (rest : List Migration)
  | inserting (migration : Migration) (rest : List Migration)
  | seeding
  | committing
  deriving DecidableEq, Repr

/-- A connection: the files of its process, whether the backend is RabbitMQ, what its transaction
has done, and whether the process is dead.
-/
structure Session where
  files : List Migration
  rabbitmq : Bool
  stage : Stage
  created : Bool
  scripts : List Migration
  inserted : List String
  down : Bool
  deriving DecidableEq, Repr

/-- What is committed: the versions of `transcriber_schema_migrations`, and the scripts whose
changes the database has, in the order in which they ran.
-/
structure Database where
  ledger : Option (List String)
  scripts : List Migration
  deriving DecidableEq, Repr

structure State where
  database : Database
  lock : Option Nat
  sessions : Nat → Option Session

/-- Why a process raises: the ledger is missing, a version is there already, or anything else. -/
inductive Cause
  | missing
  | duplicate
  | other
  deriving DecidableEq, Repr

inductive Label
  | silent
  | connected (process : Nat) (files : List Migration)
  | executed (process : Nat) (before : List Migration) (migration : Migration)
  | committed (process : Nat) (files : List Migration)
  | returned (process : Nat) (files : List Migration)
  | raised (process : Nat) (cause : Cause)
  deriving DecidableEq, Repr

/-- A process connects, goes on with its next statement, fails in it, or dies; the server ends the
connection of a dead process.
-/
inductive Action
  | connect (process : Nat) (files : List Migration) (rabbitmq : Bool)
  | run (process : Nat)
  | fail (process : Nat)
  | die (process : Nat)
  | abort (process : Nat)
  deriving DecidableEq, Repr

/-- The scripts that a statement of the session sees. -/
def Session.view (session : Session) (database : Database) : List Migration :=
  database.scripts ++ session.scripts

/-- The versions that a statement of the session sees. -/
def Session.versions (session : Session) (database : Database) : List String :=
  database.ledger.getD [] ++ session.inserted

/-- The database after the commit of the session. -/
def Database.merge (database : Database) (session : Session) : Database :=
  {
    ledger :=
      if database.ledger.isSome || session.created then
        some (database.ledger.getD [] ++ session.inserted)
      else
        none
    scripts := database.scripts ++ session.scripts
  }

namespace State

def start (database : Database) : State := ⟨database, none, fun _ => none⟩

def put (s : State) (process : Nat) (session : Session) : State :=
  { s with sessions := Function.update s.sessions process (some session) }

/-- The end of a session, which frees its lock. -/
def close (s : State) (process : Nat) : State :=
  { s with
    lock := if s.lock = some process then none else s.lock
    sessions := Function.update s.sessions process none }

/-- The next statement of a session. -/
def advance (s : State) (process : Nat) (session : Session) : Option (Label × State) :=
  let goto := fun stage => some (.silent, s.put process { session with stage })
  match session.stage with
  | .locking =>
      if s.lock = none then
        some
          (.silent,
            { s.put process { session with stage := .creating } with lock := some process })
      else
        none
  | .creating =>
      some
        (.silent,
          s.put process
            { session with
              stage := .selecting (order session.files)
              created := s.database.ledger.isNone })
  | .selecting rest =>
      if s.database.ledger.isNone && !session.created && !rest.isEmpty then
        some (.raised process .missing, s.close process)
      else
        match rest with
        | [] => goto (if session.rabbitmq then .seeding else .committing)
        | migration :: rest =>
            if migration.name ∈ session.versions s.database then
              goto (.selecting rest)
            else
              goto (.executing migration rest)
  | .executing migration rest =>
      some
        (.executed process (session.view s.database) migration,
          s.put process
            { session with
              stage := .inserting migration rest
              scripts := session.scripts ++ [migration] })
  | .inserting migration rest =>
      if migration.name ∈ session.versions s.database then
        some (.raised process .duplicate, s.close process)
      else
        some
          (.silent,
            s.put process
              { session with
                stage := .selecting rest
                inserted := session.inserted ++ [migration.name] })
  | .seeding => goto .committing
  | .committing =>
      some
        (if session.down then .committed process session.files
          else .returned process session.files,
          { s.close process with database := s.database.merge session })

def exec (s : State) : Action → Option (Label × State)
  | .connect process files rabbitmq =>
      if (s.sessions process).isNone then
        some
          (.connected process files,
            s.put process ⟨files, rabbitmq, .locking, false, [], [], false⟩)
      else
        none
  | .run process =>
      (s.sessions process).bind (fun session =>
        if session.down && session.stage ≠ .committing then none else s.advance process session)
  | .fail process =>
      (s.sessions process).bind (fun session =>
        if session.down then none else some (.raised process .other, s.close process))
  | .die process =>
      (s.sessions process).map (fun session =>
        (.silent, s.put process { session with down := true }))
  | .abort process =>
      (s.sessions process).bind (fun session =>
        if session.down then some (.silent, s.close process) else none)

def Step (s : State) (label : Label) (t : State) : Prop :=
  ∃ action, s.exec action = some (label, t)

theorem Step.of_exec (s : State) (action : Action) (label : Label) (t : State)
    (done : s.exec action = some (label, t))
    : s.Step label t :=
  ⟨action, done⟩

end State

-----------------------------------------------------------------------------------------
-- Releases
-----------------------------------------------------------------------------------------

/-- All migrations there will be: their names are the order in which they were added. -/
def Numbered (all : List Migration) : Prop :=
  all.Pairwise (fun first second => first.name < second.name)

/-- A process starts with the first of the migrations; a directory lists them in any order. -/
def Label.released (all : List Migration) : Label → Bool
  | .connected _ files => decide (files.Perm (all.take files.length))
  | _ => true

variable {all files : List Migration}

/-- The names tell the migrations apart. -/
theorem Numbered.nodup (numbered : Numbered all) : (all.map Migration.name).Nodup :=
  List.pairwise_map.mpr (numbered.imp fun less => less.ne)

/-- Sorting brings the files of a release back in the order of the migrations. -/
theorem order_released (numbered : Numbered all) {count : Nat}
    (listed : files.Perm (all.take count))
    : order files = all.take count := by
  have listed : (order files).Perm (all.take count) :=
    (List.perm_insertionSort _ files).trans listed
  have first : Numbered (all.take count) := numbered.sublist (List.take_sublist count all)
  have trans : IsTrans Migration (fun first second => first.name ≤ second.name) :=
    ⟨fun _ _ _ => le_trans⟩
  have total : Std.Total (fun (first second : Migration) => first.name ≤ second.name) :=
    ⟨fun first second => le_total first.name second.name⟩
  have sorted : (order files).Pairwise (fun first second => first.name ≤ second.name) :=
    List.pairwise_insertionSort _ files
  refine List.Perm.eq_of_pairwise ?_ sorted (first.imp fun less => less.le) listed
  intro migration other member also le ge
  exact List.inj_on_of_nodup_map first.nodup (listed.mem_iff.mp member) also (le_antisymm le ge)

/-- A migration after others of the sequence is none of them. -/
theorem Numbered.name_notMem (numbered : Numbered all) {before rest : List Migration}
    {migration : Migration} (split : before ++ migration :: rest <+: all)
    : migration.name ∉ before.map Migration.name := by
  have part : Numbered (before ++ migration :: rest) := numbered.sublist split.sublist
  have names := part.nodup
  rw [List.map_append, List.map_cons] at names
  intro member
  exact (List.nodup_append.mp names).2.2 _ member _ List.mem_cons_self rfl

/-- Of two parts of the sequence, one that goes further has what comes next in the other. -/
theorem prefix_step {before view rest : List Migration} {migration : Migration}
    (split : before ++ migration :: rest <+: all) (within : view <+: all)
    (reached : before <+: view)
    : view = before ∨ before ++ [migration] <+: view := by
  obtain ⟨more, rfl⟩ := reached
  cases more with
  | nil => exact .inl (List.append_nil before)
  | cons next more =>
      right
      have first : before ++ [migration] <+: all :=
        .trans ⟨rest, by simp⟩ split
      exact List.prefix_of_prefix_length_le first within (by simp)

-----------------------------------------------------------------------------------------
-- The invariant
-----------------------------------------------------------------------------------------

variable {s t : State} {database : Database} {session : Session} {label : Label}
variable {process : Nat}

/-- What a transaction under the lock sees: scripts of the sequence, with those of its release that
it has passed.
-/
structure Within (all files view passed rest : List Migration) : Prop where
  split : passed ++ rest = order files
  ordered : view <+: all
  reached : passed <+: view

/-- The ledger has the scripts that ran. -/
def Listed (database : Database) (session : Session) : Prop :=
  (database.ledger.isSome ∨ session.created = true)
  ∧ session.inserted = session.scripts.map Migration.name

/-- What an event tells, with the scripts of the database after it. -/
def Label.Told (all scripts : List Migration) : Label → Prop
  | .silent | .connected _ _ => True
  | .executed _ before migration => before ++ [migration] <+: all
  | .committed _ files | .returned _ files => order files <+: scripts
  | .raised _ cause => cause = .other

/-- What each stage of a session has done. -/
def Stands (all : List Migration) (database : Database) (session : Session) : Stage → Prop
  | .locking | .creating =>
      session.scripts = [] ∧ session.inserted = [] ∧ session.created = false
  | .selecting rest =>
      Listed database session
      ∧ ∃ passed, Within all session.files (session.view database) passed rest
  | .executing migration rest =>
      Listed database session
      ∧ Within all session.files (session.view database) (session.view database)
        (migration :: rest)
  | .inserting migration rest =>
      (database.ledger.isSome ∨ session.created = true)
      ∧ session.inserted ++ [migration.name] = session.scripts.map Migration.name
      ∧ ∃ passed,
        session.view database = passed ++ [migration]
        ∧ Within all session.files (session.view database) (passed ++ [migration]) rest
  | .seeding | .committing =>
      Listed database session
      ∧ Within all session.files (session.view database) (order session.files) []

/-- What the database has. -/
structure Database.Sound (all : List Migration) (database : Database) : Prop where
  ordered : database.scripts <+: all
  listed : database.ledger.getD [] = database.scripts.map Migration.name

/-- Every session stands where its stage says, and those past the lock have it. -/
structure State.Sound (all : List Migration) (s : State) : Prop where
  database : s.database.Sound all
  locked
    : ∀ process session, s.sessions process = some session → session.stage ≠ .locking
      → s.lock = some process
  released : ∀ process session, s.sessions process = some session → order session.files <+: all
  stands
    : ∀ process session, s.sessions process = some session
      → Stands all s.database session session.stage

theorem Database.Sound.start (sound : database.Sound all) : (State.start database).Sound all where
  database := sound
  locked := fun _ _ none => by cases none
  released := fun _ _ none => by cases none
  stands := fun _ _ none => by cases none

/-- The versions that a statement sees are those of the scripts that it sees. -/
theorem Listed.versions (listed : Listed database session) (sound : database.Sound all)
    : session.versions database = (session.view database).map Migration.name := by
  rw [Session.versions, Session.view, sound.listed, listed.2, List.map_append]

namespace State.Sound

/-- A step of one session, which may get the lock. -/
theorem put (sound : s.Sound all) {lock : Option Nat}
    (taken : lock = s.lock ∨ s.lock = none ∧ lock = some process)
    (locked : session.stage ≠ .locking → lock = some process)
    (released : order session.files <+: all) (stands : Stands all s.database session session.stage)
    : State.Sound all { s.put process session with lock } where
  database := sound.database
  locked := by
    intro other running same past
    by_cases own : other = process
    · subst own
      simp only [State.put, Function.update_self, Option.some.injEq] at same
      subst same
      exact locked past
    · simp only [State.put, Function.update_of_ne own] at same
      have held := sound.locked other running same past
      rcases taken with rfl | ⟨free, -⟩
      · exact held
      · rw [free] at held
        cases held
  released := by
    intro other running same
    by_cases own : other = process
    · subst own
      simp only [State.put, Function.update_self, Option.some.injEq] at same
      subst same
      exact released
    · simp only [State.put, Function.update_of_ne own] at same
      exact sound.released other running same
  stands := by
    intro other running same
    by_cases own : other = process
    · subst own
      simp only [State.put, Function.update_self, Option.some.injEq] at same
      subst same
      exact stands
    · simp only [State.put, Function.update_of_ne own] at same
      exact sound.stands other running same

/-- A session of the state after the end of another. -/
theorem close_session {other : Nat} {running : Session}
    (same : (s.close process).sessions other = some running)
    : other ≠ process ∧ s.sessions other = some running := by
  by_cases own : other = process
  · subst own
    simp [State.close] at same
  · exact ⟨own, by simpa [State.close, own] using same⟩

/-- The end of a session, which may commit if it has the lock. -/
theorem close (sound : s.Sound all) (kept : database.Sound all)
    (alone : database = s.database ∨ s.lock = some process)
    : State.Sound all { s.close process with database } where
  database := kept
  locked := by
    intro other running same past
    obtain ⟨apart, same⟩ := close_session same
    have held := sound.locked other running same past
    simp [State.close, held, apart]
  released := fun other running same => sound.released other running (close_session same).2
  stands := by
    intro other running same
    obtain ⟨apart, same⟩ := close_session same
    have stands := sound.stands other running same
    rcases alone with rfl | holder
    · exact stands
    -- The other sessions wait for the lock, with nothing done yet.
    have waiting : running.stage = .locking := by
      by_contra past
      have held := sound.locked other running same past
      rw [holder, Option.some.injEq] at held
      exact apart held.symm
    rw [waiting] at stands ⊢
    exact stands

-----------------------------------------------------------------------------------------
-- One statement
-----------------------------------------------------------------------------------------

/-- The first statement under the lock finds nothing of the transaction. -/
theorem create (sound : s.Sound all) (at_ : s.sessions process = some session)
    (stage : session.stage = .creating)
    : State.Sound all
        (s.put process
          { session with
            stage := .selecting (order session.files)
            created := s.database.ledger.isNone }) := by
  have stands := sound.stands process session at_
  rw [stage] at stands
  obtain ⟨scripts, inserted, -⟩ := stands
  refine sound.put (.inl rfl) (fun _ => sound.locked process session at_ (by simp [stage]))
    (sound.released process session at_) ⟨⟨?_, ?_⟩, [], ?_⟩
  · cases s.database.ledger <;> simp
  · simp [scripts, inserted]
  · exact ⟨rfl, by simpa [Session.view, scripts] using sound.database.ordered, List.nil_prefix⟩

/-- The search for a migration: it is passed when it is there, else it is the next to run. -/
theorem select (sound : s.Sound all) (numbered : Numbered all)
    (at_ : s.sessions process = some session) {migration : Migration} {rest : List Migration}
    (stage : session.stage = .selecting (migration :: rest))
    : State.Sound all
        (s.put process
          { session with
            stage :=
              if migration.name ∈ session.versions s.database then .selecting rest
              else .executing migration rest }) := by
  have stands := sound.stands process session at_
  rw [stage] at stands
  obtain ⟨listed, passed, within⟩ := stands
  have released := sound.released process session at_
  have locked := sound.locked process session at_ (by simp [stage])
  refine sound.put (.inl rfl) (fun _ => locked) released ?_
  rw [listed.versions sound.database]
  have split : passed ++ migration :: rest <+: all := within.split ▸ released
  rcases prefix_step split within.ordered within.reached with same | further
  · have absent := numbered.name_notMem split
    rw [← same] at absent
    rw [if_neg absent]
    refine ⟨listed, ?_, within.ordered, List.prefix_refl _⟩
    show session.view s.database ++ migration :: rest = order session.files
    rw [same, within.split]
  · have present : migration.name ∈ (session.view s.database).map Migration.name :=
      List.mem_map_of_mem (further.subset (by simp))
    rw [if_pos present]
    exact ⟨listed, passed ++ [migration], by simpa using within.split, within.ordered, further⟩

/-- A script runs after those before it in the sequence. -/
theorem execute (sound : s.Sound all) (at_ : s.sessions process = some session)
    {migration : Migration} {rest : List Migration}
    (stage : session.stage = .executing migration rest)
    : State.Sound all
        (s.put process
          { session with
            stage := .inserting migration rest
            scripts := session.scripts ++ [migration] })
      ∧ session.view s.database ++ [migration] <+: all := by
  have stands := sound.stands process session at_
  rw [stage] at stands
  obtain ⟨⟨table, names⟩, within⟩ := stands
  have released := sound.released process session at_
  have next : session.view s.database ++ [migration] <+: all := by
    refine .trans ⟨rest, ?_⟩ (within.split ▸ released)
    simp
  refine ⟨sound.put (.inl rfl) (fun _ => sound.locked process session at_ (by simp [stage]))
    released ⟨table, by simp [names], session.view s.database, ?_, ?_⟩, next⟩
  · simp [Session.view]
  · have view : Session.view { session with
        stage := .inserting migration rest
        scripts := session.scripts ++ [migration] } s.database
        = session.view s.database ++ [migration] := by
      simp [Session.view]
    exact ⟨by simpa using within.split, view ▸ next, view ▸ List.prefix_refl _⟩

/-- A script that ran is not in the ledger yet. -/
theorem insert (sound : s.Sound all) (numbered : Numbered all)
    (at_ : s.sessions process = some session) {migration : Migration} {rest : List Migration}
    (stage : session.stage = .inserting migration rest)
    : State.Sound all
        (s.put process
          { session with
            stage := .selecting rest
            inserted := session.inserted ++ [migration.name] })
      ∧ migration.name ∉ session.versions s.database := by
  have stands := sound.stands process session at_
  rw [stage] at stands
  obtain ⟨table, names, passed, view, within⟩ := stands
  refine ⟨sound.put (.inl rfl) (fun _ => sound.locked process session at_ (by simp [stage]))
    (sound.released process session at_)
    ⟨⟨table, names⟩, passed ++ [migration], within⟩, ?_⟩
  have versions : session.versions s.database = passed.map Migration.name := by
    have all : session.versions s.database ++ [migration.name]
        = (passed ++ [migration]).map Migration.name := by
      rw [← view, Session.versions, Session.view, sound.database.listed, List.append_assoc, names,
        List.map_append]
    simpa using all
  have split : passed ++ migration :: [] <+: all := view ▸ within.ordered
  rw [versions]
  exact numbered.name_notMem split

/-- A commit leaves a ledger of the scripts, with all of the release. -/
theorem commit (sound : s.Sound all) (at_ : s.sessions process = some session)
    (stage : session.stage = .committing)
    : State.Sound all { s.close process with database := s.database.merge session }
      ∧ order session.files <+: (s.database.merge session).scripts := by
  have stands := sound.stands process session at_
  rw [stage] at stands
  obtain ⟨listed, within⟩ := stands
  have held := sound.locked process session at_ (by simp [stage])
  have ledger : (s.database.merge session).ledger.getD []
      = s.database.ledger.getD [] ++ session.inserted := by
    rcases listed.1 with table | created
    · simp [Database.merge, table]
    · simp [Database.merge, created]
  refine ⟨sound.close ⟨within.ordered, ?_⟩ (.inr held), within.reached⟩
  rw [ledger]
  exact listed.versions sound.database

/-- Every statement of a session keeps the invariant, by cases on its stage. -/
theorem advance (sound : s.Sound all) (numbered : Numbered all)
    (at_ : s.sessions process = some session) (done : s.advance process session = some (label, t))
    : t.Sound all ∧ label.Told all t.database.scripts
      ∧ s.database.scripts <+: t.database.scripts := by
  have stands := sound.stands process session at_
  have released := sound.released process session at_
  cases stage : session.stage with
  | locking =>
      simp only [State.advance, stage] at done
      split at done <;> cases done
      rename_i free
      rw [stage] at stands
      refine ⟨sound.put (.inr ⟨free, rfl⟩) (fun _ => rfl) released stands, trivial,
        List.prefix_refl _⟩
  | creating =>
      simp only [State.advance, stage] at done
      cases done
      exact ⟨sound.create at_ stage, trivial, List.prefix_refl _⟩
  | selecting rest =>
      rw [stage] at stands
      have table : (s.database.ledger.isNone && !session.created) = false := by
        rcases stands.1.1 with table | created
        · simp [Option.isNone_eq_false_iff.mpr table]
        · simp [created]
      simp only [State.advance, stage, table, Bool.false_and, Bool.false_eq_true, if_false] at done
      cases rest with
      | nil =>
          cases done
          obtain ⟨listed, passed, within⟩ := stands
          have all : passed = order session.files := by simpa using within.split
          refine ⟨sound.put (.inl rfl)
            (fun _ => sound.locked process session at_ (by simp [stage])) released ?_, trivial,
            List.prefix_refl _⟩
          cases session.rabbitmq <;>
            exact ⟨listed, by simp, within.ordered, all ▸ within.reached⟩
      | cons migration rest =>
          have moved := sound.select numbered at_ stage
          simp only at done
          split at done <;> cases done
          · rename_i present
            rw [if_pos present] at moved
            exact ⟨moved, trivial, List.prefix_refl _⟩
          · rename_i absent
            rw [if_neg absent] at moved
            exact ⟨moved, trivial, List.prefix_refl _⟩
  | executing migration rest =>
      simp only [State.advance, stage] at done
      cases done
      obtain ⟨moved, next⟩ := sound.execute at_ stage
      exact ⟨moved, next, List.prefix_refl _⟩
  | inserting migration rest =>
      obtain ⟨moved, absent⟩ := sound.insert numbered at_ stage
      simp only [State.advance, stage, if_neg absent] at done
      cases done
      exact ⟨moved, trivial, List.prefix_refl _⟩
  | seeding =>
      simp only [State.advance, stage] at done
      cases done
      rw [stage] at stands
      exact ⟨sound.put (.inl rfl) (fun _ => sound.locked process session at_ (by simp [stage]))
        released stands, trivial, List.prefix_refl _⟩
  | committing =>
      simp only [State.advance, stage] at done
      cases done
      obtain ⟨moved, reached⟩ := sound.commit at_ stage
      refine ⟨moved, ?_, List.prefix_append _ _⟩
      cases session.down <;> exact reached

/-- Every action keeps the invariant. -/
theorem step (sound : s.Sound all) (numbered : Numbered all) (step : s.Step label t)
    (released : label.released all = true)
    : t.Sound all ∧ label.Told all t.database.scripts
      ∧ s.database.scripts <+: t.database.scripts := by
  obtain ⟨action, done⟩ := step
  cases action with
  | connect process files rabbitmq =>
      simp only [State.exec] at done
      split at done <;> cases done
      have listed : files.Perm (all.take files.length) := of_decide_eq_true released
      refine ⟨sound.put (.inl rfl) (fun past => absurd rfl past) ?_ ⟨rfl, rfl, rfl⟩, trivial,
        List.prefix_refl _⟩
      rw [order_released numbered listed]
      exact List.take_prefix files.length all
  | run process =>
      obtain ⟨session, at_, advanced⟩ := Option.bind_eq_some_iff.mp done
      split at advanced
      · cases advanced
      · exact sound.advance numbered at_ advanced
  | fail process =>
      obtain ⟨session, at_, failed⟩ := Option.bind_eq_some_iff.mp done
      split at failed <;> cases failed
      exact ⟨sound.close sound.database (.inl rfl), rfl, List.prefix_refl _⟩
  | die process =>
      obtain ⟨session, at_, same⟩ := Option.map_eq_some_iff.mp done
      cases same
      refine ⟨sound.put (.inl rfl) (sound.locked process session at_)
        (sound.released process session at_) ?_, trivial, List.prefix_refl _⟩
      exact sound.stands process session at_
  | abort process =>
      obtain ⟨session, at_, ended⟩ := Option.bind_eq_some_iff.mp done
      split at ended <;> cases ended
      exact ⟨sound.close sound.database (.inl rfl), trivial, List.prefix_refl _⟩

end State.Sound

-----------------------------------------------------------------------------------------
-- Runs
-----------------------------------------------------------------------------------------

theorem Label.Told.mono {scripts more : List Migration} (told : label.Told all scripts)
    (prolonged : scripts <+: more)
    : label.Told all more := by
  cases label with
  | committed | returned => exact told.trans prolonged
  | _ => exact told

/-- Processes of any releases apply the migrations one at a time, in order, once each. The scripts
in the database are the first of the sequence and the ledger lists them; a script runs on just those
before it; the migrations of a process whose `init_schema` has returned are there from then on;
and no process fails on the ledger.
-/
theorem init_schema_ordered {past : List Label} (numbered : Numbered all)
    (sound : database.Sound all)
    (run : GuardedRun State.Step (fun _ _ label => label.released all = true)
      (State.start database) past t)
    : t.database.scripts <+: all
      ∧ t.database.ledger.getD [] = t.database.scripts.map Migration.name
      ∧ (∀ process before migration, .executed process before migration ∈ past →
          before ++ [migration] <+: all)
      ∧ (∀ process files, .returned process files ∈ past →
          order files <+: t.database.scripts)
      ∧ ∀ process cause, .raised process cause ∈ past → cause = .other := by
  have kept : t.Sound all ∧ ∀ label ∈ past, label.Told all t.database.scripts := by
    refine run.history
      (I := fun past t => t.Sound all ∧ ∀ label ∈ past, label.Told all t.database.scripts)
      ?_ ⟨sound.start, by simp⟩
    rintro past s label t ⟨sound, told⟩ released step
    obtain ⟨sound, new, prolonged⟩ := sound.step numbered step released
    refine ⟨sound, fun other member => ?_⟩
    rcases List.mem_append.mp member with earlier | last
    · exact (told other earlier).mono prolonged
    · rw [List.mem_singleton.mp last]
      exact new
  obtain ⟨sound, told⟩ := kept
  refine ⟨sound.database.ordered, sound.database.listed, ?_, ?_, ?_⟩
  · exact fun _ _ _ member => told _ member
  · exact fun _ _ member => told _ member
  · exact fun _ _ member => told _ member

-----------------------------------------------------------------------------------------
-- A concrete run
-----------------------------------------------------------------------------------------

def sampleMigrations : List Migration :=
  [⟨"0001_baseline.sql", "CREATE"⟩, ⟨"0002_client_delivery.sql", "ALTER"⟩]

/-- A process of the first release dies with its script run; one of the second release, which has
waited for the lock, applies both.
-/
def playMigrations : List Label × State :=
  Execution.play State.exec
    (fun _ _ label => label.released sampleMigrations) [] (State.start ⟨none, []⟩)
    ([.connect 1 (sampleMigrations.take 1) false, .connect 2 sampleMigrations.reverse true]
      ++ List.replicate 4 (.run 1) ++ [.run 2, .die 1, .abort 1] ++ List.replicate 11 (.run 2))

theorem playMigrations_run
    : GuardedRun State.Step (fun _ _ label => label.released sampleMigrations = true)
        (State.start ⟨none, []⟩) playMigrations.1 playMigrations.2 :=
  Execution.play_run State.Step.of_exec (.nil _) _

theorem init_schema_ordered_migrated
    : .returned 2 sampleMigrations.reverse ∈ playMigrations.1
      ∧ order sampleMigrations.reverse <+: playMigrations.2.database.scripts := by
  have returned : .returned 2 sampleMigrations.reverse ∈ playMigrations.1 := by decide +kernel
  have numbered : Numbered sampleMigrations := by
    unfold Numbered
    decide +kernel
  have empty : Database.Sound sampleMigrations ⟨none, []⟩ := ⟨List.nil_prefix, rfl⟩
  exact ⟨returned, (init_schema_ordered numbered empty playMigrations_run).2.2.2.1 _ _ returned⟩

end Transcriber.Migrations
