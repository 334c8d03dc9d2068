import Mathlib.Logic.Function.Basic
import Transcriber.Library.Execution

/-! Replacing a file so that a crash at any moment leaves the old contents or the new: a temporary
file is written and synced, takes the name of the file, and the directory is synced. A crash of the
program keeps what the system has; a loss of power keeps what was synced.
-/

namespace Durable

open Execution

-----------------------------------------------------------------------------------------
-- One directory
-----------------------------------------------------------------------------------------

structure File where
  data : List UInt8
  synced : Bool
  deriving DecidableEq, Repr

/-- The files of a directory, numbered as they are created, and its entries; for each name, the
entries since the last sync of the directory, which a loss of power may bring back.
-/
structure Disk where
  files : Nat → File
  next : Nat
  entries : String → Option Nat
  older : String → List (Option Nat)

namespace Disk

/-- A name gets another entry. -/
def link (disk : Disk) (name : String) (entry : Option Nat) : Disk :=
  { disk with
    entries := Function.update disk.entries name entry
    older := Function.update disk.older name (disk.entries name :: disk.older name) }

/-- A new file under a name that is free. -/
def create (disk : Disk) (name : String) : Disk :=
  { disk.link name (some disk.next) with
    files := Function.update disk.files disk.next ⟨[], false⟩
    next := disk.next + 1 }

def append (disk : Disk) (file : Nat) (data : List UInt8) : Disk :=
  { disk with
    files := Function.update disk.files file ⟨(disk.files file).data ++ data, false⟩ }

/-- `fsync` of a file. -/
def sync (disk : Disk) (file : Nat) : Disk :=
  { disk with files := Function.update disk.files file ⟨(disk.files file).data, true⟩ }

/-- `rename` -/
def rename (disk : Disk) (source target : String) : Disk :=
  (disk.link target (disk.entries source)).link source none

def unlink (disk : Disk) (name : String) : Disk := disk.link name none

/-- `fsync` of the directory. -/
def syncEntries (disk : Disk) : Disk := { disk with older := fun _ => [] }

/-- A loss of power: each name has an entry of those since the last sync, and a file that was not
synced has anything in it.
-/
def lose (disk : Disk) (pick : String → Nat) (garbage : Nat → List UInt8) : Disk :=
  { disk with
    files :=
      fun file =>
        if (disk.files file).synced then disk.files file else ⟨garbage file, true⟩
    entries :=
      fun name =>
        ((disk.entries name :: disk.older name)[pick name]?).getD (disk.entries name)
    older := fun _ => [] }

def read (disk : Disk) (name : String) : Option (List UInt8) :=
  (disk.entries name).map (fun file => (disk.files file).data)

end Disk

-----------------------------------------------------------------------------------------
-- The program that replaces the file
-----------------------------------------------------------------------------------------

/-- Where a save stands; after an error the temporary file is about to be unlinked. -/
inductive Stage (α : Type)
  | idle
  | writing (value : α) (temp : String) (file : Nat) (rest : List UInt8)
  | synced (value : α) (temp : String) (file : Nat)
  | replaced (value : α)
  | discarding (value : α) (temp : String)
  deriving DecidableEq, Repr

structure Register (α : Type) where
  disk : Disk
  stage : Stage α

/-- What happens next: a step of the save, an error of its call, a crash, a loss of power, or a
load.
-/
inductive Action (α : Type)
  | save (value : α) (temp : String)
  | write (count : Nat)
  | sync
  | replace
  | finish
  | fail
  | crash
  | lose (pick : String → Nat) (garbage : Nat → List UInt8)
  | load

/-- What a step shows. -/
inductive Label (α : Type)
  | silent
  | replaced (value : α)
  | saved (value : α)
  | failed (value : α)
  | crashed
  | lost
  | loaded (data : Option (List UInt8))
  deriving DecidableEq, Repr

namespace Register

variable {α : Type}

/-- A step with the file `path`; a temporary file gets a name that is free. -/
def exec (encode : α → List UInt8) (path : String) (s : Register α)
    : Action α → Option (Label α × Register α)
  | .save value temp =>
      match s.stage with
      | .idle =>
          if temp ≠ path && (s.disk.entries temp).isNone then
            some
              (.silent, ⟨s.disk.create temp, .writing value temp s.disk.next (encode value)⟩)
          else
            none
      | _ => none
  | .write count =>
      match s.stage with
      | .writing value temp file rest =>
          some
            (.silent,
              ⟨s.disk.append file (rest.take count), .writing value temp file (rest.drop count)⟩)
      | _ => none
  | .sync =>
      match s.stage with
      | .writing value temp file [] => some (.silent, ⟨s.disk.sync file, .synced value temp file⟩)
      | _ => none
  | .replace =>
      match s.stage with
      | .synced value temp _ => some (.replaced value, ⟨s.disk.rename temp path, .replaced value⟩)
      | _ => none
  | .finish =>
      match s.stage with
      | .replaced value => some (.saved value, ⟨s.disk.syncEntries, .idle⟩)
      | .discarding value temp => some (.failed value, ⟨s.disk.unlink temp, .idle⟩)
      | _ => none
  | .fail =>
      match s.stage with
      | .writing value temp _ _ => some (.silent, ⟨s.disk, .discarding value temp⟩)
      | .synced value _ _ | .replaced value | .discarding value _ =>
          some (.failed value, ⟨s.disk, .idle⟩)
      | .idle => none
  | .crash => some (.crashed, ⟨s.disk, .idle⟩)
  | .lose pick garbage => some (.lost, ⟨s.disk.lose pick garbage, .idle⟩)
  | .load =>
      match s.stage with
      | .idle => some (.loaded (s.disk.read path), s)
      | _ => none

def Step (encode : α → List UInt8) (path : String) (s : Register α) (label : Label α)
    (t : Register α)
    : Prop :=
  ∃ action, s.exec encode path action = some (label, t)

theorem Step.of_exec (encode : α → List UInt8) (path : String) (s : Register α)
    (action : Action α) (label : Label α) (t : Register α)
    (done : s.exec encode path action = some (label, t))
    : s.Step encode path label t :=
  ⟨action, done⟩

end Register

-----------------------------------------------------------------------------------------
-- What a load may find
-----------------------------------------------------------------------------------------

variable {α : Type}

/-- The value that took the file's name last. -/
def newest (initial : Option α) (past : List (Label α)) : Option α :=
  past.foldl (fun value label => if let .replaced next := label then some next else value) initial

/-- The value of the last save that returned, and those that took the file's name since. -/
def candidates (initial : Option α) (past : List (Label α)) : List (Option α) :=
  past.foldl
    (fun values label =>
      match label with
      | .replaced next => some next :: values
      | .saved value => [some value]
      | _ => values)
    [initial]

/-- An entry that leads to a synced file with just this value. -/
def Holds (encode : α → List UInt8) (disk : Disk) (entry : Option Nat) (value : Option α) : Prop :=
  (entry.map disk.files) = value.map (fun value => ⟨encode value, true⟩)

variable {encode : α → List UInt8} {path : String} {initial value : Option α}
variable {past : List (Label α)} {s t : Register α} {disk after : Disk} {entry : Option Nat}

@[simp] theorem candidates_snoc (label : Label α)
    : candidates initial (past ++ [label])
      = match label with
        | .replaced next => some next :: candidates initial past
        | .saved value => [some value]
        | _ => candidates initial past := by
  rw [candidates, List.foldl_append]
  rfl

@[simp] theorem newest_snoc (label : Label α)
    : newest initial (past ++ [label])
      = if let .replaced next := label then some next else newest initial past := by
  rw [newest, List.foldl_append]
  rfl

theorem Holds.read (holds : Holds encode disk (disk.entries path) value)
    : disk.read path = value.map encode := by
  have data := congrArg (Option.map File.data) holds
  simpa [Disk.read, Function.comp_def] using data

/-- What an entry leads to stays while its file does. -/
theorem Holds.kept (holds : Holds encode disk entry value)
    (same : ∀ file, entry = some file → after.files file = disk.files file)
    : Holds encode after entry value := by
  cases entry with
  | none => exact holds
  | some file => simpa [Holds, same file rfl] using holds

theorem Holds.synced {file : Nat} (holds : Holds encode disk (some file) value)
    : (disk.files file).synced = true := by
  cases value with
  | none => cases holds
  | some value =>
      have same : disk.files file = ⟨encode value, true⟩ := Option.some.inj holds
      rw [same]

-----------------------------------------------------------------------------------------
-- The invariant
-----------------------------------------------------------------------------------------

/-- The entries that a name has or may get back. -/
def Disk.seen (disk : Disk) (name : String) : List (Option Nat) :=
  disk.entries name :: disk.older name

/-- What each stage of a save has done. -/
def Stands (encode : α → List UInt8) (path : String) (disk : Disk) : Stage α → Prop
  | .idle => True
  | .discarding _ temp => temp ≠ path
  | .writing value temp file rest =>
      (disk.files file).data ++ rest = encode value
      ∧ disk.entries temp = some file
      ∧ temp ≠ path
      ∧ file < disk.next
      ∧ some file ∉ disk.seen path
  | .synced value temp file =>
      disk.files file = ⟨encode value, true⟩
      ∧ disk.entries temp = some file
      ∧ temp ≠ path
      ∧ file < disk.next
  | .replaced value => Holds encode disk (disk.entries path) (some value)

structure Sound (encode : α → List UInt8) (path : String) (initial : Option α)
    (past : List (Label α)) (s : Register α)
    : Prop where
  seen
    : ∀ entry ∈ s.disk.seen path,
      ∃ value ∈ candidates initial past, Holds encode s.disk entry value
  numbered : ∀ file, some file ∈ s.disk.seen path → file < s.disk.next
  newest : .lost ∉ past → Holds encode s.disk (s.disk.entries path) (newest initial past)
  stands : Stands encode path s.disk s.stage

/-- A step that leaves the entries of the file alone, and the files that they lead to. -/
theorem Sound.apart (sound : Sound encode path initial past s) {label : Label α}
    (seen : t.disk.seen path = s.disk.seen path)
    (same : ∀ file, some file ∈ s.disk.seen path → t.disk.files file = s.disk.files file)
    (more : s.disk.next ≤ t.disk.next)
    (quiet : candidates initial (past ++ [label]) = candidates initial past
      ∧ Durable.newest initial (past ++ [label]) = Durable.newest initial past)
    (stands : Stands encode path t.disk t.stage)
    : Sound encode path initial (past ++ [label]) t where
  seen := by
    rw [seen, quiet.1]
    intro entry member
    obtain ⟨value, known, holds⟩ := sound.seen entry member
    exact ⟨value, known, holds.kept (fun file own => same file (own ▸ member))⟩
  numbered := by
    rw [seen]
    exact fun file member => Nat.lt_of_lt_of_le (sound.numbered file member) more
  newest := by
    intro kept
    have entry : t.disk.entries path = s.disk.entries path := (List.cons.inj seen).1
    rw [entry, quiet.2]
    refine (sound.newest (fun lost => kept (by simp [lost]))).kept (fun file own => ?_)
    exact same file (own ▸ List.mem_cons_self)
  stands := stands

theorem Sound.rest (sound : Sound encode path initial past s) {label : Label α}
    {stage : Stage α}
    (quiet : candidates initial (past ++ [label]) = candidates initial past
      ∧ Durable.newest initial (past ++ [label]) = Durable.newest initial past)
    (stands : Stands encode path s.disk stage)
    : Sound encode path initial (past ++ [label]) ⟨s.disk, stage⟩ :=
  sound.apart rfl (fun _ _ => rfl) (Nat.le_refl _) quiet stands

/-- A new name leaves the file alone. -/
theorem Disk.seen_link {name other : String} (differs : other ≠ name)
    : (disk.link other entry).seen name = disk.seen name := by
  simp [seen, link, Function.update_of_ne differs.symm]

theorem Sound.save (sound : Sound encode path initial past s) {value : α} {temp : String}
    (differs : temp ≠ path)
    : Sound encode path initial (past ++ [.silent])
        ⟨s.disk.create temp, .writing value temp s.disk.next (encode value)⟩ := by
  have seen : (s.disk.create temp).seen path = s.disk.seen path := Disk.seen_link differs
  refine sound.apart seen (fun file member => ?_) (Nat.le_succ _) (by simp) ?_
  · have older := sound.numbered file member
    exact Function.update_of_ne (Nat.ne_of_lt older) _ _
  · refine ⟨by simp [Disk.create], by simp [Disk.create, Disk.link], differs,
      Nat.lt_succ_self _, ?_⟩
    rw [seen]
    exact fun member => Nat.lt_irrefl _ (sound.numbered _ member)

/-- A step of the save on its own file. -/
theorem Sound.change (sound : Sound encode path initial past s) {file : Nat} {changed : File}
    {stage : Stage α} (own : some file ∉ s.disk.seen path)
    (stands
      : Stands encode path
          { s.disk with files := Function.update s.disk.files file changed } stage)
    : Sound encode path initial (past ++ [.silent])
        ⟨{ s.disk with files := Function.update s.disk.files file changed }, stage⟩ := by
  refine sound.apart rfl (fun other member => ?_) (Nat.le_refl _) (by simp) stands
  have differs : other ≠ file := by
    rintro rfl
    exact own member
  exact Function.update_of_ne differs _ _

theorem Sound.replace (sound : Sound encode path initial past s) {value : α} {temp : String}
    {file : Nat} (stage : s.stage = .synced value temp file)
    : Sound encode path initial (past ++ [.replaced value])
        ⟨s.disk.rename temp path, .replaced value⟩ := by
  have stands := sound.stands
  rw [stage] at stands
  obtain ⟨written, own, differs, bound⟩ := stands
  have entry : (s.disk.rename temp path).entries path = some file := by
    simp [Disk.rename, Disk.link, Function.update_of_ne differs.symm, own]
  have seen : (s.disk.rename temp path).seen path = some file :: s.disk.seen path := by
    rw [Disk.rename, Disk.seen_link differs]
    simp [Disk.seen, Disk.link, own]
  have holds : Holds encode (s.disk.rename temp path) (some file) (some value) :=
    congrArg some written
  constructor
  · rw [seen]
    simp only [List.mem_cons, candidates_snoc]
    rintro entry (rfl | member)
    · exact ⟨some value, .inl rfl, holds⟩
    · obtain ⟨older, known, holds⟩ := sound.seen entry member
      exact ⟨older, .inr known, holds⟩
  · rw [seen]
    simp only [List.mem_cons, Option.some.injEq]
    rintro other (rfl | member)
    · exact bound
    · exact sound.numbered other member
  · intro _
    rw [entry, newest_snoc]
    exact holds
  · show Holds encode _ _ _
    rw [entry]
    exact holds

/-- The directory is synced: the value is the only candidate. -/
theorem Sound.finish (sound : Sound encode path initial past s) {value : α}
    (stage : s.stage = .replaced value)
    : Sound encode path initial (past ++ [.saved value]) ⟨s.disk.syncEntries, .idle⟩ := by
  have stands := sound.stands
  rw [stage] at stands
  constructor
  · intro entry member
    have same : entry = s.disk.entries path := by
      simpa [Disk.seen, Disk.syncEntries] using member
    rw [candidates_snoc, same]
    exact ⟨some value, by simp, stands⟩
  · intro file member
    have same : some file = s.disk.entries path := by
      simpa [Disk.seen, Disk.syncEntries] using member
    exact sound.numbered file (same ▸ List.mem_cons_self)
  · intro kept
    rw [newest_snoc]
    exact sound.newest (fun lost => kept (by simp [lost]))
  · trivial

/-- A loss of power leaves one of the entries since the last sync, whose file was synced. -/
theorem Sound.lose (sound : Sound encode path initial past s) (pick : String → Nat)
    (garbage : Nat → List UInt8)
    : Sound encode path initial (past ++ [.lost]) ⟨s.disk.lose pick garbage, .idle⟩ := by
  have survives : (s.disk.lose pick garbage).entries path ∈ s.disk.seen path := by
    show ((s.disk.seen path)[pick path]?).getD (s.disk.entries path) ∈ s.disk.seen path
    cases picked : (s.disk.seen path)[pick path]? with
    | none => exact List.mem_cons_self
    | some entry => exact List.mem_of_getElem? picked
  have alone : (s.disk.lose pick garbage).seen path = [(s.disk.lose pick garbage).entries path] :=
    rfl
  constructor
  · rw [alone]
    intro entry member
    rw [List.mem_singleton] at member
    subst member
    obtain ⟨value, known, holds⟩ := sound.seen _ survives
    refine ⟨value, by simpa using known, holds.kept (fun file own => ?_)⟩
    have synced : (s.disk.files file).synced = true := (own ▸ holds).synced
    simp [Disk.lose, synced]
  · rw [alone]
    intro file member
    exact sound.numbered file (List.mem_singleton.mp member ▸ survives)
  · exact fun kept => absurd (by simp) kept
  · trivial

/-- Every step keeps the invariant, by cases on the action and the stage. -/
theorem Sound.step (sound : Sound encode path initial past s) {label : Label α}
    (step : s.Step encode path label t)
    : Sound encode path initial (past ++ [label]) t := by
  obtain ⟨action, done⟩ := step
  have stands := sound.stands
  cases action with
  | save value temp =>
      simp only [Register.exec] at done
      split at done
      · split at done <;> cases done
        rename_i free
        simp only [Bool.and_eq_true, decide_eq_true_eq] at free
        exact sound.save free.1
      · cases done
  | write count =>
      simp only [Register.exec] at done
      split at done <;> cases done
      rename_i value temp file rest stage
      rw [stage] at stands
      obtain ⟨written, own, differs, bound, apart⟩ := stands
      exact sound.change apart
        ⟨by simp [List.append_assoc, List.take_append_drop, written], own, differs, bound, apart⟩
  | sync =>
      simp only [Register.exec] at done
      split at done <;> cases done
      rename_i value temp file stage
      rw [stage] at stands
      obtain ⟨written, own, differs, bound, apart⟩ := stands
      exact sound.change apart ⟨by simpa using written, own, differs, bound⟩
  | replace =>
      simp only [Register.exec] at done
      split at done <;> cases done
      rename_i stage
      exact sound.replace stage
  | finish =>
      simp only [Register.exec] at done
      split at done <;> cases done
      · rename_i stage
        exact sound.finish stage
      · rename_i value temp stage
        rw [stage] at stands
        exact sound.apart (Disk.seen_link stands) (fun _ _ => rfl) (Nat.le_refl _) (by simp)
          trivial
  | fail =>
      simp only [Register.exec] at done
      split at done <;> cases done
      · rename_i stage
        rw [stage] at stands
        exact sound.rest (by simp) stands.2.2.1
      all_goals exact sound.rest (by simp) trivial
  | crash =>
      cases done
      exact sound.rest (by simp) trivial
  | lose pick garbage =>
      cases done
      exact sound.lose pick garbage
  | load =>
      simp only [Register.exec] at done
      split at done <;> cases done
      exact sound.rest (by simp) stands

-----------------------------------------------------------------------------------------
-- Runs
-----------------------------------------------------------------------------------------

/-- A directory in which nothing is left to sync, with a value in the file or without the file. -/
structure Settled (encode : α → List UInt8) (path : String) (initial : Option α)
    (s : Register α)
    : Prop where
  idle : s.stage = .idle
  holds : Holds encode s.disk (s.disk.entries path) initial
  older : s.disk.older path = []
  numbered : ∀ file, s.disk.entries path = some file → file < s.disk.next

theorem Settled.sound (settled : Settled encode path initial s)
    : Sound encode path initial [] s where
  seen := by
    intro entry member
    have same : entry = s.disk.entries path := by
      simpa [Disk.seen, settled.older] using member
    exact ⟨initial, by simp [candidates], same ▸ settled.holds⟩
  numbered := by
    intro file member
    have same : some file = s.disk.entries path := by
      simpa [Disk.seen, settled.older] using member
    exact settled.numbered file same.symm
  newest := fun _ => settled.holds
  stands := by
    rw [settled.idle]
    trivial

/-- What a load finds, in any run of saves, errors, crashes and losses of power: a value saved since
the last save that returned, or that one; and without a loss of power the newest one.
-/
theorem loaded (settled : Settled encode path initial s)
    (run : Run (Register.Step encode path) s past t) {before after : List (Label α)}
    {data : Option (List UInt8)} (split : past = before ++ .loaded data :: after)
    : (∃ value ∈ candidates initial before, data = value.map encode)
      ∧ (.lost ∉ before → data = (newest initial before).map encode) := by
  obtain ⟨u, v, earlier, ⟨action, done⟩, _⟩ := (split ▸ run).split_at
  have sound : Sound encode path initial before u :=
    earlier.history (I := fun past s => Sound encode path initial past s)
      (fun _ _ _ _ sound step => sound.step step) settled.sound
  have read : data = u.disk.read path := by
    cases action with
    | load =>
        simp only [Register.exec] at done
        split at done <;> cases done
        rfl
    | save =>
        simp only [Register.exec] at done
        split at done
        · split at done <;> cases done
        · cases done
    | crash | lose => cases done
    | _ =>
        simp only [Register.exec] at done
        split at done <;> cases done
  rw [read]
  obtain ⟨value, known, holds⟩ := sound.seen _ List.mem_cons_self
  exact ⟨⟨value, known, holds.read⟩, fun kept => (sound.newest kept).read⟩

end Durable
