import Mathlib.Data.List.Perm.Basic
import Mathlib.Logic.Function.Basic
import Transcriber.Library.Execution

/-! The upload slots of `UploadAdmission`: token files whose locks say that an upload is in
progress, swept and counted under the admission lock by threads of any processes.
Each step is one operation of the file system, and a process may die after any of them.
-/

namespace Transcriber.UploadSlots

open Execution

-----------------------------------------------------------------------------------------
-- State
-----------------------------------------------------------------------------------------

/-- How far a thread has come: `entering` to `admitting` are the entry of `upload()`, `leaving` to
`releasing` its exit; `writing` and `publishing` use the lock inside and outside of an upload;
`abandoned` is an exception on its way, whose traceback keeps the token file open.
-/
inductive Stage
  | idle
  | publishing
  | entering
  | listing
  | sweeping (names : List String) (active : Nat)
  | removing (name : String) (names : List String) (active : Nat)
  | reserving
  | creating
  | locking
  | admitting
  | inside
  | writing
  | leaving
  | unlinking
  | closing
  | releasing
  | abandoned
  deriving DecidableEq, Repr

/-- A thread, with the name of its `token_path`. -/
structure Call where
  name : String
  stage : Stage
  deriving DecidableEq, Repr

/-- The directory `.admission`: whose file holds the lock of `lock`, the token files by their
names, and whose file holds the lock of each.
-/
structure Slots where
  lock : Option Nat
  tokens : List String
  holder : String → Option Nat
  calls : Nat → Call

def Slots.initial : Slots := ⟨none, [], fun _ => none, fun _ => ⟨"", .idle⟩⟩

namespace Stage

/-- The thread's open file holds the admission lock. -/
def locked : Stage → Bool
  | .publishing | .listing | .sweeping .. | .removing .. | .reserving | .creating | .locking
  | .admitting | .writing | .unlinking | .closing | .releasing =>
      true
  | .idle | .entering | .inside | .leaving | .abandoned => false

/-- The thread's token file holds its lock, under its name. -/
def owning : Stage → Bool
  | .admitting | .inside | .writing | .leaving | .unlinking | .abandoned => true
  | _ => false

/-- The token file is open and locked, or the exit has still to end. -/
def occupying : Stage → Bool
  | .closing | .releasing => true
  | stage => stage.owning

/-- The upload is inside `upload()`: admitted, and not yet out of its exit. -/
def active (stage : Stage) : Bool := stage.occupying && stage ≠ .abandoned

/-- What follows an operation that changes nothing on the volume; `inside` ends with the body. -/
def next : Stage → Option Stage
  | .reserving => some .creating
  | .inside => some .leaving
  | .closing => some .releasing
  | _ => none

/-- What follows when `locked()` has taken the lock. -/
def acquired : Stage → Option Stage
  | .idle => some .publishing
  | .entering => some .listing
  | .inside => some .writing
  | .leaving => some .unlinking
  | _ => none

/-- What follows when `locked()` has released the lock. -/
def released : Stage → Option Stage
  | .publishing | .releasing => some .idle
  | .admitting | .writing => some .inside
  | _ => none

/-- Where an exception leads: the entry closes what it opened, `write` raises into the body and
the body into the exit; with a locked token, only the exit closes it.
-/
def raised : Stage → Option Stage
  | .idle | .abandoned => none
  | .publishing | .entering | .listing | .sweeping .. | .removing .. | .reserving | .creating
  | .locking | .closing | .releasing =>
      some .idle
  | .inside | .writing => some .leaving
  | .admitting | .leaving | .unlinking => some .abandoned

end Stage

/-- The token whose lock the thread holds, through its own file or the sweep's. -/
def Call.claim (call : Call) : Option String :=
  match call.stage with
  | .removing name _ _ => some name
  | stage => if stage.owning then some call.name else none

/-- The tokens that the thread relies on: those still to be swept, or the one it has created. -/
def Call.watched (call : Call) : List String :=
  match call.stage with
  | .sweeping names _ => names
  | .removing name names _ => name :: names
  | .locking => [call.name]
  | _ => []

-----------------------------------------------------------------------------------------
-- Steps
-----------------------------------------------------------------------------------------

namespace Slots

/-- The thread at a new stage. -/
def move (s : Slots) (i : Nat) (stage : Stage) : Slots :=
  { s with calls := Function.update s.calls i { s.calls i with stage } }

/-- A new lock holder of a token. -/
def hold (s : Slots) (name : String) (holder : Option Nat) : Slots :=
  { s with holder := Function.update s.holder name holder }

def unlink (s : Slots) (name : String) : Slots := { s with tokens := s.tokens.erase name }

/-- An exception in a thread closes the lock file, and the token that a sweep has open. -/
def unwind (s : Slots) (i : Nat) (stage : Stage) : Slots :=
  { s.move i stage with
    lock := if (s.calls i).stage.locked then none else s.lock
    holder :=
      match (s.calls i).stage with
      | .removing name _ _ => Function.update s.holder name none
      | _ => s.holder }

/-- The death of a process closes all files of its threads. -/
def kill (process : Nat → Nat) (p : Nat) (s : Slots) : Slots where
  lock := if s.lock.any (fun i => process i = p) then none else s.lock
  tokens := s.tokens
  holder name := if (s.holder name).any (fun i => process i = p) then none else s.holder name
  calls i := if process i = p then { s.calls i with stage := .idle } else s.calls i

end Slots

/-- What a step shows. -/
inductive Event
  | silent
  | locked (i : Nat)
  | swept (i : Nat) (name : String)
  | refused (i : Nat)
  | abandoned (i : Nat)
  | died (p : Nat)
  deriving DecidableEq, Repr

/-- The steps of the threads, which belong to processes and share one limit. -/
inductive Step (limit : Nat) (process : Nat → Nat) : Slots → Event → Slots → Prop
  | enter {s i} (name : String) (stage : (s.calls i).stage = .idle)
    : Step limit process s .silent
        { s with calls := Function.update s.calls i ⟨name, .entering⟩ }
  | acquire {s i next} (acquired : (s.calls i).stage.acquired = some next)
    (free : s.lock = none)
    : Step limit process s (.locked i) { s.move i next with lock := some i }
  | release {s i next} (released : (s.calls i).stage.released = some next)
    : Step limit process s .silent { s.move i next with lock := none }
  | go {s i next} (follows : (s.calls i).stage.next = some next)
    : Step limit process s .silent (s.move i next)
  -- `glob` lists the directory in any order
  | list {s i names} (stage : (s.calls i).stage = .listing) (listed : names.Perm s.tokens)
    : Step limit process s .silent (s.move i (.sweeping names 0))
  | count {s i name names active}
    (stage : (s.calls i).stage = .sweeping (name :: names) active)
    (held : (s.holder name).isSome)
    : Step limit process s .silent (s.move i (.sweeping names (active + 1)))
  | probe {s i name names active}
    (stage : (s.calls i).stage = .sweeping (name :: names) active)
    (stale : s.holder name = none)
    : Step limit process s .silent
        ((s.move i (.removing name names active)).hold name (some i))
  | sweep {s i name names active} (stage : (s.calls i).stage = .removing name names active)
    : Step limit process s (.swept i name) ((s.move i (.sweeping names active)).unlink name)
  | refuse {s i active} (stage : (s.calls i).stage = .sweeping [] active)
    (full : limit ≤ active)
    : Step limit process s (.refused i) { s.move i .idle with lock := none }
  | pass {s i active} (stage : (s.calls i).stage = .sweeping [] active) (room : active < limit)
    : Step limit process s .silent (s.move i .reserving)
  | create {s i} (stage : (s.calls i).stage = .creating)
    (fresh : (s.calls i).name ∉ s.tokens)
    : Step limit process s .silent
        { (s.move i .locking).hold (s.calls i).name none with
          tokens := s.tokens ++ [(s.calls i).name] }
  | register {s i} (stage : (s.calls i).stage = .locking)
    (unheld : s.holder (s.calls i).name = none)
    : Step limit process s .silent ((s.move i .admitting).hold (s.calls i).name (some i))
  | unlink {s i} (stage : (s.calls i).stage = .unlinking)
    : Step limit process s .silent ((s.move i .closing).unlink (s.calls i).name)
  | raise {s i next} (raised : (s.calls i).stage.raised = some next)
    : Step limit process s (if next = .abandoned then .abandoned i else .silent)
        (s.unwind i next)
  -- the traceback is gone, and the token file with it
  | collect {s i} (stage : (s.calls i).stage = .abandoned)
    : Step limit process s .silent ((s.move i .idle).hold (s.calls i).name none)
  | die {s} (p : Nat) : Step limit process s (.died p) (s.kill process p)

end Transcriber.UploadSlots
