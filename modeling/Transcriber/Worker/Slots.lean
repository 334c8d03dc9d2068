import Mathlib.Data.Fintype.Card
import Transcriber.Library.Execution

/-! The threads of a worker process: its slots with their main loop, their availability reporter
and their delivery thread, the drain signal, and the coordinator's row for each slot.
Each step is one operation on shared state or one end of a call; a call that the client gave up on
may still be executed later.
-/

namespace Transcriber

-----------------------------------------------------------------------------------------
-- Program counters
-----------------------------------------------------------------------------------------

/-- How a wait or a call ends: as hoped, with a job, with an error, or early. -/
inductive Choice
  | go
  | job
  | fail
  | quit
  deriving DecidableEq, Repr

/-- `_report_availability`: before the availability lock, in the ReportAvailability call, in the
RegisterConsumer call, before `_health`.
-/
inductive Report
  | locking (ready : Bool)
  | asking (ready : Bool)
  | registering
  | informing
  deriving DecidableEq, Repr

/-- `process` and `_fail`: at its entry, in the download, in the inference, in the Complete call,
before the Fail call, in it.
-/
inductive Processing
  | entered
  | downloading
  | transcribing
  | completing
  | failing
  | reporting
  deriving DecidableEq, Repr

/-- `consume_slot` -/
inductive Consuming
  | connecting
  | receiving
  | delivered
  | working
  | settling
  | closing
  deriving DecidableEq, Repr

/-- `mark_drained`: before the lock of the pool, after the update of the set, with the test made.
-/
inductive Marking
  | locking
  | updated
  | decided (touch : Bool)
  deriving DecidableEq, Repr

/-- `run_forever`. -/
inductive Main
  | top
  | entry
  | clearing
  | withdrawing (report : Report)
  | unhealthy
  | marking (drained : Bool) (marking : Marking)
  | waiting
  | unmarked
  | resuming
  | returning (report : Report)
  | resumed
  | starting
  | registering (report : Report)
  | registered
  | spawning
  | awaiting
  | stopping
  | checking
  | choosing
  | claiming
  | claimed
  | processing (processing : Processing)
  | consuming (consuming : Consuming)
  | pausing
  | ending
  | joining
  | finishing (report : Report)
  | ended
  deriving DecidableEq, Repr

/-- `_report_availability_loop`; absent before it starts. -/
inductive Reporter
  | absent
  | sleeping
  | woken
  | reporting (report : Report)
  | reported
  | withdrawing (report : Report)
  | setting
  | recovering
  | ended
  deriving DecidableEq, Repr

/-- The thread of `daemon_call` that runs `_process_delivery`: none, before and in its BeginAttempt
calls, in `process`, at its end.
-/
inductive DeliveryThread
  | none
  | beginning (attempt : Nat)
  | begun (attempt : Nat)
  | processing (processing : Processing)
  | finished
  deriving DecidableEq, Repr

-----------------------------------------------------------------------------------------
-- State
-----------------------------------------------------------------------------------------

/-- A ReportAvailability request whose client call has not ended. -/
structure LiveRequest where
  ready : Bool
  executed : Bool
  deriving DecidableEq, Repr

/-- The coordinator's row of a slot: never ready or expired, ready, or withdrawn by a report. -/
inductive Readiness
  | unready
  | ready
  | withdrawn
  deriving DecidableEq, Repr

/-- The row after a report. -/
def Readiness.reported (ready : Bool) : Readiness := if ready then .ready else .withdrawn

/-- A `RemoteWorker` with its threads, its requests on their way and its row. -/
structure Slot where
  main : Main
  reporter : Reporter
  delivery : DeliveryThread
  available : Bool
  drained : Bool
  admitted : Bool
  locked : Bool
  live : Option LiveRequest
  late : List Bool
  row : Readiness
  deriving DecidableEq, Repr

/-- A slot whose thread is about to start. -/
def Slot.start : Slot := ⟨.top, .absent, .none, false, false, false, false, none, [], .unready⟩

/-- What a step of a slot shows; a report is sent with what `_drained` and `stop` say then. -/
inductive SlotEvent
  | silent
  | sent (ready withdrawing : Bool)
  | acknowledged (ready : Bool)
  | abandoned (ready : Bool)
  | executed (ready : Bool)
  | executedLate (ready : Bool)
  | cleared
  | claim
  | beginAttempt
  | complete
  | fail
  deriving DecidableEq, Repr

/-- A `RemoteWorkerPool` of `n` slots with its events, its lock as `mark_drained` takes it, its set
and the marker file.
-/
structure Pool (n : Nat) where
  stop : Bool
  drain : Bool
  slots : Fin n → Slot
  lock : Option (Fin n)
  drained : Finset (Fin n)
  marker : Bool

/-- A pool whose slots are about to start; `main` has unlinked the marker. -/
def Pool.start (n : Nat) : Pool n := ⟨false, false, fun _ => .start, none, ∅, false⟩

-----------------------------------------------------------------------------------------
-- Calls that two threads share
-----------------------------------------------------------------------------------------

/-- Whether a call goes on, and how it ends. -/
inductive Progress (α : Type)
  | going (next : α)
  | returned
  | raised
  deriving DecidableEq, Repr

/-- Where a thread is after a step of a call it makes. -/
def Progress.lead {α β : Type} (going : α → β) (returned raised : β) : Progress α → β
  | .going next => going next
  | .returned => returned
  | .raised => raised

namespace Slot

/-- The end of the client's call without a reply: an unexecuted request stays on its way. -/
def abandon (slot : Slot) : Slot :=
  { slot with
    locked := false
    live := none
    late :=
      slot.live.toList.filterMap (fun live => if live.executed then none else some live.ready)
        ++ slot.late }

/-- A step of `_report_availability`; the lock is free again when it ends. -/
def report (broker stop : Bool) (slot : Slot) (choice : Choice)
    : Report → Option (SlotEvent × Slot × Progress Report)
  | .locking ready =>
      if slot.locked then
        none
      else
        let ready := ready && !slot.drained && !stop
        some
          (.sent ready (slot.drained || stop),
            { slot with locked := true, live := some ⟨ready, false⟩ }, .going (.asking ready))
  | .asking ready =>
      -- a deadline, an error or a refusal
      if choice = .fail then
        some (.abandoned ready, slot.abandon, .raised)
      else if slot.live = some ⟨ready, true⟩ then
        some
          (.acknowledged ready, { slot with live := none },
            .going (if ready && broker then .registering else .informing))
      else
        none
  | .registering =>
      if choice = .fail then
        some (.silent, { slot with locked := false }, .raised)
      else
        some (.silent, { slot with admitted := choice = .job }, .going .informing)
  | .informing =>
      some (.silent, { slot with locked := false }, if choice = .fail then .raised else .returned)

/-- A step of `process`. -/
def process (stop : Bool) (choice : Choice) : Processing → SlotEvent × Progress Processing
  | .entered =>
      if stop || choice ≠ .go then (.silent, .returned) else (.silent, .going .downloading)
  | .downloading =>
      match choice with
      | .go => (.silent, .going .transcribing)
      | .fail => (.silent, .going .failing)
      | _ => (.silent, .returned)
  | .transcribing =>
      match choice with
      | .go => (.complete, .going .completing)
      | .fail => (.silent, .going .failing)
      | _ => (.silent, .returned)
  | .completing =>
      match choice with
      | .fail => (.silent, .going .failing)
      | _ => (.silent, .returned)
  | .failing =>
      if stop || choice ≠ .go then (.silent, .returned) else (.fail, .going .reporting)
  | .reporting => (.silent, if choice = .fail then .raised else .returned)

-----------------------------------------------------------------------------------------
-- The threads
-----------------------------------------------------------------------------------------

/-- The stop, drain and admission tests of `consume_slot`. -/
def withdrawn (stop drain : Bool) (slot : Slot) : Bool :=
  stop || drain || !slot.available || !slot.admitted

/-- A step of `consume_slot`; an error closes the connection. -/
def consume (stop drain : Bool) (slot : Slot) (choice : Choice)
    : Consuming → Option (SlotEvent × Slot)
  | .connecting =>
      some
        (.silent,
          { slot with
            main := if choice = .go then .consuming .receiving
              else if choice = .fail then .pausing
              else .consuming .closing })
  | .receiving =>
      some
        (.silent,
          { slot with
            main := if slot.withdrawn stop drain || choice = .fail then .consuming .closing
              else if choice = .job then .consuming .delivered
              else .consuming .receiving })
  | .delivered =>
      if slot.withdrawn stop drain then
        some (.silent, { slot with main := .consuming .closing })
      else if choice = .go then
        some (.silent, { slot with main := .consuming .working, delivery := .beginning 0 })
      else if choice = .fail then
        some (.silent, { slot with main := .consuming .closing })
      else
        some (.silent, { slot with main := .consuming .receiving })
  | .working =>
      if stop then
        some (.silent, { slot with main := .consuming .closing })
      else if slot.delivery = .finished then
        some (.silent, { slot with main := .consuming .settling, delivery := .none })
      else
        none
  | .settling =>
      some
        (.silent,
          { slot with
            main := if choice = .go then .consuming .receiving else .consuming .closing })
  | .closing => some (.silent, { slot with main := .pausing })

/-- A step of a report made by `run_forever`. -/
def reporting (broker stop : Bool) (slot : Slot) (choice : Choice) (report : Report)
    (going : Report → Main) (returned raised : Main)
    : Option (SlotEvent × Slot) :=
  (slot.report broker stop choice report).map (fun done =>
    (done.1, { done.2.1 with main := done.2.2.lead going returned raised }))

/-- A step of `run_forever` outside `mark_drained`. -/
def run (broker stop drain : Bool) (slot : Slot) (choice : Choice) : Option (SlotEvent × Slot) :=
  let goes := fun main => some (SlotEvent.silent, { slot with main })
  match slot.main with
  | .top => if stop then goes .ending else goes .entry
  | .entry =>
      if drain then
        some (.silent, { slot with main := .clearing, drained := true })
      else
        goes .starting
  | .clearing =>
      some (.silent, { slot with main := .withdrawing (.locking false), available := false })
  | .withdrawing report =>
      slot.reporting broker stop choice report .withdrawing (.marking true .locking) .unhealthy
  | .unhealthy => if choice = .fail then goes .pausing else goes (.marking true .locking)
  | .marking _ _ => none
  | .waiting => if drain && !stop then none else goes (.marking false .locking)
  | .unmarked => some (.cleared, { slot with main := .resuming, drained := false })
  | .resuming => if stop then goes .ending else goes (.returning (.locking true))
  | .returning report => slot.reporting broker stop choice report .returning .resumed .pausing
  | .resumed => some (.silent, { slot with main := .starting, available := true })
  | .starting =>
      if slot.reporter = .absent then goes (.registering (.locking true)) else goes .awaiting
  | .registering report =>
      slot.reporting broker stop choice report .registering .registered .pausing
  | .registered => some (.silent, { slot with main := .spawning, available := true })
  | .spawning => some (.silent, { slot with main := .awaiting, reporter := .sleeping })
  | .awaiting => if slot.available then goes .stopping else goes .top
  | .stopping => if stop then goes .ending else goes .checking
  | .checking => if drain then goes .top else goes .choosing
  | .choosing =>
      if broker then
        if slot.admitted then goes (.consuming .connecting) else goes .pausing
      else
        goes .claiming
  | .claiming => some (.claim, { slot with main := .claimed })
  | .claimed => if choice = .job then goes (.processing .entered) else goes .pausing
  | .processing at_ =>
      let done := process stop choice at_
      some (done.1, { slot with main := done.2.lead .processing .top .pausing })
  | .consuming at_ => slot.consume stop drain choice at_
  | .pausing => goes .top
  | .ending => if choice = .fail then goes .ended else goes .joining
  | .joining =>
      if slot.reporter = .absent then goes .ended else goes (.finishing (.locking false))
  | .finishing report => slot.reporting broker stop choice report .finishing .ended .ended
  | .ended => none

/-- A step of a report made by `_report_availability_loop`. -/
def watching (broker stop : Bool) (slot : Slot) (choice : Choice) (report : Report)
    (going : Report → Reporter) (returned : Reporter)
    : Option (SlotEvent × Slot) :=
  (slot.report broker stop choice report).map (fun done =>
    (done.1, { done.2.1 with reporter := done.2.2.lead going returned .recovering }))

/-- A step of `_report_availability_loop`. -/
def watch (broker stop : Bool) (slot : Slot) (choice : Choice) : Option (SlotEvent × Slot) :=
  let goes := fun reporter => some (SlotEvent.silent, { slot with reporter })
  match slot.reporter with
  | .absent | .ended => none
  | .sleeping => if stop then goes .ended else goes .woken
  | .woken => if slot.drained then goes .sleeping else goes (.reporting (.locking true))
  | .reporting report => slot.watching broker stop choice report .reporting .reported
  | .reported => if slot.drained then goes (.withdrawing (.locking false)) else goes .setting
  | .withdrawing report => slot.watching broker stop choice report .withdrawing .sleeping
  | .setting => some (.silent, { slot with reporter := .sleeping, available := true })
  -- an error of the health file here ends the thread
  | .recovering =>
      some
        (.silent,
          { slot with
            reporter := if choice = .fail then .ended else .sleeping
            available := false })

/-- A step of the delivery thread; the same delivery is begun at most twice. -/
def deliver (stop : Bool) (slot : Slot) (choice : Choice) : Option (SlotEvent × Slot) :=
  match slot.delivery with
  | .none | .finished => none
  | .beginning attempt => some (.beginAttempt, { slot with delivery := .begun attempt })
  | .begun attempt =>
      some
        (.silent,
          { slot with
            delivery :=
              match choice with
              | .job => .processing .entered
              | .fail => if attempt = 0 && !stop then .beginning 1 else .finished
              | _ => .finished })
  | .processing at_ =>
      let done := process stop choice at_
      some (done.1, { slot with delivery := done.2.lead .processing .finished .finished })

-----------------------------------------------------------------------------------------
-- The coordinator
-----------------------------------------------------------------------------------------

/-- The coordinator executes the request of a call that still waits. -/
def execute (slot : Slot) : Option (SlotEvent × Slot) :=
  match slot.live with
  | some ⟨ready, false⟩ =>
      some
        (.executed ready,
          { slot with live := some ⟨ready, true⟩, row := Readiness.reported ready })
  | _ => none

/-- The coordinator executes a request whose call has ended. -/
def executeLate (slot : Slot) (index : Nat) : Option (SlotEvent × Slot) :=
  slot.late[index]?.map (fun ready =>
    (.executedLate ready,
      { slot with late := slot.late.eraseIdx index, row := Readiness.reported ready }))

/-- A ready row runs out. -/
def lapse (slot : Slot) : Option (SlotEvent × Slot) :=
  if slot.row = .ready then some (.silent, { slot with row := .unready }) else none

end Slot

-----------------------------------------------------------------------------------------
-- The pool
-----------------------------------------------------------------------------------------

/-- What can happen next in a pool. -/
inductive PoolAction (n : Nat)
  | signal (drain : Bool)
  | stop
  | run (i : Fin n) (choice : Choice)
  | watch (i : Fin n) (choice : Choice)
  | deliver (i : Fin n) (choice : Choice)
  | execute (i : Fin n)
  | executeLate (i : Fin n) (index : Nat)
  | lapse (i : Fin n)
  | unlink

/-- What a step of a pool shows: which slot did what. -/
abbrev PoolLabel (n : Nat) := Option (Fin n × SlotEvent)

namespace Pool

variable {n : Nat}

/-- The pool with one slot changed. -/
def set (s : Pool n) (i : Fin n) (slot : Slot) : Pool n :=
  { s with slots := Function.update s.slots i slot }

/-- A step of `mark_drained`, which tests the set and the drain event under the pool's lock. -/
def mark (s : Pool n) (i : Fin n) (drained : Bool) : Marking → Option (Pool n)
  | .locking =>
      if s.lock.isSome then
        none
      else
        some
          { s.set i { s.slots i with main := .marking drained .updated } with
            lock := some i
            drained := if drained then insert i s.drained else s.drained.erase i }
  | .updated =>
      some
        (s.set i
          { s.slots i with
            main := .marking drained (.decided (s.drained.card = n && s.drain)) })
  | .decided touch =>
      some
        { s.set i { s.slots i with main := if drained then .waiting else .unmarked } with
          lock := none
          marker := touch }

/-- A step of one slot that leaves the pool's own state alone. -/
def update (s : Pool n) (i : Fin n) (done : Option (SlotEvent × Slot))
    : Option (PoolLabel n × Pool n) :=
  done.map (fun after => (some (i, after.1), s.set i after.2))

/-- One step of a pool, or nothing where a thread has to wait. -/
def exec (broker : Bool) (s : Pool n) : PoolAction n → Option (PoolLabel n × Pool n)
  | .signal drain => some (none, { s with drain })
  | .stop => some (none, { s with stop := true })
  | .run i choice =>
      match (s.slots i).main with
      | .marking drained at_ => (s.mark i drained at_).map (fun t => (some (i, .silent), t))
      | _ =>
          ((s.slots i).run broker s.stop s.drain choice).map (fun after =>
            (some (i, after.1),
              { s.set i after.2 with stop := s.stop || (s.slots i).main = .ending }))
  | .watch i choice => s.update i ((s.slots i).watch broker s.stop choice)
  | .deliver i choice => s.update i ((s.slots i).deliver s.stop choice)
  | .execute i => s.update i (s.slots i).execute
  | .executeLate i index => s.update i ((s.slots i).executeLate index)
  | .lapse i => s.update i (s.slots i).lapse
  -- the end of the pool's own run_forever
  | .unlink => if s.stop then some (none, { s with marker := false }) else none

/-- A step of a pool in one of its two modes. -/
def Step (broker : Bool) (s : Pool n) (label : PoolLabel n) (t : Pool n) : Prop :=
  ∃ action, exec broker s action = some (label, t)

theorem Step.of_exec (broker : Bool) (s : Pool n) (action : PoolAction n) (label : PoolLabel n)
    (t : Pool n) (done : exec broker s action = some (label, t))
    : Step broker s label t :=
  ⟨action, done⟩

end Pool

end Transcriber
