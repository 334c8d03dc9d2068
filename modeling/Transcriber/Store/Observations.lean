import Transcriber.Store.RowInvariant

/-! The observation counters of migration 0004: a row trigger classifies every change of a job.
A transition of the store carries the tables before and after it, which is what the trigger sees.
-/

namespace Transcriber

open Execution

-----------------------------------------------------------------------------------------
-- The table
-----------------------------------------------------------------------------------------

/-- The `event` texts of `transcription_observations`. -/
inductive ObservedEvent
  | submitted
  | attempts
  | retries
  | queueWait
  | leaseExpirations
  | attemptFailures
  | completed
  | processing
  | turnaround
  | failed
  | cancelled
  deriving DecidableEq, Repr

/-- A row of `transcription_observations`; durations are in microseconds. -/
structure ObservationRow where
  workerId : String
  event : ObservedEvent
  total : Nat
  durationSum : Int
  buckets : List Nat
  lastAt : Int
  deriving DecidableEq, Repr

/-- The primary key of `transcription_observations`. -/
def ObservationRow.key (row : ObservationRow) : String × ObservedEvent :=
  (row.workerId, row.event)

/-- The arguments of one `transcriber_observe` call. -/
structure Observation where
  worker : String
  event : ObservedEvent
  duration : Int
  deriving DecidableEq, Repr

/-- The bucket bounds, in seconds. -/
def bucketBounds : List Int := [1, 5, 15, 30, 60, 120, 300, 600, 1800, 3600, 10800]

/-- `COALESCE(NULLIF(w, ''), 'ingress')` -/
def observedWorker (worker : String) : String := if worker = "" then "ingress" else worker

/-- `transcriber_observe` -/
def transcriberObserve (now : Int) (rows : List ObservationRow) (call : Observation)
    : List ObservationRow :=
  let duration := max 0 call.duration
  let increments :=
    bucketBounds.map (fun bound => if duration ≤ bound * second then 1 else 0)
  let workerId := observedWorker call.worker
  Table.upsert ObservationRow.key (workerId, call.event)
    ⟨workerId, call.event, 1, duration, increments, now⟩
    (fun row =>
      { row with
        total := row.total + 1
        durationSum := row.durationSum + duration
        buckets := List.zipWith (· + ·) row.buckets increments
        lastAt := now })
    rows

-----------------------------------------------------------------------------------------
-- The trigger
-----------------------------------------------------------------------------------------

/-- `SPLIT_PART(lease_owner, '/', 1)` -/
def splitPart (leaseOwner : String) : String :=
  String.ofList (leaseOwner.toList.takeWhile (fun c => c ≠ '/'))

/-- `transcriber_observe_job` on an update, in the order of its calls. -/
def observeJob (now : Int) (old new : JobRecord) : List Observation :=
  let previousWorker := splitPart old.leaseOwner
  let nextWorker := splitPart new.leaseOwner
  (if old.attempts < new.attempts then
      [⟨nextWorker, .attempts, 0⟩,
        if 1 < new.attempts then
          ⟨nextWorker, .retries, 0⟩
        else
          ⟨nextWorker, .queueWait, now - new.createdAt⟩]
    else
      [])
    ++ (if old.status = .running
          ∧ (old.attempts < new.attempts
            ∨ (new.status = .failed ∧ new.error = "attempts_exhausted")) then
        [⟨previousWorker, .leaseExpirations, 0⟩]
      else
        [])
    ++ (if old.status = .running
          ∧ (new.status = .queued ∨ new.status = .failed)
          ∧ new.error ≠ "cancelled" then
        [⟨previousWorker, .attemptFailures, 0⟩]
      else
        [])
    ++ (if new.status = .done ∧ old.status ≠ .done then
        [⟨previousWorker, .completed, 0⟩]
          ++ old.attemptStartedAt.toList.map (fun started =>
            ⟨previousWorker, .processing, now - started⟩)
          ++ [⟨previousWorker, .turnaround, now - new.createdAt⟩]
      else if new.status = .failed ∧ old.status ≠ .done ∧ old.status ≠ .failed then
        [⟨previousWorker, if new.error = "cancelled" then .cancelled else .failed, 0⟩]
      else
        [])

/-- `transcriber_observe_job` on an insertion. -/
def observeInsert : List Observation := [⟨"ingress", .submitted, 0⟩]

/-- What the trigger does to the table while the jobs change so. It fires for every row whose
`status` or `attempts` a statement sets, and each such statement sets `updated_at` to `NOW()`;
on any other row it would observe nothing.
-/
def Db.observe (s t : Db) (rows : List ObservationRow) : List ObservationRow :=
  let updated :=
    s.jobs.foldl
      (fun rows old =>
        match t.job? old.jobId with
        | none => rows
        | some new =>
            (observeJob new.updatedAt old new).foldl (transcriberObserve new.updatedAt) rows)
      rows
  t.jobs.foldl
    (fun rows new =>
      if (s.job? new.jobId).isNone then
        observeInsert.foldl (transcriberObserve new.createdAt) rows
      else
        rows)
    updated

/-- The trigger observes nothing on a row whose `status` and `attempts` stay. -/
theorem observeJob_unchanged {now : Int} {old new : JobRecord}
    (status : new.status = old.status) (attempts : new.attempts = old.attempts)
    : observeJob now old new = [] := by
  cases running : old.status <;> simp [observeJob, status, attempts, running]

-----------------------------------------------------------------------------------------
-- Observed runs
-----------------------------------------------------------------------------------------

/-- The store with its observation counters. -/
structure ObservedStore where
  db : Db
  observations : List ObservationRow

/-- A step of the store with the tables before and after it. -/
structure Transition where
  event : Event
  before : Db
  after : Db

namespace ObservedStore

/-- The store right after the migrations. -/
def start (clock : Int) : ObservedStore := ⟨Db.empty clock, []⟩

/-- A step of the store whose transaction runs the trigger. -/
def Step (s : ObservedStore) (move : Transition) (t : ObservedStore) : Prop :=
  s.db.Step move.event t.db
  ∧ move.before = s.db
  ∧ move.after = t.db
  ∧ t.observations = s.db.observe t.db s.observations

/-- The counters of the keys in a set, added up. -/
def tally (s : ObservedStore) (counts : String → ObservedEvent → Bool) : Nat :=
  (s.observations.map (fun row =>
    if counts row.workerId row.event then row.total else 0)).sum

/-- The counter of an event of one worker. -/
def counter (s : ObservedStore) (workerId : String) (event : ObservedEvent) : Nat :=
  s.tally (fun worker observed => worker = workerId && observed = event)

/-- The counters of an event, summed over the workers. -/
def overall (s : ObservedStore) (event : ObservedEvent) : Nat :=
  s.tally (fun _ observed => observed = event)

end ObservedStore

/-- The job runs under a lease of the pool's workers. -/
def JobRecord.leasedBy (row : JobRecord) (workerId : String) : Bool :=
  row.status = .running && observedWorker (splitPart row.leaseOwner) = workerId

def Act.starts : Act → Bool
  | .start _ _ => true
  | .queue | .renew _ _ | .complete _ _ _ _ | .fail _ => false

/-- `reap` and the exhaustion of `begin_attempt`. -/
def Op.exhausts : Op → Bool
  | .reap .. | .brokerJob .. => true
  | _ => false

namespace Transition

/-- The pool's running attempts that the step reclaimed for another attempt. -/
def reclaims (move : Transition) (workerId : String) : Nat :=
  move.before.jobs.countP (fun row =>
    row.leasedBy workerId && (move.event.act? row.jobId).any Act.starts)

/-- The pool's running attempts that the step ended because none is left. -/
def exhausted (move : Transition) (workerId : String) : Nat :=
  move.before.jobs.countP (fun row =>
    row.leasedBy workerId
      && move.event.op.exhausts
      && (move.after.job? row.jobId).any (fun next => next.status = .failed))

end Transition

/-- The error codes that the callers of `fail_job` pass. -/
def failCodes : List String :=
  ["input_too_large", "storage_capacity", "upload_failed", "transcription_failed",
    "input_missing", "invalid_input", "inference_failed", "worker_stopping"]

/-- A failure carries a code of its callers. -/
def Event.coded (event : Event) : Bool :=
  match event.op with
  | .failJob _ _ error _ _ _ _ => failCodes.contains error
  | _ => true

end Transcriber
