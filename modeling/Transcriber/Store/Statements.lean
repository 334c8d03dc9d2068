import Transcriber.Library.Table
import Transcriber.Store.Job

/-! The SQL statements that write `transcription_jobs`, one definition per statement.
`now` is `NOW()`, fixed at transaction start; `clock` is a `clock_timestamp()` reading.
The trigger of migration 0004 stamps `attempt_started_at` when a start raises `attempts`.
-/

namespace Transcriber

/-- An `UPDATE transcription_jobs`: its `WHERE` and its `SET`, which never names `job_id`. -/
structure RowUpdate where
  selects : JobRecord → Bool
  assign : JobRecord → JobRecord
  keepsId : ∀ row, (assign row).jobId = row.jobId

namespace RowUpdate

/-- One row after the statement. -/
def apply (statement : RowUpdate) (row : JobRecord) : JobRecord :=
  if statement.selects row then statement.assign row else row

/-- The statement restricted to one job. -/
def only (statement : RowUpdate) (jobId : String) : RowUpdate where
  selects row := row.jobId = jobId && statement.selects row
  assign := statement.assign
  keepsId := statement.keepsId

@[simp] theorem apply_jobId (statement : RowUpdate) (row : JobRecord)
    : (statement.apply row).jobId = row.jobId := by
  unfold apply
  split
  · exact statement.keepsId row
  · rfl

theorem apply_selected {statement : RowUpdate} {row : JobRecord}
    (selected : statement.selects row)
    : statement.apply row = statement.assign row := by
  simp [apply, selected]

theorem apply_unselected {statement : RowUpdate} {row : JobRecord}
    (unselected : statement.selects row = false)
    : statement.apply row = row := by
  simp [apply, unselected]

end RowUpdate

namespace Sql

-----------------------------------------------------------------------------------------
-- Submission
-----------------------------------------------------------------------------------------

/-- `_update_status`, which `mark_downloading` calls. -/
def updateStatus (status : Status) (jobId : String) (now : Int) : RowUpdate where
  selects row := row.jobId = jobId && row.status.uploading
  assign row := { row with status, updatedAt := now }
  keepsId _ := rfl

/-- `upload_interrupted.sql` -/
def uploadInterrupted (jobId : String) (now : Int) : RowUpdate where
  selects row := row.jobId = jobId && row.status.uploading
  assign row := { row with error := "upload_interrupted", updatedAt := now }
  keepsId _ := rfl

/-- The update of `mark_queued`. -/
def markQueued (jobId : String) (now : Int) : RowUpdate where
  selects row := row.jobId = jobId && row.status.uploading
  assign row :=
    { row with status := .queued, progressPercent := 0, error := "", updatedAt := now }
  keepsId _ := rfl

/-- The update of `cancel_job`. -/
def cancelJob (jobId : String) (now : Int) : RowUpdate where
  selects row := row.jobId = jobId && !row.status.terminal
  assign row :=
    { row with
      status := .failed
      error := "cancelled"
      progressPercent := 0
      finishedAt := some now
      leaseOwner := ""
      leaseExpiresAt := none
      updatedAt := now }
  keepsId _ := rfl

/-- `ack.sql` -/
def ack (jobId : String) (now : Int) : RowUpdate where
  selects row := row.jobId = jobId && row.status.terminal
  assign row :=
    { row with acknowledgedAt := some (row.acknowledgedAt.getD now), updatedAt := now }
  keepsId _ := rfl

/-- `dispatch.sql` -/
def dispatch (messageId jobId : String) : RowUpdate where
  selects row := row.jobId = jobId
  assign row := { row with dispatchId := messageId }
  keepsId _ := rfl

-----------------------------------------------------------------------------------------
-- Attempts
-----------------------------------------------------------------------------------------

/-- The columns that `claim.sql` and `claim_slot.sql` set on the candidate. -/
def startAttempt (leaseOwner workerId instanceId : String) (expires now : Int)
    (row : JobRecord)
    : JobRecord :=
  { row with
    status := .running
    attempts := row.attempts + 1
    leaseOwner
    leaseExpiresAt := some expires
    assignedWorkerId := workerId
    assignedInstanceId := instanceId
    startedAt := some (row.startedAt.getD now)
    attemptStartedAt := some now
    updatedAt := now
    error := "" }

/-- The update of `claim.sql`, on the candidate that its query locked. -/
def claim (candidate leaseOwner : String) (leaseSeconds : Int) (workerId instanceId : String)
    (now : Int)
    : RowUpdate where
  selects row := row.jobId = candidate && row.startable now
  assign := startAttempt leaseOwner workerId instanceId (now + leaseSeconds * second) now
  keepsId _ := rfl

/-- The update of `claim_slot.sql`, on the candidate that its query locked. -/
def claimSlot (candidate leaseOwner : String) (leaseSeconds : Int)
    (workerId instanceId : String) (now clock : Int)
    : RowUpdate where
  selects row := row.jobId = candidate && row.startable clock
  assign := startAttempt leaseOwner workerId instanceId (clock + leaseSeconds * second) now
  keepsId _ := rfl

/-- `broker_start.sql`, guarded by the job id alone. -/
def brokerStart (jobId leaseOwner : String) (leaseSeconds : Int)
    (workerId instanceId deliveryId : String) (now clock : Int)
    : RowUpdate where
  selects row := row.jobId = jobId
  assign row :=
    { startAttempt leaseOwner workerId instanceId (clock + leaseSeconds * second) now row with
      deliveryId
      progressPercent := 0 }
  keepsId _ := rfl

/-- `broker_exhausted.sql`, guarded by the job id alone. -/
def brokerExhausted (jobId : String) (now : Int) : RowUpdate where
  selects row := row.jobId = jobId
  assign row :=
    { row with
      status := .failed
      error := "attempts_exhausted"
      leaseOwner := ""
      leaseExpiresAt := none
      finishedAt := some now
      updatedAt := now }
  keepsId _ := rfl

/-- `reap.sql` -/
def reap (now : Int) : RowUpdate where
  selects row :=
    row.status = .running && row.maxAttempts ≤ row.attempts && isPast row.leaseExpiresAt now
  assign row :=
    { row with
      status := .failed
      error := "attempts_exhausted"
      leaseOwner := ""
      leaseExpiresAt := none
      finishedAt := some now
      updatedAt := now }
  keepsId _ := rfl

/-- `heartbeat.sql` -/
def heartbeat (jobId token : String) (leaseSeconds : Int) (progress : Rat)
    (now clock : Int)
    : RowUpdate where
  selects row := row.jobId = jobId && row.leaseOwner = token && row.holdsLease clock
  assign row :=
    { row with
      leaseExpiresAt := some (clock + leaseSeconds * second)
      progressPercent := progress
      updatedAt := now }
  keepsId _ := rfl

/-- `complete.sql` -/
def complete (jobId token text : String) (segments : List Segment) (resultPath : String)
    (now : Int)
    : RowUpdate where
  selects row := row.jobId = jobId && row.leaseOwner = token && row.holdsLease now
  assign row :=
    { row with
      status := .done
      text
      segments
      resultPath
      progressPercent := 100
      error := ""
      leaseOwner := ""
      leaseExpiresAt := none
      finishedAt := some now
      updatedAt := now }
  keepsId _ := rfl

/-- The condition `%s AND attempts < max_attempts` that `fail.sql` evaluates twice. -/
def retries (retryable : Bool) (row : JobRecord) : Bool :=
  retryable && row.attempts < row.maxAttempts

/-- `fail.sql`; the empty token is the ingress failing an upload nobody leases. -/
def fail (jobId token error : String) (retryable : Bool) (now : Int) : RowUpdate where
  selects row :=
    row.jobId = jobId && row.leaseOwner = token
      && (row.holdsLease now || (token = "" && row.status.uploading))
  assign row :=
    { row with
      status := if retries retryable row then .queued else .failed
      error
      progressPercent := 0
      leaseOwner := ""
      leaseExpiresAt := none
      finishedAt := if retries retryable row then none else some now
      updatedAt := now }
  keepsId _ := rfl

-----------------------------------------------------------------------------------------
-- Dispatch identities and retention
-----------------------------------------------------------------------------------------

/-- `broker_reconcile.sql` -/
def brokerReconcile (clock : Int) : RowUpdate where
  selects row :=
    row.status = .queued || (row.status = .running && isPast row.leaseExpiresAt clock)
  assign row := { row with dispatchId := "" }
  keepsId _ := rfl

/-- The update of `broker_seed.sql`; `draw` is the `gen_random_uuid()` of each row. -/
def brokerSeed (draw : String → Uuid) : RowUpdate where
  selects row := row.status.active && row.dispatchId = ""
  assign row := { row with dispatchId := (draw row.jobId).text }
  keepsId _ := rfl

/-- The `WHERE` of `cleanup.sql`. -/
def cleanup (ttlSeconds now : Int) (row : JobRecord) : Bool :=
  row.finishedAt.isSome
    && ((!row.retainUntilAck
          && row.finishedAt.any (fun moment => moment < now - ttlSeconds * second))
        || (row.retainUntilAck
          && row.acknowledgedAt.any (fun moment => moment < now - ttlSeconds * second)))

end Sql

/-- The order of `claim_slot.sql`: oldest first, then by id. -/
def JobRecord.precedes (row other : JobRecord) : Bool :=
  row.createdAt < other.createdAt
    || (row.createdAt = other.createdAt && row.jobId ≤ other.jobId)

/-- The first row in that order. -/
def firstRow : List JobRecord → Option JobRecord
  | [] => none
  | row :: rest =>
      match firstRow rest with
      | none => some row
      | some best => if row.precedes best then some row else some best

/-- The candidate query of `claim.sql` and `claim_slot.sql`: the first startable row, passing
over the rows that other transactions hold locked.
-/
def candidate (moment : Int) (locked : List String) (jobs : List JobRecord)
    : Option JobRecord :=
  firstRow (jobs.filter (fun row => row.startable moment && !locked.contains row.jobId))

theorem firstRow_mem {rows : List JobRecord} {row : JobRecord}
    (first : firstRow rows = some row)
    : row ∈ rows := by
  induction rows generalizing row with
  | nil => simp [firstRow] at first
  | cons head tail ih =>
      cases rest : firstRow tail with
      | none =>
          obtain rfl : head = row := by simpa [firstRow, rest] using first
          simp
      | some best =>
          have inTail := ih rest
          simp only [firstRow, rest] at first
          split at first
          · obtain rfl := Option.some.inj first
            simp
          · obtain rfl := Option.some.inj first
            exact List.mem_cons_of_mem _ inTail

/-- A claimed candidate is a stored, startable row that nobody else has locked. -/
theorem candidate_spec {moment : Int} {locked : List String} {jobs : List JobRecord}
    {row : JobRecord} (chosen : candidate moment locked jobs = some row)
    : row ∈ jobs ∧ row.startable moment ∧ row.jobId ∉ locked := by
  have member := List.mem_filter.mp (firstRow_mem chosen)
  refine ⟨member.1, ?_⟩
  simpa using member.2

end Transcriber
