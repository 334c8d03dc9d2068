import Mathlib.Data.List.Nodup
import Mathlib.Data.Rat.Defs

/-! The tables of the job store and the settings a coordinator process starts with.
Columns keep their names and defaults; the empty string plays its role from the schema
(no lease owner, no request, no dispatch). Timestamps are integers, in microseconds.
-/

namespace Transcriber

-----------------------------------------------------------------------------------------
-- Values
-----------------------------------------------------------------------------------------

/-- `INTERVAL '1 second'`, in the microseconds that timestamps count. -/
def second : Int := 1000000

/-- The text form of a freshly drawn UUID (`uuid.uuid4()` or `gen_random_uuid()`). -/
structure Uuid where
  text : String
  length_eq : text.length = 36
  deriving DecidableEq, Repr

inductive Status
  | accepted
  | downloading
  | queued
  | running
  | done
  | failed
  deriving DecidableEq, Repr

/-- The upload of the audio has not finished: `status IN ('accepted', 'downloading')`. -/
def Status.uploading : Status → Bool
  | .accepted | .downloading => true
  | _ => false

/-- The job waits for a worker or has one: `status IN ('queued', 'running')`. -/
def Status.active : Status → Bool
  | .queued | .running => true
  | _ => false

/-- The job has its final result: `status IN ('done', 'failed')`. -/
def Status.terminal : Status → Bool
  | .done | .failed => true
  | _ => false

inductive Backend
  | postgres
  | rabbitmq
  deriving DecidableEq, Repr

/-- One entry of a result's `segments_json`. -/
structure Segment where
  start : Rat
  stop : Rat
  text : String
  deriving DecidableEq, Repr

-----------------------------------------------------------------------------------------
-- Tables
-----------------------------------------------------------------------------------------

/-- A row of `transcription_jobs`. Its `progress_percent` is a `REAL`, which keeps the `float` of a
message as it is but rounds the double of a local worker; here the row keeps either as it came.
-/
structure JobRecord where
  jobId : String
  status : Status
  format : String
  preset : String
  languageOverride : String
  initialPromptOverride : String
  inputPath : String
  resultPath : String
  error : String
  progressPercent : Rat
  attempts : Int
  maxAttempts : Int
  leaseOwner : String
  leaseExpiresAt : Option Int
  createdAt : Int
  updatedAt : Int
  startedAt : Option Int
  attemptStartedAt : Option Int
  finishedAt : Option Int
  text : String
  segments : List Segment
  traceparent : String
  tracestate : String
  requestId : String
  retainUntilAck : Bool
  acknowledgedAt : Option Int
  assignedWorkerId : String
  assignedInstanceId : String
  dispatchId : String
  deliveryId : String
  deriving DecidableEq, Repr

/-- A row of `transcription_outbox`. -/
structure OutboxRow where
  messageId : String
  jobId : String
  availableAt : Int
  publishedAt : Option Int
  deriving DecidableEq, Repr

/-- A row of `worker_availability`; an absent `consumerUntil` is the default `-infinity`. -/
structure AvailabilityRow where
  workerId : String
  instanceId : String
  readyUntil : Int
  reportedAt : Int
  demandUntil : Int
  consumerUntil : Option Int
  deriving DecidableEq, Repr

/-- `column > moment`, false on NULL. -/
def isAfter (column : Option Int) (moment : Int) : Bool :=
  column.any (fun value => decide (moment < value))

/-- `column IS NULL OR column < moment`. -/
def isPast (column : Option Int) (moment : Int) : Bool :=
  column.all (fun value => decide (value < moment))

/-- A column after a moment is after every earlier one. -/
theorem isAfter_antitone {column : Option Int} {early late : Int} (order : early ≤ late)
    (later : isAfter column late)
    : isAfter column early := by
  cases column with
  | none => simp [isAfter] at later
  | some value =>
      simp only [isAfter, Option.any_some, decide_eq_true_eq] at later ⊢
      omega

/-- A lease past at one moment is not live then. -/
theorem isAfter_of_isPast {column : Option Int} {moment : Int}
    (past : isPast column moment)
    : isAfter column moment = false := by
  cases column with
  | none => rfl
  | some value =>
      simp only [isPast, isAfter, Option.all_some, Option.any_some, decide_eq_true_eq,
        decide_eq_false_iff_not] at past ⊢
      omega

/-- `status = 'running' AND lease_expires_at > moment`. -/
def JobRecord.holdsLease (row : JobRecord) (moment : Int) : Bool :=
  row.status = .running && isAfter row.leaseExpiresAt moment

theorem JobRecord.holdsLease_running {row : JobRecord} {moment : Int}
    (holds : row.holdsLease moment)
    : row.status = .running := by
  simp only [JobRecord.holdsLease, Bool.and_eq_true, decide_eq_true_eq] at holds
  exact holds.1

/-- A later moment can only end a lease, never revive it. -/
theorem JobRecord.holdsLease_antitone (row : JobRecord) {early late : Int}
    (order : early ≤ late) (later : row.holdsLease late)
    : row.holdsLease early := by
  simp only [JobRecord.holdsLease, Bool.and_eq_true] at later ⊢
  exact ⟨later.1, isAfter_antitone order later.2⟩

/-- `status = 'queued'`, or a running job whose lease is past, with attempts left. -/
def JobRecord.startable (row : JobRecord) (moment : Int) : Bool :=
  row.status.active && row.attempts < row.maxAttempts
    && (row.status = .queued || isPast row.leaseExpiresAt moment)

/-- Which slot a running job's lease occupies. -/
def JobRecord.assignedTo (row : JobRecord) (workerId instanceId : String) : Bool :=
  row.assignedWorkerId = workerId && row.assignedInstanceId = instanceId

-----------------------------------------------------------------------------------------
-- Settings
-----------------------------------------------------------------------------------------

/-- One entry of `WORKER_POLICIES`, as accepted by `parse_policies`. -/
structure Policy where
  priority : Nat
  maxConcurrency : Nat
  priority_le : priority ≤ 10000
  maxConcurrency_le : maxConcurrency ≤ 32
  deriving DecidableEq, Repr

/-- The settings of one coordinator process, with what `JobStore.__init__` checks of them.
An empty policy list is the legacy preferred-worker mode.
-/
structure Config where
  leaseSeconds : Int
  maxAttempts : Int
  workerPolicies : List (String × Policy)
  queueBackend : Backend
  demandTtlSeconds : Int
  availabilityTtlSeconds : Int
  preferredWorkers : List String
  storageRoot : String
  leaseSeconds_ge : 3 ≤ leaseSeconds
  maxAttempts_ge : 1 ≤ maxAttempts
  demandTtlSeconds_range : 5 ≤ demandTtlSeconds ∧ demandTtlSeconds ≤ 60
  availabilityTtlSeconds_range : 30 ≤ availabilityTtlSeconds ∧ availabilityTtlSeconds ≤ 600
  workerPolicies_distinct : (workerPolicies.map Prod.fst).Nodup
  rabbitmq_policies : queueBackend = .rabbitmq → workerPolicies ≠ []
  deriving DecidableEq, Repr

/-- `worker_policies.get(worker_id)`. -/
def policy? (policies : List (String × Policy)) (workerId : String) : Option Policy :=
  (policies.find? (fun entry => entry.1 = workerId)).map Prod.snd

/-- How many executions a pool may run: its `max_concurrency`, none if it is unlisted. -/
def maxConcurrency (policies : List (String × Policy)) (workerId : String) : Nat :=
  ((policy? policies workerId).map Policy.maxConcurrency).getD 0

/-- `f"{worker_id}/{uuid.uuid4()}"`: the token that fences one attempt. -/
def leaseToken (workerId : String) (uuid : Uuid) : String :=
  workerId ++ "/" ++ uuid.text

/-- A lease token is never the empty owner of an unleased row. -/
theorem leaseToken_ne_empty (workerId : String) (uuid : Uuid)
    : leaseToken workerId uuid ≠ "" := by
  intro empty
  have long := congrArg String.length empty
  simp only [leaseToken, String.length_append, uuid.length_eq, String.length_empty] at long
  omega

/-- A drawn UUID is never the empty string. -/
theorem Uuid.text_ne_empty (uuid : Uuid) : uuid.text ≠ "" := by
  intro empty
  have long := congrArg String.length empty
  simp [uuid.length_eq] at long

theorem Uuid.text_injective : Function.Injective Uuid.text := by
  intro left right same
  cases left
  cases right
  simpa using same

/-- Tokens over distinct UUIDs are distinct, whatever the worker ids: the UUID is the
token's last 36 characters.
-/
theorem leaseToken_uuid {left right : String} {first second : Uuid}
    (same : leaseToken left first = leaseToken right second)
    : first = second := by
  have letters := congrArg String.toList same
  simp only [leaseToken, String.toList_append] at letters
  have lengths : first.text.toList.length = second.text.toList.length := by
    rw [String.length_toList, String.length_toList, first.length_eq, second.length_eq]
  have texts := (List.append_inj' letters lengths).2
  exact Uuid.text_injective (String.toList_inj.mp texts)

/-- What `create_job` is told about a submission. -/
structure SubmitOptions where
  format : String
  preset : String
  languageOverride : String
  initialPromptOverride : String
  traceparent : String
  tracestate : String
  requestId : String
  retainUntilAck : Bool
  deriving DecidableEq, Repr

/-- The input file of a job: `storage_root / job_id / f"input.{fmt}"`. -/
def audioPath (storageRoot jobId format : String) : String :=
  storageRoot ++ "/" ++ jobId ++ "/input." ++ format

/-- Input files of different jobs have different paths: their directories are UUIDs. -/
theorem audioPath_uuid {storageRoot format format' : String} {jobId jobId' : Uuid}
    (same : audioPath storageRoot jobId.text format = audioPath storageRoot jobId'.text format')
    : jobId = jobId' := by
  have letters := congrArg String.toList same
  simp only [audioPath, String.toList_append, List.append_assoc, List.append_cancel_left_eq]
    at letters
  have lengths : jobId.text.toList.length = jobId'.text.toList.length := by
    rw [String.length_toList, String.length_toList, jobId.length_eq, jobId'.length_eq]
  exact Uuid.text_injective (String.toList_inj.mp (List.append_inj letters lengths).1)

/-- The row `create_job` inserts: status `accepted`, all other columns at their defaults. -/
def JobRecord.created (config : Config) (options : SubmitOptions) (jobId : Uuid) (now : Int)
    : JobRecord where
  jobId := jobId.text
  status := .accepted
  format := options.format
  preset := options.preset
  languageOverride := options.languageOverride
  initialPromptOverride := options.initialPromptOverride
  inputPath := audioPath config.storageRoot jobId.text options.format
  resultPath := ""
  error := ""
  progressPercent := 0
  attempts := 0
  maxAttempts := config.maxAttempts
  leaseOwner := ""
  leaseExpiresAt := none
  createdAt := now
  updatedAt := now
  startedAt := none
  attemptStartedAt := none
  finishedAt := none
  text := ""
  segments := []
  traceparent := options.traceparent
  tracestate := options.tracestate
  requestId := options.requestId
  retainUntilAck := options.retainUntilAck
  acknowledgedAt := none
  assignedWorkerId := ""
  assignedInstanceId := ""
  dispatchId := ""
  deliveryId := ""

end Transcriber
