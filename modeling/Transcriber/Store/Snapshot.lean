import Transcriber.Ingress.ClientCalls
import Transcriber.Library.Groups
import Transcriber.Store.Metrics

/-! The database snapshot of a scrape: what the monitoring queries return on the tables of the
store. SQL returns the rows of a group in any order.
-/

namespace Transcriber.Metrics

-----------------------------------------------------------------------------------------
-- The queries
-----------------------------------------------------------------------------------------

/-- `EXTRACT(EPOCH FROM NOW() - moment)` -/
def age (now moment : Int) : Rat := ((now - moment : Int) : Rat) / 1000000

/-- `MAX(EXTRACT(EPOCH FROM NOW() - moment))`, which leaves out NULL. -/
def oldest (now : Int) (moments : List (Option Int)) : Option Rat :=
  (moments.filterMap (fun moment => moment.map (age now))).max?

/-- A row of `metrics_jobs.sql`. -/
structure JobsRow where
  status : Status
  jobs : Nat
  retried : Nat
  oldestSeconds : Rat
  expired : Nat
  unacknowledged : Nat
  oldestUnacknowledgedSeconds : Rat
  deriving DecidableEq, Repr

/-- `status = 'running' AND (lease_expires_at IS NULL OR lease_expires_at <= NOW())` -/
def leaseExpired (now : Int) (row : JobRecord) : Bool :=
  row.status = .running && !isAfter row.leaseExpiresAt now

/-- `retain_until_ack AND acknowledged_at IS NULL` -/
def unacknowledged (row : JobRecord) : Bool := row.retainUntilAck && row.acknowledgedAt.isNone

def jobsRow (now : Int) (group : Status × List JobRecord) : JobsRow where
  status := group.1
  jobs := group.2.length
  retried := group.2.countP (fun row => 0 < row.attempts)
  oldestSeconds := (oldest now (group.2.map (fun row => some row.createdAt))).getD 0
  expired := group.2.countP (leaseExpired now)
  unacknowledged := group.2.countP unacknowledged
  oldestUnacknowledgedSeconds :=
    (oldest now ((group.2.filter unacknowledged).map JobRecord.finishedAt)).getD 0

/-- `metrics_jobs.sql` -/
def metricsJobs (now : Int) (jobs : List JobRecord) : List JobsRow :=
  (Table.groups JobRecord.status jobs).map (jobsRow now)

/-- A row of `transcription_worker_reports`. -/
structure ReportRow where
  workerId : String
  reportedAt : Int
  deriving DecidableEq, Repr

/-- A row of `metrics_workers.sql`. -/
structure WorkersRow where
  workerId : String
  online : Bool
  instances : Nat
  idleSlots : Nat
  lastReportAge : Rat
  deriving DecidableEq, Repr

/-- A ready slot that asks for work or is admitted, with no live lease on it or its whole pool. -/
def idleSlot (now : Int) (jobs : List JobRecord) (slot : AvailabilityRow) : Bool :=
  now < slot.readyUntil
    && (now < slot.demandUntil || isAfter slot.consumerUntil now)
    && !jobs.any (fun row =>
      row.holdsLease now
        && row.assignedWorkerId = slot.workerId
        && (row.assignedInstanceId = slot.instanceId || row.assignedInstanceId = ""))

/-- `metrics_workers.sql`: a worker without slots is offline. -/
def workersRow (now : Int) (slots : List AvailabilityRow) (jobs : List JobRecord)
    (report : ReportRow)
    : WorkersRow :=
  let own := slots.filter (fun slot => slot.workerId = report.workerId)
  {
    workerId := report.workerId
    online := own.any (fun slot => now < slot.readyUntil)
    instances := own.countP (fun slot => now < slot.readyUntil)
    idleSlots := own.countP (idleSlot now jobs)
    lastReportAge := age now report.reportedAt
  }

/-- A row of `metrics_running.sql`; the age is NULL where no row of the group has a start. -/
structure RunningRow where
  workerId : String
  active : Nat
  progress : Rat
  attemptAge : Option Rat
  deriving DecidableEq, Repr

def runningRow (now : Int) (group : String × List JobRecord) : RunningRow where
  workerId := group.1
  active := group.2.length
  progress := (group.2.map JobRecord.progressPercent).sum / group.2.length
  attemptAge := oldest now (group.2.map (fun row => row.attemptStartedAt.or row.startedAt))

/-- `metrics_running.sql` -/
def metricsRunning (now : Int) (jobs : List JobRecord) : List RunningRow :=
  (Table.groups (fun row => splitPart row.leaseOwner)
    (jobs.filter (fun row => row.holdsLease now))).map (runningRow now)

/-- The row of `metrics_outbox.sql`. -/
structure OutboxCount where
  pending : Nat
  oldestSeconds : Rat
  deriving DecidableEq, Repr

def waiting (config : Config) (now : Int) (row : OutboxRow) : Bool :=
  config.queueBackend = .rabbitmq && row.publishedAt.isNone && row.availableAt ≤ now

def metricsOutbox (config : Config) (now : Int) (outbox : List OutboxRow) : OutboxCount where
  pending := outbox.countP (waiting config now)
  oldestSeconds :=
    (oldest now ((outbox.filter (waiting config now)).map (fun row => some row.availableAt))).getD 0

/-- The capacity of the job volume, which the endpoint adds to a snapshot. -/
structure StorageBytes where
  used : Nat
  free : Nat
  limit : Nat
  reserve : Nat
  deriving DecidableEq, Repr

/-- `snapshot["storage"].items()` -/
def StorageBytes.items (storage : StorageBytes) : List (String × Nat) :=
  [
    ("used_bytes", storage.used),
    ("free_bytes", storage.free),
    ("limit_bytes", storage.limit),
    ("reserve_bytes", storage.reserve)
  ]

/-- What `metrics_snapshot` returns at the moment of its transaction, and the capacity. -/
structure Snapshot where
  now : Int
  jobs : List JobsRow
  workers : List WorkersRow
  running : List RunningRow
  observations : List Row
  outbox : OutboxCount
  storage : StorageBytes

/-- The snapshot is one of the store: the queries of one REPEATABLE READ transaction. -/
structure Snapshot.Taken (config : Config) (reports : List ReportRow) (s : ObservedStore)
    (snapshot : Snapshot)
    : Prop where
  jobs : snapshot.jobs.Perm (metricsJobs snapshot.now s.db.jobs)
  workers : snapshot.workers.Perm (reports.map (workersRow snapshot.now s.db.slots s.db.jobs))
  running : snapshot.running.Perm (metricsRunning snapshot.now s.db.jobs)
  observations : snapshot.observations.Perm (s.observations.map Row.ofTrigger)
  outbox : snapshot.outbox = metricsOutbox config snapshot.now s.db.outbox

end Transcriber.Metrics
