import Mathlib.Algebra.Group.Int.Defs
import Transcriber.Library.Execution
import Transcriber.Store.Scheduling

/-! The job store as a state machine over committed database states.
A transaction takes effect when it commits: each row it writes is computed from the version
it locked, with `NOW()` from its start and `clock_timestamp()` from the statement. At most
one transaction holds the scheduler lock; its statements are separate steps, because other
transactions commit between them. The row that `begin_attempt` selected FOR UPDATE stays
locked until that transaction ends.
-/

namespace Transcriber

/-- The arguments of `begin_attempt`. -/
structure BeginRequest where
  workerId : String
  instanceId : String
  jobId : String
  messageId : String
  deliveryId : String
  deriving DecidableEq, Repr

/-- What a transaction that takes the scheduler lock is for. -/
inductive Task
  | claim (workerId instanceId : String)
  | begin (request : BeginRequest)
  | heartbeat (jobId token : String) (progress : Rat)
  | register (workerId instanceId : String)
  | reconcile
  deriving DecidableEq, Repr

/-- How far the lock holder has come. -/
inductive Phase
  | locked
  | selected
  | loaded (row : JobRecord)
  | capable (row : JobRecord)
  | admitting (policy : Policy)
  deriving DecidableEq, Repr

/-- The row that `broker_job.sql` locked. -/
def Phase.row? : Phase → Option JobRecord
  | .loaded row | .capable row => some row
  | .locked | .selected | .admitting _ => none

/-- The open transaction that holds the scheduler lock: `now` is its start, `since` the
moment it got the lock, or that of the snapshot in which `broker_admit.sql` found room.
-/
structure Transaction where
  config : Config
  now : Int
  since : Int
  task : Task
  phase : Phase
  deriving DecidableEq, Repr

/-- The committed tables, the wall clock, the holder of the scheduler lock and every UUID
drawn so far.
-/
structure Db where
  clock : Int
  jobs : List JobRecord
  outbox : List OutboxRow
  slots : List AvailabilityRow
  scheduler : Option Transaction
  drawn : List Uuid
  deriving DecidableEq, Repr

/-- A migrated database without rows. -/
def Db.empty (clock : Int) : Db := ⟨clock, [], [], [], none, []⟩

structure ClaimedJob where
  job : JobRecord
  leaseOwner : String
  leaseExpiresAt : Option Int
  deriving DecidableEq, Repr

inductive Disposition
  | discard
  | busy
  | started
  deriving DecidableEq, Repr

/-- What an operation tells its caller; `rows` is a row count. -/
inductive Reply
  | unit
  | rows (count : Nat)
  | created (jobId : String)
  | uniqueViolation
  | queued (position : Option Nat)
  | claimed (job : Option ClaimedJob)
  | attempt (disposition : Disposition) (job : Option ClaimedJob)
  | admitted (priority : Option Int)
  | removed (paths : Option (String × String))
  deriving DecidableEq, Repr

/-- A step of the store. Operations that need the scheduler lock are split into their
statements; `reap` and `cleanup` act on one row at a time.
-/
inductive Op
  | tick (clock : Int)
  | initSchema (draw : String → Uuid)
  | createJob (options : SubmitOptions) (jobId : Uuid) (now : Int)
  | markDownloading (jobId : String) (now : Int)
  | markUploadInterrupted (jobId : String) (now : Int)
  | markQueued (jobId : String) (messageId : Uuid) (now clock : Int)
  | cancelJob (jobId : String) (now : Int)
  | acknowledgeJob (jobId : String) (now : Int)
  | claimLegacy (workerId instanceId : String) (fallback : Bool) (uuid : Uuid)
    (locked : List String) (now : Int)
  | heartbeatLegacy (jobId token : String) (progress : Rat) (now clock : Int)
  | completeJob (jobId token text : String) (segments : List Segment) (resultPath : String)
    (now : Int)
  | failJob (jobId token error : String) (retryable : Bool) (messageId : Uuid)
    (now clock : Int)
  | reap (jobId : String) (now : Int)
  | cleanup (jobId : String) (ttlSeconds now : Int)
  | reportAvailability (workerId instanceId : String) (ready : Bool) (now : Int)
  | outboxPublished (messageId : String) (now : Int)
  | lockScheduler (task : Task) (now : Int)
  | rollback
  | heartbeat (jobId token : String) (progress : Rat) (clock : Int)
  | selectWorker (workerId instanceId : String) (clock : Int)
  | claimSlot (workerId instanceId : String) (uuid : Uuid) (locked : List String)
    (clock : Int)
  | brokerJob (request : BeginRequest) (clock : Int)
  | brokerCapacity (request : BeginRequest) (clock : Int)
  | brokerStart (request : BeginRequest) (uuid : Uuid) (clock : Int)
  | brokerAdmit (workerId instanceId : String) (clock : Int)
  | registerConsumer (workerId instanceId : String) (clock : Int)
  | reconcile (draw : String → Uuid) (clock : Int)

namespace Db

-----------------------------------------------------------------------------------------
-- Reading and writing job rows
-----------------------------------------------------------------------------------------

/-- The row of a job. -/
def job? (s : Db) (jobId : String) : Option JobRecord :=
  Table.lookup JobRecord.jobId jobId s.jobs

/-- The row of a client request: `upload_lookup.sql`. -/
def upload? (s : Db) (requestId : String) : Option JobRecord :=
  Table.lookup JobRecord.requestId requestId s.jobs

/-- The lock holder has this row selected FOR UPDATE. -/
def locks (s : Db) (jobId : String) : Bool :=
  (s.scheduler.bind (fun transaction => transaction.phase.row?)).any
    (fun row => row.jobId = jobId)

/-- Every row after a statement, whoever holds it. -/
def rewrite (s : Db) (statement : RowUpdate) : Db :=
  { s with jobs := s.jobs.map statement.apply }

/-- The statement would have to wait for a row of the lock holder. -/
def blocks (s : Db) (selects : JobRecord → Bool) : Bool :=
  s.jobs.any (fun row => selects row && s.locks row.jobId)

/-- `queue_position.sql` for a job created at a given moment. -/
def queuePosition (s : Db) (createdAt : Int) : Nat :=
  s.jobs.countP (fun row => row.status.active && row.createdAt ≤ createdAt)

/-- The end of the lock holder's transaction. -/
def commit (s : Db) : Db := { s with scheduler := none }

/-- The lock holder goes on to its next statement. -/
def advance (s : Db) (transaction : Transaction) (phase : Phase) : Db :=
  { s with scheduler := some { transaction with phase } }

/-- `_enqueue`: a new dispatch identity and its outbox row, in the caller's transaction. -/
def enqueue (s : Db) (jobId : String) (messageId : Uuid) (delay clock : Int) : Db :=
  { s.rewrite (Sql.dispatch messageId.text jobId) with
    outbox := s.outbox ++ [⟨messageId.text, jobId, clock + delay * second, none⟩]
    drawn := messageId :: s.drawn }

-----------------------------------------------------------------------------------------
-- Submission, delivery to clients, retention
-----------------------------------------------------------------------------------------

/-- A transaction of one statement: its row count, once no selected row is locked. -/
def execute (s : Db) (statement : RowUpdate) : Option (Db × Reply) :=
  if s.blocks statement.selects then
    none
  else
    some (s.rewrite statement, .rows (s.jobs.countP statement.selects))

/-- `broker_seed.sql`: each adopted row draws its own UUID. -/
def seed (s : Db) (draw : String → Uuid) : Option Db :=
  let statement := Sql.brokerSeed draw
  let adopted := s.jobs.filter statement.selects
  let ids := adopted.map (fun row => draw row.jobId)
  if s.blocks statement.selects || !decide ids.Nodup || ids.any s.drawn.contains then
    none
  else
    some
      { s.rewrite statement with
        outbox :=
          s.outbox
            ++ adopted.map (fun row => ⟨(draw row.jobId).text, row.jobId, row.createdAt, none⟩)
        drawn := ids ++ s.drawn }

/-- `init_schema` on a migrated database. -/
def initSchema (s : Db) (config : Config) (draw : String → Uuid) : Option (Db × Reply) :=
  match config.queueBackend with
  | .postgres => some (s, .unit)
  | .rabbitmq => (s.seed draw).map (fun next => (next, .unit))

/-- `create_job`; the partial unique index refuses a second row for a request id. -/
def createJob (s : Db) (config : Config) (options : SubmitOptions) (jobId : Uuid) (now : Int)
    : Option (Db × Reply) :=
  if jobId ∈ s.drawn then
    none
  else if options.requestId ≠ "" && s.jobs.any (fun row => row.requestId = options.requestId)
    then
    some ({ s with drawn := jobId :: s.drawn }, .uniqueViolation)
  else
    some
      ({ s with
          jobs := s.jobs ++ [JobRecord.created config options jobId now]
          drawn := jobId :: s.drawn },
        .created jobId.text)

/-- `mark_queued` -/
def markQueued (s : Db) (config : Config) (jobId : String) (messageId : Uuid)
    (now clock : Int)
    : Option (Db × Reply) :=
  let statement := Sql.markQueued jobId now
  if s.blocks statement.selects then
    none
  else
    match s.jobs.find? statement.selects with
    | none => some (s, .queued none)
    | some row =>
        let reply := Reply.queued (some (s.queuePosition row.createdAt))
        match config.queueBackend with
        | .postgres => some (s.rewrite statement, reply)
        | .rabbitmq =>
            if messageId ∈ s.drawn then
              none
            else
              some ((s.rewrite statement).enqueue jobId messageId 0 clock, reply)

/-- `cleanup_expired_jobs` on one row; its outbox rows go with it (ON DELETE CASCADE). -/
def cleanup (s : Db) (jobId : String) (ttlSeconds now : Int) : Option (Db × Reply) :=
  let selects := fun row : JobRecord => row.jobId = jobId && Sql.cleanup ttlSeconds now row
  if s.blocks selects then
    none
  else
    match s.jobs.find? selects with
    | none => some (s, .removed none)
    | some row =>
        some
          ({ s with
              jobs := Table.delete selects s.jobs
              outbox := Table.delete (fun entry => entry.jobId = jobId) s.outbox },
            .removed (some (row.inputPath, row.resultPath)))

-----------------------------------------------------------------------------------------
-- Attempts outside the scheduler lock
-----------------------------------------------------------------------------------------

/-- The availability conditions of `claim.sql` on a claiming worker. -/
def legacyAllows (s : Db) (config : Config) (workerId instanceId : String)
    (fallback : Bool) (now : Int)
    : Bool :=
  (!fallback
      || !s.slots.any (fun slot =>
        config.preferredWorkers.contains slot.workerId && now < slot.readyUntil))
    && (!config.preferredWorkers.contains workerId
      || s.slots.any (fun slot => slot.isSlot workerId instanceId && now < slot.readyUntil))

/-- `claim_next_job` without policies, after its `reap`. -/
def claimLegacy (s : Db) (config : Config) (workerId instanceId : String) (fallback : Bool)
    (uuid : Uuid) (locked : List String) (now : Int)
    : Option (Db × Reply) :=
  if config.queueBackend = .rabbitmq || config.workerPolicies ≠ [] || uuid ∈ s.drawn then
    none
  else if s.jobs.any (fun row => s.locks row.jobId && !locked.contains row.jobId) then
    none
  else if !s.legacyAllows config workerId instanceId fallback now then
    some (s, .claimed none)
  else
    match candidate now locked s.jobs with
    | none => some (s, .claimed none)
    | some row =>
        let token := leaseToken workerId uuid
        let statement :=
          Sql.claim row.jobId token config.leaseSeconds workerId instanceId now
        let claimed := statement.assign row
        some
          ({ s.rewrite statement with drawn := uuid :: s.drawn },
            .claimed (some ⟨claimed, token, claimed.leaseExpiresAt⟩))

/-- `heartbeat` without policies, which needs no lock. -/
def heartbeatLegacy (s : Db) (config : Config) (jobId token : String) (progress : Rat)
    (now clock : Int)
    : Option (Db × Reply) :=
  if config.workerPolicies ≠ [] then
    none
  else
    s.execute (Sql.heartbeat jobId token config.leaseSeconds progress now clock)

/-- The delay of a retry: `min(300, 2 ** min(attempts, 8))`. -/
def retryDelay (attempts : Int) : Int := min 300 (2 ^ (min attempts 8).toNat)

/-- `fail_job`; in RabbitMQ mode a requeued job gets its next dispatch in the same
transaction. The ingress, which passes the empty token, never asks for a retry.
-/
def failJob (s : Db) (config : Config) (jobId token error : String) (retryable : Bool)
    (messageId : Uuid) (now clock : Int)
    : Option (Db × Reply) :=
  let statement := Sql.fail jobId token error retryable now
  if s.blocks statement.selects || (token = "" && retryable) then
    none
  else
    match s.jobs.find? statement.selects with
    | none => some (s, .rows 0)
    | some row =>
        let failed := statement.assign row
        if config.queueBackend = .rabbitmq && failed.status = .queued then
          if messageId ∈ s.drawn then
            none
          else
            some
              ((s.rewrite statement).enqueue jobId messageId (retryDelay failed.attempts) clock,
                .rows (s.jobs.countP statement.selects))
        else
          some (s.rewrite statement, .rows (s.jobs.countP statement.selects))

-----------------------------------------------------------------------------------------
-- Transactions under the scheduler lock
-----------------------------------------------------------------------------------------

/-- Which transactions a coordinator with these settings opens. -/
def Task.allowed (config : Config) : Task → Bool
  | .claim _ _ => config.queueBackend = .postgres && config.workerPolicies ≠ []
  | .begin _ => config.queueBackend = .rabbitmq
  | .heartbeat _ _ _ => config.workerPolicies ≠ []
  | .register workerId _ =>
      config.queueBackend = .rabbitmq && maxConcurrency config.workerPolicies workerId ≠ 0
  | .reconcile => config.queueBackend = .rabbitmq

/-- `scheduler_lock.sql`, granted while nobody holds the lock. -/
def lockScheduler (s : Db) (config : Config) (task : Task) (now : Int)
    : Option (Db × Reply) :=
  if s.scheduler.isSome || !Task.allowed config task then
    none
  else
    some ({ s with scheduler := some ⟨config, now, s.clock, task, .locked⟩ }, .unit)

/-- The lock holder, if it works on this task and has come this far. -/
def holder? (s : Db) (task : Task) (reached : Phase → Bool) : Option Transaction :=
  s.scheduler.filter (fun transaction => transaction.task = task && reached transaction.phase)

def Phase.isLocked : Phase → Bool
  | .locked => true
  | _ => false

def Phase.isSelected : Phase → Bool
  | .selected => true
  | _ => false

/-- `heartbeat` with policies: the renewal serializes with capacity decisions. -/
def heartbeat (s : Db) (jobId token : String) (progress : Rat) (clock : Int)
    : Option (Db × Reply) :=
  (s.holder? (.heartbeat jobId token progress) Phase.isLocked).map (fun transaction =>
    let statement :=
      Sql.heartbeat jobId token transaction.config.leaseSeconds progress transaction.now clock
    ((s.rewrite statement).commit, .rows (s.jobs.countP statement.selects)))

/-- `request_work.sql` and `select_worker.sql` of `claim_next_job`; an ineligible slot
commits its demand and gets no job.
-/
def selectWorker (s : Db) (workerId instanceId : String) (clock : Int)
    : Option (Db × Reply) :=
  (s.holder? (.claim workerId instanceId) Phase.isLocked).map (fun transaction =>
    let config := transaction.config
    let slots := requestWork config.demandTtlSeconds workerId instanceId clock s.slots
    if Transcriber.selectWorker config.workerPolicies slots s.jobs workerId instanceId clock
      then
      ({ s with slots }.advance transaction .selected, .unit)
    else
      ({ s with slots }.commit, .claimed none))

/-- `claim_slot.sql` of `claim_next_job`. -/
def claimSlot (s : Db) (workerId instanceId : String) (uuid : Uuid) (locked : List String)
    (clock : Int)
    : Option (Db × Reply) :=
  (s.holder? (.claim workerId instanceId) Phase.isSelected).bind (fun transaction =>
    if uuid ∈ s.drawn then
      none
    else
      match candidate clock locked s.jobs with
      | none => some (s.commit, .claimed none)
      | some row =>
          let token := leaseToken workerId uuid
          let statement :=
            Sql.claimSlot row.jobId token transaction.config.leaseSeconds workerId instanceId
              transaction.now clock
          let claimed := statement.assign row
          some
            ({ s.rewrite statement with drawn := uuid :: s.drawn }.commit,
              .claimed (some ⟨claimed, token, claimed.leaseExpiresAt⟩)))

/-- What `begin_attempt` does with the row that `broker_job.sql` returned. -/
inductive Verdict
  | discard
  | replay
  | busy
  | exhausted
  | proceed
  deriving DecidableEq, Repr

/-- The tests of `begin_attempt` up to the attempt count, in its order. -/
def verdict (row : JobRecord) (request : BeginRequest) (clock : Int) : Verdict :=
  if row.dispatchId ≠ request.messageId || row.status.terminal then
    .discard
  else if row.holdsLease clock then
    if row.deliveryId = request.deliveryId
      && row.assignedTo request.workerId request.instanceId then
      .replay
    else
      .busy
  else if !row.status.active then
    .discard
  else if row.maxAttempts ≤ row.attempts then
    .exhausted
  else
    .proceed

/-- `broker_job.sql` of `begin_attempt` and the decisions that need no capacity. -/
def brokerJob (s : Db) (request : BeginRequest) (clock : Int) : Option (Db × Reply) :=
  (s.holder? (.begin request) Phase.isLocked).map (fun transaction =>
    match s.job? request.jobId with
    | none => (s.commit, .attempt .discard none)
    | some row =>
        match verdict row request clock with
        | .discard => (s.commit, .attempt .discard none)
        | .replay =>
            (s.commit, .attempt .started (some ⟨row, row.leaseOwner, row.leaseExpiresAt⟩))
        | .busy => (s.commit, .attempt .busy none)
        | .exhausted =>
            ((s.rewrite (Sql.brokerExhausted request.jobId transaction.now)).commit,
              .attempt .discard none)
        | .proceed =>
            if maxConcurrency transaction.config.workerPolicies request.workerId = 0 then
              (s.commit, .attempt .busy none)
            else
              (s.advance transaction (.loaded row), .unit))

/-- `broker_capacity.sql` of `begin_attempt`. -/
def brokerCapacity (s : Db) (request : BeginRequest) (clock : Int) : Option (Db × Reply) :=
  s.scheduler.bind (fun transaction =>
    match transaction.phase with
    | .loaded row =>
        if transaction.task ≠ .begin request then
          none
        else
          match policy? transaction.config.workerPolicies request.workerId with
          | none => some (s.commit, .attempt .busy none)
          | some policy =>
              if (Transcriber.brokerCapacity s.slots s.jobs request.workerId
                  request.instanceId clock).refuses policy then
                some (s.commit, .attempt .busy none)
              else
                some (s.advance transaction (.capable row), .unit)
    | _ => none)

/-- `broker_start.sql` of `begin_attempt`, on the row it holds locked. -/
def brokerStart (s : Db) (request : BeginRequest) (uuid : Uuid) (clock : Int)
    : Option (Db × Reply) :=
  s.scheduler.bind (fun transaction =>
    match transaction.phase with
    | .capable row =>
        if transaction.task ≠ .begin request || uuid ∈ s.drawn then
          none
        else
          let token := leaseToken request.workerId uuid
          let statement :=
            Sql.brokerStart request.jobId token transaction.config.leaseSeconds
              request.workerId request.instanceId request.deliveryId transaction.now clock
          let started := statement.assign row
          some
            ({ s.rewrite statement with drawn := uuid :: s.drawn }.commit,
              .attempt .started (some ⟨started, token, started.leaseExpiresAt⟩))
    | _ => none)

/-- `broker_admit.sql` of `register_consumer` in its snapshot; a slot without a place commits
nothing.
-/
def brokerAdmit (s : Db) (workerId instanceId : String) (clock : Int) : Option (Db × Reply) :=
  (s.holder? (.register workerId instanceId) Phase.isLocked).map (fun transaction =>
    match policy? transaction.config.workerPolicies workerId with
    | none => (s.commit, .admitted none)
    | some policy =>
        if admits s.slots s.jobs workerId instanceId policy.maxConcurrency clock then
          ({ s with
              scheduler := some { transaction with phase := .admitting policy, since := clock } },
            .unit)
        else
          (s.commit, .admitted none))

/-- The write of `broker_admit.sql`, which reads its row again where a report has changed it since
the snapshot, and the COMMIT of `register_consumer`.
-/
def registerConsumer (s : Db) (workerId instanceId : String) (clock : Int)
    : Option (Db × Reply) :=
  s.scheduler.bind (fun transaction =>
    match transaction.phase with
    | .admitting policy =>
        if transaction.task ≠ .register workerId instanceId then
          none
        else
          let updated := s.slots.any (fun slot =>
            slot.isSlot workerId instanceId && clock < slot.readyUntil)
          some
            ({ s with slots := Transcriber.brokerAdmit workerId instanceId clock s.slots }.commit,
              .admitted (if updated then some (10000 - policy.priority) else none))
    | _ => none)

/-- The transaction of `whisper.reconcile`: `broker_reconcile.sql`, then `broker_seed.sql`. -/
def reconcile (s : Db) (draw : String → Uuid) (clock : Int) : Option (Db × Reply) :=
  (s.holder? .reconcile Phase.isLocked).bind (fun _ =>
    ((s.rewrite (Sql.brokerReconcile clock)).seed draw).map (fun next => (next.commit, .unit)))

-----------------------------------------------------------------------------------------
-- The step function
-----------------------------------------------------------------------------------------

/-- One step of the store, or nothing while it has to wait. -/
def exec (s : Db) (config : Config) : Op → Option (Db × Reply)
  | .tick clock => some ({ s with clock }, .unit)
  | .initSchema draw => s.initSchema config draw
  | .createJob options jobId now => s.createJob config options jobId now
  | .markDownloading jobId now => s.execute (Sql.updateStatus .downloading jobId now)
  | .markUploadInterrupted jobId now => s.execute (Sql.uploadInterrupted jobId now)
  | .markQueued jobId messageId now clock => s.markQueued config jobId messageId now clock
  | .cancelJob jobId now => s.execute (Sql.cancelJob jobId now)
  | .acknowledgeJob jobId now => s.execute (Sql.ack jobId now)
  | .claimLegacy workerId instanceId fallback uuid locked now =>
      s.claimLegacy config workerId instanceId fallback uuid locked now
  | .heartbeatLegacy jobId token progress now clock =>
      s.heartbeatLegacy config jobId token progress now clock
  | .completeJob jobId token text segments resultPath now =>
      s.execute (Sql.complete jobId token text segments resultPath now)
  | .failJob jobId token error retryable messageId now clock =>
      s.failJob config jobId token error retryable messageId now clock
  | .reap jobId now => s.execute ((Sql.reap now).only jobId)
  | .cleanup jobId ttlSeconds now => s.cleanup jobId ttlSeconds now
  | .reportAvailability workerId instanceId ready now =>
      some
        ({ s with
            slots :=
              Transcriber.reportAvailability workerId instanceId
                (if ready then config.availabilityTtlSeconds else 0)
                (if ready then config.demandTtlSeconds else 0) now
                (cleanupAvailability now s.slots) },
          .unit)
  | .outboxPublished messageId now =>
      some
        ({ s with
            outbox := s.outbox.map (fun entry =>
              if entry.messageId = messageId then
                { entry with publishedAt := some now }
              else
                entry) },
          .unit)
  | .lockScheduler task now => s.lockScheduler config task now
  | .rollback => if s.scheduler.isSome then some (s.commit, .unit) else none
  | .heartbeat jobId token progress clock => s.heartbeat jobId token progress clock
  | .selectWorker workerId instanceId clock => s.selectWorker workerId instanceId clock
  | .claimSlot workerId instanceId uuid locked clock =>
      s.claimSlot workerId instanceId uuid locked clock
  | .brokerJob request clock => s.brokerJob request clock
  | .brokerCapacity request clock => s.brokerCapacity request clock
  | .brokerStart request uuid clock => s.brokerStart request uuid clock
  | .brokerAdmit workerId instanceId clock => s.brokerAdmit workerId instanceId clock
  | .registerConsumer workerId instanceId clock => s.registerConsumer workerId instanceId clock
  | .reconcile draw clock => s.reconcile draw clock

end Db

/-- A step with the settings of the process that takes it and what it told its caller. -/
structure Event where
  config : Config
  op : Op
  reply : Reply

/-- A step of the store; the clocks may read anything. -/
def Db.Step (s : Db) (event : Event) (t : Db) : Prop :=
  s.exec event.config event.op = some (t, event.reply)

-----------------------------------------------------------------------------------------
-- Concrete runs
-----------------------------------------------------------------------------------------

/-- An operation of a process with the event it is. -/
def Db.perform (s : Db) (call : Config × Op) : Option (Event × Db) :=
  (s.exec call.1 call.2).map (fun done => (⟨call.1, call.2, done.2⟩, done.1))

/-- Operations one after another, without those that would have to wait. -/
def Db.play (s : Db) (calls : List (Config × Op)) : List Event × Db :=
  Execution.play Db.perform (fun _ _ _ => true) [] s calls

/-- UUIDs for concrete runs. -/
def Uuid.nth (n : Nat) : Uuid where
  text := "00000000-0000-4000-8000-00000000000" ++ String.singleton (Nat.digitChar n)
  length_eq := by
    rw [String.length_append, String.length_singleton]
    decide

/-- The shortest lease, two attempts and one pool for one execution. -/
def Config.onePool (queueBackend : Backend) : Config where
  leaseSeconds := 3
  maxAttempts := 2
  workerPolicies := [("gpu", ⟨0, 1, by decide, by decide⟩)]
  queueBackend
  demandTtlSeconds := 10
  availabilityTtlSeconds := 90
  preferredWorkers := []
  storageRoot := "/data/jobs"
  leaseSeconds_ge := by decide
  maxAttempts_ge := by decide
  demandTtlSeconds_range := by decide
  availabilityTtlSeconds_range := by decide
  workerPolicies_distinct := by decide
  rabbitmq_policies := by simp

/-- A submission under a client's request id, kept until the client acknowledges it. -/
def SubmitOptions.wav (requestId : String) : SubmitOptions where
  format := "wav"
  preset := ""
  languageOverride := ""
  initialPromptOverride := ""
  traceparent := ""
  tracestate := ""
  requestId
  retainUntilAck := true

/-- One job is submitted, queued and delivered to an admitted slot at moment 0, under the
lease token of the third UUID.
-/
def Db.deliverOnce : List (Config × Op) :=
  let config := Config.onePool .rabbitmq
  let jobId := (Uuid.nth 0).text
  let request : BeginRequest := ⟨"gpu", "slot", jobId, (Uuid.nth 1).text, "delivery"⟩
  [
    (config, .createJob (.wav "request") (.nth 0) 0),
    (config, .markQueued jobId (.nth 1) 0 0),
    (config, .reportAvailability "gpu" "slot" true 0),
    (config, .lockScheduler (.register "gpu" "slot") 0),
    (config, .brokerAdmit "gpu" "slot" 0),
    (config, .registerConsumer "gpu" "slot" 0),
    (config, .lockScheduler (.begin request) 0),
    (config, .brokerJob request 0),
    (config, .brokerCapacity request 0),
    (config, .brokerStart request (.nth 2) 0)
  ]

/-- The delivered job is completed under its token. -/
def Db.completeOnce : List (Config × Op) :=
  deliverOnce ++
    [(Config.onePool .rabbitmq,
      .completeJob (Uuid.nth 0).text (leaseToken "gpu" (.nth 2)) "text" [] "" 1)]

end Transcriber
