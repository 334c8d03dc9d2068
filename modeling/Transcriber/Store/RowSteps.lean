import Transcriber.Store.Database

/-! Everything a step of the store can do to the tables.
A row changes only by one of the statements below with its guard satisfied; a changed
dispatch identity comes with an outbox row in the same transaction.
-/

namespace Transcriber

/-- An accepted call on one job: its queueing, a start with the delivery that asked for it, if
any, or a call that carried a lease token.
-/
inductive Act
  | queue
  | start (token : String) (deliveryId : Option String)
  | renew (token : String) (progress : Rat)
  | complete (token text : String) (segments : List Segment) (resultPath : String)
  | fail (token : String)
  deriving DecidableEq, Repr

/-- The accepted act of an event on one job, read off its reply. -/
def Event.act? (event : Event) (jobId : String) : Option Act :=
  match event.op, event.reply with
  | .markQueued target _ _ _, .queued (some _) => if target = jobId then some .queue else none
  | .claimLegacy .., .claimed (some claimed)
  | .claimSlot .., .claimed (some claimed) =>
      if claimed.job.jobId = jobId then some (.start claimed.leaseOwner none) else none
  | .brokerStart request _ _, .attempt .started (some claimed) =>
      if request.jobId = jobId then
        some (.start claimed.leaseOwner (some request.deliveryId))
      else
        none
  | .heartbeatLegacy target token progress _ _, .rows count
  | .heartbeat target token progress _, .rows count =>
      if target = jobId ∧ count ≠ 0 then some (.renew token progress) else none
  | .completeJob target token text segments resultPath _, .rows count =>
      if target = jobId ∧ count ≠ 0 then
        some (.complete token text segments resultPath)
      else
        none
  | .failJob target token _ _ _ _ _, .rows count =>
      if target = jobId ∧ count ≠ 0 then some (.fail token) else none
  | _, _ => none

/-- A queue act is an accepted `mark_queued`. -/
theorem Event.act?_queue {event : Event} {jobId : String}
    (act : event.act? jobId = some .queue)
    : ∃ messageId now clock position,
        event.op = .markQueued jobId messageId now clock
        ∧ event.reply = .queued (some position) := by
  unfold Event.act? at act
  split at act
  case h_1 target messageId now clock position op reply =>
      split at act
      · rename_i same
        exact ⟨messageId, now, clock, position, same ▸ op, reply⟩
      · cases act
  all_goals
    first
      | cases act
      | (split at act <;> cases act)

/-- A failure act is an accepted `fail_job`. -/
theorem Event.act?_fail {event : Event} {jobId token : String}
    (act : event.act? jobId = some (.fail token))
    : ∃ error retryable messageId now clock count,
        event.op = .failJob jobId token error retryable messageId now clock
        ∧ event.reply = .rows count
        ∧ count ≠ 0 := by
  unfold Event.act? at act
  split at act
  case h_8 target token' error retryable messageId now clock count op reply =>
      split at act
      · rename_i accepted
        cases act
        exact ⟨error, retryable, messageId, now, clock, count, accepted.1 ▸ op, reply,
          accepted.2⟩
      · cases act
  all_goals
    first
      | cases act
      | (split at act <;> cases act)

/-- A completion act is an accepted `complete_job`. -/
theorem Event.act?_complete {event : Event} {jobId token text resultPath : String}
    {segments : List Segment}
    (act : event.act? jobId = some (.complete token text segments resultPath))
    : ∃ now, event.op = .completeJob jobId token text segments resultPath now := by
  unfold Event.act? at act
  split at act
  case h_7 target token' text' segments' resultPath' now count op reply =>
      split at act
      · rename_i accepted
        cases act
        exact ⟨now, accepted.1 ▸ op⟩
      · cases act
  all_goals
    first
      | cases act
      | (split at act <;> cases act)

/-- One row before and after a step, with the act that the step accepted on it. -/
inductive RowStep : Option Act → JobRecord → JobRecord → Prop
  | keep {row} : RowStep none row row
  | downloading {row jobId now}
    (selected : (Sql.updateStatus .downloading jobId now).selects row)
    : RowStep none row ((Sql.updateStatus .downloading jobId now).assign row)
  | interrupted {row jobId now} (selected : (Sql.uploadInterrupted jobId now).selects row)
    : RowStep none row ((Sql.uploadInterrupted jobId now).assign row)
  | queued {row jobId now dispatchId} (selected : (Sql.markQueued jobId now).selects row)
    : RowStep (some .queue) row { (Sql.markQueued jobId now).assign row with dispatchId }
  | cancelled {row jobId now} (selected : (Sql.cancelJob jobId now).selects row)
    : RowStep none row ((Sql.cancelJob jobId now).assign row)
  | acknowledged {row jobId now} (selected : (Sql.ack jobId now).selects row)
    : RowStep none row ((Sql.ack jobId now).assign row)
  | claimed {row token workerId instanceId expires now moment}
    (startable : row.startable moment) (named : token ≠ "")
    : RowStep (some (.start token none)) row
        (Sql.startAttempt token workerId instanceId expires now row)
  | delivered
    {row jobId token leaseSeconds workerId instanceId deliveryId now clock moment}
    (active : row.status.active) (attemptsLeft : row.attempts < row.maxAttempts)
    (idle : row.holdsLease moment = false) (named : token ≠ "")
    : RowStep (some (.start token (some deliveryId))) row
        ((Sql.brokerStart jobId token leaseSeconds workerId instanceId deliveryId now
          clock).assign row)
  | renewed {row jobId token leaseSeconds progress now clock}
    (selected : (Sql.heartbeat jobId token leaseSeconds progress now clock).selects row)
    : RowStep (some (.renew token progress)) row
        ((Sql.heartbeat jobId token leaseSeconds progress now clock).assign row)
  | completed {row jobId token text segments resultPath now}
    (selected : (Sql.complete jobId token text segments resultPath now).selects row)
    : RowStep (some (.complete token text segments resultPath)) row
        ((Sql.complete jobId token text segments resultPath now).assign row)
  | failed {row jobId token error retryable now dispatchId}
    (selected : (Sql.fail jobId token error retryable now).selects row)
    (caller : token = "" → retryable = false)
    : RowStep (some (.fail token)) row
        { (Sql.fail jobId token error retryable now).assign row with dispatchId }
  | exhausted {row now moment} (active : row.status.active)
    (spent : row.maxAttempts ≤ row.attempts) (idle : row.holdsLease moment = false)
    : RowStep none row ((Sql.reap now).assign row)
  | redispatched {row dispatchId} (active : row.status.active)
    : RowStep none row { row with dispatchId }

/-- The columns of a row that no statement sets after the insertion. -/
def JobRecord.identity (row : JobRecord) : SubmitOptions where
  format := row.format
  preset := row.preset
  languageOverride := row.languageOverride
  initialPromptOverride := row.initialPromptOverride
  traceparent := row.traceparent
  tracestate := row.tracestate
  requestId := row.requestId
  retainUntilAck := row.retainUntilAck

/-- A row keeps its ids, its submission and its attempt limit, by cases on the statement. -/
theorem RowStep.fixed {act : Option Act} {row next : JobRecord} (step : RowStep act row next)
    : next.jobId = row.jobId
      ∧ next.identity = row.identity
      ∧ next.inputPath = row.inputPath
      ∧ next.createdAt = row.createdAt
      ∧ next.maxAttempts = row.maxAttempts := by
  cases step <;> exact ⟨rfl, rfl, rfl, rfl, rfl⟩

theorem RowStep.jobId {act : Option Act} {row next : JobRecord} (step : RowStep act row next)
    : next.jobId = row.jobId :=
  step.fixed.1

/-- A drawn UUID that the state before the step did not have. -/
def Db.Fresh (s t : Db) (uuid : Uuid) : Prop := uuid ∉ s.drawn ∧ uuid ∈ t.drawn

/-- A step rewrites rows in place, with the outbox rows it adds; or it inserts one new job,
deletes one finished job with its outbox rows, or marks outbox rows as published.
-/
inductive Db.Change (s : Db) (event : Event) (t : Db) : Prop
  | rewrite (f : JobRecord → JobRecord) (entries : List OutboxRow)
    (jobs : t.jobs = s.jobs.map f) (outbox : t.outbox = s.outbox ++ entries)
    (rows : ∀ row ∈ s.jobs, RowStep (event.act? row.jobId) row (f row))
    (dispatched
      : ∀ row ∈ s.jobs,
          (f row).dispatchId = row.dispatchId
          ∨ ∃ entry ∈ entries,
              entry.messageId = (f row).dispatchId ∧ entry.jobId = row.jobId)
    (announced
      : ∀ entry ∈ entries,
          entry.publishedAt = none ∧ ∃ uuid, entry.messageId = uuid.text ∧ s.Fresh t uuid)
    (separate : (entries.map OutboxRow.messageId).Nodup)
    (tokens
      : ∀ jobId token deliveryId,
          event.act? jobId = some (.start token deliveryId)
          → ∃ workerId uuid, token = leaseToken workerId uuid ∧ s.Fresh t uuid)
    (present : ∀ jobId, event.act? jobId ≠ none → ∃ row ∈ s.jobs, row.jobId = jobId)
  | insert (options : SubmitOptions) (jobId : Uuid) (now : Int)
    (called : event.op = .createJob options jobId now)
    (jobs : t.jobs = s.jobs ++ [JobRecord.created event.config options jobId now])
    (outbox : t.outbox = s.outbox) (fresh : s.Fresh t jobId)
    (unused
      : options.requestId = "" ∨ ∀ row ∈ s.jobs, row.requestId ≠ options.requestId)
    (quiet : ∀ target, event.act? target = none)
  | remove (jobId : String) (ttlSeconds now : Int)
    (called : event.op = .cleanup jobId ttlSeconds now)
    (jobs
      : t.jobs = Table.delete (fun row => row.jobId = jobId && Sql.cleanup ttlSeconds now row)
          s.jobs)
    (outbox : t.outbox = Table.delete (fun entry => entry.jobId = jobId) s.outbox)
    (quiet : ∀ target, event.act? target = none)
    (deleted : ∃ row ∈ s.jobs, row.jobId = jobId ∧ Sql.cleanup ttlSeconds now row)
  | publish (messageId : String) (now : Int)
    (called : event.op = .outboxPublished messageId now) (jobs : t.jobs = s.jobs)
    (outbox
      : t.outbox = s.outbox.map (fun entry =>
          if entry.messageId = messageId then
            { entry with publishedAt := some now }
          else
            entry))
    (quiet : ∀ target, event.act? target = none)

end Transcriber
