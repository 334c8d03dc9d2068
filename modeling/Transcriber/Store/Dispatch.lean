import Transcriber.Store.Invariants

/-! Dispatch identities: each names one job, and a job that becomes startable in RabbitMQ mode
gets a fresh one with an outbox row in the same transaction.
-/

namespace Transcriber

/-- An active row was active, was just queued or was just failed; by cases on the statement. -/
theorem RowStep.active_before {act : Option Act} {row next : JobRecord}
    (step : RowStep act row next) (active : next.status.active)
    : (row.status.active ∧ ∀ token, act ≠ some (.fail token))
      ∨ act = some .queue
      ∨ ∃ token, act = some (.fail token) := by
  cases step with
  | keep | interrupted | acknowledged | redispatched => exact .inl ⟨active, by simp⟩
  | queued => exact .inr (.inl rfl)
  | failed => exact .inr (.inr ⟨_, rfl⟩)
  | claimed startable =>
      simp only [JobRecord.startable, Bool.and_eq_true] at startable
      exact .inl ⟨startable.1.1, by simp⟩
  | delivered was => exact .inl ⟨was, by simp⟩
  | renewed selected =>
      simp only [Sql.heartbeat, Bool.and_eq_true] at selected
      exact .inl ⟨by simp [JobRecord.holdsLease_running selected.2, Status.active], by simp⟩
  | downloading | cancelled | completed | exhausted =>
      simp [Sql.updateStatus, Sql.cancelJob, Sql.complete, Sql.reap, Status.active] at active

/-- The tests of `begin_attempt` discard what is not active under the dispatch. -/
theorem verdict_discard {row : JobRecord} {request : BeginRequest} {clock : Int}
    (discarded : Db.verdict row request clock = .discard)
    (dispatch : row.dispatchId = request.messageId)
    : row.status.active = false := by
  cases active : row.status.active with
  | false => rfl
  | true =>
      have unfinished : row.status.terminal = false := by
        cases status : row.status <;> simp_all [Status.active, Status.terminal]
      unfold Db.verdict at discarded
      grind

namespace Db

/-- Every dispatch identity is a drawn UUID and names one job. -/
structure Dispatches (s : Db) : Prop where
  entries : ∀ entry ∈ s.outbox, ∃ uuid ∈ s.drawn, entry.messageId = uuid.text
  rows : ∀ row ∈ s.jobs, row.dispatchId = "" ∨ ∃ uuid ∈ s.drawn, row.dispatchId = uuid.text
  agree
    : ∀ entry ∈ s.outbox,
        ∀ row ∈ s.jobs, row.dispatchId = entry.messageId → row.jobId = entry.jobId

theorem Dispatches.empty (clock : Int) : (Db.empty clock).Dispatches := by
  constructor <;> simp [Db.empty]

/-- A fresh UUID is no dispatch identity yet. -/
theorem Dispatches.fresh {s t : Db} (kept : s.Dispatches) {uuid : Uuid} (fresh : s.Fresh t uuid)
    : (∀ entry ∈ s.outbox, entry.messageId ≠ uuid.text)
      ∧ ∀ row ∈ s.jobs, row.dispatchId ≠ uuid.text := by
  have unknown {other : Uuid} (known : other ∈ s.drawn) : other.text ≠ uuid.text :=
    fun same => fresh.1 (Uuid.text_injective same ▸ known)
  constructor
  · intro entry member
    obtain ⟨other, known, same⟩ := kept.entries entry member
    rw [same]
    exact unknown known
  · intro row member
    rcases kept.rows row member with empty | ⟨other, known, same⟩
    · rw [empty]
      exact uuid.text_ne_empty.symm
    · rw [same]
      exact unknown known

/-- Every step keeps the dispatch identities apart, by cases on its change. -/
theorem Step.dispatches {s t : Db} {event : Event} (step : s.Step event t)
    (consistent : s.Consistent) (kept : s.Dispatches)
    : t.Dispatches := by
  have outcome := step.outcome consistent.distinct consistent.held
  have drawn {id : String} (known : ∃ uuid ∈ s.drawn, id = uuid.text)
      : ∃ uuid ∈ t.drawn, id = uuid.text := by
    obtain ⟨uuid, old, same⟩ := known
    exact ⟨uuid, outcome.drawn uuid old, same⟩
  have oldRow (row : JobRecord) (member : row ∈ s.jobs) :=
    (kept.rows row member).imp_right drawn
  cases outcome.change with
  | rewrite f entries jobs outbox rows dispatched announced separate =>
      refine ⟨?_, ?_, ?_⟩
      · simp only [outbox, List.forall_mem_append]
        refine ⟨fun entry member => drawn (kept.entries entry member), ?_⟩
        intro entry member
        obtain ⟨_, uuid, same, fresh⟩ := announced entry member
        exact ⟨uuid, fresh.2, same⟩
      · rw [jobs, List.forall_mem_map]
        intro row member
        rcases dispatched row member with same | ⟨entry, new, same, _⟩
        · rw [same]
          exact oldRow row member
        · obtain ⟨_, uuid, text, fresh⟩ := announced entry new
          exact .inr ⟨uuid, fresh.2, same.symm.trans text⟩
      · simp only [outbox, jobs, List.forall_mem_append, List.forall_mem_map]
        refine ⟨?_, ?_⟩
        · intro entry old row member same
          rw [(rows row member).jobId]
          rcases dispatched row member with kept' | ⟨other, new, id, _⟩
          · exact kept.agree entry old row member (kept'.symm.trans same)
          · obtain ⟨_, uuid, text, fresh⟩ := announced other new
            exact absurd (same.symm.trans (id.symm.trans text)) ((kept.fresh fresh).1 entry old)
        · intro entry new row member same
          rw [(rows row member).jobId]
          rcases dispatched row member with kept' | ⟨other, new', id, job⟩
          · obtain ⟨_, uuid, text, fresh⟩ := announced entry new
            exact absurd (kept'.symm.trans (same.trans text)) ((kept.fresh fresh).2 row member)
          · obtain rfl := List.inj_on_of_nodup_map separate new' new (id.trans same)
            exact job.symm
  | insert options jobId now called jobs outbox =>
      refine ⟨?_, ?_, ?_⟩
      · rw [outbox]
        exact fun entry member => drawn (kept.entries entry member)
      · simp only [jobs, List.forall_mem_append, List.forall_mem_singleton]
        exact ⟨oldRow, .inl rfl⟩
      · simp only [jobs, outbox, List.forall_mem_append, List.forall_mem_singleton]
        intro entry member
        refine ⟨kept.agree entry member, ?_⟩
        intro same
        obtain ⟨uuid, _, text⟩ := kept.entries entry member
        exact absurd (same.trans text).symm uuid.text_ne_empty
  | remove jobId ttlSeconds now called jobs outbox =>
      have stored {row : JobRecord} (member : row ∈ t.jobs) : row ∈ s.jobs := by
        rw [jobs] at member
        exact (List.mem_filter.mp member).1
      have listed {entry : OutboxRow} (member : entry ∈ t.outbox) : entry ∈ s.outbox := by
        rw [outbox] at member
        exact (List.mem_filter.mp member).1
      exact ⟨fun entry member => drawn (kept.entries entry (listed member)),
        fun row member => oldRow row (stored member),
        fun entry member row member' => kept.agree entry (listed member) row (stored member')⟩
  | publish messageId now called jobs outbox =>
      have listed {entry : OutboxRow} (member : entry ∈ t.outbox)
          : ∃ old ∈ s.outbox, entry.messageId = old.messageId ∧ entry.jobId = old.jobId := by
        rw [outbox] at member
        obtain ⟨old, stored, rfl⟩ := List.mem_map.mp member
        exact ⟨old, stored, by split <;> rfl, by split <;> rfl⟩
      refine ⟨?_, ?_, ?_⟩
      · intro entry member
        obtain ⟨old, stored, same, _⟩ := listed member
        rw [same]
        exact drawn (kept.entries old stored)
      · rw [jobs]
        exact oldRow
      · intro entry member row member' same
        obtain ⟨old, stored, id, job⟩ := listed member
        rw [job]
        exact kept.agree old stored row (jobs ▸ member') (same.trans id)

-----------------------------------------------------------------------------------------
-- Announcements
-----------------------------------------------------------------------------------------

/-- An outbox row of the job's current dispatch waits for its publication. -/
def Announced (s : Db) (row : JobRecord) : Prop :=
  ∃ entry ∈ s.outbox,
    entry.messageId = row.dispatchId
    ∧ entry.jobId = row.jobId
    ∧ entry.publishedAt = none

/-- The step gave the row a fresh dispatch with its outbox row. -/
def Redispatched (s t : Db) (row : JobRecord) : Prop :=
  t.Announced row ∧ ∃ uuid, row.dispatchId = uuid.text ∧ s.Fresh t uuid

/-- `_enqueue` gives its job a fresh dispatch. -/
theorem enqueue_redispatched {s : Db} (u : Db) {jobId : String} {messageId : Uuid}
    {delay clock : Int} (drawn : u.drawn = s.drawn) (fresh : messageId ∉ s.drawn) {next : JobRecord}
    (member : next ∈ (u.enqueue jobId messageId delay clock).jobs) (same : next.jobId = jobId)
    : s.Redispatched (u.enqueue jobId messageId delay clock) next := by
  obtain ⟨row, _, rfl⟩ := List.mem_map.mp member
  rw [RowUpdate.apply_jobId] at same
  have id : ((Sql.dispatch messageId.text jobId).apply row).dispatchId = messageId.text := by
    rw [RowUpdate.apply_selected (by simp [Sql.dispatch, same])]
    rfl
  refine ⟨⟨⟨messageId.text, jobId, clock + delay * second, none⟩, by simp [enqueue], id.symm,
    by simp [same], rfl⟩, messageId, id, fresh, by simp [enqueue, drawn]⟩

/-- In RabbitMQ mode `mark_queued` enqueues its job. -/
theorem markQueued_redispatched {s t : Db} {config : Config} {jobId : String}
    {messageId : Uuid} {now clock : Int} {position : Nat}
    (rabbit : config.queueBackend = .rabbitmq)
    (done : s.markQueued config jobId messageId now clock = some (t, .queued (some position)))
    {next : JobRecord} (member : next ∈ t.jobs) (same : next.jobId = jobId)
    : s.Redispatched t next := by
  simp only [markQueued, rabbit] at done
  split at done
  · cases done
  split at done
  · cases done
  split at done
  · cases done
  · rename_i fresh
    cases done
    exact enqueue_redispatched (s.rewrite _) rfl fresh member same

/-- In RabbitMQ mode `fail_job` ends its job or enqueues it again. -/
theorem failJob_redispatched {s t : Db} {config : Config} {jobId token error : String}
    {retryable : Bool} {messageId : Uuid} {now clock : Int} {count : Nat}
    (distinct : s.DistinctIds) (rabbit : config.queueBackend = .rabbitmq)
    (done
      : s.failJob config jobId token error retryable messageId now clock
        = some (t, .rows count))
    (accepted : count ≠ 0) {next : JobRecord} (member : next ∈ t.jobs)
    (same : next.jobId = jobId) (active : next.status.active)
    : s.Redispatched t next := by
  simp only [failJob] at done
  split at done
  · cases done
  split at done
  · cases done
    exact absurd rfl accepted
  rename_i row first
  obtain ⟨stored, selected⟩ := find_spec first
  split at done
  · split at done
    · cases done
    · rename_i fresh
      cases done
      exact enqueue_redispatched (s.rewrite _) rfl fresh member same
  · rename_i ended
    cases done
    obtain ⟨old, oldMember, rfl⟩ := List.mem_map.mp member
    have target : row.jobId = jobId := by
      simp only [Sql.fail, Bool.and_eq_true, decide_eq_true_eq] at selected
      exact selected.1.1
    obtain rfl := distinct.eq oldMember stored
      ((RowUpdate.apply_jobId _ _).symm.trans (same.trans target.symm))
    rw [RowUpdate.apply_selected selected] at active
    simp only [rabbit, decide_true, Bool.true_and, decide_eq_true_eq] at ended
    cases retry : Sql.retries retryable old <;>
      simp [Sql.fail, retry, Status.active] at active ended

-----------------------------------------------------------------------------------------
-- Active rows over one step
-----------------------------------------------------------------------------------------

/-- The row was active under the same dispatch, and the step did not fail it. -/
def StaysActive (s : Db) (event : Event) (next : JobRecord) : Prop :=
  ∃ row ∈ s.jobs,
    RowStep (event.act? row.jobId) row next
    ∧ next.dispatchId = row.dispatchId
    ∧ row.status.active
    ∧ ∀ token, event.act? row.jobId ≠ some (.fail token)

/-- In RabbitMQ mode an active row has a fresh dispatch, or it was active under the same one. -/
theorem Step.active_origin {s t : Db} {event : Event} (step : s.Step event t)
    (consistent : s.Consistent) (rabbit : event.config.queueBackend = .rabbitmq)
    {next : JobRecord} (member : next ∈ t.jobs) (active : next.status.active)
    : s.Redispatched t next ∨ s.StaysActive event next := by
  have kept (row : JobRecord) (stored : row ∈ s.jobs)
      (rowStep : RowStep (event.act? row.jobId) row next)
      (same : next.dispatchId = row.dispatchId)
      : s.Redispatched t next ∨ s.StaysActive event next := by
    rcases rowStep.active_before active with ⟨was, unfailed⟩ | queue | ⟨token, fail⟩
    · exact .inr ⟨row, stored, rowStep, same, was, unfailed⟩
    · obtain ⟨messageId, now, clock, position, op, reply⟩ := Event.act?_queue queue
      simp only [Step, op, reply, exec] at step
      exact .inl (markQueued_redispatched rabbit step member rowStep.jobId)
    · obtain ⟨error, retryable, messageId, now, clock, count, op, reply, accepted⟩ :=
        Event.act?_fail fail
      simp only [Step, op, reply, exec] at step
      exact .inl (failJob_redispatched consistent.distinct rabbit step accepted member
        rowStep.jobId active)
  cases (step.outcome consistent.distinct consistent.held).change with
  | rewrite f entries jobs outbox rows dispatched announced =>
      rw [jobs] at member
      obtain ⟨row, stored, rfl⟩ := List.mem_map.mp member
      rcases dispatched row stored with same | ⟨entry, new, id, job⟩
      · exact kept row stored (rows row stored) same
      · obtain ⟨unpublished, uuid, text, fresh⟩ := announced entry new
        exact .inl ⟨⟨entry, by simp [outbox, new], id, job.trans (rows row stored).jobId.symm,
          unpublished⟩, uuid, id.symm.trans text, fresh⟩
  | insert options jobId now called jobs _ _ _ quiet =>
      simp only [jobs, List.mem_append, List.mem_singleton] at member
      rcases member with old | rfl
      · exact kept next old (by rw [quiet]; exact .keep) rfl
      · simp [JobRecord.created, Status.active] at active
  | remove jobId ttlSeconds now called jobs _ quiet =>
      rw [jobs] at member
      exact kept next (List.mem_filter.mp member).1 (by rw [quiet]; exact .keep) rfl
  | publish messageId now called jobs _ quiet =>
      exact kept next (jobs ▸ member) (by rw [quiet]; exact .keep) rfl

/-- An outbox row waits as long as its job has a row and its publication is not committed. -/
theorem Step.entry_kept {s t : Db} {event : Event} (step : s.Step event t)
    (consistent : s.Consistent) {entry : OutboxRow} (listed : entry ∈ s.outbox)
    (uncommitted : ∀ now, event.op ≠ .outboxPublished entry.messageId now)
    (job : ∃ row ∈ t.jobs, row.jobId = entry.jobId)
    : entry ∈ t.outbox := by
  have distinct := (step.consistent consistent).distinct
  cases (step.outcome consistent.distinct consistent.held).change with
  | rewrite f entries jobs outbox => exact outbox ▸ List.mem_append_left _ listed
  | insert options jobId now called jobs outbox => exact outbox ▸ listed
  | remove jobId ttlSeconds now called jobs outbox quiet deleted =>
      rw [outbox]
      refine List.mem_filter.mpr ⟨listed, ?_⟩
      simp only [Bool.not_eq_true', decide_eq_false_iff_not]
      rintro rfl
      obtain ⟨row, member, same⟩ := job
      obtain ⟨gone, stored, id, selected⟩ := deleted
      rw [jobs] at member
      obtain ⟨old, kept⟩ := List.mem_filter.mp member
      obtain rfl := consistent.distinct.eq old stored (same.trans id.symm)
      simp [id, selected] at kept
  | publish messageId now called jobs outbox =>
      rw [outbox]
      refine List.mem_map.mpr ⟨entry, listed, ?_⟩
      rw [if_neg]
      rintro rfl
      exact uncommitted now called

/-- `begin_attempt` discards a delivery only if its job is not active under that dispatch. -/
theorem brokerJob_discard {s t : Db} {request : BeginRequest} {clock : Int}
    {claimed : Option ClaimedJob} (consistent : s.Consistent)
    (done : s.brokerJob request clock = some (t, .attempt .discard claimed)) {row : JobRecord}
    (member : row ∈ t.jobs) (job : row.jobId = request.jobId)
    (dispatch : row.dispatchId = request.messageId)
    : row.status.active = false := by
  obtain ⟨transaction, _, done⟩ := Option.map_eq_some_iff.mp done
  have stored (same : t.jobs = s.jobs) : s.job? request.jobId = some row := by
    rw [← job]
    exact job?_of_mem consistent.distinct (same ▸ member)
  split at done
  · rename_i missing
    cases done
    simp [stored rfl] at missing
  · rename_i found loaded
    split at done
    · rename_i discarded
      cases done
      obtain rfl := Option.some.inj ((stored rfl).symm.trans loaded)
      exact verdict_discard discarded dispatch
    · cases done
    · cases done
    · cases done
      obtain ⟨old, _, rfl⟩ := List.mem_map.mp member
      rw [RowUpdate.apply_jobId] at job
      rw [RowUpdate.apply_selected (by simp [Sql.brokerExhausted, job])]
      rfl
    · split at done <;> cases done

/-- `broker_seed.sql` leaves no active job without a dispatch. -/
theorem seed_dispatched {s t : Db} {draw : String → Uuid} (done : s.seed draw = some t)
    {next : JobRecord} (member : next ∈ t.jobs) (active : next.status.active)
    : next.dispatchId ≠ "" := by
  unfold seed at done
  dsimp only at done
  split at done
  · cases done
  · cases done
    obtain ⟨row, _, rfl⟩ := List.mem_map.mp member
    cases selected : (Sql.brokerSeed draw).selects row with
    | true =>
        rw [RowUpdate.apply_selected selected]
        exact (draw row.jobId).text_ne_empty
    | false =>
        rw [RowUpdate.apply_unselected selected] at active ⊢
        simpa [Sql.brokerSeed, active] using selected

end Db

end Transcriber
