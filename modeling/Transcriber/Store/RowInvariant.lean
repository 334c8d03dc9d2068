import Transcriber.Store.Invariants

/-! The row invariant of `transcription_jobs`, and why no active job is stuck.
Five columns written by separate statements stay consistent, so that at any moment an active
job can be started, is held, or is reaped.
-/

namespace Transcriber

open Execution

/-- The lease, the finish time and the attempt count of a row agree with its status. -/
structure JobRecord.WellFormed (row : JobRecord) : Prop where
  owned : row.leaseOwner ≠ "" ↔ row.status = .running
  expiring : row.leaseExpiresAt.isSome ↔ row.status = .running
  finished : row.finishedAt.isSome ↔ row.status.terminal
  charged : 0 ≤ row.attempts ∧ row.attempts ≤ row.maxAttempts
  started : row.status = .running ∨ row.status = .done → 1 ≤ row.attempts
  unstarted : row.status.uploading → row.attempts = 0
  startable : row.status = .queued → row.attempts < row.maxAttempts

/-- The row invariant with the bound of `JobStore.__init__` that carries it through
`mark_queued`.
-/
structure JobRecord.Valid (row : JobRecord) : Prop extends row.WellFormed where
  limited : 1 ≤ row.maxAttempts

/-- A created row is unleased, unfinished and uncharged, under the configured limit. -/
theorem JobRecord.created_valid (config : Config) (options : SubmitOptions) (jobId : Uuid)
    (now : Int)
    : (JobRecord.created config options jobId now).Valid := by
  have limit := config.maxAttempts_ge
  refine ⟨⟨?_, ?_, ?_, ?_, ?_, ?_, ?_⟩, limit⟩ <;>
    simp [JobRecord.created, Status.terminal]
  omega

/-- An uploading row is unleased, unfinished and uncharged. -/
theorem JobRecord.Valid.uploading {row : JobRecord} (valid : row.Valid)
    (uploading : row.status.uploading)
    : row.leaseOwner = ""
      ∧ row.leaseExpiresAt = none
      ∧ row.finishedAt = none
      ∧ row.attempts = 0
      ∧ row.status ≠ .running
      ∧ row.status.terminal = false := by
  have idle : row.status ≠ .running := by
    intro running
    simp [running, Status.uploading] at uploading
  have unfinished : row.status.terminal = false := by
    cases status : row.status <;> simp_all [Status.uploading, Status.terminal]
  refine ⟨?_, ?_, ?_, valid.unstarted uploading, idle, unfinished⟩
  · by_contra named
    exact idle (valid.owned.mp named)
  · simpa using mt valid.expiring.mp idle
  · simpa [unfinished] using mt valid.finished.mp

/-- A statement that sets none of the coupled columns, or only renews the lease, keeps the
invariant.
-/
theorem JobRecord.Valid.frame {row next : JobRecord} (valid : row.Valid)
    (status : next.status = row.status) (owner : next.leaseOwner = row.leaseOwner)
    (expires : next.leaseExpiresAt.isSome = row.leaseExpiresAt.isSome)
    (finished : next.finishedAt = row.finishedAt) (attempts : next.attempts = row.attempts)
    (limit : next.maxAttempts = row.maxAttempts)
    : next.Valid := by
  refine ⟨⟨?_, ?_, ?_, ?_, ?_, ?_, ?_⟩, limit ▸ valid.limited⟩
  · rw [owner, status]
    exact valid.owned
  · rw [expires, status]
    exact valid.expiring
  · rw [finished, status]
    exact valid.finished
  · rw [attempts, limit]
    exact valid.charged
  · rw [status, attempts]
    exact valid.started
  · rw [status, attempts]
    exact valid.unstarted
  · rw [status, attempts, limit]
    exact valid.startable

/-- A row that a statement leaves unleased: what it must still show for its new status. -/
theorem JobRecord.Valid.unleased {row next : JobRecord} (valid : row.Valid)
    (idle : next.status ≠ .running) (owner : next.leaseOwner = "")
    (expires : next.leaseExpiresAt = none)
    (finished : next.finishedAt.isSome = next.status.terminal)
    (attempts : next.attempts = row.attempts) (limit : next.maxAttempts = row.maxAttempts)
    (started : next.status = .done → 1 ≤ row.attempts)
    (unstarted : next.status.uploading → row.attempts = 0)
    (startable : next.status = .queued → row.attempts < row.maxAttempts)
    : next.Valid := by
  refine ⟨⟨?_, ?_, ?_, ?_, ?_, ?_, ?_⟩, limit ▸ valid.limited⟩
  · simp [owner, idle]
  · simp [expires, idle]
  · rw [finished]
  · rw [attempts, limit]
    exact valid.charged
  · rintro (running | done)
    · exact absurd running idle
    · exact attempts ▸ started done
  · exact attempts ▸ unstarted
  · rw [attempts, limit]
    exact startable

/-- A started attempt leaves a well-formed row: it was active with an attempt left. -/
theorem JobRecord.Valid.startAttempt {row : JobRecord} (valid : row.Valid)
    (active : row.status.active) (attemptsLeft : row.attempts < row.maxAttempts)
    {token : String} (named : token ≠ "") (workerId instanceId : String) (expires now : Int)
    : (Sql.startAttempt token workerId instanceId expires now row).Valid := by
  have charged := valid.charged
  have unfinished : row.finishedAt = none := by
    have waiting : row.status.terminal = false := by
      cases status : row.status <;> simp_all [Status.active, Status.terminal]
    simpa [waiting] using mt valid.finished.mp
  refine ⟨⟨?_, ?_, ?_, ?_, ?_, ?_, ?_⟩, valid.limited⟩ <;>
    simp [Sql.startAttempt, named, unfinished, Status.terminal, Status.uploading]
  · omega
  · omega

/-- Every row step keeps the row well-formed, by cases on the statement. -/
theorem RowStep.valid {act : Option Act} {row next : JobRecord} (step : RowStep act row next)
    (valid : row.Valid)
    : next.Valid := by
  cases step with
  | keep => exact valid
  | downloading selected =>
      simp only [Sql.updateStatus, Bool.and_eq_true] at selected
      obtain ⟨owner, expires, finished, attempts, _⟩ := valid.uploading selected.2
      exact valid.unleased (by simp [Sql.updateStatus]) owner expires
        (by simp [Sql.updateStatus, finished, Status.terminal]) rfl rfl
        (by simp [Sql.updateStatus]) (fun _ => attempts) (by simp [Sql.updateStatus])
  | interrupted | redispatched => exact valid.frame rfl rfl rfl rfl rfl rfl
  | acknowledged => exact valid.frame rfl rfl rfl rfl rfl rfl
  | queued selected =>
      simp only [Sql.markQueued, Bool.and_eq_true] at selected
      obtain ⟨owner, expires, finished, attempts, _⟩ := valid.uploading selected.2
      have limited := valid.limited
      exact valid.unleased (by simp [Sql.markQueued]) owner expires
        (by simp [Sql.markQueued, finished, Status.terminal]) rfl rfl
        (by simp [Sql.markQueued]) (fun _ => attempts) (fun _ => by omega)
  | cancelled =>
      exact valid.unleased (by simp [Sql.cancelJob]) rfl rfl rfl rfl rfl
        (by simp [Sql.cancelJob]) (by simp [Sql.cancelJob, Status.uploading])
        (by simp [Sql.cancelJob])
  | claimed startable named =>
      simp only [JobRecord.startable, Bool.and_eq_true, decide_eq_true_eq] at startable
      exact valid.startAttempt startable.1.1 startable.1.2 named _ _ _ _
  | @delivered row jobId token leaseSeconds workerId instanceId deliveryId now clock moment
      active attemptsLeft idle named =>
      have started := valid.startAttempt active attemptsLeft named workerId instanceId
        (clock + leaseSeconds * second) now
      exact started.frame rfl rfl rfl rfl rfl rfl
  | renewed selected =>
      simp only [Sql.heartbeat, Bool.and_eq_true] at selected
      have running := JobRecord.holdsLease_running selected.2
      refine valid.frame rfl rfl ?_ rfl rfl rfl
      rw [valid.expiring.mpr running]
      rfl
  | completed selected =>
      simp only [Sql.complete, Bool.and_eq_true] at selected
      have running := JobRecord.holdsLease_running selected.2
      exact valid.unleased (by simp [Sql.complete]) rfl rfl rfl rfl rfl
        (fun _ => valid.started (.inl running)) (by simp [Sql.complete, Status.uploading])
        (by simp [Sql.complete])
  | @failed row jobId token error retryable now dispatchId selected caller =>
      cases retry : Sql.retries retryable row with
      | true =>
          have attemptsLeft : row.attempts < row.maxAttempts := by
            simp only [Sql.retries, Bool.and_eq_true, decide_eq_true_eq] at retry
            exact retry.2
          exact valid.unleased (by simp [Sql.fail, retry]) rfl rfl
            (by simp [Sql.fail, retry, Status.terminal]) rfl rfl (by simp [Sql.fail, retry])
            (by simp [Sql.fail, retry, Status.uploading]) (fun _ => attemptsLeft)
      | false =>
          exact valid.unleased (by simp [Sql.fail, retry]) rfl rfl
            (by simp [Sql.fail, retry, Status.terminal]) rfl rfl (by simp [Sql.fail, retry])
            (by simp [Sql.fail, retry, Status.uploading]) (by simp [Sql.fail, retry])
  | exhausted active spent idle =>
      exact valid.unleased (by simp [Sql.reap]) rfl rfl rfl rfl rfl (by simp [Sql.reap])
        (by simp [Sql.reap, Status.uploading]) (by simp [Sql.reap])

/-- Every row of every reachable state is well-formed. -/
theorem Db.valid_run {clock : Int} {s : Db} {events : List Event}
    (run : Run Db.Step (Db.empty clock) events s)
    : ∀ row ∈ s.jobs, row.Valid :=
  rows_run run (.empty clock) (by simp [Db.empty]) JobRecord.created_valid
    (fun _ _ _ step => step.valid)

-----------------------------------------------------------------------------------------
-- No active job is stuck
-----------------------------------------------------------------------------------------

/-- Exactly one of three conditions holds. -/
def ExactlyOne (first second third : Prop) : Prop :=
  (first ∨ second ∨ third)
  ∧ ¬(first ∧ second)
  ∧ ¬(first ∧ third)
  ∧ ¬(second ∧ third)

/-- Away from its expiry an active row is startable, held or due for `reap`. -/
theorem JobRecord.WellFormed.unstuck {row : JobRecord} (wellFormed : row.WellFormed)
    (active : row.status.active) {moment : Int} (away : row.leaseExpiresAt ≠ some moment)
    : ExactlyOne (row.startable moment) (row.holdsLease moment)
        ((Sql.reap moment).selects row) := by
  have running : row.status = .queued ∨ row.status = .running := by
    cases status : row.status <;> simp_all [Status.active]
  rcases running with queued | running
  · have attemptsLeft := wellFormed.startable queued
    simp [ExactlyOne, JobRecord.startable, JobRecord.holdsLease, Sql.reap, queued,
      Status.active, attemptsLeft]
  · obtain ⟨expires, set⟩ := Option.isSome_iff_exists.mp (wellFormed.expiring.mpr running)
    have apart : expires ≠ moment := by simpa [set] using away
    simp only [ExactlyOne, JobRecord.startable, JobRecord.holdsLease, Sql.reap, running, set,
      Status.active, isAfter, isPast, Option.any_some, Option.all_some, Bool.and_eq_true,
      Bool.or_eq_true, decide_eq_true_eq]
    grind

/-- In every state that any sequence of operations reaches from an empty table, at any clock
readings, every row is well-formed and no active job is stuck.
-/
theorem Db.row_invariant {clock : Int} {s : Db} {events : List Event}
    (run : Run Db.Step (Db.empty clock) events s)
    : ∀ row ∈ s.jobs,
        row.WellFormed
        ∧ (row.status.active
            → ∀ moment,
                row.leaseExpiresAt ≠ some moment
                → ExactlyOne (row.startable moment) (row.holdsLease moment)
                    ((Sql.reap moment).selects row)) := by
  intro row member
  have valid := valid_run run row member
  exact ⟨valid.toWellFormed, fun active _ away => valid.unstuck active away⟩

/-- A delivered job is running, well-formed and not stuck. -/
theorem Db.row_invariant_delivered
    : let s := ((Db.empty 0).play deliverOnce).2
      s.jobs.map JobRecord.status = [.running]
        ∧ ∀ row ∈ s.jobs,
            row.WellFormed
            ∧ (row.status.active
                → ∀ moment,
                    row.leaseExpiresAt ≠ some moment
                    → ExactlyOne (row.startable moment) (row.holdsLease moment)
                        ((Sql.reap moment).selects row)) :=
  ⟨by decide +kernel, row_invariant (play_run (Db.empty 0) deliverOnce)⟩

end Transcriber
