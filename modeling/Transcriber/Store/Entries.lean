import Transcriber.Store.Observations

/-! What the trigger makes of one changed row.
Only two operations exhaust a job, so the error text that the trigger tests names the right rows;
every statement is then one of nine entries in the books.
-/

namespace Transcriber

-----------------------------------------------------------------------------------------
-- Which steps exhaust a job
-----------------------------------------------------------------------------------------

/-- The job failed because no attempt was left. -/
def JobRecord.spent (row : JobRecord) : Prop :=
  row.status = .failed ∧ row.error = "attempts_exhausted"

namespace Db

/-- Every spent job of the later state was spent before. -/
def SpendsNone (s t : Db) : Prop :=
  ∀ next ∈ t.jobs, next.spent → ∃ row ∈ s.jobs, row.jobId = next.jobId ∧ row.spent

theorem SpendsNone.of_jobs {s t : Db} (jobs : t.jobs = s.jobs) : s.SpendsNone t := by
  intro next member spent
  exact ⟨next, jobs ▸ member, rfl, spent⟩

theorem SpendsNone.trans {s t u : Db} (first : s.SpendsNone t) (second : t.SpendsNone u)
    : s.SpendsNone u := by
  intro next member spent
  obtain ⟨middle, stored, same, spent⟩ := second next member spent
  obtain ⟨row, stored, same', spent⟩ := first middle stored spent
  exact ⟨row, stored, same'.trans same, spent⟩

/-- A statement that leaves no row spent unless it was. -/
theorem SpendsNone.rewrite {s t : Db} {statement : RowUpdate}
    (jobs : t.jobs = s.jobs.map statement.apply)
    (spends : ∀ row, (statement.assign row).spent → row.spent)
    : s.SpendsNone t := by
  intro next member spent
  rw [jobs] at member
  obtain ⟨row, stored, rfl⟩ := List.mem_map.mp member
  refine ⟨row, stored, (statement.apply_jobId row).symm, ?_⟩
  cases selected : statement.selects row with
  | false => rwa [RowUpdate.apply_unselected selected] at spent
  | true =>
      rw [RowUpdate.apply_selected selected] at spent
      exact spends row spent

/-- A dispatch sets neither the status nor the error. -/
theorem SpendsNone.enqueue {s t : Db} {jobId : String} {messageId : Uuid} {delay clock : Int}
    (kept : s.SpendsNone t)
    : s.SpendsNone (t.enqueue jobId messageId delay clock) :=
  kept.trans (.rewrite rfl (fun _ spent => spent))

theorem execute_spends {s t : Db} {statement : RowUpdate} {reply : Reply}
    (done : s.execute statement = some (t, reply))
    (spends : ∀ row, (statement.assign row).spent → row.spent)
    : s.SpendsNone t := by
  obtain ⟨_, rfl, _⟩ := execute_spec done
  exact .rewrite rfl spends

theorem seed_spends {s t : Db} {draw : String → Uuid} (done : s.seed draw = some t)
    : s.SpendsNone t := by
  simp only [seed] at done
  split at done
  · cases done
  · cases done
    exact .rewrite rfl (fun _ spent => spent)

theorem markQueued_spends {s t : Db} {config : Config} {jobId : String} {messageId : Uuid}
    {now clock : Int} {reply : Reply}
    (done : s.markQueued config jobId messageId now clock = some (t, reply))
    : s.SpendsNone t := by
  have rewritten : s.SpendsNone (s.rewrite (Sql.markQueued jobId now)) :=
    .rewrite rfl (fun _ spent => by simp [JobRecord.spent, Sql.markQueued] at spent)
  simp only [markQueued] at done
  split at done
  · cases done
  · split at done
    · cases done
      exact .of_jobs rfl
    · split at done
      · cases done
        exact rewritten
      · split at done
        · cases done
        · cases done
          exact rewritten.enqueue

/-- A failure with another text spends no job. -/
theorem failJob_spends {s t : Db} {config : Config} {jobId token error : String}
    {retryable : Bool} {messageId : Uuid} {now clock : Int} {reply : Reply}
    (done : s.failJob config jobId token error retryable messageId now clock = some (t, reply))
    (text : error ≠ "attempts_exhausted")
    : s.SpendsNone t := by
  have rewritten : s.SpendsNone (s.rewrite (Sql.fail jobId token error retryable now)) :=
    .rewrite rfl (fun _ spent => absurd spent.2 text)
  simp only [failJob] at done
  split at done
  · cases done
  · split at done
    · cases done
      exact .of_jobs rfl
    · split at done
      · split at done
        · cases done
        · cases done
          exact rewritten.enqueue
      · cases done
        exact rewritten

/-- A start leaves its job running. -/
theorem SpendsNone.start {s t : Db} {statement : RowUpdate}
    (jobs : t.jobs = s.jobs.map statement.apply)
    (starts : ∀ row, (statement.assign row).status = .running)
    : s.SpendsNone t :=
  .rewrite jobs (fun row spent => by simp [JobRecord.spent, starts row] at spent)

/-- Only `reap`, the exhaustion of `begin_attempt` and a failure with that text spend a job, by
cases on the operation.
-/
theorem Step.spends {s t : Db} {event : Event} (step : s.Step event t) (coded : event.coded)
    (other : event.op.exhausts = false)
    : s.SpendsNone t := by
  obtain ⟨config, op, reply⟩ := event
  simp only [Db.Step] at step
  cases op with
  | tick | reportAvailability | outboxPublished =>
      cases step
      exact .of_jobs rfl
  | initSchema draw =>
      simp only [exec, initSchema] at step
      split at step
      · cases step
        exact .of_jobs rfl
      · obtain ⟨next, seeded, same⟩ := Option.map_eq_some_iff.mp step
        cases same
        exact seed_spends seeded
  | createJob options jobId now =>
      simp only [exec, createJob] at step
      split at step
      · cases step
      · split at step
        · cases step
          exact .of_jobs rfl
        · cases step
          intro next member spent
          rcases List.mem_append.mp member with old | new
          · exact ⟨next, old, rfl, spent⟩
          · obtain rfl := List.mem_singleton.mp new
            simp [JobRecord.spent, JobRecord.created] at spent
  | markDownloading | markUploadInterrupted | cancelJob | completeJob =>
      refine execute_spends step (fun row spent => ?_)
      simp [JobRecord.spent, Sql.updateStatus, Sql.uploadInterrupted, Sql.cancelJob,
        Sql.complete] at spent
  | acknowledgeJob => exact execute_spends step (fun _ spent => spent)
  | markQueued => exact markQueued_spends step
  | claimLegacy workerId instanceId fallback uuid locked now =>
      simp only [exec, claimLegacy] at step
      split at step
      · cases step
      · split at step
        · cases step
        · split at step
          · cases step
            exact .of_jobs rfl
          · split at step
            · cases step
              exact .of_jobs rfl
            · cases step
              exact .start rfl (fun _ => rfl)
  | heartbeatLegacy jobId token progress now clock =>
      simp only [exec, heartbeatLegacy] at step
      split at step
      · cases step
      · exact execute_spends step (fun _ spent => spent)
  | failJob jobId token error retryable messageId now clock =>
      refine failJob_spends step ?_
      rintro rfl
      simp [Event.coded, failCodes] at coded
  | reap | brokerJob => simp [Op.exhausts] at other
  | cleanup jobId ttlSeconds now =>
      simp only [exec, cleanup] at step
      split at step
      · cases step
      · split at step
        · cases step
          exact .of_jobs rfl
        · cases step
          intro next member spent
          exact ⟨next, (List.mem_filter.mp member).1, rfl, spent⟩
  | lockScheduler task now =>
      simp only [exec, lockScheduler] at step
      split at step
      · cases step
      · cases step
        exact .of_jobs rfl
  | rollback =>
      simp only [exec] at step
      split at step
      · cases step
        exact .of_jobs rfl
      · cases step
  | heartbeat jobId token progress clock =>
      obtain ⟨transaction, _, same⟩ := Option.map_eq_some_iff.mp step
      cases same
      exact .rewrite rfl (fun _ spent => spent)
  | selectWorker workerId instanceId clock =>
      obtain ⟨transaction, _, same⟩ := Option.map_eq_some_iff.mp step
      dsimp only at same
      split at same <;>
      · cases same
        exact .of_jobs rfl
  | claimSlot workerId instanceId uuid locked clock =>
      obtain ⟨transaction, _, step⟩ := Option.bind_eq_some_iff.mp step
      split at step
      · cases step
      · split at step
        · cases step
          exact .of_jobs rfl
        · cases step
          exact .start rfl (fun _ => rfl)
  | brokerCapacity request clock =>
      obtain ⟨transaction, _, step⟩ := Option.bind_eq_some_iff.mp step
      split at step
      · split at step
        · cases step
        · split at step
          · cases step
            exact .of_jobs rfl
          · split at step <;>
            · cases step
              exact .of_jobs rfl
      · cases step
  | brokerStart request uuid clock =>
      obtain ⟨transaction, _, step⟩ := Option.bind_eq_some_iff.mp step
      split at step
      · split at step
        · cases step
        · cases step
          exact .start rfl (fun _ => rfl)
      · cases step
  | registerConsumer workerId instanceId clock =>
      obtain ⟨transaction, _, step⟩ := Option.bind_eq_some_iff.mp step
      split at step
      · split at step
        · cases step
        · cases step
          exact .of_jobs rfl
      · cases step
  | brokerAdmit workerId instanceId clock =>
      obtain ⟨transaction, _, same⟩ := Option.map_eq_some_iff.mp step
      split at same
      · cases same
        exact .of_jobs rfl
      · split at same <;>
        · cases same
          exact .of_jobs rfl
  | reconcile draw clock =>
      obtain ⟨_, _, step⟩ := Option.bind_eq_some_iff.mp step
      obtain ⟨next, seeded, same⟩ := Option.map_eq_some_iff.mp step
      cases same
      have emptied : s.SpendsNone (s.rewrite (Sql.brokerReconcile clock)) :=
        .rewrite rfl (fun _ spent => spent)
      exact (emptied.trans (seed_spends seeded)).trans (.of_jobs rfl)

/-- What an exhausting step fails, it spends: its one statement sets that text. -/
theorem Step.exhausts_text {s t : Db} {event : Event} (step : s.Step event t)
    (exhausts : event.op.exhausts)
    : ∀ next ∈ t.jobs, next ∈ s.jobs ∨ next.spent := by
  obtain ⟨config, op, reply⟩ := event
  simp only [Db.Step] at step
  have applied (statement : RowUpdate) (spends : ∀ row, (statement.assign row).spent)
      : ∀ next ∈ s.jobs.map statement.apply, next ∈ s.jobs ∨ next.spent := by
    intro next member
    obtain ⟨row, stored, rfl⟩ := List.mem_map.mp member
    cases selected : statement.selects row with
    | false =>
        rw [RowUpdate.apply_unselected selected]
        exact .inl stored
    | true =>
        rw [RowUpdate.apply_selected selected]
        exact .inr (spends row)
  cases op with
  | reap jobId now =>
      obtain ⟨_, rfl, _⟩ := execute_spec step
      exact applied _ (fun _ => ⟨rfl, rfl⟩)
  | brokerJob request clock =>
      obtain ⟨transaction, _, same⟩ := Option.map_eq_some_iff.mp step
      split at same
      · cases same
        exact fun _ member => .inl member
      · split at same
        case h_4 =>
            cases same
            exact applied _ (fun _ => ⟨rfl, rfl⟩)
        case h_5 =>
            split at same <;>
            · cases same
              exact fun _ member => .inl member
        all_goals
          cases same
          exact fun _ member => .inl member
  | _ => simp [Op.exhausts] at exhausts

end Db

-----------------------------------------------------------------------------------------
-- Entries
-----------------------------------------------------------------------------------------

/-- What the trigger made of one changed row, by what happened to the job. -/
inductive Entry (act : Option Act) (exhausts : Bool) (row next : JobRecord)
    : List Observation → Prop
  | silent (leased : ∀ workerId, next.leasedBy workerId = row.leasedBy workerId)
    (terminal : next.status.terminal = row.status.terminal)
    (unstarted : act.any Act.starts = false)
    (alive : row.status = .running → next.status ≠ .failed)
    : Entry act exhausts row next []
  | begun (first : ObservedEvent) (wait : Int) (idle : row.status ≠ .running)
    (unfinished : row.status.terminal = false)
    (running : next.status = .running) (started : act.any Act.starts)
    (kind : first = .retries ∨ first = .queueWait)
    : Entry act exhausts row next
        [⟨splitPart next.leaseOwner, .attempts, 0⟩, ⟨splitPart next.leaseOwner, first, wait⟩]
  | reclaimed (first : ObservedEvent) (wait : Int) (was : row.status = .running)
    (running : next.status = .running) (started : act.any Act.starts)
    (kind : first = .retries ∨ first = .queueWait)
    : Entry act exhausts row next
        [⟨splitPart next.leaseOwner, .attempts, 0⟩, ⟨splitPart next.leaseOwner, first, wait⟩,
          ⟨splitPart row.leaseOwner, .leaseExpirations, 0⟩]
  | completed (durations : List Observation) (was : row.status = .running)
    (done : next.status = .done) (unstarted : act.any Act.starts = false)
    (kind : ∀ call ∈ durations, call.event = .processing ∨ call.event = .turnaround)
    : Entry act exhausts row next (⟨splitPart row.leaseOwner, .completed, 0⟩ :: durations)
  | retried (was : row.status = .running) (queued : next.status = .queued)
    (unstarted : act.any Act.starts = false)
    : Entry act exhausts row next [⟨splitPart row.leaseOwner, .attemptFailures, 0⟩]
  | failed (was : row.status = .running) (failed : next.status = .failed)
    (unstarted : act.any Act.starts = false) (unspent : exhausts = false)
    : Entry act exhausts row next
        [⟨splitPart row.leaseOwner, .attemptFailures, 0⟩, ⟨splitPart row.leaseOwner, .failed, 0⟩]
  | exhausted (was : row.status = .running) (failed : next.status = .failed)
    (unstarted : act.any Act.starts = false) (spent : exhausts)
    : Entry act exhausts row next
        [⟨splitPart row.leaseOwner, .leaseExpirations, 0⟩,
          ⟨splitPart row.leaseOwner, .attemptFailures, 0⟩, ⟨splitPart row.leaseOwner, .failed, 0⟩]
  | cancelled (unfinished : row.status.terminal = false) (failed : next.status = .failed)
    (unstarted : act.any Act.starts = false) (unspent : row.status = .running → exhausts = false)
    : Entry act exhausts row next [⟨splitPart row.leaseOwner, .cancelled, 0⟩]
  | rejected (idle : row.status ≠ .running) (unfinished : row.status.terminal = false)
    (failed : next.status = .failed) (unstarted : act.any Act.starts = false)
    : Entry act exhausts row next [⟨splitPart row.leaseOwner, .failed, 0⟩]

/-- A statement that sets neither `status`, `attempts` nor the lease owner. -/
theorem Entry.of_unchanged {act : Option Act} {exhausts : Bool} {row next : JobRecord}
    (now : Int) (status : next.status = row.status) (owner : next.leaseOwner = row.leaseOwner)
    (attempts : next.attempts = row.attempts) (unstarted : act.any Act.starts = false)
    : Entry act exhausts row next (observeJob now row next) := by
  rw [observeJob_unchanged status attempts]
  refine .silent (fun _ => ?_) (by rw [status]) unstarted ?_
  · simp only [JobRecord.leasedBy, status, owner]
  · intro running
    simp [status, running]

/-- A status change before the upload is queued. -/
theorem Entry.of_uploading {act : Option Act} {exhausts : Bool} {row next : JobRecord}
    (now : Int) (before : row.status.uploading)
    (after : next.status = .downloading ∨ next.status = .queued)
    (attempts : next.attempts = row.attempts) (unstarted : act.any Act.starts = false)
    : Entry act exhausts row next (observeJob now row next) := by
  have was : row.status ≠ .running ∧ row.status.terminal = false := by
    cases status : row.status <;> simp_all [Status.uploading, Status.terminal]
  have idle : next.status ≠ .running ∧ next.status ≠ .done ∧ next.status ≠ .failed
      ∧ next.status.terminal = false := by
    rcases after with status | status <;> simp [status, Status.terminal]
  have nothing : observeJob now row next = [] := by
    simp [observeJob, attempts, was.1, idle.2.1, idle.2.2.1]
  rw [nothing]
  refine .silent (fun _ => ?_) (by rw [idle.2.2.2, was.2]) unstarted (fun _ => idle.2.2.1)
  simp [JobRecord.leasedBy, was.1, idle.1]

/-- An accepted start of an active row. -/
theorem Entry.of_start {act : Option Act} {exhausts : Bool} {row next : JobRecord} (now : Int)
    (active : row.status.active) (running : next.status = .running)
    (attempts : next.attempts = row.attempts + 1) (started : act.any Act.starts)
    : Entry act exhausts row next (observeJob now row next) := by
  have raised : row.attempts < next.attempts := by omega
  have calls : ∃ first wait,
      (first = ObservedEvent.retries ∨ first = .queueWait)
      ∧ observeJob now row next
        = [⟨splitPart next.leaseOwner, .attempts, 0⟩, ⟨splitPart next.leaseOwner, first, wait⟩]
          ++ (if row.status = .running then [⟨splitPart row.leaseOwner, .leaseExpirations, 0⟩]
            else []) := by
    by_cases again : 1 < next.attempts
    · exact ⟨.retries, 0, .inl rfl, by simp [observeJob, raised, again, running]⟩
    · exact ⟨.queueWait, now - next.createdAt, .inr rfl, by
        simp [observeJob, raised, again, running]⟩
  obtain ⟨first, wait, kind, calls⟩ := calls
  rw [calls]
  cases status : row.status with
  | queued =>
      exact .begun first wait (by simp [status]) (by simp [status, Status.terminal]) running
        started kind
  | running => exact .reclaimed first wait status running started kind
  | accepted | downloading | done | failed => simp [status, Status.active] at active

/-- A completion under a lease: the durations follow the count. -/
theorem Entry.of_done {act : Option Act} {exhausts : Bool} {row next : JobRecord} (now : Int)
    (was : row.status = .running) (done : next.status = .done)
    (attempts : next.attempts = row.attempts) (unstarted : act.any Act.starts = false)
    : Entry act exhausts row next (observeJob now row next) := by
  have calls : observeJob now row next
      = ⟨splitPart row.leaseOwner, .completed, 0⟩
        :: (row.attemptStartedAt.toList.map (fun started =>
            ⟨splitPart row.leaseOwner, .processing, now - started⟩)
          ++ [⟨splitPart row.leaseOwner, .turnaround, now - next.createdAt⟩]) := by
    simp [observeJob, was, done, attempts]
  rw [calls]
  refine .completed _ was done unstarted ?_
  intro call member
  rcases List.mem_append.mp member with first | last
  · obtain ⟨_, _, rfl⟩ := List.mem_map.mp first
    exact .inl rfl
  · obtain rfl := List.mem_singleton.mp last
    exact .inr rfl

/-- A failure under a lease that is no cancellation. -/
theorem Entry.of_failed {act : Option Act} {exhausts : Bool} {row next : JobRecord} (now : Int)
    (was : row.status = .running) (failed : next.status = .failed)
    (attempts : next.attempts = row.attempts) (unstarted : act.any Act.starts = false)
    (kept : next.error ≠ "cancelled")
    (spent : exhausts = decide (next.error = "attempts_exhausted"))
    : Entry act exhausts row next (observeJob now row next) := by
  by_cases text : next.error = "attempts_exhausted"
  · have calls : observeJob now row next
        = [⟨splitPart row.leaseOwner, .leaseExpirations, 0⟩,
          ⟨splitPart row.leaseOwner, .attemptFailures, 0⟩,
          ⟨splitPart row.leaseOwner, .failed, 0⟩] := by
      simp [observeJob, was, failed, attempts, text]
    rw [calls]
    exact .exhausted was failed unstarted (by simpa [text] using spent)
  · have calls : observeJob now row next
        = [⟨splitPart row.leaseOwner, .attemptFailures, 0⟩,
          ⟨splitPart row.leaseOwner, .failed, 0⟩] := by
      simp [observeJob, was, failed, attempts, text, kept]
    rw [calls]
    exact .failed was failed unstarted (by simpa [text] using spent)

/-- Every row step is one of these entries, by cases on the statement. -/
theorem RowStep.entry {act : Option Act} {row next : JobRecord} (step : RowStep act row next)
    (valid : row.WellFormed) {exhausts : Bool}
    (coded
      : ∀ token,
          act = some (.fail token)
          → next.error ≠ "cancelled" ∧ next.error ≠ "attempts_exhausted" ∧ exhausts = false)
    (ended
      : act = none
        → row.status = .running
        → next.status = .failed
        → exhausts = decide (next.error = "attempts_exhausted"))
    (now : Int)
    : Entry act exhausts row next (observeJob now row next) := by
  cases step with
  | keep | interrupted | acknowledged | redispatched | renewed =>
      exact .of_unchanged now rfl rfl rfl rfl
  | downloading selected =>
      simp only [Sql.updateStatus, Bool.and_eq_true] at selected
      exact .of_uploading now selected.2 (.inl rfl) rfl rfl
  | queued selected =>
      simp only [Sql.markQueued, Bool.and_eq_true] at selected
      exact .of_uploading now selected.2 (.inr rfl) rfl rfl
  | claimed startable =>
      simp only [JobRecord.startable, Bool.and_eq_true] at startable
      exact .of_start now startable.1.1 rfl rfl rfl
  | delivered active => exact .of_start now active rfl rfl rfl
  | completed selected =>
      simp only [Sql.complete, Bool.and_eq_true] at selected
      exact .of_done now (JobRecord.holdsLease_running selected.2) rfl rfl rfl
  | @cancelled _ jobId moment selected =>
      simp only [Sql.cancelJob, Bool.and_eq_true, Bool.not_eq_true'] at selected
      have calls : observeJob now row ((Sql.cancelJob jobId moment).assign row)
          = [⟨splitPart row.leaseOwner, .cancelled, 0⟩] := by
        cases status : row.status <;> simp_all [observeJob, Sql.cancelJob, Status.terminal]
      rw [calls]
      refine .cancelled selected.2 rfl rfl (fun was => ?_)
      simpa [Sql.cancelJob] using ended rfl was rfl
  | @failed _ jobId token error retryable moment dispatchId selected caller =>
      obtain ⟨uncancelled, unexhausted, unspent⟩ := coded token rfl
      simp only [Sql.fail] at uncancelled unexhausted
      simp only [Sql.fail, Bool.and_eq_true, Bool.or_eq_true, decide_eq_true_eq] at selected
      rcases selected.2 with leased | ⟨anonymous, uploading⟩
      · have was := JobRecord.holdsLease_running leased
        cases again : Sql.retries retryable row with
        | true =>
            have calls : observeJob now row
                { (Sql.fail jobId token error retryable moment).assign row with dispatchId }
                = [⟨splitPart row.leaseOwner, .attemptFailures, 0⟩] := by
              simp [observeJob, Sql.fail, was, again, uncancelled]
            rw [calls]
            exact .retried was (by simp [Sql.fail, again]) rfl
        | false =>
            exact .of_failed now was (by simp [Sql.fail, again]) rfl rfl uncancelled
              (by simp [Sql.fail, unexhausted, unspent])
      · have given : Sql.retries retryable row = false := by
          simp [Sql.retries, caller anonymous]
        have calls : observeJob now row
            { (Sql.fail jobId token error retryable moment).assign row with dispatchId }
            = [⟨splitPart row.leaseOwner, .failed, 0⟩] := by
          cases status : row.status <;>
            simp_all [observeJob, Sql.fail, Status.uploading]
        rw [calls]
        refine .rejected ?_ ?_ (by simp [Sql.fail, given]) rfl <;>
          cases status : row.status <;> simp_all [Status.uploading, Status.terminal]
  | exhausted active spent =>
      have was : row.status = .running := by
        cases status : row.status with
        | running => rfl
        | queued =>
            have waiting := valid.startable status
            omega
        | accepted | downloading | done | failed => simp [status, Status.active] at active
      exact .of_failed now was rfl rfl rfl (by simp [Sql.reap]) (ended rfl was rfl)

-----------------------------------------------------------------------------------------
-- Entries of a step
-----------------------------------------------------------------------------------------

namespace Db

/-- An accepted failure stores the error of its call. -/
theorem failJob_error {s t : Db} {config : Config} {jobId token error : String}
    {retryable : Bool} {messageId : Uuid} {now clock : Int} {count : Nat}
    (distinct : s.DistinctIds)
    (done : s.failJob config jobId token error retryable messageId now clock = some (t, .rows count))
    (accepted : count ≠ 0)
    : ∀ next ∈ t.jobs, next.jobId = jobId → next.error = error := by
  let statement := Sql.fail jobId token error retryable now
  have rewritten (found : JobRecord) (stored : found ∈ s.jobs) (selected : statement.selects found)
      : ∀ next ∈ (s.rewrite statement).jobs, next.jobId = jobId → next.error = error := by
    have named : found.jobId = jobId := by
      simp only [statement, Sql.fail, Bool.and_eq_true, decide_eq_true_eq] at selected
      exact selected.1.1
    intro next member same
    obtain ⟨row, stored', rfl⟩ := List.mem_map.mp member
    rw [RowUpdate.apply_jobId] at same
    obtain rfl := distinct.eq stored' stored (same.trans named.symm)
    rw [RowUpdate.apply_selected selected]
    rfl
  have dispatched (db : Db) (delay : Int)
      (kept : ∀ next ∈ db.jobs, next.jobId = jobId → next.error = error)
      : ∀ next ∈ (db.enqueue jobId messageId delay clock).jobs,
          next.jobId = jobId → next.error = error := by
    intro next member same
    obtain ⟨row, stored, rfl⟩ := List.mem_map.mp member
    rw [RowUpdate.apply_jobId] at same
    rw [← kept row stored same]
    unfold RowUpdate.apply
    split <;> rfl
  simp only [failJob] at done
  split at done
  · cases done
  · split at done
    · cases done
      exact absurd rfl accepted
    · rename_i found search
      obtain ⟨stored, selected⟩ := find_spec search
      split at done
      · split at done
        · cases done
        · cases done
          exact dispatched _ _ (rewritten found stored selected)
      · cases done
        exact rewritten found stored selected

/-- What the trigger makes of each row that a step changes. -/
theorem Step.entry {s t : Db} {event : Event} (step : s.Step event t) (coded : event.coded)
    (distinct : s.DistinctIds) {row next : JobRecord} (member : row ∈ s.jobs)
    (member' : next ∈ t.jobs) (valid : row.WellFormed)
    (change : RowStep (event.act? row.jobId) row next) (now : Int)
    : Entry (event.act? row.jobId) event.op.exhausts row next (observeJob now row next) := by
  refine change.entry valid ?_ ?_ now
  · intro token accepted
    obtain ⟨error, retryable, messageId, moment, clock, count, called, replied, counted⟩ :=
      Event.act?_fail accepted
    have known : error ∈ failCodes := by
      simpa [Event.coded, called] using coded
    have stored : next.error = error := by
      have executed : s.exec event.config event.op = some (t, event.reply) := step
      rw [called, replied] at executed
      exact failJob_error distinct executed counted next member' change.jobId
    rw [stored, called]
    refine ⟨?_, ?_, rfl⟩ <;>
    · rintro rfl
      simp [failCodes] at known
  · intro _ running failed
    have same (other : JobRecord) (stored : other ∈ s.jobs) (named : other.jobId = next.jobId)
        : other = row :=
      distinct.eq stored member (named.trans change.jobId)
    cases exhausts : event.op.exhausts with
    | true =>
        rcases step.exhausts_text exhausts next member' with old | spent
        · rw [same next old rfl, running] at failed
          cases failed
        · simp [spent.2]
    | false =>
        have different : next.error ≠ "attempts_exhausted" := by
          intro text
          obtain ⟨other, stored, named, spent⟩ :=
            step.spends coded exhausts next member' ⟨failed, text⟩
          rw [same other stored named] at spent
          rw [spent.1] at running
          cases running
        simp [different]

end Db

end Transcriber
