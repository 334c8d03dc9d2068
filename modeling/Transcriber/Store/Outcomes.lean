import Transcriber.Store.Inversion

/-! The outcome of every operation of the store.
One lemma per operation says what it does to the tables; together they invert the step
function.
-/

namespace Transcriber

namespace Db

-----------------------------------------------------------------------------------------
-- Transactions of one statement
-----------------------------------------------------------------------------------------

/-- An executed statement waited for no row lock and reports how many rows it selected. -/
theorem execute_spec {s t : Db} {statement : RowUpdate} {reply : Reply}
    (done : s.execute statement = some (t, reply))
    : s.blocks statement.selects = false
      ∧ t = s.rewrite statement
      ∧ reply = .rows (s.jobs.countP statement.selects) := by
  unfold execute at done
  split at done
  · cases done
  · rename_i free
    cases done
    exact ⟨by simpa using free, rfl, rfl⟩

/-- A rewriting of unlocked rows keeps the meaning of the row lock. -/
theorem LockHeld.rewrite {s : Db} (held : s.LockHeld) {statement : RowUpdate}
    (free : s.blocks statement.selects = false)
    : (s.rewrite statement).LockHeld :=
  held.frame rfl
    (frame_rows rfl (fun row => statement.apply_jobId row) free
      (fun _ _ unselected => RowUpdate.apply_unselected unselected))

/-- A step aims at one job when its act there depends on the count of selected rows. -/
theorem Targets.of_count {s : Db} {event : Event} {selects : JobRecord → Bool}
    {jobId : String} {act : Option Act} (only : ∀ row, selects row → row.jobId = jobId)
    (acts
      : ∀ target,
          event.act? target
          = if jobId = target ∧ s.jobs.countP selects ≠ 0 then act else none)
    : s.Targets event selects jobId act := by
  refine ⟨only, ?_, ?_, ?_⟩
  · intro row member selected
    have counted := List.countP_pos_iff.mpr ⟨row, member, selected⟩
    rw [acts, if_pos ⟨rfl, counted.ne'⟩]
  · intro unselected
    rw [acts, if_neg]
    rintro ⟨_, some⟩
    apply some
    apply List.countP_eq_zero.mpr
    intro row member
    simp [unselected row member]
  · intro target differs
    rw [acts, if_neg]
    exact fun same => differs same.1.symm

/-- The outcome of a transaction of one statement on one job. -/
theorem execute_outcome {s t : Db} {event : Event} {statement : RowUpdate} (jobId : String)
    (act : Option Act) (distinct : s.DistinctIds) (held : s.LockHeld)
    (done : s.execute statement = some (t, event.reply))
    (only : ∀ row, statement.selects row → row.jobId = jobId)
    (acts
      : event.reply = .rows (s.jobs.countP statement.selects)
        → ∀ target,
            event.act? target
            = if jobId = target ∧ s.jobs.countP statement.selects ≠ 0 then act else none)
    (chosen : ∀ row, statement.selects row → RowStep act row (statement.assign row))
    (keepsDispatch : ∀ row, (statement.assign row).dispatchId = row.dispatchId)
    (starts : ∀ token deliveryId, act ≠ some (.start token deliveryId))
    : s.Outcome event t := by
  obtain ⟨free, rfl, replied⟩ := execute_spec done
  exact Outcome.of_statement distinct (held.rewrite free) rfl rfl (fun _ old => old)
    (Targets.of_count only (acts replied)) (fun row _ => chosen row) keepsDispatch
    (fun token deliveryId started => absurd started (starts token deliveryId))

-----------------------------------------------------------------------------------------
-- Dispatches
-----------------------------------------------------------------------------------------

/-- The outcome of a statement whose transaction also enqueues the job's next dispatch. -/
theorem enqueue_outcome {s : Db} {event : Event} {statement : RowUpdate} {jobId : String}
    {act : Option Act} {messageId : Uuid} {delay clock : Int} {found : JobRecord}
    (distinct : s.DistinctIds) (held : s.LockHeld)
    (free : s.blocks statement.selects = false) (fresh : messageId ∉ s.drawn)
    (stored : found ∈ s.jobs) (selected : statement.selects found)
    (targets : s.Targets event statement.selects jobId act)
    (chosen
      : ∀ row,
          statement.selects row
          → RowStep act row
              ((Sql.dispatch messageId.text jobId).assign (statement.assign row)))
    (starts : ∀ token deliveryId, act ≠ some (.start token deliveryId))
    : s.Outcome event ((s.rewrite statement).enqueue jobId messageId delay clock) := by
  let dispatch := Sql.dispatch messageId.text jobId
  let f := fun row => dispatch.apply (statement.apply row)
  have jobs : ((s.rewrite statement).enqueue jobId messageId delay clock).jobs = s.jobs.map f := by
    simp [enqueue, rewrite, f, dispatch, Function.comp_def]
  have hit (row : JobRecord) (chosen : statement.selects row)
      : f row = dispatch.assign (statement.assign row) := by
    have same : dispatch.selects (statement.assign row) := by
      simp [dispatch, Sql.dispatch, statement.keepsId, targets.only row chosen]
    simp only [f, RowUpdate.apply_selected chosen, RowUpdate.apply_selected same]
  have missed (row : JobRecord) (member : row ∈ s.jobs) (other : statement.selects row = false)
      : f row = row := by
    have differs : row.jobId ≠ jobId := by
      intro same
      have equal := distinct.eq member stored (same.trans (targets.only found selected).symm)
      simp [equal, selected] at other
    have apart : dispatch.selects row = false := by simp [dispatch, Sql.dispatch, differs]
    simp only [f, RowUpdate.apply_unselected other, RowUpdate.apply_unselected apart]
  have keepsId (row : JobRecord) : (f row).jobId = row.jobId := by simp [f]
  refine Outcome.of_target f [⟨messageId.text, jobId, clock + delay * second, none⟩] distinct
    (held.frame rfl (frame_rows jobs keepsId free missed)) jobs rfl
    (fun _ old => List.mem_cons_of_mem _ old) targets ?_ missed ?_ ?_ (by simp)
    (fun token deliveryId started => absurd started (starts token deliveryId))
  · intro row _ chosenRow
    rw [hit row chosenRow]
    exact chosen row chosenRow
  · intro row _ chosenRow
    refine .inr ⟨_, List.mem_singleton.mpr rfl, ?_, (targets.only row chosenRow).symm⟩
    rw [hit row chosenRow]
    rfl
  · intro entry new
    obtain rfl := List.mem_singleton.mp new
    exact ⟨rfl, messageId, rfl, fresh, List.mem_cons_self⟩

theorem find_spec {s : Db} {selects : JobRecord → Bool} {row : JobRecord}
    (found : s.jobs.find? selects = some row)
    : row ∈ s.jobs ∧ selects row :=
  ⟨List.mem_of_find?_eq_some found, List.find?_some found⟩

theorem markQueued_outcome {s t : Db} {config : Config} {jobId : String} {messageId : Uuid}
    {now clock : Int} {reply : Reply} (distinct : s.DistinctIds) (held : s.LockHeld)
    (done : s.markQueued config jobId messageId now clock = some (t, reply))
    : s.Outcome ⟨config, .markQueued jobId messageId now clock, reply⟩ t := by
  simp only [markQueued] at done
  split at done
  · cases done
  rename_i free
  simp only [Bool.not_eq_true] at free
  have only (row : JobRecord) (selected : (Sql.markQueued jobId now).selects row)
      : row.jobId = jobId := by
    simp only [Sql.markQueued, Bool.and_eq_true, decide_eq_true_eq] at selected
    exact selected.1
  split at done
  · cases done
    exact Outcome.of_unchanged held rfl rfl (fun _ old => old) (fun _ => rfl)
  · rename_i row found
    have targets (position : Nat)
        : s.Targets ⟨config, .markQueued jobId messageId now clock, .queued (some position)⟩
            (Sql.markQueued jobId now).selects jobId (some .queue) := by
      have counted := List.countP_pos_iff.mpr ⟨row, find_spec found⟩
      refine .of_count only (fun target => ?_)
      simp [Event.act?, counted.ne']
    split at done
    · cases done
      exact Outcome.of_statement distinct (held.rewrite free) rfl rfl (fun _ old => old)
        (targets _) (fun row _ selected => .queued selected) (fun _ => rfl) (by simp)
    · split at done
      · cases done
      · rename_i fresh
        cases done
        exact enqueue_outcome distinct held free fresh (find_spec found).1 (find_spec found).2
          (targets _) (fun row selected => .queued selected) (by simp)

theorem failJob_outcome {s t : Db} {config : Config} {jobId token error : String}
    {retryable : Bool} {messageId : Uuid} {now clock : Int} {reply : Reply}
    (distinct : s.DistinctIds) (held : s.LockHeld)
    (done
      : s.failJob config jobId token error retryable messageId now clock = some (t, reply))
    : s.Outcome ⟨config, .failJob jobId token error retryable messageId now clock, reply⟩ t := by
  simp only [failJob] at done
  split at done
  · cases done
  rename_i allowed
  simp only [Bool.or_eq_true, not_or, Bool.not_eq_true, Bool.and_eq_false_iff,
    decide_eq_false_iff_not] at allowed
  obtain ⟨free, caller⟩ := allowed
  have asks (anonymous : token = "") : retryable = false := by
    rcases caller with named | plain
    · exact absurd anonymous named
    · exact plain
  have only (row : JobRecord) (selected : (Sql.fail jobId token error retryable now).selects row)
      : row.jobId = jobId := by
    simp only [Sql.fail, Bool.and_eq_true, decide_eq_true_eq] at selected
    exact selected.1.1
  split at done
  · cases done
    refine Outcome.of_unchanged held rfl rfl (fun _ old => old) (fun _ => ?_)
    simp [Event.act?]
  · rename_i row found
    have targets (replied
        : reply = .rows (s.jobs.countP (Sql.fail jobId token error retryable now).selects))
        : s.Targets ⟨config, .failJob jobId token error retryable messageId now clock, reply⟩
            (Sql.fail jobId token error retryable now).selects jobId (some (.fail token)) := by
      refine .of_count only (fun target => ?_)
      simp only [Event.act?, replied]
    split at done
    · split at done
      · cases done
      · rename_i fresh
        cases done
        exact enqueue_outcome distinct held free fresh (find_spec found).1 (find_spec found).2
          (targets rfl) (fun row selected => .failed selected asks) (by simp)
    · cases done
      exact Outcome.of_statement distinct (held.rewrite free) rfl rfl (fun _ old => old)
        (targets rfl) (fun row _ selected => .failed selected asks) (fun _ => rfl) (by simp)

-----------------------------------------------------------------------------------------
-- Attempt starts
-----------------------------------------------------------------------------------------

/-- The outcome of a statement that starts an attempt on one stored row. -/
theorem start_outcome {s t : Db} {event : Event} {statement : RowUpdate} {row : JobRecord}
    {workerId : String} {uuid : Uuid} {deliveryId : Option String} (distinct : s.DistinctIds)
    (held : t.LockHeld) (jobs : t.jobs = s.jobs.map statement.apply)
    (outbox : t.outbox = s.outbox) (drawn : t.drawn = uuid :: s.drawn)
    (fresh : uuid ∉ s.drawn) (stored : row ∈ s.jobs) (selected : statement.selects row)
    (only : ∀ other, statement.selects other → other.jobId = row.jobId)
    (acts
      : ∀ target,
          event.act? target
          = if row.jobId = target then some (.start (leaseToken workerId uuid) deliveryId)
            else none)
    (chosen
      : RowStep (some (.start (leaseToken workerId uuid) deliveryId)) row
          (statement.assign row))
    (keepsDispatch : ∀ other, (statement.assign other).dispatchId = other.dispatchId)
    : s.Outcome event t := by
  have targets : s.Targets event statement.selects row.jobId
      (some (.start (leaseToken workerId uuid) deliveryId)) := by
    refine ⟨only, ?_, ?_, ?_⟩
    · intro other _ _
      rw [acts, if_pos rfl]
    · intro unselected
      simp [unselected row stored] at selected
    · intro target differs
      rw [acts, if_neg (Ne.symm differs)]
  refine Outcome.of_statement distinct held jobs outbox ?_ targets ?_ keepsDispatch ?_
  · intro other old
    rw [drawn]
    exact List.mem_cons_of_mem _ old
  · intro other member chosenOther
    rw [distinct.eq member stored (only other chosenOther)]
    exact chosen
  · intro token delivery started
    simp only [Option.some.injEq, Act.start.injEq] at started
    exact ⟨workerId, uuid, started.1.symm, fresh, by simp [drawn]⟩

theorem claimLegacy_outcome {s t : Db} {config : Config} {workerId instanceId : String}
    {fallback : Bool} {uuid : Uuid} {locked : List String} {now : Int} {reply : Reply}
    (distinct : s.DistinctIds) (held : s.LockHeld)
    (done
      : s.claimLegacy config workerId instanceId fallback uuid locked now = some (t, reply))
    : s.Outcome ⟨config, .claimLegacy workerId instanceId fallback uuid locked now, reply⟩ t := by
  simp only [claimLegacy] at done
  split at done
  · cases done
  rename_i allowed
  have fresh : uuid ∉ s.drawn := by simpa using fun old => allowed (by simp [old])
  split at done
  · cases done
  rename_i waits
  have passed : ∀ row ∈ s.jobs, s.locks row.jobId → row.jobId ∈ locked := by
    simpa using waits
  split at done
  · cases done
    exact Outcome.of_unchanged held rfl rfl (fun _ old => old) (fun _ => rfl)
  split at done
  · cases done
    exact Outcome.of_unchanged held rfl rfl (fun _ old => old) (fun _ => rfl)
  · rename_i row chosen
    obtain ⟨stored, startable, unlocked⟩ := candidate_spec chosen
    cases done
    refine start_outcome distinct ?_ rfl rfl rfl fresh stored (by simp [Sql.claim, startable]) ?_
      (fun _ => rfl) (.claimed startable (leaseToken_ne_empty workerId uuid)) (fun _ => rfl)
    · refine held.frame rfl (fun jobId lockedId => ?_)
      change (s.rewrite _).job? jobId = _
      rw [rewrite_job?]
      cases found : s.job? jobId with
      | none => rfl
      | some other =>
          obtain ⟨member, rfl⟩ := job?_mem found
          have differs : other.jobId ≠ row.jobId := by
            intro same
            exact unlocked (same ▸ passed other member lockedId)
          simp [RowUpdate.apply, Sql.claim, differs]
    · intro other selected
      simp only [Sql.claim, Bool.and_eq_true, decide_eq_true_eq] at selected
      exact selected.1

theorem holder_spec {s : Db} {task : Task} {reached : Phase → Bool} {transaction : Transaction}
    (holder : s.holder? task reached = some transaction)
    : s.scheduler = some transaction ∧ transaction.task = task ∧ reached transaction.phase := by
  simpa [holder?, Option.filter_eq_some_iff] using holder

theorem claimSlot_outcome {s t : Db} {config : Config} {workerId instanceId : String}
    {uuid : Uuid} {locked : List String} {clock : Int} {reply : Reply}
    (distinct : s.DistinctIds)
    (done : s.claimSlot workerId instanceId uuid locked clock = some (t, reply))
    : s.Outcome ⟨config, .claimSlot workerId instanceId uuid locked clock, reply⟩ t := by
  obtain ⟨transaction, holder, done⟩ := Option.bind_eq_some_iff.mp done
  split at done
  · cases done
  rename_i fresh
  split at done
  · cases done
    exact Outcome.of_unchanged (.of_none rfl) rfl rfl (fun _ old => old) (fun _ => rfl)
  · rename_i row chosen
    obtain ⟨stored, startable, _⟩ := candidate_spec chosen
    cases done
    refine start_outcome distinct (.of_none rfl) rfl rfl rfl fresh stored
      (by simp [Sql.claimSlot, startable]) ?_ (fun _ => rfl)
      (.claimed startable (leaseToken_ne_empty workerId uuid)) (fun _ => rfl)
    intro other selected
    simp only [Sql.claimSlot, Bool.and_eq_true, decide_eq_true_eq] at selected
    exact selected.1

/-- A row that passed the tests of `begin_attempt` waits for a worker with attempts left. -/
theorem verdict_proceed {row : JobRecord} {request : BeginRequest} {clock : Int}
    (passed : verdict row request clock = .proceed)
    : row.dispatchId = request.messageId
      ∧ row.status.active
      ∧ row.attempts < row.maxAttempts
      ∧ row.holdsLease clock = false := by
  unfold verdict at passed
  grind

/-- A row that `begin_attempt` exhausts waits for a worker with no attempt left. -/
theorem verdict_exhausted {row : JobRecord} {request : BeginRequest} {clock : Int}
    (passed : verdict row request clock = .exhausted)
    : row.dispatchId = request.messageId
      ∧ row.status.active
      ∧ row.maxAttempts ≤ row.attempts
      ∧ row.holdsLease clock = false := by
  unfold verdict at passed
  grind

theorem brokerStart_outcome {s t : Db} {config : Config} {request : BeginRequest}
    {uuid : Uuid} {clock : Int} {reply : Reply} (distinct : s.DistinctIds)
    (held : s.LockHeld) (done : s.brokerStart request uuid clock = some (t, reply))
    : s.Outcome ⟨config, .brokerStart request uuid clock, reply⟩ t := by
  obtain ⟨transaction, holder, done⟩ := Option.bind_eq_some_iff.mp done
  split at done
  · rename_i row phase
    split at done
    · cases done
    rename_i allowed
    simp only [ne_eq, Bool.or_eq_true, decide_eq_true_eq, not_or, Decidable.not_not] at allowed
    obtain ⟨task, fresh⟩ := allowed
    obtain ⟨asked, moment, task', passed, found⟩ :=
      held transaction row holder (by simp [phase, Phase.row?])
    obtain rfl : asked = request := by simpa [task] using task'.symm
    obtain ⟨_, active, attemptsLeft, idle⟩ := verdict_proceed passed
    obtain ⟨stored, same⟩ := job?_mem found
    cases done
    refine start_outcome distinct (.of_none rfl) rfl rfl rfl fresh stored
      (by simp [Sql.brokerStart, same]) ?_ (fun _ => ?_)
      (.delivered active attemptsLeft idle (leaseToken_ne_empty _ uuid)) (fun _ => rfl)
    · intro other selected
      simpa [Sql.brokerStart, same] using selected
    · simp [Event.act?, same]
  · cases done

-----------------------------------------------------------------------------------------
-- Transactions under the scheduler lock
-----------------------------------------------------------------------------------------

/-- The outcome of a step that changes no table but the lock holder's progress. -/
theorem lock_outcome {s t : Db} {event : Event} (held : t.LockHeld) (jobs : t.jobs = s.jobs)
    (outbox : t.outbox = s.outbox) (drawn : t.drawn = s.drawn)
    (quiet : ∀ target, event.act? target = none)
    : s.Outcome event t :=
  .of_unchanged held jobs outbox (fun _ old => drawn ▸ old) quiet

theorem LockHeld.of_early {s : Db} {transaction : Transaction}
    (holder : s.scheduler = some transaction) (early : transaction.phase.row? = none)
    : s.LockHeld := by
  intro other row holder' locked
  obtain rfl := Option.some.inj (holder.symm.trans holder')
  simp [early] at locked

theorem lockScheduler_outcome {s t : Db} {config : Config} {task : Task} {now : Int}
    {reply : Reply} (done : s.lockScheduler config task now = some (t, reply))
    : s.Outcome ⟨config, .lockScheduler task now, reply⟩ t := by
  unfold lockScheduler at done
  split at done
  · cases done
  · cases done
    exact lock_outcome (.of_early rfl rfl) rfl rfl rfl (fun _ => rfl)

theorem heartbeat_outcome {s t : Db} {config : Config} {jobId token : String}
    {progress : Rat} {clock : Int} {reply : Reply} (distinct : s.DistinctIds)
    (done : s.heartbeat jobId token progress clock = some (t, reply))
    : s.Outcome ⟨config, .heartbeat jobId token progress clock, reply⟩ t := by
  obtain ⟨transaction, holder, done⟩ := Option.map_eq_some_iff.mp done
  let statement :=
    Sql.heartbeat jobId token transaction.config.leaseSeconds progress transaction.now clock
  have targets : s.Targets
      ⟨config, .heartbeat jobId token progress clock, .rows (s.jobs.countP statement.selects)⟩
      statement.selects jobId (some (.renew token progress)) := by
    refine .of_count ?_ (fun target => rfl)
    intro row selected
    simp only [statement, Sql.heartbeat, Bool.and_eq_true, decide_eq_true_eq] at selected
    exact selected.1.1
  cases done
  exact Outcome.of_statement distinct (.of_none rfl) rfl rfl (fun _ old => old) targets
    (fun row _ selected => .renewed selected) (fun _ => rfl) (by simp)

theorem selectWorker_outcome {s t : Db} {config : Config} {workerId instanceId : String}
    {clock : Int} {reply : Reply}
    (done : s.selectWorker workerId instanceId clock = some (t, reply))
    : s.Outcome ⟨config, .selectWorker workerId instanceId clock, reply⟩ t := by
  obtain ⟨transaction, holder, done⟩ := Option.map_eq_some_iff.mp done
  simp only at done
  split at done
  · cases done
    exact lock_outcome (.of_early rfl rfl) rfl rfl rfl (fun _ => rfl)
  · cases done
    exact lock_outcome (.of_none rfl) rfl rfl rfl (fun _ => rfl)

theorem brokerJob_outcome {s t : Db} {config : Config} {request : BeginRequest}
    {clock : Int} {reply : Reply} (distinct : s.DistinctIds)
    (done : s.brokerJob request clock = some (t, reply))
    : s.Outcome ⟨config, .brokerJob request clock, reply⟩ t := by
  obtain ⟨transaction, holder, done⟩ := Option.map_eq_some_iff.mp done
  have quiet (target : String) : (⟨config, .brokerJob request clock, reply⟩ : Event).act? target
      = none := by
    simp [Event.act?]
  split at done
  · cases done
    exact lock_outcome (.of_none rfl) rfl rfl rfl quiet
  rename_i row found
  split at done
  case h_4 passed =>
    cases done
    obtain ⟨stored, same⟩ := job?_mem found
    obtain ⟨_, active, spent, idle⟩ := verdict_exhausted passed
    have only (other : JobRecord)
        (selected : (Sql.brokerExhausted request.jobId transaction.now).selects other)
        : other.jobId = request.jobId := by
      simpa [Sql.brokerExhausted] using selected
    have targets : s.Targets ⟨config, .brokerJob request clock, .attempt .discard none⟩
        (Sql.brokerExhausted request.jobId transaction.now).selects request.jobId none :=
      .of_count only (by simp [quiet])
    refine Outcome.of_statement distinct (.of_none rfl) rfl rfl (fun _ old => old) targets ?_
      (fun _ => rfl) (by simp)
    intro other member selected
    rw [distinct.eq member stored ((only other selected).trans same.symm)]
    exact .exhausted active spent idle
  case h_5 passed =>
    split at done
    · cases done
      exact lock_outcome (.of_none rfl) rfl rfl rfl quiet
    · cases done
      refine lock_outcome ?_ rfl rfl rfl quiet
      intro other locked holder' phase
      cases holder'
      cases phase
      exact ⟨request, clock, (holder_spec holder).2.1, passed, found⟩
  all_goals
    cases done
    exact lock_outcome (.of_none rfl) rfl rfl rfl quiet

theorem brokerCapacity_outcome {s t : Db} {config : Config} {request : BeginRequest}
    {clock : Int} {reply : Reply} (held : s.LockHeld)
    (done : s.brokerCapacity request clock = some (t, reply))
    : s.Outcome ⟨config, .brokerCapacity request clock, reply⟩ t := by
  have quiet (target : String)
      : (⟨config, .brokerCapacity request clock, reply⟩ : Event).act? target = none := by
    simp [Event.act?]
  obtain ⟨transaction, holder, done⟩ := Option.bind_eq_some_iff.mp done
  split at done
  · rename_i row phase
    split at done
    · cases done
    split at done
    · cases done
      exact lock_outcome (.of_none rfl) rfl rfl rfl quiet
    split at done
    · cases done
      exact lock_outcome (.of_none rfl) rfl rfl rfl quiet
    · cases done
      refine lock_outcome ?_ rfl rfl rfl quiet
      intro other locked holder' capable
      cases holder'
      cases capable
      exact held transaction row holder (by simp [phase, Phase.row?])
  · cases done

theorem brokerAdmit_outcome {s t : Db} {config : Config} {workerId instanceId : String}
    {clock : Int} {reply : Reply}
    (done : s.brokerAdmit workerId instanceId clock = some (t, reply))
    : s.Outcome ⟨config, .brokerAdmit workerId instanceId clock, reply⟩ t := by
  obtain ⟨transaction, holder, done⟩ := Option.map_eq_some_iff.mp done
  split at done
  · cases done
    exact lock_outcome (.of_none rfl) rfl rfl rfl (fun _ => rfl)
  split at done
  · cases done
    refine lock_outcome ?_ rfl rfl rfl (fun _ => rfl)
    intro other row holder' held
    cases holder'
    cases held
  · cases done
    exact lock_outcome (.of_none rfl) rfl rfl rfl (fun _ => rfl)

theorem registerConsumer_outcome {s t : Db} {config : Config}
    {workerId instanceId : String} {clock : Int} {reply : Reply}
    (done : s.registerConsumer workerId instanceId clock = some (t, reply))
    : s.Outcome ⟨config, .registerConsumer workerId instanceId clock, reply⟩ t := by
  obtain ⟨transaction, _, done⟩ := Option.bind_eq_some_iff.mp done
  split at done
  · split at done
    · cases done
    · cases done
      exact lock_outcome (.of_none rfl) rfl rfl rfl (fun _ => rfl)
  · cases done

-----------------------------------------------------------------------------------------
-- Adoption of jobs without a dispatch
-----------------------------------------------------------------------------------------

/-- The outcome of `broker_seed.sql` on rows of which some active ones just lost their dispatch.
Witness: an active row without a dispatch is adopted, so it has its new outbox row.
-/
theorem seed_outcome {s t u : Db} {event : Event} {draw : String → Uuid}
    (clear : JobRecord → JobRecord) (held : u.LockHeld)
    (clears
      : ∀ row,
          clear row = row ∨ row.status.active ∧ clear row = { row with dispatchId := "" })
    (done : ({ s with jobs := s.jobs.map clear } : Db).seed draw = some t)
    (jobs : u.jobs = t.jobs) (outbox : u.outbox = t.outbox) (drawn : u.drawn = t.drawn)
    (quiet : ∀ target, event.act? target = none)
    : s.Outcome event u := by
  simp only [seed] at done
  split at done
  · cases done
  rename_i allowed
  simp only [Bool.or_eq_true, not_or, Bool.not_eq_true', Bool.not_eq_false, decide_eq_true_eq,
    List.any_eq_true, List.contains_iff_mem, not_exists, not_and] at allowed
  obtain ⟨⟨_, separate⟩, unused⟩ := allowed
  let adopted := (s.jobs.map clear).filter (Sql.brokerSeed draw).selects
  let entries : List OutboxRow :=
    adopted.map (fun row => ⟨(draw row.jobId).text, row.jobId, row.createdAt, none⟩)
  let f := fun row => (Sql.brokerSeed draw).apply (clear row)
  cases done
  have dispatched (row : JobRecord) (member : row ∈ s.jobs)
      : f row = row
        ∨ row.status.active
          ∧ f row = { row with dispatchId := (draw row.jobId).text }
          ∧ ∃ entry ∈ entries,
              entry.messageId = (draw row.jobId).text ∧ entry.jobId = row.jobId := by
    have cleared := clears row
    cases chosen : (Sql.brokerSeed draw).selects (clear row) with
    | false =>
        refine .inl ?_
        rcases cleared with same | ⟨active, assigned⟩
        · simp only [f, RowUpdate.apply_unselected chosen, same]
        · simp [assigned, Sql.brokerSeed, active] at chosen
    | true =>
        refine .inr ?_
        have stored := List.mem_filter.mpr ⟨List.mem_map_of_mem member, chosen⟩
        simp only [f, RowUpdate.apply_selected chosen]
        rcases cleared with same | ⟨active, assigned⟩
        · rw [same] at chosen stored ⊢
          simp only [Sql.brokerSeed, Bool.and_eq_true] at chosen
          exact ⟨chosen.1, rfl, _, List.mem_map_of_mem stored, rfl, rfl⟩
        · rw [assigned] at stored ⊢
          exact ⟨active, rfl, _, List.mem_map_of_mem stored, rfl, rfl⟩
  refine ⟨.rewrite f entries ?_ outbox ?_ ?_ ?_ ?_ ?_ ?_, held, ?_⟩
  · simp [jobs, rewrite, f, Function.comp_def]
  · intro row member
    rw [quiet]
    rcases dispatched row member with same | ⟨active, assigned, _⟩
    · rw [same]
      exact .keep
    · rw [assigned]
      exact .redispatched active
  · intro row member
    rcases dispatched row member with same | ⟨_, assigned, entry⟩
    · exact .inl (by rw [same])
    · rw [assigned]
      exact .inr entry
  · intro entry new
    obtain ⟨row, stored, rfl⟩ := List.mem_map.mp new
    have member := List.mem_map_of_mem (f := fun row : JobRecord => draw row.jobId) stored
    refine ⟨rfl, draw row.jobId, rfl, unused _ member, ?_⟩
    rw [drawn]
    exact List.mem_append_left _ member
  · have texts : entries.map OutboxRow.messageId
        = (adopted.map (fun row => draw row.jobId)).map Uuid.text := by
      simp [entries, Function.comp_def]
    rw [texts]
    exact separate.map Uuid.text_injective
  · intro target token deliveryId started
    simp [quiet] at started
  · intro target accepted
    exact absurd (quiet target) accepted
  · intro uuid old
    rw [drawn]
    exact List.mem_append_right _ old

/-- Seeding waits for row locks and leaves the lock holder alone. -/
theorem seed_held {s t : Db} {draw : String → Uuid} (held : s.LockHeld)
    (done : s.seed draw = some t)
    : t.LockHeld := by
  simp only [seed] at done
  split at done
  · cases done
  · rename_i allowed
    simp only [Bool.or_eq_true, not_or, Bool.not_eq_true] at allowed
    cases done
    exact (held.rewrite allowed.1.1).frame rfl (fun _ _ => rfl)

theorem initSchema_outcome {s t : Db} {config : Config} {draw : String → Uuid} {reply : Reply}
    (held : s.LockHeld) (done : s.initSchema config draw = some (t, reply))
    : s.Outcome ⟨config, .initSchema draw, reply⟩ t := by
  unfold initSchema at done
  split at done
  · cases done
    exact lock_outcome held rfl rfl rfl (fun _ => rfl)
  · obtain ⟨next, seeded, same⟩ := Option.map_eq_some_iff.mp done
    cases same
    have start : ({ s with jobs := s.jobs.map id } : Db).seed draw = some t := by
      simpa using seeded
    exact seed_outcome id (seed_held held seeded) (fun _ => .inl rfl) start rfl rfl rfl
      (fun _ => rfl)

theorem reconcile_outcome {s t : Db} {config : Config} {draw : String → Uuid} {clock : Int}
    {reply : Reply} (done : s.reconcile draw clock = some (t, reply))
    : s.Outcome ⟨config, .reconcile draw clock, reply⟩ t := by
  obtain ⟨transaction, holder, done⟩ := Option.bind_eq_some_iff.mp done
  obtain ⟨next, seeded, same⟩ := Option.map_eq_some_iff.mp done
  cases same
  refine seed_outcome (Sql.brokerReconcile clock).apply (.of_none rfl) ?_ seeded rfl rfl rfl
    (fun _ => rfl)
  intro row
  cases selected : (Sql.brokerReconcile clock).selects row with
  | false => exact .inl (RowUpdate.apply_unselected selected)
  | true =>
      refine .inr ⟨?_, RowUpdate.apply_selected selected⟩
      simp only [Sql.brokerReconcile, Bool.or_eq_true, Bool.and_eq_true, decide_eq_true_eq]
        at selected
      rcases selected with queued | ⟨running, _⟩
      · simp [queued, Status.active]
      · simp [running, Status.active]

-----------------------------------------------------------------------------------------
-- Insertion, deletion, publication
-----------------------------------------------------------------------------------------

/-- A locked row is a stored row. -/
theorem LockHeld.stored {s : Db} (held : s.LockHeld) {jobId : String}
    (locked : s.locks jobId = true)
    : ∃ row, s.job? jobId = some row := by
  simp only [locks, Option.any_eq_true, Option.bind_eq_some_iff, decide_eq_true_eq] at locked
  obtain ⟨row, ⟨transaction, holder, phase⟩, rfl⟩ := locked
  obtain ⟨request, _, _, _, found⟩ := held transaction row holder phase
  refine ⟨row, ?_⟩
  rw [(job?_mem found).2]
  exact found

theorem createJob_outcome {s t : Db} {config : Config} {options : SubmitOptions}
    {jobId : Uuid} {now : Int} {reply : Reply} (held : s.LockHeld)
    (done : s.createJob config options jobId now = some (t, reply))
    : s.Outcome ⟨config, .createJob options jobId now, reply⟩ t := by
  unfold createJob at done
  split at done
  · cases done
  rename_i fresh
  split at done
  · cases done
    exact Outcome.of_unchanged (held.frame rfl (fun _ _ => rfl)) rfl rfl
      (fun _ old => List.mem_cons_of_mem _ old) (fun _ => rfl)
  · rename_i unused
    cases done
    refine ⟨.insert options jobId now rfl rfl rfl ⟨fresh, List.mem_cons_self⟩ ?_ (fun _ => rfl),
      held.frame rfl ?_, fun _ old => List.mem_cons_of_mem _ old⟩
    · simpa [or_iff_not_imp_left] using unused
    · intro target locked
      obtain ⟨row, found⟩ := held.stored locked
      rw [found, job?, Table.lookup_append_singleton]
      change (s.job? target).or _ = some row
      rw [found]
      rfl

theorem cleanup_outcome {s t : Db} {config : Config} {jobId : String} {ttlSeconds now : Int}
    {reply : Reply} (distinct : s.DistinctIds) (held : s.LockHeld)
    (done : s.cleanup jobId ttlSeconds now = some (t, reply))
    : s.Outcome ⟨config, .cleanup jobId ttlSeconds now, reply⟩ t := by
  simp only [cleanup] at done
  split at done
  · cases done
  rename_i free
  split at done
  · cases done
    exact lock_outcome held rfl rfl rfl (fun _ => rfl)
  · rename_i gone first
    cases done
    have selected := List.find?_some first
    simp only [Bool.and_eq_true, decide_eq_true_eq] at selected
    refine ⟨.remove jobId ttlSeconds now rfl rfl rfl (fun _ => rfl)
      ⟨gone, List.mem_of_find?_eq_some first, selected⟩, held.frame rfl ?_, fun _ old => old⟩
    intro target locked
    obtain ⟨row, found⟩ := held.stored locked
    rw [job?, Table.lookup_delete distinct]
    change (s.job? target).filter _ = _
    rw [found]
    obtain ⟨member, rfl⟩ := job?_mem found
    have kept : (row.jobId = jobId && Sql.cleanup ttlSeconds now row) = false := by
      cases chosen : (decide (row.jobId = jobId) && Sql.cleanup ttlSeconds now row) with
      | false => rfl
      | true => simp [unblocked (by simpa using free) member chosen] at locked
    simp [Option.filter, kept]

-----------------------------------------------------------------------------------------
-- The step function
-----------------------------------------------------------------------------------------

/-- Every step is one of the table changes, by cases on the operation. -/
theorem Step.outcome {s t : Db} {event : Event} (distinct : s.DistinctIds) (held : s.LockHeld)
    (step : s.Step event t)
    : s.Outcome event t := by
  obtain ⟨config, op, reply⟩ := event
  simp only [Db.Step] at step
  cases op with
  | tick | reportAvailability =>
      cases step
      exact lock_outcome (held.frame rfl (fun _ _ => rfl)) rfl rfl rfl (fun _ => rfl)
  | initSchema => exact initSchema_outcome held step
  | createJob => exact createJob_outcome held step
  | markDownloading jobId now =>
      exact execute_outcome jobId none distinct held step (by simp +contextual [Sql.updateStatus])
        (by simp [Event.act?]) (fun _ => .downloading) (fun _ => rfl) (by simp)
  | markUploadInterrupted jobId now =>
      exact execute_outcome jobId none distinct held step
        (by simp +contextual [Sql.uploadInterrupted]) (by simp [Event.act?])
        (fun _ => .interrupted) (fun _ => rfl) (by simp)
  | markQueued => exact markQueued_outcome distinct held step
  | cancelJob jobId now =>
      exact execute_outcome jobId none distinct held step (by simp +contextual [Sql.cancelJob])
        (by simp [Event.act?]) (fun _ => .cancelled) (fun _ => rfl) (by simp)
  | acknowledgeJob jobId now =>
      exact execute_outcome jobId none distinct held step (by simp +contextual [Sql.ack])
        (by simp [Event.act?]) (fun _ => .acknowledged) (fun _ => rfl) (by simp)
  | claimLegacy => exact claimLegacy_outcome distinct held step
  | heartbeatLegacy jobId token progress now clock =>
      simp only [exec, heartbeatLegacy] at step
      split at step
      · cases step
      · refine execute_outcome jobId (some (.renew token progress)) distinct held step
          (by simp +contextual [Sql.heartbeat]) ?_ (fun _ => .renewed) (fun _ => rfl) (by simp)
        rintro rfl target
        rfl
  | completeJob jobId token text segments resultPath now =>
      refine execute_outcome jobId (some (.complete token text segments resultPath)) distinct held
        step (by simp +contextual [Sql.complete]) ?_ (fun _ => .completed) (fun _ => rfl) (by simp)
      rintro rfl target
      rfl
  | failJob => exact failJob_outcome distinct held step
  | reap jobId now =>
      refine execute_outcome jobId none distinct held step (by simp +contextual [RowUpdate.only])
        (by simp [Event.act?]) ?_ (fun _ => rfl) (by simp)
      intro row selected
      simp only [RowUpdate.only, Sql.reap, Bool.and_eq_true, decide_eq_true_eq] at selected
      obtain ⟨_, ⟨running, spent⟩, past⟩ := selected
      have active : row.status.active := by simp [running, Status.active]
      have idle : row.holdsLease now = false := by
        simp [JobRecord.holdsLease, isAfter_of_isPast past]
      exact .exhausted active spent idle
  | cleanup => exact cleanup_outcome distinct held step
  | outboxPublished messageId now =>
      cases step
      exact ⟨.publish messageId now rfl rfl rfl (fun _ => rfl),
        held.frame rfl (fun _ _ => rfl), fun _ old => old⟩
  | lockScheduler => exact lockScheduler_outcome step
  | rollback =>
      simp only [exec] at step
      split at step
      · cases step
        exact lock_outcome (.of_none rfl) rfl rfl rfl (fun _ => rfl)
      · cases step
  | heartbeat => exact heartbeat_outcome distinct step
  | selectWorker => exact selectWorker_outcome step
  | claimSlot => exact claimSlot_outcome distinct step
  | brokerJob => exact brokerJob_outcome distinct step
  | brokerCapacity => exact brokerCapacity_outcome held step
  | brokerStart => exact brokerStart_outcome distinct held step
  | brokerAdmit => exact brokerAdmit_outcome step
  | registerConsumer => exact registerConsumer_outcome step
  | reconcile => exact reconcile_outcome step

end Db

end Transcriber
