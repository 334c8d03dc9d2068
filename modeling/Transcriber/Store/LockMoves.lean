import Transcriber.Store.Outcomes

/-! The scheduler lock over the steps of the store.
Only the operations of a locked transaction move it, and each moves it one phase on, with the
tests that the phase stands for.
-/

namespace Transcriber

namespace Db

/-- How a step moves the scheduler lock. -/
inductive LockMove (s : Db) (event : Event) (t : Db) : Prop
  | kept (same : t.scheduler = s.scheduler)
  | released (free : t.scheduler = none)
  | taken (task : Task) (now : Int) (free : s.scheduler = none)
    (allowed : Task.allowed event.config task)
    (next : t.scheduler = some ⟨event.config, now, s.clock, task, .locked⟩)
  | selected (transaction : Transaction) (workerId instanceId : String) (clock : Int)
    (called : event.op = .selectWorker workerId instanceId clock)
    (holder : s.scheduler = some transaction)
    (task : transaction.task = .claim workerId instanceId)
    (chosen
      : Transcriber.selectWorker transaction.config.workerPolicies
          (requestWork transaction.config.demandTtlSeconds workerId instanceId clock s.slots)
          s.jobs workerId instanceId clock)
    (next : t.scheduler = some { transaction with phase := .selected })
  | loaded (transaction : Transaction) (request : BeginRequest) (clock : Int)
    (row : JobRecord) (called : event.op = .brokerJob request clock)
    (holder : s.scheduler = some transaction) (task : transaction.task = .begin request)
    (found : s.job? request.jobId = some row)
    (passed : verdict row request clock = .proceed)
    (next : t.scheduler = some { transaction with phase := .loaded row })
  | capable (transaction : Transaction) (request : BeginRequest) (clock : Int)
    (row : JobRecord) (policy : Policy) (called : event.op = .brokerCapacity request clock)
    (holder : s.scheduler = some transaction) (task : transaction.task = .begin request)
    (phase : transaction.phase = .loaded row)
    (listed : policy? transaction.config.workerPolicies request.workerId = some policy)
    (granted
      : (Transcriber.brokerCapacity s.slots s.jobs request.workerId request.instanceId
          clock).refuses policy
        = false)
    (next : t.scheduler = some { transaction with phase := .capable row })
  | admitting (transaction : Transaction) (workerId instanceId : String) (clock : Int)
    (policy : Policy) (called : event.op = .brokerAdmit workerId instanceId clock)
    (holder : s.scheduler = some transaction)
    (task : transaction.task = .register workerId instanceId)
    (listed : policy? transaction.config.workerPolicies workerId = some policy)
    (admits : admits s.slots s.jobs workerId instanceId policy.maxConcurrency clock)
    (slots : t.slots = s.slots) (jobs : t.jobs = s.jobs) (same : t.clock = s.clock)
    (next
      : t.scheduler = some { transaction with phase := .admitting policy, since := clock })

/-- What a statement outside the lock and off `worker_availability` leaves alone. -/
structure Frame (s t : Db) : Prop where
  scheduler : t.scheduler = s.scheduler
  clock : t.clock = s.clock
  slots : t.slots = s.slots

/-- Statements outside the lock leave its holder alone. -/
theorem execute_frame {s t : Db} {statement : RowUpdate} {reply : Reply}
    (done : s.execute statement = some (t, reply))
    : s.Frame t := by
  obtain ⟨_, rfl, _⟩ := execute_spec done
  exact ⟨rfl, rfl, rfl⟩

theorem seed_frame {s t : Db} {draw : String → Uuid} (done : s.seed draw = some t)
    : s.Frame t := by
  simp only [seed] at done
  split at done
  · cases done
  · cases done
    exact ⟨rfl, rfl, rfl⟩

theorem initSchema_frame {s t : Db} {config : Config} {draw : String → Uuid}
    {reply : Reply} (done : s.initSchema config draw = some (t, reply))
    : s.Frame t := by
  unfold initSchema at done
  split at done
  · cases done
    exact ⟨rfl, rfl, rfl⟩
  · obtain ⟨next, seeded, same⟩ := Option.map_eq_some_iff.mp done
    cases same
    exact seed_frame seeded

theorem createJob_frame {s t : Db} {config : Config} {options : SubmitOptions}
    {jobId : Uuid} {now : Int} {reply : Reply}
    (done : s.createJob config options jobId now = some (t, reply))
    : s.Frame t := by
  unfold createJob at done
  split at done
  · cases done
  · split at done <;>
    · cases done
      exact ⟨rfl, rfl, rfl⟩

theorem markQueued_frame {s t : Db} {config : Config} {jobId : String}
    {messageId : Uuid} {now clock : Int} {reply : Reply}
    (done : s.markQueued config jobId messageId now clock = some (t, reply))
    : s.Frame t := by
  simp only [markQueued] at done
  split at done
  · cases done
  split at done
  · cases done
    exact ⟨rfl, rfl, rfl⟩
  split at done
  · cases done
    exact ⟨rfl, rfl, rfl⟩
  · split at done
    · cases done
    · cases done
      exact ⟨rfl, rfl, rfl⟩

theorem failJob_frame {s t : Db} {config : Config} {jobId token error : String}
    {retryable : Bool} {messageId : Uuid} {now clock : Int} {reply : Reply}
    (done
      : s.failJob config jobId token error retryable messageId now clock = some (t, reply))
    : s.Frame t := by
  simp only [failJob] at done
  split at done
  · cases done
  split at done
  · cases done
    exact ⟨rfl, rfl, rfl⟩
  split at done
  · split at done
    · cases done
    · cases done
      exact ⟨rfl, rfl, rfl⟩
  · cases done
    exact ⟨rfl, rfl, rfl⟩

theorem cleanup_frame {s t : Db} {jobId : String} {ttlSeconds now : Int} {reply : Reply}
    (done : s.cleanup jobId ttlSeconds now = some (t, reply))
    : s.Frame t := by
  simp only [cleanup] at done
  split at done
  · cases done
  split at done <;>
  · cases done
    exact ⟨rfl, rfl, rfl⟩

theorem claimLegacy_frame {s t : Db} {config : Config} {workerId instanceId : String}
    {fallback : Bool} {uuid : Uuid} {locked : List String} {now : Int} {reply : Reply}
    (done
      : s.claimLegacy config workerId instanceId fallback uuid locked now = some (t, reply))
    : s.Frame t := by
  simp only [claimLegacy] at done
  split at done
  · cases done
  split at done
  · cases done
  split at done
  · cases done
    exact ⟨rfl, rfl, rfl⟩
  split at done <;>
  · cases done
    exact ⟨rfl, rfl, rfl⟩

/-- A worker selection commits or moves the claim on. -/
theorem selectWorker_move {s t : Db} {config : Config} {workerId instanceId : String}
    {clock : Int} {reply : Reply}
    (done : s.selectWorker workerId instanceId clock = some (t, reply))
    : s.LockMove ⟨config, .selectWorker workerId instanceId clock, reply⟩ t ∧ t.clock = s.clock := by
  obtain ⟨transaction, holder, done⟩ := Option.map_eq_some_iff.mp done
  obtain ⟨holder, task, _⟩ := holder_spec holder
  simp only at done
  split at done
  · rename_i chosen
    cases done
    exact ⟨.selected transaction workerId instanceId clock rfl holder task chosen rfl, rfl⟩
  · cases done
    exact ⟨.released rfl, rfl⟩

/-- The job query of `begin_attempt` commits or loads a startable row. -/
theorem brokerJob_move {s t : Db} {config : Config} {request : BeginRequest} {clock : Int}
    {reply : Reply} (done : s.brokerJob request clock = some (t, reply))
    : s.LockMove ⟨config, .brokerJob request clock, reply⟩ t ∧ t.clock = s.clock := by
  obtain ⟨transaction, holder, done⟩ := Option.map_eq_some_iff.mp done
  obtain ⟨holder, task, _⟩ := holder_spec holder
  split at done
  · cases done
    exact ⟨.released rfl, rfl⟩
  rename_i row found
  split at done
  case h_5 passed =>
    split at done
    · cases done
      exact ⟨.released rfl, rfl⟩
    · cases done
      exact ⟨.loaded transaction request clock row rfl holder task found passed rfl, rfl⟩
  all_goals
    cases done
    exact ⟨.released rfl, rfl⟩

/-- The capacity query of `begin_attempt` commits or grants. -/
theorem brokerCapacity_move {s t : Db} {config : Config} {request : BeginRequest}
    {clock : Int} {reply : Reply} (done : s.brokerCapacity request clock = some (t, reply))
    : s.LockMove ⟨config, .brokerCapacity request clock, reply⟩ t ∧ t.clock = s.clock := by
  obtain ⟨transaction, holder, done⟩ := Option.bind_eq_some_iff.mp done
  split at done
  · rename_i row phase
    split at done
    · cases done
    rename_i task
    split at done
    · cases done
      exact ⟨.released rfl, rfl⟩
    rename_i policy listed
    split at done
    · cases done
      exact ⟨.released rfl, rfl⟩
    · rename_i granted
      cases done
      exact ⟨.capable transaction request clock row policy rfl holder (by simpa using task) phase
        listed (by simpa using granted) rfl, rfl⟩
  · cases done

/-- The admission query commits or finds room. -/
theorem brokerAdmit_move {s t : Db} {config : Config} {workerId instanceId : String}
    {clock : Int} {reply : Reply}
    (done : s.brokerAdmit workerId instanceId clock = some (t, reply))
    : s.LockMove ⟨config, .brokerAdmit workerId instanceId clock, reply⟩ t
      ∧ t.clock = s.clock := by
  obtain ⟨transaction, holder, done⟩ := Option.map_eq_some_iff.mp done
  obtain ⟨holder, task, _⟩ := holder_spec holder
  split at done
  · cases done
    exact ⟨.released rfl, rfl⟩
  rename_i policy listed
  split at done
  · rename_i admits
    cases done
    exact ⟨.admitting transaction workerId instanceId clock policy rfl holder task listed admits
      rfl rfl rfl rfl, rfl⟩
  · cases done
    exact ⟨.released rfl, rfl⟩

/-- A frame outside the lock is no move. -/
theorem LockMove.of_frame {s t : Db} {event : Event} (frame : s.Frame t)
    : s.LockMove event t ∧ (event.op = .tick t.clock ∨ t.clock = s.clock) :=
  ⟨.kept frame.scheduler, .inr frame.clock⟩

/-- Every step moves the lock in one of these ways and only a tick moves the clock, by cases
on the operation.
-/
theorem Step.moves {s t : Db} {event : Event} (step : s.Step event t)
    : s.LockMove event t ∧ (event.op = .tick t.clock ∨ t.clock = s.clock) := by
  obtain ⟨config, op, reply⟩ := event
  simp only [Db.Step] at step
  cases op with
  | tick =>
      cases step
      exact ⟨.kept rfl, .inl rfl⟩
  | reportAvailability =>
      cases step
      exact ⟨.kept rfl, .inr rfl⟩
  | outboxPublished =>
      cases step
      exact LockMove.of_frame ⟨rfl, rfl, rfl⟩
  | initSchema => exact LockMove.of_frame (initSchema_frame step)
  | createJob => exact LockMove.of_frame (createJob_frame step)
  | markDownloading | markUploadInterrupted | cancelJob | acknowledgeJob | completeJob | reap =>
      exact LockMove.of_frame (execute_frame step)
  | markQueued => exact LockMove.of_frame (markQueued_frame step)
  | claimLegacy => exact LockMove.of_frame (claimLegacy_frame step)
  | heartbeatLegacy =>
      simp only [exec, heartbeatLegacy] at step
      split at step
      · cases step
      · exact LockMove.of_frame (execute_frame step)
  | failJob => exact LockMove.of_frame (failJob_frame step)
  | cleanup => exact LockMove.of_frame (cleanup_frame step)
  | lockScheduler task now =>
      simp only [exec, lockScheduler] at step
      split at step
      · cases step
      · rename_i open_
        simp only [Bool.or_eq_true, not_or, Bool.not_eq_true, Option.isSome_eq_false_iff,
          Option.isNone_iff_eq_none] at open_
        cases step
        exact ⟨.taken task now open_.1 (by simpa using open_.2) rfl, .inr rfl⟩
  | rollback =>
      simp only [exec] at step
      split at step
      · cases step
        exact ⟨.released rfl, .inr rfl⟩
      · cases step
  | heartbeat =>
      obtain ⟨transaction, _, done⟩ := Option.map_eq_some_iff.mp step
      cases done
      exact ⟨.released rfl, .inr rfl⟩
  | selectWorker => exact (selectWorker_move step).imp_right .inr
  | claimSlot =>
      obtain ⟨transaction, _, done⟩ := Option.bind_eq_some_iff.mp step
      split at done
      · cases done
      split at done <;>
      · cases done
        exact ⟨.released rfl, .inr rfl⟩
  | brokerJob => exact (brokerJob_move step).imp_right .inr
  | brokerCapacity => exact (brokerCapacity_move step).imp_right .inr
  | brokerStart | registerConsumer =>
      obtain ⟨transaction, _, done⟩ := Option.bind_eq_some_iff.mp step
      split at done
      · split at done
        · cases done
        · cases done
          exact ⟨.released rfl, .inr rfl⟩
      · cases done
  | brokerAdmit => exact (brokerAdmit_move step).imp_right .inr
  | reconcile =>
      obtain ⟨transaction, _, done⟩ := Option.bind_eq_some_iff.mp step
      obtain ⟨next, seeded, same⟩ := Option.map_eq_some_iff.mp done
      cases same
      exact ⟨.released rfl, .inr (seed_frame seeded).clock⟩

theorem Step.lockMove {s t : Db} {event : Event} (step : s.Step event t)
    : s.LockMove event t :=
  step.moves.1

/-- Whoever holds the lock opened a transaction that its settings allow. -/
theorem Step.holder_allowed {s t : Db} {event : Event} (step : s.Step event t)
    {P : Config → Task → Prop}
    (kept : ∀ transaction, s.scheduler = some transaction → P transaction.config transaction.task)
    (taken : ∀ task, Task.allowed event.config task → P event.config task)
    : ∀ transaction, t.scheduler = some transaction → P transaction.config transaction.task := by
  intro transaction holder
  cases step.lockMove with
  | kept same => exact kept transaction (same ▸ holder)
  | released free => simp [free] at holder
  | taken task now free allowed next =>
      obtain rfl := Option.some.inj (next.symm.trans holder)
      exact taken task allowed
  | selected before _ _ _ _ holder' _ _ next | loaded before _ _ _ _ holder' _ _ _ next
  | capable before _ _ _ _ _ holder' _ _ _ _ next
  | admitting before _ _ _ _ _ holder' _ _ _ _ _ _ next =>
      obtain rfl := Option.some.inj (next.symm.trans holder)
      exact kept before holder'

-----------------------------------------------------------------------------------------
-- The slots
-----------------------------------------------------------------------------------------

/-- How a step changes `worker_availability`. -/
inductive SlotMove (s : Db) (event : Event) (t : Db) : Prop
  | kept (same : t.slots = s.slots)
  | reported (workerId instanceId : String) (ready : Bool) (demandSeconds now : Int)
    (called : event.op = .reportAvailability workerId instanceId ready now)
    (slots
      : t.slots
        = Transcriber.reportAvailability workerId instanceId
            (if ready then event.config.availabilityTtlSeconds else 0) demandSeconds now
            (cleanupAvailability now s.slots))
  | requested (transaction : Transaction) (workerId instanceId : String) (clock : Int)
    (called : event.op = .selectWorker workerId instanceId clock)
    (holder : s.scheduler = some transaction)
    (task : transaction.task = .claim workerId instanceId)
    (slots
      : t.slots
        = requestWork transaction.config.demandTtlSeconds workerId instanceId clock s.slots)
  | admitted (transaction : Transaction) (workerId instanceId : String) (clock : Int)
    (policy : Policy) (called : event.op = .registerConsumer workerId instanceId clock)
    (holder : s.scheduler = some transaction)
    (task : transaction.task = .register workerId instanceId)
    (phase : transaction.phase = .admitting policy)
    (slots : t.slots = Transcriber.brokerAdmit workerId instanceId clock s.slots)

/-- Only a report, a capacity request and an admission write the slots, by cases on the
operation.
-/
theorem Step.slotMove {s t : Db} {event : Event} (step : s.Step event t)
    : s.SlotMove event t := by
  obtain ⟨config, op, reply⟩ := event
  simp only [Db.Step] at step
  cases op with
  | tick | outboxPublished =>
      cases step
      exact .kept rfl
  | reportAvailability workerId instanceId ready now =>
      cases step
      exact .reported workerId instanceId ready _ now rfl rfl
  | initSchema => exact .kept (initSchema_frame step).slots
  | createJob => exact .kept (createJob_frame step).slots
  | markDownloading | markUploadInterrupted | cancelJob | acknowledgeJob | completeJob | reap =>
      exact .kept (execute_frame step).slots
  | markQueued => exact .kept (markQueued_frame step).slots
  | claimLegacy => exact .kept (claimLegacy_frame step).slots
  | heartbeatLegacy =>
      simp only [exec, heartbeatLegacy] at step
      split at step
      · cases step
      · exact .kept (execute_frame step).slots
  | failJob => exact .kept (failJob_frame step).slots
  | cleanup => exact .kept (cleanup_frame step).slots
  | lockScheduler | rollback =>
      simp only [exec, lockScheduler] at step
      split at step <;> cases step
      exact .kept rfl
  | heartbeat =>
      obtain ⟨transaction, _, done⟩ := Option.map_eq_some_iff.mp step
      cases done
      exact .kept rfl
  | selectWorker workerId instanceId clock =>
      obtain ⟨transaction, holder, done⟩ := Option.map_eq_some_iff.mp step
      obtain ⟨holder, task, _⟩ := holder_spec holder
      simp only at done
      split at done <;>
      · cases done
        exact .requested transaction workerId instanceId clock rfl holder task rfl
  | claimSlot =>
      obtain ⟨transaction, _, done⟩ := Option.bind_eq_some_iff.mp step
      split at done
      · cases done
      split at done <;>
      · cases done
        exact .kept rfl
  | brokerJob =>
      obtain ⟨transaction, _, done⟩ := Option.map_eq_some_iff.mp step
      repeat' split at done
      all_goals
        cases done
        exact .kept rfl
  | brokerCapacity | brokerStart =>
      obtain ⟨transaction, _, done⟩ := Option.bind_eq_some_iff.mp step
      repeat' split at done
      all_goals
        cases done
      all_goals exact .kept rfl
  | brokerAdmit =>
      obtain ⟨transaction, _, done⟩ := Option.map_eq_some_iff.mp step
      repeat' split at done
      all_goals
        cases done
        exact .kept rfl
  | registerConsumer workerId instanceId clock =>
      obtain ⟨transaction, holder, done⟩ := Option.bind_eq_some_iff.mp step
      split at done
      · rename_i policy phase
        split at done
        · cases done
        · rename_i task
          cases done
          exact .admitted transaction workerId instanceId clock policy rfl holder
            (by simpa using task) phase rfl
      · cases done
  | reconcile =>
      obtain ⟨transaction, _, done⟩ := Option.bind_eq_some_iff.mp step
      obtain ⟨next, seeded, same⟩ := Option.map_eq_some_iff.mp done
      cases same
      exact .kept (seed_frame seeded).slots

end Db

end Transcriber
