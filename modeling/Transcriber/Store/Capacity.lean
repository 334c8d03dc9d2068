import Transcriber.Store.Timed

/-! The execution caps of `WORKER_POLICIES` at every instant.
Counting, choosing and leasing are separate statements, but a grant stays valid until its
transaction commits: nobody else starts or renews a lease while the scheduler lock is held,
and passing time only ends leases.
-/

namespace Transcriber

open Execution

-----------------------------------------------------------------------------------------
-- Counting live leases
-----------------------------------------------------------------------------------------

/-- Unexpired leases assigned to the slots of a set. -/
def leases (slots : String → String → Bool) (moment : Int) (jobs : List JobRecord) : Nat :=
  jobs.countP (fun row => row.holdsLease moment
    && slots row.assignedWorkerId row.assignedInstanceId)

/-- The slots of a pool. -/
def inPool (workerId : String) : String → String → Bool := fun worker _ => worker = workerId

/-- A single slot. -/
def isSlot (workerId instanceId : String) : String → String → Bool :=
  fun worker slot => worker = workerId && slot = instanceId

/-- A later table at a later moment has at most the leases of an earlier one, on every set of
slots.
-/
def Fewer (early : Int) (before : List JobRecord) (late : Int) (after : List JobRecord) : Prop :=
  ∀ slots, leases slots late after ≤ leases slots early before

theorem Fewer.trans {first second third : Int} {before between after : List JobRecord}
    (earlier : Fewer first before second between) (later : Fewer second between third after)
    : Fewer first before third after :=
  fun slots => (later slots).trans (earlier slots)

/-- Passing time only ends leases. -/
theorem Fewer.of_le {early late : Int} (order : early ≤ late) (jobs : List JobRecord)
    : Fewer early jobs late jobs := by
  intro slots
  apply List.countP_mono_left
  intro row _ later
  simp only [Bool.and_eq_true] at later ⊢
  exact ⟨row.holdsLease_antitone order later.1, later.2⟩

/-- A rewriting after which only leased rows are leased, to the same slots. -/
theorem Fewer.of_rewrite {early late : Int} {jobs : List JobRecord}
    {f : JobRecord → JobRecord}
    (keeps
      : ∀ row ∈ jobs,
          (f row).holdsLease late
          → row.holdsLease early
            ∧ (f row).assignedWorkerId = row.assignedWorkerId
            ∧ (f row).assignedInstanceId = row.assignedInstanceId)
    : Fewer early jobs late (jobs.map f) := by
  intro slots
  refine Table.countP_map_le ?_
  intro row member after
  simp only [Bool.and_eq_true] at after ⊢
  obtain ⟨holds, worker, slot⟩ := keeps row member after.1
  exact ⟨holds, worker ▸ slot ▸ after.2⟩

/-- A start on one row adds a lease to its slot only. -/
theorem leases_start (moment : Int) {jobs : List JobRecord} {f : JobRecord → JobRecord}
    {jobId workerId instanceId : String} (distinct : (jobs.map JobRecord.jobId).Nodup)
    (started
      : ∀ row ∈ jobs,
          row.jobId = jobId
          → (f row).assignedWorkerId = workerId ∧ (f row).assignedInstanceId = instanceId)
    (kept : ∀ row ∈ jobs, row.jobId ≠ jobId → f row = row) (slots : String → String → Bool)
    : leases slots moment (jobs.map f)
      ≤ leases slots moment jobs + if slots workerId instanceId then 1 else 0 := by
  cases chosen : slots workerId instanceId with
  | true =>
      refine Table.countP_map_le_succ distinct jobId ?_
      intro row member other after
      rwa [kept row member other] at after
  | false =>
      refine Table.countP_map_le ?_
      intro row member after
      rcases eq_or_ne row.jobId jobId with same | other
      · obtain ⟨worker, slot⟩ := started row member same
        simp [worker, slot, chosen] at after
      · rwa [kept row member other] at after

-----------------------------------------------------------------------------------------
-- The caps
-----------------------------------------------------------------------------------------

/-- No pool and no slot holds more leases at this moment than it may. -/
structure WithinCaps (policies : List (String × Policy)) (moment : Int)
    (jobs : List JobRecord)
    : Prop where
  pool : ∀ workerId, poolLeases workerId moment jobs ≤ maxConcurrency policies workerId
  slot : ∀ workerId instanceId, slotLeases workerId instanceId moment jobs ≤ 1

/-- One more lease on this slot would stay within the caps. -/
structure Granted (policies : List (String × Policy)) (workerId instanceId : String)
    (moment : Int) (jobs : List JobRecord)
    : Prop where
  pool : poolLeases workerId moment jobs < maxConcurrency policies workerId
  slot : slotLeases workerId instanceId moment jobs = 0

theorem WithinCaps.fewer {policies : List (String × Policy)} {early late : Int}
    {before after : List JobRecord} (within : WithinCaps policies early before)
    (fewer : Fewer early before late after)
    : WithinCaps policies late after where
  pool workerId := (fewer (inPool workerId)).trans (within.pool workerId)
  slot workerId instanceId := (fewer (isSlot workerId instanceId)).trans
    (within.slot workerId instanceId)

theorem Granted.fewer {policies : List (String × Policy)} {workerId instanceId : String}
    {early late : Int} {before after : List JobRecord}
    (granted : Granted policies workerId instanceId early before)
    (fewer : Fewer early before late after)
    : Granted policies workerId instanceId late after where
  pool := (fewer (inPool workerId)).trans_lt granted.pool
  slot := Nat.le_zero.mp ((fewer (isSlot workerId instanceId)).trans granted.slot.le)

/-- A granted start keeps the caps: its pool was below its cap and its slot was idle. -/
theorem Granted.start {policies : List (String × Policy)} {workerId instanceId jobId : String}
    {moment : Int} {jobs : List JobRecord} {f : JobRecord → JobRecord}
    (granted : Granted policies workerId instanceId moment jobs)
    (within : WithinCaps policies moment jobs)
    (distinct : (jobs.map JobRecord.jobId).Nodup)
    (started
      : ∀ row ∈ jobs,
          row.jobId = jobId
          → (f row).assignedWorkerId = workerId ∧ (f row).assignedInstanceId = instanceId)
    (kept : ∀ row ∈ jobs, row.jobId ≠ jobId → f row = row)
    : WithinCaps policies moment (jobs.map f) := by
  have added := leases_start moment distinct started kept
  constructor
  · intro worker
    have count := added (inPool worker)
    have before : leases (inPool worker) moment jobs ≤ maxConcurrency policies worker :=
      within.pool worker
    change leases (inPool worker) moment (jobs.map f) ≤ _
    rcases eq_or_ne workerId worker with rfl | other
    · have room : leases (inPool workerId) moment jobs < maxConcurrency policies workerId :=
        granted.pool
      simp only [inPool, decide_true, if_true] at count room ⊢
      omega
    · simp only [inPool, other, decide_false, Bool.false_eq_true, if_false] at count before ⊢
      omega
  · intro worker slot
    have count := added (isSlot worker slot)
    have before : leases (isSlot worker slot) moment jobs ≤ 1 := within.slot worker slot
    change leases (isSlot worker slot) moment (jobs.map f) ≤ 1
    cases chosen : isSlot worker slot workerId instanceId with
    | false =>
        simp only [chosen, Bool.false_eq_true, if_false] at count
        omega
    | true =>
        simp only [isSlot, Bool.and_eq_true, decide_eq_true_eq] at chosen
        obtain ⟨rfl, rfl⟩ := chosen
        have idle : leases (isSlot workerId instanceId) moment jobs = 0 := granted.slot
        rw [idle] at count
        split at count <;> omega

-----------------------------------------------------------------------------------------
-- Steps that start and renew nothing
-----------------------------------------------------------------------------------------

/-- The act grants or extends a lease. -/
def Act.leases : Act → Bool
  | .start _ _ | .renew _ _ => true
  | .queue | .complete _ _ _ _ | .fail _ => false

/-- A row step that grants no lease leaves a leased row as it was. -/
theorem RowStep.unleased {act : Option Act} {row next : JobRecord} (step : RowStep act row next)
    (plain : act.any Act.leases = false) {moment : Int} (holds : next.holdsLease moment)
    : row.holdsLease moment
      ∧ next.assignedWorkerId = row.assignedWorkerId
      ∧ next.assignedInstanceId = row.assignedInstanceId := by
  have running := JobRecord.holdsLease_running holds
  cases step with
  | keep | interrupted | acknowledged | redispatched => exact ⟨holds, rfl, rfl⟩
  | downloading | queued | cancelled | completed | exhausted =>
      simp [Sql.updateStatus, Sql.markQueued, Sql.cancelJob, Sql.complete, Sql.reap] at running
  | failed =>
      simp only [Sql.fail] at running
      split at running <;> cases running
  | claimed | delivered | renewed => simp [Act.leases] at plain

/-- Such a step of the store leaves at most the leases there were, at every moment. -/
theorem Db.Change.fewer {s t : Db} {event : Event} (change : s.Change event t)
    (plain : ∀ jobId, (event.act? jobId).any Act.leases = false) (moment : Int)
    : Fewer moment s.jobs moment t.jobs := by
  cases change with
  | rewrite f entries jobs outbox rows =>
      rw [jobs]
      exact .of_rewrite (fun row member => (rows row member).unleased (plain row.jobId))
  | insert options jobId now called jobs =>
      intro slots
      simp [jobs, leases, JobRecord.created, JobRecord.holdsLease]
  | remove jobId ttlSeconds now called jobs =>
      intro slots
      rw [jobs]
      exact List.filter_sublist.countP_le
  | publish messageId now called jobs =>
      rw [jobs]
      exact .of_le (Int.le_refl moment) s.jobs

-----------------------------------------------------------------------------------------
-- The invariant of the scheduler lock
-----------------------------------------------------------------------------------------

/-- The lock holder's tests passed for this slot and it has not leased yet. -/
def Transaction.grants (transaction : Transaction) (workerId instanceId : String) : Prop :=
  match transaction.task, transaction.phase with
  | .claim worker slot, .selected => worker = workerId ∧ slot = instanceId
  | .begin request, .capable _ =>
      request.workerId = workerId ∧ request.instanceId = instanceId
  | _, _ => False

/-- The moment from which on the lock holder reads the clock. -/
def Db.since (s : Db) : Int := (s.scheduler.map Transaction.since).getD s.clock

/-- The caps hold since the lock was taken, and a pending grant is still good. -/
structure Db.Capped (policies : List (String × Policy)) (s : Db) : Prop where
  consistent : s.Consistent
  settings
    : ∀ transaction,
        s.scheduler = some transaction → transaction.config.workerPolicies = policies
  since_le : s.since ≤ s.clock
  within : WithinCaps policies s.since s.jobs
  granted
    : ∀ transaction workerId instanceId,
        s.scheduler = some transaction
        → transaction.grants workerId instanceId
        → Granted policies workerId instanceId s.clock s.jobs

/-- A timely step of a process with these policies. -/
def Db.PolicyStep (policies : List (String × Policy)) (s : Db) (event : Event) (t : Db)
    : Prop :=
  s.TimedStep event t ∧ event.config.workerPolicies = policies

/-- The caps hold now if they held when the lock was taken. -/
theorem Db.Capped.now {policies : List (String × Policy)} {s : Db} (kept : s.Capped policies)
    : WithinCaps policies s.clock s.jobs :=
  kept.within.fewer (.of_le kept.since_le s.jobs)

/-- A step that frees the lock keeps the invariant if the caps hold after it. -/
theorem Db.Capped.of_free {policies : List (String × Policy)} {t : Db}
    (consistent : t.Consistent) (free : t.scheduler = none)
    (within : WithinCaps policies t.clock t.jobs)
    : t.Capped policies := by
  refine ⟨consistent, ?_, ?_, ?_, ?_⟩
  · simp [free]
  · simp [since, free]
  · simpa [since, free] using within
  · simp [free]

/-- A renewal leaves at most the leases that its clock reading counted. -/
theorem Db.heartbeat_fewer (s : Db) (jobId token : String) (leaseSeconds : Int) (progress : Rat)
    (now : Int) {clock late : Int} (order : clock ≤ late)
    : Fewer clock s.jobs late
        (s.rewrite (Sql.heartbeat jobId token leaseSeconds progress now clock)).jobs := by
  refine .of_rewrite ?_
  intro row _ after
  cases selected : (Sql.heartbeat jobId token leaseSeconds progress now clock).selects row with
  | true =>
      rw [RowUpdate.apply_selected selected]
      simp only [Sql.heartbeat, Bool.and_eq_true] at selected
      exact ⟨selected.2, rfl, rfl⟩
  | false =>
      rw [RowUpdate.apply_unselected selected] at after ⊢
      exact ⟨row.holdsLease_antitone order after, rfl, rfl⟩

/-- What a step under policies does to the leases: nothing new, a renewal of leases that were
live when the lock was taken, or one start of the granted slot.
-/
inductive Db.LeaseMove (s : Db) (event : Event) (t : Db) : Prop
  | plain (plain : ∀ jobId, (event.act? jobId).any Act.leases = false)
  | renewed (free : t.scheduler = none) (same : t.clock = s.clock)
    (fewer : Fewer s.since s.jobs s.clock t.jobs)
  | started (transaction : Transaction) (workerId instanceId jobId : String)
    (f : JobRecord → JobRecord) (holder : s.scheduler = some transaction)
    (grants : transaction.grants workerId instanceId) (free : t.scheduler = none)
    (same : t.clock = s.clock) (jobs : t.jobs = s.jobs.map f)
    (started
      : ∀ row ∈ s.jobs,
          row.jobId = jobId
          → (f row).assignedWorkerId = workerId ∧ (f row).assignedInstanceId = instanceId)
    (kept : ∀ row ∈ s.jobs, row.jobId ≠ jobId → f row = row)

/-- The start of one job by a statement that selects no other. -/
theorem Db.LeaseMove.of_start {s t : Db} {event : Event} {transaction : Transaction}
    {statement : RowUpdate} (jobId : String) {workerId instanceId : String}
    (holder : s.scheduler = some transaction) (grants : transaction.grants workerId instanceId)
    (free : t.scheduler = none) (same : t.clock = s.clock)
    (jobs : t.jobs = s.jobs.map statement.apply)
    (only : ∀ row, statement.selects row → row.jobId = jobId)
    (assigned
      : ∀ row ∈ s.jobs,
          row.jobId = jobId
          → (statement.apply row).assignedWorkerId = workerId
            ∧ (statement.apply row).assignedInstanceId = instanceId)
    : s.LeaseMove event t := by
  refine .started transaction workerId instanceId jobId statement.apply holder grants free same
    jobs assigned ?_
  intro row _ other
  apply RowUpdate.apply_unselected
  cases selected : statement.selects row with
  | false => rfl
  | true => exact absurd (only row selected) other

/-- Every timely step with non-empty policies moves the leases so, by cases on the operation. -/
theorem Db.PolicyStep.leaseMove {policies : List (String × Policy)} {s t : Db} {event : Event}
    (listed : policies ≠ []) (consistent : s.Consistent)
    (step : s.PolicyStep policies event t)
    : s.LeaseMove event t := by
  obtain ⟨config, op, reply⟩ := event
  obtain ⟨⟨taken, timely⟩, settings⟩ := step
  have named : config.workerPolicies ≠ [] := by
    rw [show config.workerPolicies = policies from settings]
    exact listed
  cases op with
  | claimLegacy =>
      simp [Db.Step, exec, claimLegacy, named] at taken
  | heartbeatLegacy =>
      simp [Db.Step, exec, heartbeatLegacy, named] at taken
  | heartbeat jobId token progress clock =>
      obtain ⟨transaction, holder, done⟩ := Option.map_eq_some_iff.mp taken
      obtain ⟨holder, _, _⟩ := holder_spec holder
      cases done
      simp only [Event.timely, Db.reads, holder, Option.all_some, Bool.and_eq_true,
        decide_eq_true_eq] at timely
      have since : s.since = transaction.since := by simp [Db.since, holder]
      have renewed := s.heartbeat_fewer jobId token transaction.config.leaseSeconds progress
        transaction.now timely.2
      exact .renewed rfl rfl ((Fewer.of_le (since ▸ timely.1) s.jobs).trans renewed)
  | claimSlot workerId instanceId uuid locked clock =>
      obtain ⟨transaction, holder, done⟩ := Option.bind_eq_some_iff.mp taken
      obtain ⟨holder, task, reached⟩ := holder_spec holder
      have phase : transaction.phase = .selected := by
        cases phase : transaction.phase <;> simp_all [Phase.isSelected]
      split at done
      · cases done
      split at done
      · cases done
        exact .plain (fun _ => rfl)
      · rename_i row chosen
        obtain ⟨stored, startable, _⟩ := candidate_spec chosen
        have grants : transaction.grants workerId instanceId := by
          simp [Transaction.grants, task, phase]
        cases done
        refine .of_start row.jobId holder grants rfl rfl rfl ?_ ?_
        · intro other selected
          simp only [Sql.claimSlot, Bool.and_eq_true, decide_eq_true_eq] at selected
          exact selected.1
        · intro other member same
          rw [consistent.distinct.eq member stored same,
            RowUpdate.apply_selected (by simp [Sql.claimSlot, startable])]
          exact ⟨rfl, rfl⟩
  | brokerStart request uuid clock =>
      obtain ⟨transaction, holder, done⟩ := Option.bind_eq_some_iff.mp taken
      split at done
      · rename_i row phase
        split at done
        · cases done
        rename_i allowed
        simp only [ne_eq, Bool.or_eq_true, decide_eq_true_eq, not_or, Decidable.not_not]
          at allowed
        have grants : transaction.grants request.workerId request.instanceId := by
          simp [Transaction.grants, allowed.1, phase]
        cases done
        refine .of_start request.jobId holder grants rfl rfl rfl ?_ ?_
        · intro other selected
          simpa [Sql.brokerStart] using selected
        · intro other member same
          rw [RowUpdate.apply_selected (by simp [Sql.brokerStart, same])]
          exact ⟨rfl, rfl⟩
      · cases done
  | markQueued =>
      refine .plain (fun target => ?_)
      simp only [Event.act?]
      grind [Act.leases]
  | completeJob | failJob =>
      refine .plain (fun target => ?_)
      cases reply with
      | rows count =>
          simp only [Event.act?]
          split <;> rfl
      | _ => rfl
  | _ => exact .plain (fun _ => rfl)

/-- A step that grants no lease keeps the invariant, by cases on how it moves the lock. -/
theorem Db.Capped.plain {policies : List (String × Policy)} {s t : Db} {event : Event}
    (kept : s.Capped policies) (step : s.PolicyStep policies event t)
    (plain : ∀ jobId, (event.act? jobId).any Act.leases = false)
    : t.Capped policies := by
  obtain ⟨⟨step, timely⟩, settings⟩ := step
  have later := Db.TimedStep.clock_le ⟨step, timely⟩
  have consistent := step.consistent kept.consistent
  have change := (step.outcome kept.consistent.distinct kept.consistent.held).change
  have fewer (moment : Int) : Fewer moment s.jobs moment t.jobs := change.fewer plain moment
  have nowFewer : Fewer s.clock s.jobs t.clock t.jobs :=
    (fewer s.clock).trans (.of_le later t.jobs)
  have same_settings := step.holder_allowed (P := fun config _ => config.workerPolicies = policies)
    kept.settings (fun _ _ => settings)
  have inherit {transaction : Transaction} {phase : Phase}
      (holder : s.scheduler = some transaction)
      (next : t.scheduler = some { transaction with phase })
      (granted
        : ∀ workerId instanceId,
            Transaction.grants { transaction with phase } workerId instanceId
            → Granted policies workerId instanceId t.clock t.jobs)
      : t.Capped policies := by
    have sameSince : t.since = s.since := by simp [since, holder, next]
    refine ⟨consistent, same_settings, ?_, ?_, ?_⟩
    · rw [sameSince]
      exact Int.le_trans kept.since_le later
    · rw [sameSince]
      exact kept.within.fewer (fewer s.since)
    · intro other workerId instanceId holder' grants
      obtain rfl := Option.some.inj (next.symm.trans holder')
      exact granted workerId instanceId grants
  cases step.lockMove with
  | kept same =>
      cases holder : s.scheduler with
      | none =>
          exact .of_free consistent (same.trans holder) (kept.now.fewer nowFewer)
      | some transaction =>
          refine inherit holder (same.trans holder) ?_
          intro workerId instanceId grants
          exact (kept.granted transaction workerId instanceId holder grants).fewer nowFewer
  | released free => exact .of_free consistent free (kept.now.fewer nowFewer)
  | taken task now free allowed next =>
      have sameSince : t.since = s.since := by simp [since, free, next]
      refine ⟨consistent, same_settings, ?_, ?_, ?_⟩
      · rw [sameSince]
        exact Int.le_trans kept.since_le later
      · rw [sameSince]
        exact kept.within.fewer (fewer s.since)
      · intro transaction workerId instanceId holder grants
        obtain rfl := Option.some.inj (next.symm.trans holder)
        cases task <;> cases grants
  | selected transaction workerId instanceId clock called holder task chosen next =>
      have read : clock ≤ s.clock := by
        simp only [Event.timely, called, Db.reads, Bool.and_eq_true, decide_eq_true_eq] at timely
        exact timely.2
      refine inherit holder next ?_
      intro worker slot grants
      simp only [Transaction.grants, task] at grants
      obtain ⟨rfl, rfl⟩ := grants
      obtain ⟨idle, room⟩ := selectWorker_spec chosen
      rw [kept.settings transaction holder] at room
      exact Granted.fewer ⟨room, idle⟩ ((Fewer.of_le read s.jobs).trans nowFewer)
  | loaded transaction request clock row called holder task found passed next =>
      refine inherit holder next ?_
      intro worker slot grants
      simp only [Transaction.grants, task] at grants
  | capable transaction request clock row policy called holder task phase listed granted next =>
      have read : clock ≤ s.clock := by
        simp only [Event.timely, called, Db.reads, Bool.and_eq_true, decide_eq_true_eq] at timely
        exact timely.2
      refine inherit holder next ?_
      intro worker slot grants
      simp only [Transaction.grants, task] at grants
      obtain ⟨rfl, rfl⟩ := grants
      obtain ⟨idle, room⟩ := brokerCapacity_spec granted
      rw [kept.settings transaction holder] at listed
      have limit : maxConcurrency policies request.workerId = policy.maxConcurrency := by
        simp [maxConcurrency, listed]
      exact Granted.fewer ⟨limit ▸ room, idle⟩ ((Fewer.of_le read s.jobs).trans nowFewer)
  | admitting transaction workerId instanceId clock policy called holder task _ _ _ jobs same
      next =>
      have read : s.since ≤ clock ∧ clock ≤ s.clock := by
        simpa [Event.timely, called, Db.reads, holder, since] using timely
      have now : t.since = clock := by simp [since, next]
      refine ⟨consistent, same_settings, ?_, ?_, ?_⟩
      · rw [now, same]
        exact read.2
      · rw [now, jobs]
        exact kept.within.fewer (.of_le read.1 s.jobs)
      · intro other worker slot holder' grants
        obtain rfl := Option.some.inj (next.symm.trans holder')
        simp only [Transaction.grants, task] at grants

/-- Every timely step with these policies keeps the invariant, by cases on what it does to the
leases.
-/
theorem Db.Capped.step {policies : List (String × Policy)} {s t : Db} {event : Event}
    (listed : policies ≠ []) (kept : s.Capped policies)
    (step : s.PolicyStep policies event t)
    : t.Capped policies := by
  have consistent := step.1.1.consistent kept.consistent
  cases step.leaseMove listed kept.consistent with
  | plain plain => exact kept.plain step plain
  | renewed free same fewer =>
      refine .of_free consistent free ?_
      rw [same]
      exact kept.within.fewer fewer
  | started transaction workerId instanceId jobId f holder grants free same jobs started others =>
      have granted := kept.granted transaction workerId instanceId holder grants
      refine .of_free consistent free ?_
      rw [same, jobs]
      exact granted.start kept.now kept.consistent.distinct started others

/-- Execution capacity: with fixed non-empty policies, from any reachable store without running
jobs, no interleaving of timely steps ever exceeds the cap of a pool or doubles a slot.
-/
theorem Db.capacity {policies : List (String × Policy)} (listed : policies ≠ [])
    {clock : Int} {start s : Db} {past events : List Event}
    (before : Run Db.Step (Db.empty clock) past start)
    (idle : ∀ row ∈ start.jobs, row.status ≠ .running) (free : start.scheduler = none)
    (run : Run Db.TimedStep start events s)
    (fixed : ∀ event ∈ events, event.config.workerPolicies = policies)
    : ∀ workerId,
        poolLeases workerId s.clock s.jobs ≤ maxConcurrency policies workerId
        ∧ ∀ instanceId, slotLeases workerId instanceId s.clock s.jobs ≤ 1 := by
  have none (slots : String → String → Bool) : leases slots start.clock start.jobs = 0 := by
    apply List.countP_eq_zero.mpr
    intro row member holds
    simp only [Bool.and_eq_true] at holds
    exact idle row member (JobRecord.holdsLease_running holds.1)
  have within : WithinCaps policies start.clock start.jobs := by
    refine ⟨fun workerId => ?_, fun workerId instanceId => ?_⟩
    · exact (none (inPool workerId)).le.trans (Nat.zero_le _)
    · exact (none (isSlot workerId instanceId)).le.trans (Nat.zero_le _)
  have capped : s.Capped policies :=
    (run.restrict fixed).invariant (fun _ _ _ kept step => kept.step listed step)
      (.of_free (consistent_run (.empty clock) before) free within)
  exact fun workerId => ⟨capped.now.pool workerId, capped.now.slot workerId⟩

/-- The one slot of a pool runs the delivered job, and the pool is at its cap. -/
theorem Db.capacity_delivered
    : let policies := (Config.onePool .rabbitmq).workerPolicies
      let s := ((Db.empty 0).playTimed deliverOnce).2
      poolLeases "gpu" s.clock s.jobs = 1
        ∧ maxConcurrency policies "gpu" = 1
        ∧ ∀ workerId,
            poolLeases workerId s.clock s.jobs ≤ maxConcurrency policies workerId
            ∧ ∀ instanceId, slotLeases workerId instanceId s.clock s.jobs ≤ 1 :=
  ⟨by decide +kernel, by decide +kernel,
    capacity (by decide) (.nil (Db.empty 0)) (by decide) rfl
      (playTimed_run (Db.empty 0) deliverOnce) (by decide +kernel)⟩

end Transcriber
