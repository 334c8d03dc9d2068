import Transcriber.Broker.Coverage

/-! Reconciliation after a rollback or a broker storage loss: queued and expired jobs get fresh
dispatches, and the other running jobs are left with whatever message they have.
-/

namespace Transcriber

open Execution

/-- The job can be started again, now or once its lease expires. -/
def JobRecord.restartable (row : JobRecord) : Bool :=
  row.status = .queued || (row.status = .running && row.attempts < row.maxAttempts)

/-- No kept row becomes restartable, by cases on the statement: starts only raise `attempts`. -/
theorem needy_restartable : Needy JobRecord.restartable where
  active row restartable := by
    simp only [JobRecord.restartable, Bool.or_eq_true, Bool.and_eq_true, decide_eq_true_eq]
      at restartable
    rcases restartable with queued | ⟨running, _⟩
    · simp [queued, Status.active]
    · simp [running, Status.active]
  before act row next step active unfailed restartable := by
    have status : row.status = .queued ∨ row.status = .running := by
      cases status : row.status <;> simp_all [Status.active]
    have started (attemptsLeft : row.attempts < row.maxAttempts) : row.restartable := by
      simp [JobRecord.restartable, attemptsLeft, status]
    cases step with
    | keep | interrupted | acknowledged | redispatched | renewed => exact restartable
    | claimed startable =>
        simp only [JobRecord.startable, Bool.and_eq_true, decide_eq_true_eq] at startable
        exact started startable.1.2
    | delivered _ attemptsLeft => exact started attemptsLeft
    | queued selected =>
        rcases status with status | status <;>
          simp [Sql.markQueued, status, Status.uploading] at selected
    | downloading | cancelled | completed | exhausted =>
        simp [JobRecord.restartable, Sql.updateStatus, Sql.cancelJob, Sql.complete, Sql.reap]
          at restartable
    | failed => exact absurd rfl (unfailed _)

namespace Db

-----------------------------------------------------------------------------------------
-- What the transaction does to one row
-----------------------------------------------------------------------------------------

/-- One row after `broker_reconcile.sql` and `broker_seed.sql`. -/
def reconciled (draw : String → Uuid) (clock : Int) (row : JobRecord) : JobRecord :=
  (Sql.brokerSeed draw).apply ((Sql.brokerReconcile clock).apply row)

theorem reconcile_spec {s t : Db} {draw : String → Uuid} {clock : Int} {reply : Reply}
    (done : s.reconcile draw clock = some (t, reply))
    : t.jobs = s.jobs.map (reconciled draw clock)
      ∧ t.scheduler = none
      ∧ ∀ row ∈ s.jobs,
          (Sql.brokerSeed draw).selects ((Sql.brokerReconcile clock).apply row)
          → draw row.jobId ∉ s.drawn := by
  obtain ⟨transaction, holder, done⟩ := Option.bind_eq_some_iff.mp done
  obtain ⟨next, seeded, same⟩ := Option.map_eq_some_iff.mp done
  cases same
  simp only [seed] at seeded
  split at seeded
  · cases seeded
  rename_i allowed
  simp only [Bool.or_eq_true, not_or, Bool.not_eq_true', Bool.not_eq_false, decide_eq_true_eq,
    List.any_eq_true, List.contains_iff_mem, not_exists, not_and] at allowed
  cases seeded
  refine ⟨by simp [commit, rewrite, reconciled, Function.comp_def], rfl, ?_⟩
  intro row member selected
  refine allowed.2 _ (List.mem_map.mpr ⟨(Sql.brokerReconcile clock).apply row, ?_, by simp⟩)
  exact List.mem_filter.mpr ⟨List.mem_map_of_mem member, selected⟩

/-- Reconciliation sets dispatch identities only. -/
theorem reconciled_row (draw : String → Uuid) (clock : Int) (row : JobRecord)
    : ∃ dispatchId, reconciled draw clock row = { row with dispatchId } := by
  unfold reconciled
  cases cleared : (Sql.brokerReconcile clock).selects row with
  | false =>
      rw [RowUpdate.apply_unselected cleared]
      cases seeded : (Sql.brokerSeed draw).selects row with
      | false => exact ⟨row.dispatchId, RowUpdate.apply_unselected seeded⟩
      | true => exact ⟨_, RowUpdate.apply_selected seeded⟩
  | true =>
      rw [RowUpdate.apply_selected cleared]
      cases seeded : (Sql.brokerSeed draw).selects ((Sql.brokerReconcile clock).assign row) with
      | false => exact ⟨"", RowUpdate.apply_unselected seeded⟩
      | true => exact ⟨_, RowUpdate.apply_selected seeded⟩

/-- Reconciliation leaves the running job alone: its lease is not past and it has a dispatch. -/
def Unreconciled (clock : Int) (row : JobRecord) : Prop :=
  row.status = .running ∧ isPast row.leaseExpiresAt clock = false ∧ row.dispatchId ≠ ""

/-- An active job under its old dispatch was left alone: any other has a fresh UUID. -/
theorem reconcile_unreconciled {s t : Db} {draw : String → Uuid} {clock : Int} {reply : Reply}
    (consistent : s.Consistent) (kept : s.Dispatches)
    (done : s.reconcile draw clock = some (t, reply)) {row next : JobRecord}
    (stored : row ∈ s.jobs) (member : next ∈ t.jobs) (job : next.jobId = row.jobId)
    (same : next.dispatchId = row.dispatchId) (active : row.status.active)
    : Unreconciled clock row := by
  obtain ⟨jobs, _, fresh⟩ := reconcile_spec done
  rw [jobs] at member
  obtain ⟨old, oldMember, rfl⟩ := List.mem_map.mp member
  obtain rfl := consistent.distinct.eq oldMember stored (by simpa [reconciled] using job)
  have unseeded : (Sql.brokerSeed draw).selects ((Sql.brokerReconcile clock).apply old) = false := by
    by_contra selected
    rw [Bool.not_eq_false] at selected
    rw [reconciled, RowUpdate.apply_selected selected] at same
    simp only [Sql.brokerSeed, RowUpdate.apply_jobId] at same
    rcases kept.rows old stored with empty | ⟨uuid, known, text⟩
    · exact Uuid.text_ne_empty _ (same.trans empty)
    · exact fresh old stored selected (Uuid.text_injective (same.trans text) ▸ known)
  cases cleared : (Sql.brokerReconcile clock).selects old with
  | true =>
      rw [RowUpdate.apply_selected cleared] at unseeded
      simp [Sql.brokerSeed, Sql.brokerReconcile, active] at unseeded
  | false =>
      rw [RowUpdate.apply_unselected cleared] at unseeded
      simp only [Sql.brokerReconcile, Bool.or_eq_false_iff, Bool.and_eq_false_iff,
        decide_eq_false_iff_not] at cleared
      have running : old.status = .running := by
        cases status : old.status <;> simp_all [Status.active]
      refine ⟨running, cleared.2.resolve_left (fun differs => differs running), ?_⟩
      simpa [Sql.brokerSeed, active] using unseeded

/-- The holder of the lease keeps its token, and its completion is accepted as long as the lease
is live.
-/
def CanComplete (t : Db) (row : JobRecord) : Prop :=
  (∃ dispatchId, { row with dispatchId } ∈ t.jobs)
  ∧ ∀ config now text segments resultPath,
      row.holdsLease now
      → ∃ after count,
          t.exec config (.completeJob row.jobId row.leaseOwner text segments resultPath now)
            = some (after, .rows count)
          ∧ count ≠ 0

/-- Reconciliation ends no attempt. -/
theorem reconcile_canComplete {s t : Db} {draw : String → Uuid} {clock : Int} {reply : Reply}
    (done : s.reconcile draw clock = some (t, reply)) {row : JobRecord} (stored : row ∈ s.jobs)
    : t.CanComplete row := by
  obtain ⟨jobs, free, _⟩ := reconcile_spec done
  obtain ⟨dispatchId, same⟩ := reconciled_row draw clock row
  have member : { row with dispatchId } ∈ t.jobs := by
    rw [jobs, ← same]
    exact List.mem_map_of_mem stored
  refine ⟨⟨dispatchId, member⟩, ?_⟩
  intro config now text segments resultPath live
  have unlocked : t.blocks (Sql.complete row.jobId row.leaseOwner text segments resultPath
      now).selects = false := by
    simp [blocks, locks, free]
  refine ⟨_, _, by simp only [exec, execute, unlocked]; rfl, ?_⟩
  have selected : (Sql.complete row.jobId row.leaseOwner text segments resultPath now).selects
      { row with dispatchId } := by
    simpa [Sql.complete, JobRecord.holdsLease] using live
  exact Nat.ne_of_gt (List.countP_pos_iff.mpr ⟨_, member, selected⟩)

end Db

namespace System

-----------------------------------------------------------------------------------------
-- Coverage after reconciliation
-----------------------------------------------------------------------------------------

/-- A reachable job table with any broker content and any consumers. -/
def Restored (s : System) : Prop :=
  (∃ clock past, Run Db.Step (Db.empty clock) past s.db)
  ∧ ∀ id ∈ s.confirmed, ∃ uuid ∈ s.db.drawn, id = uuid.text

/-- The running jobs with attempts left that reconciliation leaves alone are covered. -/
def LeftCovered (s : System) (clock : Int) : Prop :=
  ∀ row ∈ s.db.jobs,
    row.attempts < row.maxAttempts → Db.Unreconciled clock row → s.Covered row

/-- Reconciliation covers every job that can be started again, if those that it leaves alone are
covered.
-/
theorem reconcile_sound {s t : System} {config : Config} {draw : String → Uuid} {clock : Int}
    (kept : s.Regular) (left : s.LeftCovered clock)
    (reconciled : s.Step (.store config (.reconcile draw clock)) t)
    : t.Sound JobRecord.restartable := by
  refine kept.store needy_restartable.active reconciled ?_
  intro event next same step member need row stored rowStep dispatch active unfailed
  have before := needy_restartable.before _ row next rowStep active unfailed need
  simp only [Db.Step, same, Db.exec] at step
  have alone := Db.reconcile_unreconciled kept.consistent kept.dispatches step stored member
    rowStep.jobId dispatch active
  refine left row stored ?_ alone
  simpa [JobRecord.restartable, alone.1] using before

/-- One reconciliation commits; each live attempt can still complete, and in every state reached
afterwards each job that can be started again has its current dispatch in the outbox or in the
broker.
-/
theorem reconcile_covers {s t u : System} {config : Config} {draw : String → Uuid} {clock : Int}
    {labels : List Delivering} (restored : s.Restored) (left : s.LeftCovered clock)
    (reconciled : s.Step (.store config (.reconcile draw clock)) t) (run : Run Step t labels u)
    : (∀ row ∈ s.db.jobs, row.holdsLease clock → t.db.CanComplete row)
      ∧ ∀ row ∈ u.db.jobs,
          row.status = .queued ∨ (row.status = .running ∧ row.attempts < row.maxAttempts)
          → u.Dispatched row := by
  obtain ⟨⟨_, past, reached⟩, confirmed⟩ := restored
  constructor
  · intro row stored _
    obtain ⟨_, _, _, step, _⟩ := store_spec reconciled
    exact Db.reconcile_canComplete step stored
  · intro row member waiting
    have started := regular_start reached
    have regular : s.Regular := ⟨started.consistent, started.dispatches, confirmed⟩
    have sound := sound_run run needy_restartable (reconcile_sound regular left reconciled)
    refine (sound.covered row member ?_).dispatched
    simpa [JobRecord.restartable] using waiting

-----------------------------------------------------------------------------------------
-- One live attempt
-----------------------------------------------------------------------------------------

/-- The store while it reconciles with one live attempt, whose message was published, and the
broker with these messages.
-/
def attempted (ready : List Message) : System where
  db :=
    let config := Config.onePool .rabbitmq
    ((Db.empty 0).play
      (Db.deliverOnce
        ++ [(config, .outboxPublished (Uuid.nth 1).text 0),
          (config, .lockScheduler .reconcile 0)])).2
  ready
  retry := []
  dead := []
  confirmed := []
  consumers _ := none

theorem attempted_restored (ready : List Message) : (attempted ready).Restored :=
  ⟨⟨0, _, Db.play_run (Db.empty 0) _⟩, by simp [attempted]⟩

/-- The reconciliation while the lease is live. -/
def reconcileOnce : Delivering :=
  .store (Config.onePool .rabbitmq) (.reconcile (fun _ => .nth 3) 1)

/-- The lease runs out. -/
def expireOnce : Delivering := .store (Config.onePool .rabbitmq) (.tick (10 * second))

theorem play_step {s : System} {label : Delivering} (taken : (s.next label).isSome)
    : s.Step label (s.play [label]).2 := by
  obtain ⟨t, taken⟩ := Option.isSome_iff_exists.mp taken
  simp [Step, play, Execution.play, perform, taken]

/-- The message of the live attempt is still in the broker, so the job can be started again. -/
theorem reconcile_covers_attempted
    : let task : Envelope := ⟨(Uuid.nth 0).text, (Uuid.nth 1).text⟩
      let s := attempted [⟨some task, task.messageId⟩]
      let t := (s.play [reconcileOnce]).2
      let u := (t.play [expireOnce]).2
      u.db.jobs.map (fun row => (row.status, row.startable u.db.clock)) = [(.running, true)]
        ∧ (∀ row ∈ s.db.jobs, row.holdsLease 1 → t.db.CanComplete row)
        ∧ ∀ row ∈ u.db.jobs,
            row.status = .queued ∨ (row.status = .running ∧ row.attempts < row.maxAttempts)
            → u.Dispatched row := by
  intro task s t u
  have left : s.LeftCovered 1 := by
    intro row member _ _
    have named : s.db.jobs.all (fun row =>
        row.jobId = task.jobId && row.dispatchId = task.messageId) := by
      decide +kernel
    have same := List.all_eq_true.mp named row member
    simp only [Bool.and_eq_true, decide_eq_true_eq] at same
    refine .inr (.inl ⟨⟨some task, task.messageId⟩, List.mem_singleton.mpr rfl, ?_⟩)
    rw [same.1, same.2]
    simp [delivery, task]
  exact ⟨by decide +kernel,
    reconcile_covers (attempted_restored _) left (play_step (by decide +kernel))
      (play_run t [expireOnce])⟩

/-- The message of the live attempt was lost with the broker's storage, and reconciliation does
not replace it: once the lease runs out nothing starts the job again.
-/
theorem reconcile_strands
    : let t := ((attempted []).play [reconcileOnce]).2
      let u := (t.play [expireOnce]).2
      (u.db.jobs.map (fun row => (row.status, row.startable u.db.clock)) = [(.running, true)]
        ∧ u.db.outbox.map OutboxRow.publishedAt = [some 0]
        ∧ u.ready = []
        ∧ u.retry = [])
      ∧ ¬∀ (s t u : System) (config : Config) (draw : String → Uuid) (clock : Int)
            (labels : List Delivering),
          s.Restored
          → s.Step (.store config (.reconcile draw clock)) t
          → Run Step t labels u
          → ∀ row ∈ u.db.jobs,
              row.status = .queued
                ∨ (row.status = .running
                  ∧ isPast row.leaseExpiresAt u.db.clock
                  ∧ row.attempts < row.maxAttempts)
              → u.Dispatched row := by
  intro t u
  have reconciled : (attempted []).Step reconcileOnce t := play_step (by decide +kernel)
  have expired : t.Step expireOnce u := play_step (by decide +kernel)
  obtain ⟨_, _, _, _, ready, retry, _, consumers⟩ := store_spec reconciled
  obtain ⟨_, _, _, _, ready', retry', _, consumers'⟩ := store_spec expired
  have ready : u.ready = [] := ready'.trans ready
  have retry : u.retry = [] := retry'.trans retry
  have consumers (c : Nat) : u.consumers c = none := by simp [consumers', consumers, attempted]
  refine ⟨⟨by decide +kernel, by decide +kernel, ready, retry⟩, fun claim => ?_⟩
  have published : u.db.outbox.all (fun entry => entry.publishedAt.isSome) := by decide +kernel
  have waiting : u.db.jobs.any (fun row =>
      row.status = .running && isPast row.leaseExpiresAt u.db.clock
        && row.attempts < row.maxAttempts) := by
    decide +kernel
  obtain ⟨row, member, waiting⟩ := List.any_eq_true.mp waiting
  simp only [Bool.and_eq_true, decide_eq_true_eq, and_assoc] at waiting
  rcases claim _ t u _ _ _ _ (attempted_restored []) reconciled (.single expired) row member
    (.inr waiting) with ⟨entry, listed, _, _, waits⟩ | ⟨message, present, _⟩
  · simpa [waits] using List.all_eq_true.mp published entry listed
  · rcases present with queued | delayed | ⟨c, _, _, found, _⟩
    · simp [ready] at queued
    · simp [retry] at delayed
    · simp [consumers] at found

end System

end Transcriber
