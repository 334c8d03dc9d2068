import Mathlib.Algebra.BigOperators.Group.List.Basic
import Transcriber.Store.Entries

/-! The observation counters balance in every reachable state.
A table of counters keeps one row per key, so a counter is its past plus the entries of the step;
each entry balances its row, and the rows of a step add up.
-/

namespace Transcriber

open Execution

-----------------------------------------------------------------------------------------
-- Counters
-----------------------------------------------------------------------------------------

/-- The counters of the keys in a set, added up over a table. -/
def tallied (counts : String → ObservedEvent → Bool) (rows : List ObservationRow) : Nat :=
  (rows.map (fun row => if counts row.workerId row.event then row.total else 0)).sum

/-- How many of the calls raise a counter of the set. -/
def entered (counts : String → ObservedEvent → Bool) (calls : List Observation) : Nat :=
  calls.countP (fun call => counts (observedWorker call.worker) call.event)

/-- One counter row per worker and event: the primary key. -/
def Keyed (rows : List ObservationRow) : Prop := (rows.map ObservationRow.key).Nodup

theorem Keyed.nil : Keyed [] := List.nodup_nil

/-- A call raises the counter of its worker and event by one. -/
theorem transcriberObserve_tallied (counts : String → ObservedEvent → Bool) (now : Int)
    (rows : List ObservationRow) (call : Observation) (keyed : Keyed rows)
    : Keyed (transcriberObserve now rows call)
      ∧ tallied counts (transcriberObserve now rows call)
        = tallied counts rows
          + if counts (observedWorker call.worker) call.event then 1 else 0 := by
  refine ⟨Table.nodup_upsert keyed (fun _ => rfl) rfl, ?_⟩
  refine Table.sum_upsert keyed ?_ rfl
  intro row _ same
  obtain ⟨worker, event⟩ := Prod.mk.inj same
  simp only [worker, event]
  split <;> rfl

/-- The calls of one trigger invocation raise the counters that they name. -/
theorem calls_tallied (counts : String → ObservedEvent → Bool) (now : Int)
    (calls : List Observation) (rows : List ObservationRow) (keyed : Keyed rows)
    : Keyed (calls.foldl (transcriberObserve now) rows)
      ∧ tallied counts (calls.foldl (transcriberObserve now) rows)
        = tallied counts rows + entered counts calls := by
  rw [entered, Table.countP_eq_sum]
  exact Table.foldl_adds (tallied counts) _
    (fun rows call => transcriberObserve_tallied counts now rows call) calls rows keyed

namespace Db

/-- The calls of the trigger on a stored row, as the later state has it. -/
def observed (t : Db) (row : JobRecord) : List Observation :=
  match t.job? row.jobId with
  | none => []
  | some next => observeJob next.updatedAt row next

/-- The calls of the trigger on a row of the later state, if it is new. -/
def submitted (s : Db) (next : JobRecord) : List Observation :=
  if (s.job? next.jobId).isNone then observeInsert else []

/-- A step raises each counter by the entries of its rows. -/
theorem observe_tallied (counts : String → ObservedEvent → Bool) (s t : Db)
    (rows : List ObservationRow) (keyed : Keyed rows)
    : Keyed (s.observe t rows)
      ∧ tallied counts (s.observe t rows)
        = tallied counts rows
          + (s.jobs.map (fun row => entered counts (t.observed row))).sum
          + (t.jobs.map (fun next => entered counts (s.submitted next))).sum := by
  have updates := Table.foldl_adds (P := Keyed)
    (f := fun rows old =>
      match t.job? old.jobId with
      | none => rows
      | some new =>
          (observeJob new.updatedAt old new).foldl (transcriberObserve new.updatedAt) rows)
    (tallied counts) (fun row => entered counts (t.observed row))
    (fun rows old keyed => by
      simp only [observed]
      split
      · exact ⟨keyed, rfl⟩
      · exact calls_tallied counts _ _ rows keyed)
    s.jobs rows keyed
  have insertions := Table.foldl_adds (P := Keyed)
    (f := fun rows new =>
      if (s.job? new.jobId).isNone then
        observeInsert.foldl (transcriberObserve new.createdAt) rows
      else
        rows)
    (tallied counts) (fun next => entered counts (s.submitted next))
    (fun rows new keyed => by
      simp only [submitted]
      split
      · exact calls_tallied counts _ _ rows keyed
      · exact ⟨keyed, rfl⟩)
    t.jobs _ updates.1
  exact ⟨insertions.1, insertions.2.trans (by rw [updates.2])⟩

end Db

-----------------------------------------------------------------------------------------
-- The balance of one row
-----------------------------------------------------------------------------------------

/-- The counters of one event, of any worker. -/
def anyWorker (event : ObservedEvent) : String → ObservedEvent → Bool :=
  fun _ observed => observed = event

/-- The counter of one event of one worker. -/
def ofWorker (workerId : String) (event : ObservedEvent) : String → ObservedEvent → Bool :=
  fun worker observed => worker = workerId && observed = event

@[simp] theorem entered_nil (counts : String → ObservedEvent → Bool) : entered counts [] = 0 := rfl

@[simp] theorem entered_cons (counts : String → ObservedEvent → Bool) (call : Observation)
    (calls : List Observation)
    : entered counts (call :: calls)
      = entered counts calls + if counts (observedWorker call.worker) call.event then 1 else 0 :=
  List.countP_cons

/-- The durations of a completion raise no other counter. -/
theorem durations_silent {durations : List Observation}
    (kind : ∀ call ∈ durations, call.event = .processing ∨ call.event = .turnaround)
    {event : ObservedEvent} (processing : event ≠ .processing) (turnaround : event ≠ .turnaround)
    {counts : String → ObservedEvent → Bool}
    (counted : ∀ worker observed, counts worker observed → observed = event)
    : entered counts durations = 0 := by
  refine List.countP_eq_zero.mpr ?_
  intro call member raised
  have same := counted _ _ raised
  rcases kind call member with measured | measured
  · exact processing (same.symm.trans measured)
  · exact turnaround (same.symm.trans measured)

theorem anyWorker_event (event : ObservedEvent) (worker : String) (observed : ObservedEvent)
    (counted : anyWorker event worker observed)
    : observed = event := by
  simpa [anyWorker] using counted

theorem ofWorker_event (workerId : String) (event : ObservedEvent) (worker : String)
    (observed : ObservedEvent) (counted : ofWorker workerId event worker observed)
    : observed = event := by
  simp only [ofWorker, Bool.and_eq_true, decide_eq_true_eq] at counted
  exact counted.2

@[simp] theorem Status.terminal_running : Status.running.terminal = false := rfl
@[simp] theorem Status.terminal_queued : Status.queued.terminal = false := rfl
@[simp] theorem Status.terminal_done : Status.done.terminal = true := rfl
@[simp] theorem Status.terminal_failed : Status.failed.terminal = true := rfl

/-- A finished job is leased by nobody. -/
theorem JobRecord.leasedBy_terminal {row : JobRecord} (terminal : row.status.terminal)
    {workerId : String}
    : row.leasedBy workerId = false := by
  have idle : row.status ≠ .running := by
    intro running
    simp [running] at terminal
  simp [JobRecord.leasedBy, idle]

namespace Entry

variable {act : Option Act} {exhausts : Bool} {row next : JobRecord} {calls : List Observation}

/-- An open job stays open or ends in exactly one of three ways. -/
theorem open_balance (entry : Entry act exhausts row next calls)
    : (if !row.status.terminal then 1 else 0)
      = entered (anyWorker .completed) calls + entered (anyWorker .failed) calls
        + entered (anyWorker .cancelled) calls + (if !next.status.terminal then 1 else 0) := by
  cases entry with
  | silent leased terminal => simp [terminal]
  | begun first wait idle unfinished running started kind =>
      rcases kind with rfl | rfl <;> simp [anyWorker, unfinished, running]
  | reclaimed first wait was running started kind =>
      rcases kind with rfl | rfl <;> simp [anyWorker, was, running]
  | completed durations was done unstarted kind =>
      have completed := durations_silent kind (by decide) (by decide)
        (anyWorker_event .completed)
      have failed := durations_silent kind (by decide) (by decide)
        (anyWorker_event .failed)
      have cancelled := durations_silent kind (by decide) (by decide)
        (anyWorker_event .cancelled)
      simp [completed, failed, cancelled, anyWorker, was, done]
  | retried was queued => simp [anyWorker, was, queued]
  | failed was failed => simp [anyWorker, was, failed]
  | exhausted was failed => simp [anyWorker, was, failed]
  | cancelled unfinished failed => simp [anyWorker, unfinished, failed]
  | rejected idle unfinished failed => simp [anyWorker, unfinished, failed]

/-- An attempt of a pool is begun once and ends once: by a result, a failure, a cancellation or
its reclaim. Until then its lease is on the account of the pool.
-/
theorem attempts_balance (entry : Entry act exhausts row next calls) {workerId : String}
    (pool : workerId ≠ "ingress") (unleased : row.status ≠ .running → row.leaseOwner = "")
    : entered (ofWorker workerId .attempts) calls + (if row.leasedBy workerId then 1 else 0)
      = entered (ofWorker workerId .completed) calls
        + entered (ofWorker workerId .attemptFailures) calls
        + entered (ofWorker workerId .cancelled) calls
        + (if row.leasedBy workerId && act.any Act.starts then 1 else 0)
        + (if next.leasedBy workerId then 1 else 0) := by
  cases entry with
  | silent leased terminal unstarted => simp [leased, unstarted]
  | begun first wait idle unfinished running started kind =>
      rcases kind with rfl | rfl <;>
        simp [ofWorker, JobRecord.leasedBy, idle, running]
  | reclaimed first wait was running started kind =>
      rcases kind with rfl | rfl <;>
        simp [ofWorker, JobRecord.leasedBy, was, running, started] <;> omega
  | completed durations was done unstarted kind =>
      have silent (event : ObservedEvent) (processing : event ≠ .processing)
          (turnaround : event ≠ .turnaround)
          : entered (ofWorker workerId event) durations = 0 :=
        durations_silent kind processing turnaround (ofWorker_event _ _)
      simp [silent, ofWorker, JobRecord.leasedBy, was, done, unstarted]
  | retried was queued unstarted =>
      simp [ofWorker, JobRecord.leasedBy, was, queued, unstarted]
  | failed was failed unstarted =>
      simp [ofWorker, JobRecord.leasedBy, was, failed, unstarted]
  | exhausted was failed unstarted =>
      simp [ofWorker, JobRecord.leasedBy, was, failed, unstarted]
  | cancelled unfinished failed unstarted =>
      by_cases was : row.status = .running
      · simp [ofWorker, JobRecord.leasedBy, was, failed, unstarted]
      · have account : observedWorker (splitPart row.leaseOwner) = "ingress" := by
          rw [unleased was]
          decide
        simp [ofWorker, JobRecord.leasedBy, was, failed, account, pool.symm]
  | rejected idle unfinished failed unstarted =>
      simp [ofWorker, JobRecord.leasedBy, idle, failed]

/-- A lease expiration is a reclaim or an exhausted attempt. -/
theorem expirations_balance (entry : Entry act exhausts row next calls) (workerId : String)
    : entered (ofWorker workerId .leaseExpirations) calls
      = (if row.leasedBy workerId && act.any Act.starts then 1 else 0)
        + (if row.leasedBy workerId && exhausts && (next.status = .failed) then 1 else 0) := by
  cases entry with
  | silent leased terminal unstarted alive =>
      by_cases was : row.status = .running
      · simp [unstarted, alive was]
      · simp [JobRecord.leasedBy, was]
  | begun first wait idle unfinished running started kind =>
      rcases kind with rfl | rfl <;> simp [ofWorker, JobRecord.leasedBy, idle]
  | reclaimed first wait was running started kind =>
      rcases kind with rfl | rfl <;>
        simp [ofWorker, JobRecord.leasedBy, was, running, started]
  | completed durations was done unstarted kind =>
      have silent := durations_silent kind (by decide) (by decide)
        (ofWorker_event workerId .leaseExpirations)
      simp [silent, ofWorker, done, unstarted]
  | retried was queued unstarted => simp [ofWorker, queued, unstarted]
  | failed was failed unstarted unspent => simp [ofWorker, unstarted, unspent]
  | exhausted was failed unstarted spent =>
      simp [ofWorker, JobRecord.leasedBy, was, failed, unstarted, spent]
  | cancelled unfinished failed unstarted unspent =>
      by_cases was : row.status = .running
      · simp [ofWorker, unstarted, unspent was]
      · simp [ofWorker, JobRecord.leasedBy, was]
  | rejected idle unfinished failed unstarted =>
      simp [ofWorker, JobRecord.leasedBy, idle]

/-- An attempt is the job's first or a retry. -/
theorem starts_balance (entry : Entry act exhausts row next calls) (workerId : String)
    : entered (ofWorker workerId .attempts) calls
      = entered (ofWorker workerId .retries) calls
        + entered (ofWorker workerId .queueWait) calls := by
  cases entry with
  | begun first wait idle unfinished running started kind
  | reclaimed first wait was running started kind =>
      rcases kind with rfl | rfl <;> simp [ofWorker]
  | completed durations was done unstarted kind =>
      have silent (event : ObservedEvent) (processing : event ≠ .processing)
          (turnaround : event ≠ .turnaround)
          : entered (ofWorker workerId event) durations = 0 :=
        durations_silent kind processing turnaround (ofWorker_event _ _)
      simp [silent, ofWorker]
  | _ => simp [ofWorker]

/-- Only an insertion is entered as a submission. -/
theorem unsubmitted (entry : Entry act exhausts row next calls)
    : entered (anyWorker .submitted) calls = 0 := by
  cases entry with
  | begun first wait idle unfinished running started kind
  | reclaimed first wait was running started kind =>
      rcases kind with rfl | rfl <;> simp [anyWorker]
  | completed durations was done unstarted kind =>
      have silent := durations_silent kind (by decide) (by decide)
        (anyWorker_event .submitted)
      simp [silent, anyWorker]
  | _ => simp [anyWorker]

end Entry

-----------------------------------------------------------------------------------------
-- The balance of a step
-----------------------------------------------------------------------------------------

namespace Db

/-- How many rows a step inserts. -/
def inserted (s t : Db) : Nat := t.jobs.countP (fun next => (s.job? next.jobId).isNone)

/-- A table of stored rows has no new one. -/
theorem inserted_none {s t : Db} (kept : s.Consistent)
    (old : ∀ next ∈ t.jobs, ∃ row ∈ s.jobs, row.jobId = next.jobId)
    : s.inserted t = 0 := by
  refine List.countP_eq_zero.mpr ?_
  intro next member
  obtain ⟨row, stored, same⟩ := old next member
  simp [← same, job?_of_mem kept.distinct stored]

/-- A weight summed over the rows after a step: the stored rows that are left, and the new ones,
which all weigh the same.
-/
theorem Change.sum_jobs {s t : Db} {event : Event} (change : s.Change event t)
    (kept : s.Consistent) (keptNext : t.Consistent) (weight : JobRecord → Nat) (new : Nat)
    (created : ∀ config options jobId now, weight (.created config options jobId now) = new)
    : (t.jobs.map weight).sum
      = (s.jobs.map (fun row => ((t.job? row.jobId).map weight).getD 0)).sum
        + new * s.inserted t := by
  cases change with
  | rewrite f entries jobs outbox rows =>
      rw [inserted_none kept, jobs, List.map_map, Nat.mul_zero, Nat.add_zero]
      · refine congrArg List.sum (List.map_congr_left ?_)
        intro row member
        have found := job?_of_mem keptNext.distinct (jobs ▸ List.mem_map_of_mem member)
        rw [(rows row member).jobId] at found
        simp [found]
      · rw [jobs, List.forall_mem_map]
        exact fun row member => ⟨row, member, (rows row member).jobId.symm⟩
  | insert options jobId now called jobs outbox fresh unused quiet =>
      have left : s.jobs.map (fun row => ((t.job? row.jobId).map weight).getD 0)
          = s.jobs.map weight := by
        apply List.map_congr_left
        intro row member
        have found : t.job? row.jobId = some row :=
          job?_of_mem keptNext.distinct (by simp [jobs, member])
        simp [found]
      have one : s.inserted t = 1 := by
        have none : s.jobs.countP (fun row => (s.job? row.jobId).isNone) = 0 :=
          inserted_none kept (fun row member => ⟨row, member, rfl⟩)
        simp [inserted, jobs, none, JobRecord.created, kept.new_id fresh]
      rw [left, one, jobs, List.map_append, List.sum_append]
      simp [created]
  | remove jobId ttlSeconds now called jobs outbox quiet =>
      rw [inserted_none kept, jobs, Table.sum_delete, Nat.mul_zero, Nat.add_zero]
      · refine congrArg List.sum (List.map_congr_left ?_)
        intro row member
        rw [job?, jobs, Table.lookup_delete kept.distinct, Table.lookup_of_mem kept.distinct member]
        split
        · rename_i selected
          simp [Option.filter, selected]
        · rename_i left
          simp [Option.filter, left]
      · rw [jobs]
        exact fun row member => ⟨row, (List.mem_filter.mp member).1, rfl⟩
  | publish messageId now called jobs outbox quiet =>
      rw [inserted_none kept, jobs, Nat.mul_zero, Nat.add_zero]
      · refine congrArg List.sum (List.map_congr_left ?_)
        intro row member
        have found : t.job? row.jobId = some row := by
          rw [job?, jobs]
          exact job?_of_mem kept.distinct member
        simp [found]
      · rw [jobs]
        exact fun row member => ⟨row, member, rfl⟩

/-- Only finished rows are deleted; every other row is entered in the books. -/
theorem Step.fate {s t : Db} {event : Event} (step : s.Step event t) (coded : event.coded)
    (kept : s.Consistent) (valid : ∀ row ∈ s.jobs, row.Valid) {row : JobRecord}
    (member : row ∈ s.jobs)
    : (t.job? row.jobId = none ∧ row.status.terminal)
      ∨ ∃ next,
          t.job? row.jobId = some next
          ∧ Entry (event.act? row.jobId) event.op.exhausts row next (t.observed row) := by
  have change := (step.outcome kept.distinct kept.held).change
  have keptNext := step.consistent kept
  have entry (next : JobRecord) (stored : next ∈ t.jobs)
      (same : RowStep (event.act? row.jobId) row next)
      : ∃ next,
          t.job? row.jobId = some next
          ∧ Entry (event.act? row.jobId) event.op.exhausts row next (t.observed row) := by
    have found := job?_of_mem keptNext.distinct stored
    rw [same.jobId] at found
    refine ⟨next, found, ?_⟩
    simp only [observed, found]
    exact step.entry coded kept.distinct member stored (valid row member).toWellFormed same _
  cases found : t.job? row.jobId with
  | some next =>
      obtain ⟨stored, named⟩ := job?_mem found
      rcases change.origin kept found with ⟨old, found', same⟩ | ⟨_, unused, _⟩
      · rw [job?_of_mem kept.distinct member] at found'
        obtain rfl := Option.some.inj found'
        rw [← found]
        exact .inr (entry next stored same)
      · obtain ⟨uuid, drawn, same⟩ := kept.known row member
        exact absurd same.symm (unused uuid drawn)
  | none =>
      refine .inl ⟨rfl, ?_⟩
      have missing := Table.lookup_none found
      cases change with
      | rewrite f entries jobs outbox rows =>
          exact absurd (rows row member).jobId (missing _ (jobs ▸ List.mem_map_of_mem member))
      | insert options jobId now called jobs =>
          exact absurd rfl (missing row (by simp [jobs, member]))
      | remove jobId ttlSeconds now called jobs =>
          cases selected : (row.jobId = jobId && Sql.cleanup ttlSeconds now row : Bool) with
          | false =>
              refine absurd rfl (missing row ?_)
              rw [jobs]
              exact List.mem_filter.mpr ⟨member, by simp only [selected, Bool.not_false]⟩
          | true =>
              simp only [Bool.and_eq_true, Sql.cleanup] at selected
              exact (valid row member).finished.mp selected.2.1
      | publish messageId now called jobs =>
          exact absurd rfl (missing row (jobs ▸ member))

/-- A deleted row was observed no more. -/
theorem observed_none {t : Db} {row : JobRecord} (deleted : t.job? row.jobId = none)
    : t.observed row = [] := by
  simp [observed, deleted]

/-- The entries of a step that raise a counter of the set. -/
def entries (s t : Db) (counts : String → ObservedEvent → Bool) : Nat :=
  (s.jobs.map (fun row => entered counts (t.observed row))).sum

section Sums

variable {s t : Db} {event : Event} (step : s.Step event t) (coded : event.coded)
  (kept : s.Consistent) (valid : ∀ row ∈ s.jobs, row.Valid)

include step coded kept valid

/-- Open jobs leave the open ones through an entry, and new ones join them. -/
theorem Step.open_sum
    : s.jobs.countP (fun row => !row.status.terminal) + s.inserted t
      = s.entries t (anyWorker .completed) + s.entries t (anyWorker .failed)
        + s.entries t (anyWorker .cancelled)
        + t.jobs.countP (fun next => !next.status.terminal) := by
  let weight := fun row : JobRecord => if !row.status.terminal then 1 else 0
  have each : ∀ row ∈ s.jobs,
      weight row
        = entered (anyWorker .completed) (t.observed row)
          + entered (anyWorker .failed) (t.observed row)
          + entered (anyWorker .cancelled) (t.observed row)
          + ((t.job? row.jobId).map weight).getD 0 := by
    intro row member
    rcases step.fate coded kept valid member with ⟨deleted, terminal⟩ | ⟨next, found, entry⟩
    · simp [weight, observed_none deleted, deleted, terminal]
    · simpa only [weight, found, Option.map_some, Option.getD_some] using entry.open_balance
  have rows := congrArg List.sum (List.map_congr_left each)
  have total := (step.outcome kept.distinct kept.held).change.sum_jobs kept (step.consistent kept)
    weight 1 (fun _ _ _ _ => rfl)
  have before : s.jobs.countP (fun row => !row.status.terminal) = (s.jobs.map weight).sum :=
    Table.countP_eq_sum _ _
  have after : t.jobs.countP (fun row => !row.status.terminal) = (t.jobs.map weight).sum :=
    Table.countP_eq_sum _ _
  simp only [List.sum_map_add] at rows
  simp only [entries]
  omega

/-- Leases of a pool leave its account through an entry or a reclaim, and begun attempts join them.
-/
theorem Step.attempts_sum {workerId : String} (pool : workerId ≠ "ingress")
    : s.entries t (ofWorker workerId .attempts) + s.jobs.countP (fun row => row.leasedBy workerId)
      = s.entries t (ofWorker workerId .completed)
        + s.entries t (ofWorker workerId .attemptFailures)
        + s.entries t (ofWorker workerId .cancelled)
        + (Transition.mk event s t).reclaims workerId
        + t.jobs.countP (fun row => row.leasedBy workerId) := by
  let weight := fun row : JobRecord => if row.leasedBy workerId then 1 else 0
  have each : ∀ row ∈ s.jobs,
      entered (ofWorker workerId .attempts) (t.observed row) + weight row
        = entered (ofWorker workerId .completed) (t.observed row)
          + entered (ofWorker workerId .attemptFailures) (t.observed row)
          + entered (ofWorker workerId .cancelled) (t.observed row)
          + (if row.leasedBy workerId && (event.act? row.jobId).any Act.starts then 1 else 0)
          + ((t.job? row.jobId).map weight).getD 0 := by
    intro row member
    rcases step.fate coded kept valid member with ⟨deleted, terminal⟩ | ⟨next, found, entry⟩
    · simp [weight, observed_none deleted, deleted, JobRecord.leasedBy_terminal terminal]
    · have unleased : row.status ≠ .running → row.leaseOwner = "" := by
        intro idle
        by_contra named
        exact idle ((valid row member).owned.mp named)
      simpa only [weight, found, Option.map_some, Option.getD_some]
        using entry.attempts_balance pool unleased
  have rows := congrArg List.sum (List.map_congr_left each)
  have total := (step.outcome kept.distinct kept.held).change.sum_jobs kept (step.consistent kept)
    weight 0 (fun _ _ _ _ => rfl)
  have before : s.jobs.countP (fun row => row.leasedBy workerId) = (s.jobs.map weight).sum :=
    Table.countP_eq_sum _ _
  have after : t.jobs.countP (fun row => row.leasedBy workerId) = (t.jobs.map weight).sum :=
    Table.countP_eq_sum _ _
  have reclaimed := Table.countP_eq_sum
    (fun row => row.leasedBy workerId && (event.act? row.jobId).any Act.starts) s.jobs
  simp only [List.sum_map_add] at rows
  simp only [entries, Transition.reclaims]
  omega

/-- Lease expirations are the step's reclaims and exhausted attempts. -/
theorem Step.expirations_sum (workerId : String)
    : s.entries t (ofWorker workerId .leaseExpirations)
      = (Transition.mk event s t).reclaims workerId
        + (Transition.mk event s t).exhausted workerId := by
  have each : ∀ row ∈ s.jobs,
      entered (ofWorker workerId .leaseExpirations) (t.observed row)
        = (if row.leasedBy workerId && (event.act? row.jobId).any Act.starts then 1 else 0)
          + (if row.leasedBy workerId && event.op.exhausts
              && (t.job? row.jobId).any (fun next => next.status = .failed) then 1 else 0) := by
    intro row member
    rcases step.fate coded kept valid member with ⟨deleted, terminal⟩ | ⟨next, found, entry⟩
    · simp [observed_none deleted, JobRecord.leasedBy_terminal terminal]
    · simpa [found] using entry.expirations_balance workerId
  have rows := congrArg List.sum (List.map_congr_left each)
  simp only [List.sum_map_add] at rows
  rw [entries, rows, Transition.reclaims, Transition.exhausted, Table.countP_eq_sum, Table.countP_eq_sum]

/-- Every begun attempt is entered as the first or as a retry. -/
theorem Step.starts_sum (workerId : String)
    : s.entries t (ofWorker workerId .attempts)
      = s.entries t (ofWorker workerId .retries)
        + s.entries t (ofWorker workerId .queueWait) := by
  have each : ∀ row ∈ s.jobs,
      entered (ofWorker workerId .attempts) (t.observed row)
        = entered (ofWorker workerId .retries) (t.observed row)
          + entered (ofWorker workerId .queueWait) (t.observed row) := by
    intro row member
    rcases step.fate coded kept valid member with ⟨deleted, terminal⟩ | ⟨next, found, entry⟩
    · simp [observed_none deleted]
    · exact entry.starts_balance workerId
  have rows := congrArg List.sum (List.map_congr_left each)
  simp only [List.sum_map_add] at rows
  exact rows

/-- Rows are not submitted again. -/
theorem Step.submitted_sum : s.entries t (anyWorker .submitted) = 0 := by
  refine List.sum_eq_zero ?_
  intro value member
  obtain ⟨row, stored, rfl⟩ := List.mem_map.mp member
  rcases step.fate coded kept valid stored with ⟨deleted, _⟩ | ⟨next, _, entry⟩
  · simp [observed_none deleted]
  · exact entry.unsubmitted

end Sums

/-- The entries of the new rows that raise a counter of the set. -/
theorem submitted_sum (s t : Db) (counts : String → ObservedEvent → Bool)
    : (t.jobs.map (fun next => entered counts (s.submitted next))).sum
      = if counts "ingress" .submitted then s.inserted t else 0 := by
  have each (next : JobRecord)
      : entered counts (s.submitted next)
        = if (s.job? next.jobId).isNone && counts "ingress" .submitted then 1 else 0 := by
    have ingress : observedWorker "ingress" = "ingress" := by decide
    cases new : (s.job? next.jobId).isNone <;> simp [submitted, observeInsert, new, ingress]
  simp only [each]
  cases counted : counts "ingress" .submitted with
  | false => simp
  | true =>
      simp only [Bool.and_true, if_true]
      exact (Table.countP_eq_sum _ _).symm

end Db

-----------------------------------------------------------------------------------------
-- The balance of a run
-----------------------------------------------------------------------------------------

namespace ObservedStore

/-- A step raises the counters of a set by its entries and its submissions. -/
theorem Step.tally {s t : ObservedStore} {move : Transition} (step : s.Step move t)
    (keyed : Keyed s.observations) (counts : String → ObservedEvent → Bool)
    : Keyed t.observations
      ∧ t.tally counts
        = s.tally counts + s.db.entries t.db counts
          + if counts "ingress" .submitted then s.db.inserted t.db else 0 := by
  obtain ⟨_, _, _, observed⟩ := step
  obtain ⟨keyedNext, total⟩ := s.db.observe_tallied counts t.db s.observations keyed
  rw [← observed, Db.submitted_sum] at *
  exact ⟨keyedNext, total⟩

/-- The books of a run: every counter against the rows and the reclaims and exhaustions so far. -/
structure Balanced (past : List Transition) (s : ObservedStore) : Prop where
  jobs
    : s.overall .submitted
      = s.overall .completed + s.overall .failed + s.overall .cancelled
        + s.db.jobs.countP (fun row => !row.status.terminal)
  attempts
    : ∀ workerId,
        workerId ≠ "ingress"
        → s.counter workerId .attempts
          = s.counter workerId .completed + s.counter workerId .attemptFailures
            + s.counter workerId .cancelled
            + (past.map (fun move => move.reclaims workerId)).sum
            + s.db.jobs.countP (fun row => row.leasedBy workerId)
  expirations
    : ∀ workerId,
        workerId ≠ "ingress"
        → s.counter workerId .leaseExpirations
          = (past.map (fun move => move.reclaims workerId)).sum
            + (past.map (fun move => move.exhausted workerId)).sum
  starts
    : ∀ workerId,
        workerId ≠ "ingress"
        → s.counter workerId .attempts
          = s.counter workerId .retries + s.counter workerId .queueWait

/-- Every step keeps the books: each equation moves by the step's own sums. -/
theorem Balanced.step {past : List Transition} {s t : ObservedStore} {move : Transition}
    (balanced : s.Balanced past) (step : s.Step move t) (coded : move.event.coded)
    (keyed : Keyed s.observations) (kept : s.db.Consistent) (valid : ∀ row ∈ s.db.jobs, row.Valid)
    : t.Balanced (past ++ [move]) := by
  obtain ⟨event, before, after⟩ := move
  have raised (counts : String → ObservedEvent → Bool) := (step.tally keyed counts).2
  obtain ⟨stored, rfl, rfl, _⟩ := step
  replace stored : s.db.Step event t.db := stored
  have any (observed : ObservedEvent) (other : observed ≠ .submitted)
      : t.overall observed = s.overall observed + s.db.entries t.db (anyWorker observed) := by
    have total := raised (anyWorker observed)
    rw [if_neg (by simp [anyWorker, other.symm]), Nat.add_zero] at total
    exact total
  have each (workerId : String) (pool : workerId ≠ "ingress") (observed : ObservedEvent)
      : t.counter workerId observed
        = s.counter workerId observed + s.db.entries t.db (ofWorker workerId observed) := by
    have total := raised (ofWorker workerId observed)
    rw [if_neg (by simp [ofWorker, pool.symm]), Nat.add_zero] at total
    exact total
  refine ⟨?_, fun workerId pool => ?_, fun workerId pool => ?_, fun workerId pool => ?_⟩
  · have submissions : t.overall .submitted = s.overall .submitted + s.db.inserted t.db := by
      have total := raised (anyWorker .submitted)
      rw [stored.submitted_sum coded kept valid, if_pos (by simp [anyWorker]), Nat.add_zero]
        at total
      exact total
    have sums := stored.open_sum coded kept valid
    have earlier := balanced.jobs
    rw [submissions, any .completed (by decide), any .failed (by decide),
      any .cancelled (by decide)]
    omega
  · have sums := stored.attempts_sum coded kept valid pool
    have earlier := balanced.attempts workerId pool
    rw [each workerId pool, each workerId pool, each workerId pool, each workerId pool,
      List.map_append, List.sum_append, List.map_singleton, List.sum_singleton]
    omega
  · have sums := stored.expirations_sum coded kept valid workerId
    have earlier := balanced.expirations workerId pool
    rw [each workerId pool, List.map_append, List.sum_append, List.map_append, List.sum_append,
      List.map_singleton, List.sum_singleton, List.map_singleton, List.sum_singleton]
    omega
  · have sums := stored.starts_sum coded kept valid workerId
    have earlier := balanced.starts workerId pool
    rw [each workerId pool, each workerId pool, each workerId pool]
    omega

/-- Before the first step nothing is counted and nothing stored. -/
theorem Balanced.start (clock : Int) : (start clock).Balanced [] where
  jobs := rfl
  attempts _ _ := rfl
  expirations _ _ := rfl
  starts _ _ := rfl

/-- The books balance after every run: an accepted submission is open or has ended once, and an
attempt of a pool has ended once, was reclaimed, or runs. Failures carry a code of their callers.
-/
theorem books_balance {clock : Int} {past : List Transition} {s : ObservedStore}
    (run : Run Step (start clock) past s) (coded : ∀ move ∈ past, move.event.coded)
    : s.overall .submitted
        = s.overall .completed + s.overall .failed + s.overall .cancelled
          + s.db.jobs.countP (fun row => !row.status.terminal)
      ∧ ∀ workerId,
          workerId ≠ "ingress"
          → s.counter workerId .attempts
              = s.counter workerId .completed + s.counter workerId .attemptFailures
                + s.counter workerId .cancelled
                + (past.map (fun move => move.reclaims workerId)).sum
                + s.db.jobs.countP (fun row => row.leasedBy workerId)
            ∧ s.counter workerId .leaseExpirations
              = (past.map (fun move => move.reclaims workerId)).sum
                + (past.map (fun move => move.exhausted workerId)).sum
            ∧ s.counter workerId .attempts
              = s.counter workerId .retries + s.counter workerId .queueWait := by
  have books : s.Balanced past
      ∧ Keyed s.observations ∧ s.db.Consistent ∧ ∀ row ∈ s.db.jobs, row.Valid := by
    refine (run.restrict coded).history
      (I := fun past s =>
        s.Balanced past ∧ Keyed s.observations ∧ s.db.Consistent ∧ ∀ row ∈ s.db.jobs, row.Valid)
      ?_ ⟨.start clock, .nil, .empty clock, by simp [start, Db.empty]⟩
    rintro past s move t ⟨balanced, keyed, kept, valid⟩ ⟨step, coded⟩
    have stored := step.1
    refine ⟨balanced.step step coded keyed kept valid, (step.tally keyed (fun _ _ => true)).1,
      stored.consistent kept, ?_⟩
    exact (stored.outcome kept.distinct kept.held).change.rows valid JobRecord.created_valid
      (fun _ _ _ => RowStep.valid)
  obtain ⟨balanced, _⟩ := books
  exact ⟨balanced.jobs, fun workerId pool =>
    ⟨balanced.attempts workerId pool, balanced.expirations workerId pool,
      balanced.starts workerId pool⟩⟩

-----------------------------------------------------------------------------------------
-- A concrete run
-----------------------------------------------------------------------------------------

/-- An operation of a process with the transition it is. -/
def perform (s : ObservedStore) (call : Config × Op) : Option (Transition × ObservedStore) :=
  (s.db.perform call).map (fun done =>
    (⟨done.1, s.db, done.2⟩, ⟨done.2, s.db.observe done.2 s.observations⟩))

theorem perform_step (s : ObservedStore) (call : Config × Op) (move : Transition)
    (t : ObservedStore) (done : s.perform call = some (move, t))
    : s.Step move t := by
  obtain ⟨⟨event, db⟩, executed, same⟩ := Option.map_eq_some_iff.mp done
  cases same
  exact ⟨Db.perform_step s.db call event db executed, rfl, rfl, rfl⟩

/-- The delivered job is delivered again after its lease ran out, and once more with no attempt
left.
-/
def exhaustOnce : List (Config × Op) :=
  let config := Config.onePool .rabbitmq
  let request : BeginRequest :=
    ⟨"gpu", "slot", (Uuid.nth 0).text, (Uuid.nth 1).text, "delivery"⟩
  Db.deliverOnce ++
    [
      (config, .lockScheduler (.begin request) (4 * second)),
      (config, .brokerJob request (4 * second)),
      (config, .brokerCapacity request (4 * second)),
      (config, .brokerStart request (.nth 3) (4 * second)),
      (config, .lockScheduler (.begin request) (8 * second)),
      (config, .brokerJob request (8 * second))
    ]

def playExhaust : List Transition × ObservedStore :=
  Execution.play perform (fun _ _ _ => true) [] (start 0) exhaustOnce

/-- One of the two attempts was reclaimed and the other exhausted. -/
theorem books_balance_exhausted
    : (playExhaust.2.counter "gpu" .attempts, playExhaust.2.counter "gpu" .leaseExpirations)
        = (2, 2)
      ∧ playExhaust.2.counter "gpu" .leaseExpirations
        = (playExhaust.1.map (fun move => move.reclaims "gpu")).sum
          + (playExhaust.1.map (fun move => move.exhausted "gpu")).sum := by
  have run : Run Step (start 0) playExhaust.1 playExhaust.2 :=
    (Execution.play_run perform_step (.nil _) exhaustOnce).run (fun _ _ _ _ _ step => step)
  have coded : ∀ move ∈ playExhaust.1, move.event.coded := by decide +kernel
  refine ⟨by decide +kernel, ?_⟩
  exact ((books_balance run coded).2 "gpu" (by decide)).2.1

end ObservedStore

end Transcriber
