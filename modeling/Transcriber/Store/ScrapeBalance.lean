import Mathlib.Algebra.BigOperators.Ring.Finset
import Transcriber.Store.Scrape

/-! The numbers of a scrape agree with the store and with one another: the sums over its samples
are counts of rows and counters of the store, which balance in every reachable state.
-/

namespace Transcriber.Metrics

open Execution

-----------------------------------------------------------------------------------------
-- Sums over a scrape
-----------------------------------------------------------------------------------------

/-- What a line adds to the sum over a metric, with the labels kept. -/
def Line.amount (metric : String) (keep : List (String × String) → Bool) : Line → Rat
  | .sample name labels (some value) => if name = metric && keep labels then value else 0
  | .sample _ _ none | .help _ _ | .kind _ _ => 0

/-- The sum over the samples of a metric with the labels kept; `NaN` adds nothing. -/
def sumOf (metric : String) (keep : List (String × String) → Bool) (lines : List Line) : Rat :=
  (lines.map (Line.amount metric keep)).sum

section Sums

variable {metric : String} {keep : List (String × String) → Bool} {first second lines : List Line}

theorem sumOf_append
    : sumOf metric keep (first ++ second) = sumOf metric keep first + sumOf metric keep second := by
  rw [sumOf, List.map_append, List.sum_append]
  rfl

theorem sumOf_flatMap {α : Type*} {items : List α} {part : α → List Line}
    : sumOf metric keep (items.flatMap part)
      = (items.map (fun item => sumOf metric keep (part item))).sum := by
  induction items with
  | nil => rfl
  | cons head tail ih => rw [List.flatMap_cons, sumOf_append, ih, List.map_cons, List.sum_cons]

@[simp] theorem sumOf_definition (name kind text : String)
    : sumOf metric keep (definition name kind text) = 0 := by
  simp [sumOf, definition, Line.amount]

theorem Line.amount_apart {name : String} {labels : List (String × String)} {value : Option Rat}
    (differs : name ≠ metric)
    : (Line.sample name labels value).amount metric keep = 0 := by
  cases value <;> simp [Line.amount, differs]

/-- Lines under other names add nothing. -/
theorem sumOf_apart {names : List String} (named : Named names lines) (apart : metric ∉ names)
    : sumOf metric keep lines = 0 := by
  refine List.sum_eq_zero fun amount member => ?_
  obtain ⟨line, among, rfl⟩ := List.mem_map.mp member
  cases line with
  | sample name labels value =>
      have listed := named.2 (name, labels) (List.mem_filterMap.mpr ⟨_, among, rfl⟩)
      exact Line.amount_apart fun same => apart (same ▸ listed)
  | help | kind => rfl

theorem sumOf_flatten_apart {parts : List (List Line)} {names : List (List String)}
    (named : List.Forall₂ Named names parts) (apart : ∀ own ∈ names, metric ∉ own)
    : sumOf metric keep parts.flatten = 0 := by
  induction named with
  | nil => rfl
  | cons head tail ih =>
      obtain ⟨own, others⟩ := List.forall_mem_cons.mp apart
      rw [List.flatten_cons, sumOf_append, sumOf_apart head own, ih others, add_zero]

/-- A sum over parts is one over the part with the name, by induction on the parts. -/
theorem sumOf_flatten {parts : List (List Line)} {names : List (List String)}
    (named : List.Forall₂ Named names parts) (keep : List (String × String) → Bool) (index : Nat)
    {part : List Line} (found : parts[index]? = some part)
    (apart : ∀ own ∈ names.eraseIdx index, metric ∉ own)
    : sumOf metric keep parts.flatten = sumOf metric keep part := by
  induction named generalizing index with
  | nil => cases found
  | cons head tail ih =>
      rw [List.flatten_cons, sumOf_append]
      cases index with
      | zero =>
          cases found
          rw [sumOf_flatten_apart tail apart, add_zero]
      | succ index =>
          obtain ⟨own, others⟩ := List.forall_mem_cons.mp apart
          rw [sumOf_apart head own, ih index found others, zero_add]

/-- Samples of the metric itself. -/
theorem sumOf_samples {α : Type*} {items : List α} {labels : α → List (String × String)}
    {value : α → Rat}
    : sumOf metric keep
        (items.map (fun item => .sample metric (labels item) (some (value item))))
      = (items.map (fun item => if keep (labels item) then value item else 0)).sum := by
  simp [sumOf, Line.amount, Function.comp_def]

/-- The sum over the statuses kept. -/
theorem sumOf_jobs (snapshot : Snapshot)
    : sumOf "jobs" keep (jobsLines snapshot)
      = (allStatuses.map (fun status =>
          if keep [("status", status.name)] then (jobsCount snapshot status JobsRow.jobs : Rat)
          else 0)).sum := by
  have others (name text : String) (value : Option Rat) (differs : name ≠ "jobs")
      : sumOf "jobs" keep (gauge name text value) = 0 := by
    cases value <;> simp [sumOf, gauge, definition, Line.amount, differs]
  simp only [jobsLines, sumOf_append]
  rw [others _ _ _ (by decide), others _ _ _ (by decide), others _ _ _ (by decide),
    others _ _ _ (by decide), others _ _ _ (by decide), sumOf_samples]
  simp [sumOf, definition, Line.amount]

theorem sumOf_expired (snapshot : Snapshot)
    : sumOf "expired_leases" (fun _ => true) (jobsLines snapshot)
      = (jobsCount snapshot .running JobsRow.expired : Rat) := by
  simp [jobsLines, allStatuses, gauge, definition, sumOf, Line.amount]

/-- The amount of the only item with a key, by induction on the items. -/
theorem sum_only {α : Type*} {key : α → String} {amount : α → Rat} {items : List α} {item : α}
    (distinct : (items.map key).Nodup) (member : item ∈ items)
    : (items.map (fun other => if key other = key item then amount other else 0)).sum
      = amount item := by
  induction items with
  | nil => cases member
  | cons head tail ih =>
      obtain ⟨absent, distinct⟩ := List.nodup_cons.mp distinct
      rw [List.map_cons, List.sum_cons]
      rcases List.mem_cons.mp member with rfl | later
      · have none : (tail.map (fun other =>
            if key other = key item then amount other else 0)).sum = 0 := by
          refine List.sum_eq_zero fun value among => ?_
          obtain ⟨other, later, rfl⟩ := List.mem_map.mp among
          have differs : key other ≠ key item := fun same =>
            absent (same ▸ List.mem_map_of_mem later)
          exact if_neg differs
        rw [if_pos rfl, none, add_zero]
      · have differs : key head ≠ key item := fun same =>
          absent (same ▸ List.mem_map_of_mem later)
        rw [if_neg differs, zero_add, ih distinct later]

/-- The calls of an event under a worker label, if it is kept. -/
def counted (keep : List (String × String) → Bool) (ids : List String) (calls : List Call)
    (event label : String)
    : Rat :=
  if keep [("worker_id", label)] then ((contributing ids calls label event).length : Rat) else 0

/-- The sum over the worker labels kept, for one counter. -/
theorem sumOf_counter {ids : List String} {calls : List Call} {entry : String × String}
    (member : entry ∈ counters)
    : sumOf (entry.2 ++ "_total") keep
        ((counters.zip (exported ids calls).counters).flatMap counterLines)
      = ((labels ids).map (counted keep ids calls entry.1)).sum := by
  have each (other : String × String)
      : sumOf (entry.2 ++ "_total") keep
          (counterLines
            (other, ⟨other.2 ++ "_total",
              (labels ids).map (fun label =>
                (label, (contributing ids calls label other.1).length))⟩))
        = if other.2 ++ "_total" = entry.2 ++ "_total" then
            ((labels ids).map (counted keep ids calls other.1)).sum
          else 0 := by
    by_cases same : other.2 ++ "_total" = entry.2 ++ "_total"
    · simp only [counterLines, sumOf_append, sumOf_definition, same, sumOf_samples, zero_add,
        if_true]
      rw [List.map_map]
      rfl
    · simp [counterLines, same, sumOf, definition, Line.amount, Function.comp_def]
  have parts
      : (counters.zip (exported ids calls).counters).flatMap counterLines
        = counters.flatMap (fun other =>
          counterLines
            (other, ⟨other.2 ++ "_total",
              (labels ids).map (fun label =>
                (label, (contributing ids calls label other.1).length))⟩)) :=
    rfl
  rw [parts, sumOf_flatMap, List.map_congr_left fun other _ => each other]
  exact sum_only (by decide) member

/-- The counts of a histogram have a name of their own. -/
theorem count_apart
    : ∀ entry ∈ histograms, ∀ other ∈ histograms,
        other.2 ++ "_bucket" ≠ entry.2 ++ "_count" ∧ other.2 ++ "_sum" ≠ entry.2 ++ "_count" := by
  decide

/-- The sum over the worker labels kept, for the counts of one histogram. -/
theorem sumOf_histogram {ids : List String} {calls : List Call} {entry : String × String}
    (member : entry ∈ histograms)
    : sumOf (entry.2 ++ "_count") keep
        ((histograms.zip (exported ids calls).histograms).flatMap histogramLines)
      = ((labels ids).map (counted keep ids calls entry.1)).sum := by
  have series (other : String × String) (listed : other ∈ histograms) (label : String)
      : sumOf (entry.2 ++ "_count") keep
          (seriesLines other.2 (exportedSeries ids calls other.1 label))
        = if other.2 ++ "_count" = entry.2 ++ "_count" then counted keep ids calls other.1 label
          else 0 := by
    obtain ⟨bucket, sum⟩ := count_apart entry member other listed
    simp [seriesLines, sumOf, Line.amount, bucket, sum, Function.comp_def, exportedSeries,
      counted, ite_and]
  have each (other : String × String) (listed : other ∈ histograms)
      : sumOf (entry.2 ++ "_count") keep
          (histogramLines
            (other, ⟨other.2, (labels ids).map (exportedSeries ids calls other.1)⟩))
        = if other.2 ++ "_count" = entry.2 ++ "_count" then
            ((labels ids).map (counted keep ids calls other.1)).sum
          else 0 := by
    simp only [histogramLines, sumOf_append, sumOf_definition, zero_add, sumOf_flatMap,
      List.map_map, Function.comp_def, series other listed]
    split
    · rfl
    · simp
  have parts
      : (histograms.zip (exported ids calls).histograms).flatMap histogramLines
        = histograms.flatMap (fun other =>
          histogramLines
            (other, ⟨other.2, (labels ids).map (exportedSeries ids calls other.1)⟩)) :=
    rfl
  rw [parts, sumOf_flatMap, List.map_congr_left each]
  exact sum_only (by decide) member

/-- The sum over the workers kept, of their live leases. -/
theorem sumOf_active {snapshot : Snapshot} {policies : List (String × Policy)}
    {workers : List (String × String)} {gauges : List (List Line)}
    (rendered : workers.mapM (workerLines snapshot policies) = some gauges)
    : sumOf "worker_active_jobs" keep gauges.flatten
      = (workers.map (fun worker =>
          if keep (workerLabels worker) then
            (((Table.lookup RunningRow.workerId worker.1 snapshot.running).elim 0
              RunningRow.active : Nat) : Rat)
          else 0)).sum := by
  induction workers generalizing gauges with
  | nil =>
      cases rendered
      rfl
  | cons worker others ih =>
      rw [List.mapM_cons] at rendered
      obtain ⟨lines, own, rendered⟩ := Option.bind_eq_some_iff.mp rendered
      obtain ⟨rest, others, rendered⟩ := Option.bind_eq_some_iff.mp rendered
      cases rendered
      rw [List.flatten_cons, sumOf_append, ih others, List.map_cons, List.sum_cons]
      congr 1
      obtain ⟨values, found, rfl⟩ := Option.map_eq_some_iff.mp own
      obtain ⟨attemptAge, -, rfl⟩ := Option.map_eq_some_iff.mp found
      have listed
          : sumOf "worker_active_jobs" keep
              ((policyMetrics.zip (policyValues snapshot policies worker.1)).map
                (fun entry => .sample entry.1.1 (workerLabels worker) entry.2))
            = 0 := by
        cases found : policy? policies worker.1 <;>
          simp [policyValues, found, policyMetrics, sumOf, Line.amount]
      rw [List.map_append, sumOf_append]
      refine (congrArg₂ (· + ·) ?_ listed).trans (add_zero _)
      have age
          : (Line.sample "worker_last_report_age_seconds"
                [("worker_id", worker.1), ("worker_role", worker.2)]
                ((Table.lookup WorkersRow.workerId worker.1 snapshot.workers).map
                  WorkersRow.lastReportAge)).amount "worker_active_jobs" keep
            = 0 :=
        Line.amount_apart (by decide)
      simp only [sumOf, workerMetrics, List.zip_cons_cons, List.map_cons, List.sum_cons, age]
      simp [Line.amount, workerLabels]
      rfl

end Sums

-----------------------------------------------------------------------------------------
-- Counts of rows and calls
-----------------------------------------------------------------------------------------

/-- Counts per label, of the labels kept, are one count. -/
theorem sum_kept {β κ : Type*} [DecidableEq κ] {labels : List κ} (distinct : labels.Nodup)
    (label : β → κ) (keep : κ → Bool) (p : β → Bool) (items : List β)
    : (labels.map (fun key =>
          if keep key then ((items.countP (fun item => label item = key && p item) : Nat) : Rat)
          else 0)).sum
      = (items.countP (fun item =>
          (keep (label item) && p item) && decide (label item ∈ labels)) : Nat) := by
  have each : ∀ key ∈ labels,
      (if keep key then ((items.countP (fun item => label item = key && p item) : Nat) : Rat)
        else 0)
      = (((items.filter (fun item => label item ∈ labels)).countP (fun item =>
          label item = key && (keep (label item) && p item)) : Nat) : Rat) := by
    intro key member
    have same (item : β)
        : ((label item = key && (keep (label item) && p item)) && decide (label item ∈ labels))
          = (keep key && (label item = key && p item)) := by
      by_cases same : label item = key
      · simp [same, member]
      · simp [same]
    simp only [List.countP_filter, same]
    cases keep key <;> simp
  rw [List.map_congr_left each, ← List.countP_filter,
    ← sum_countP_labels distinct label (fun item => keep (label item) && p item) _
      (fun item member => by simpa using (List.mem_filter.mp member).2)]
  simp [Nat.cast_list_sum, Function.comp_def]

/-- Calls with some keys are counted in the rows with these keys. -/
theorem countP_calls {s : ObservedStore} {calls : List Call}
    (called : s.observations.map Row.ofTrigger = calls.foldl transcriberObserve [])
    (keys : String × String → Bool)
    : calls.countP (fun call => keys call.key)
      = s.tally (fun worker observed => keys (worker, eventText observed)) := by
  have sums := congrArg (AddMonoidHom.fst _ _) (observe_sum keys calls).2
  rw [← called, map_list_sum, map_list_sum, List.map_map, List.map_map, List.map_map] at sums
  have rows (row : ObservationRow)
      : ((AddMonoidHom.fst _ _ ∘ fun row : Row => if keys row.key then row.share else 0)
          ∘ Row.ofTrigger) row
        = if keys (row.workerId, eventText row.event) then row.total else 0 := by
    change AddMonoidHom.fst _ _
      (if keys (row.workerId, eventText row.event) then (Row.ofTrigger row).share else 0) = _
    split <;> rfl
  have each (call : Call)
      : (AddMonoidHom.fst _ _ ∘ fun call : Call => if keys call.key then call.share else 0) call
        = if keys call.key then 1 else 0 := by
    change AddMonoidHom.fst _ _ (if keys call.key then call.share else 0) = _
    split <;> rfl
  rw [List.map_congr_left fun row _ => rows row, List.map_congr_left fun call _ => each call]
    at sums
  rw [Table.countP_eq_sum]
  exact sums.symm

section Counts

variable {config : Config} {reports : List ReportRow} {s : ObservedStore} {snapshot : Snapshot}
variable {keep : List (String × String) → Bool}

theorem Snapshot.Taken.jobsCount (taken : snapshot.Taken config reports s) (status : Status)
    {count : JobsRow → Nat} {p : JobRecord → Bool}
    (counts : ∀ group, count (jobsRow snapshot.now group) = group.2.countP p)
    : Metrics.jobsCount snapshot status count
      = s.db.jobs.countP (fun row => row.status = status && p row) :=
  Table.count_groups (fun group : Status × List JobRecord => (rfl : (jobsRow _ group).status = _))
    taken.jobs counts

/-- The jobs of the statuses kept. -/
theorem Snapshot.Taken.jobs_sum (taken : snapshot.Taken config reports s)
    : sumOf "jobs" keep (jobsLines snapshot)
      = (s.db.jobs.countP (fun row => keep [("status", row.status.name)]) : Nat) := by
  have all (status : Status) : status ∈ allStatuses := by cases status <;> decide
  rw [sumOf_jobs]
  have counted (status : Status)
      : Metrics.jobsCount snapshot status JobsRow.jobs
        = s.db.jobs.countP (fun row => row.status = status && true) :=
    taken.jobsCount status (fun group => (congrFun List.countP_true group.2).symm)
  simp only [counted]
  rw [sum_kept (by decide) JobRecord.status (fun status => keep [("status", status.name)])]
  simp [all]

/-- The live leases of the workers kept. -/
theorem Snapshot.Taken.active_sum (taken : snapshot.Taken config reports s)
    {policies : List (String × Policy)} {workers : List (String × String)}
    {gauges : List (List Line)} (distinct : (workers.map Prod.fst).Nodup)
    (rendered
      : (workers.insertionSort (fun first second => first.1 ≤ second.1)).mapM
          (workerLines snapshot policies)
        = some gauges)
    (kept : String → Bool) (by_id : ∀ worker, keep (workerLabels worker) = kept worker.1)
    : sumOf "worker_active_jobs" keep gauges.flatten
      = (s.db.jobs.countP (fun row =>
          (kept (splitPart row.leaseOwner) && row.holdsLease snapshot.now)
            && decide (splitPart row.leaseOwner ∈ workers.map Prod.fst)) : Nat) := by
  have active (id : String)
      : (Table.lookup RunningRow.workerId id snapshot.running).elim 0 RunningRow.active
        = s.db.jobs.countP (fun row =>
          splitPart row.leaseOwner = id && row.holdsLease snapshot.now) := by
    rw [Table.count_groups
      (fun group : String × List JobRecord => (rfl : (runningRow _ group).workerId = _))
      taken.running (fun group => (congrFun List.countP_true group.2).symm), List.countP_filter]
    simp
  rw [sumOf_active rendered, ((List.perm_insertionSort _ workers).map _).sum_eq]
  simp only [active, by_id]
  have counted := sum_kept distinct (fun row : JobRecord => splitPart row.leaseOwner) kept
    (fun row => row.holdsLease snapshot.now) s.db.jobs
  rw [List.map_map] at counted
  exact counted

/-- The calls of an event under the worker labels kept. -/
theorem contributing_sum {ids : List String} {calls : List Call}
    (called : s.observations.map Row.ofTrigger = calls.foldl transcriberObserve [])
    (distinct : (labels ids).Nodup) (event : String)
    : ((labels ids).map (counted keep ids calls event)).sum
      = (s.tally (fun worker observed =>
          keep [("worker_id", workerLabel ids worker)] && eventText observed = event) : Nat) := by
  unfold counted
  simp only [contributing, ← List.countP_eq_length_filter]
  rw [sum_kept distinct (fun call : Call => workerLabel ids call.workerId)
    (fun label => keep [("worker_id", label)]) (fun call => call.event = event)]
  simp only [workerLabel_mem, decide_true, Bool.and_true]
  exact congrArg Nat.cast (countP_calls called (fun key =>
    keep [("worker_id", workerLabel ids key.1)] && key.2 = event))

end Counts

-----------------------------------------------------------------------------------------
-- The agreement
-----------------------------------------------------------------------------------------

/-- Samples with a label. -/
def labelled (label : String × String) (labels : List (String × String)) : Bool := label ∈ labels

/-- Samples with the status of an open job. -/
def openStatus (labels : List (String × String)) : Bool :=
  [Status.accepted, .downloading, .queued, .running].any (fun status =>
    labelled ("status", status.name) labels)

/-- The numbers of a scrape against the store and one another: all rows are shown; a job submitted
has ended or is shown as open; a running job is shown with its worker or as expired, unless its
worker is not configured; an attempt of a configured worker has ended, runs or was given up, and
is a retry or the first, whose wait was measured.
-/
structure Agrees (s : ObservedStore) (workers : List (String × String)) (lines : List Line)
    : Prop where
  jobs : sumOf "jobs" (fun _ => true) lines = s.db.jobs.length
  balance
    : sumOf "jobs_submitted_total" (fun _ => true) lines
      = sumOf "jobs_completed_total" (fun _ => true) lines
        + sumOf "jobs_failed_total" (fun _ => true) lines
        + sumOf "jobs_cancelled_total" (fun _ => true) lines
        + sumOf "jobs" openStatus lines
  running
    : sumOf "worker_active_jobs" (fun _ => true) lines
        + sumOf "expired_leases" (fun _ => true) lines
      ≤ sumOf "jobs" (labelled ("status", "running")) lines
  attempts
    : ∀ worker ∈ workers,
        let own := labelled ("worker_id", worker.1)
        sumOf "jobs_completed_total" own lines + sumOf "attempt_failures_total" own lines
            + sumOf "jobs_cancelled_total" own lines + sumOf "worker_active_jobs" own lines
          ≤ sumOf "attempts_total" own lines
  starts
    : ∀ worker ∈ workers,
        let own := labelled ("worker_id", worker.1)
        sumOf "attempts_total" own lines
          = sumOf "retry_attempts_total" own lines
            + sumOf "job_queue_wait_seconds_count" own lines

/-- The books balance in every reachable store. -/
theorem balanced_run {clock : Int} {past : List Transition} {s : ObservedStore}
    (run : Run ObservedStore.Step (ObservedStore.start clock) past s)
    (coded : ∀ move ∈ past, move.event.coded)
    : s.Balanced past := by
  have books : s.Balanced past
      ∧ Keyed s.observations ∧ s.db.Consistent ∧ ∀ row ∈ s.db.jobs, row.Valid := by
    refine (run.restrict coded).history
      (I := fun past s =>
        s.Balanced past ∧ Keyed s.observations ∧ s.db.Consistent ∧ ∀ row ∈ s.db.jobs, row.Valid)
      ?_ ⟨.start clock, .nil, .empty clock, by simp [ObservedStore.start, Db.empty]⟩
    rintro past s move t ⟨balanced, keyed, kept, valid⟩ ⟨step, coded⟩
    have stored := step.1
    refine ⟨balanced.step step coded keyed kept valid, (step.tally keyed (fun _ _ => true)).1,
      stored.consistent kept, ?_⟩
    exact (stored.outcome kept.distinct kept.held).change.rows valid JobRecord.created_valid
      (fun _ _ _ => RowStep.valid)
  exact books.1

/-- The label of a configured worker is its own alone. -/
theorem workerLabel_iff {ids : List String} {id worker : String} (listed : id ∈ ids)
    (reserved : id ≠ "other")
    : workerLabel ids worker = id ↔ worker = id := by
  unfold workerLabel
  split
  · rename_i unknown
    constructor
    · exact fun same => absurd same.symm reserved
    · rintro rfl
      exact absurd listed unknown.1
  · exact Iff.rfl

/-- The calls of an event under the label of a configured worker. -/
theorem worker_tally {s : ObservedStore} {ids : List String} (distinct : (labels ids).Nodup)
    {id : String} (configured : id ∈ ids) (event : ObservedEvent)
    : s.tally (fun worker observed =>
          labelled ("worker_id", id) [("worker_id", workerLabel ids worker)]
            && eventText observed = eventText event)
      = s.counter id event := by
  have reserved : id ≠ "other" := by
    rintro rfl
    exact (List.nodup_append'.mp distinct).2.2 configured (by simp)
  have own (worker : String)
      : labelled ("worker_id", id) [("worker_id", workerLabel ids worker)]
        = decide (worker = id) := by
    simp [labelled, eq_comm (a := id), workerLabel_iff configured reserved]
  simp only [own, eventText_injective.eq_iff]
  rfl

/-- The counters with their events. -/
def totals : List (String × String) :=
  counters.map (fun entry => (entry.1, entry.2 ++ "_total"))

/-- A counter, of the worker labels kept. -/
theorem total_sum {s : ObservedStore} {ids : List String} {calls : List Call}
    (called : s.observations.map Row.ofTrigger = calls.foldl transcriberObserve [])
    (distinct : (labels ids).Nodup) (keep : List (String × String) → Bool) {event metric : String}
    (listed : (event, metric) ∈ totals)
    : sumOf metric keep ((counters.zip (exported ids calls).counters).flatMap counterLines)
      = (s.tally (fun worker observed =>
          keep [("worker_id", workerLabel ids worker)] && eventText observed = event) : Nat) := by
  obtain ⟨entry, member, same⟩ := List.mem_map.mp listed
  obtain ⟨rfl, rfl⟩ := Prod.mk.inj same
  rw [sumOf_counter member, contributing_sum called distinct]

/-- The first attempts, of the worker labels kept. -/
theorem waits_sum {s : ObservedStore} {ids : List String} {calls : List Call}
    (called : s.observations.map Row.ofTrigger = calls.foldl transcriberObserve [])
    (distinct : (labels ids).Nodup) (keep : List (String × String) → Bool)
    : sumOf "job_queue_wait_seconds_count" keep
        ((histograms.zip (exported ids calls).histograms).flatMap histogramLines)
      = (s.tally (fun worker observed =>
          keep [("worker_id", workerLabel ids worker)]
            && eventText observed = eventText .queueWait) : Nat) := by
  have name : "job_queue_wait_seconds_count" = "job_queue_wait_seconds" ++ "_count" := by
    decide
  have member : ("queue_wait", "job_queue_wait_seconds") ∈ histograms := by decide
  rw [name, sumOf_histogram member, contributing_sum called distinct]
  rfl

/-- Two kinds of rows apart, both of a third, by induction on the rows. -/
theorem countP_add_le {α : Type*} {p q r : α → Bool} (first : ∀ item, p item → r item ∧ ¬q item)
    (second : ∀ item, q item → r item) (items : List α)
    : items.countP p + items.countP q ≤ items.countP r := by
  induction items with
  | nil => simp
  | cons head tail ih =>
      have one := first head
      have other := second head
      simp only [List.countP_cons]
      grind

section Agreement

variable {config : Config} {reports : List ReportRow} {snapshot : Snapshot} {s : ObservedStore}
variable {policies : List (String × Policy)} {workers : List (String × String)}
variable {gauges : List (List Line)}

/-- No more running jobs are shown with a worker or as expired than there are. -/
theorem Snapshot.Taken.running_le (taken : snapshot.Taken config reports s)
    (distinct : (workers.map Prod.fst).Nodup)
    (rendered
      : (workers.insertionSort (fun first second => first.1 ≤ second.1)).mapM
          (workerLines snapshot policies)
        = some gauges)
    : sumOf "worker_active_jobs" (fun _ => true) gauges.flatten
        + sumOf "expired_leases" (fun _ => true) (jobsLines snapshot)
      ≤ sumOf "jobs" (labelled ("status", "running")) (jobsLines snapshot) := by
  have running (status : Status)
      : labelled ("status", "running") [("status", status.name)]
        = decide (status = .running) := by
    cases status <;> decide
  rw [taken.active_sum distinct rendered (fun _ => true) (fun _ => rfl), sumOf_expired,
    taken.jobsCount .running (fun _ => rfl), taken.jobs_sum]
  simp only [running]
  norm_cast
  refine countP_add_le (fun row shown => ?_) (fun row expired => ?_) _
  · simp only [Bool.true_and, Bool.and_eq_true, JobRecord.holdsLease] at shown
    exact ⟨shown.1.1, by simp [leaseExpired, shown.1.2]⟩
  · exact (Bool.and_eq_true _ _ ▸ expired).1

/-- The live leases of a configured worker are among its running jobs. -/
theorem Snapshot.Taken.active_le (taken : snapshot.Taken config reports s)
    (distinct : (workers.map Prod.fst).Nodup)
    (rendered
      : (workers.insertionSort (fun first second => first.1 ≤ second.1)).mapM
          (workerLines snapshot policies)
        = some gauges)
    {id : String} (named : id ≠ "")
    : sumOf "worker_active_jobs" (labelled ("worker_id", id)) gauges.flatten
      ≤ (s.db.jobs.countP (fun row => row.leasedBy id) : Nat) := by
  have own (worker : String × String)
      : labelled ("worker_id", id) (workerLabels worker) = decide (worker.1 = id) := by
    simp [labelled, workerLabels, eq_comm]
  rw [taken.active_sum distinct rendered (fun other => decide (other = id)) own]
  norm_cast
  refine List.countP_mono_left fun row _ shown => ?_
  simp only [Bool.and_eq_true, decide_eq_true_eq] at shown
  obtain ⟨⟨same, holds⟩, -⟩ := shown
  simp [JobRecord.leasedBy, JobRecord.holdsLease_running holds, same, observedWorker, named]

end Agreement

/-- Every scrape of a reachable store agrees with the store and itself, if failures carry a code of
their callers.
-/
theorem scrapes_agree {config : Config} {reports : List ReportRow} {snapshot : Snapshot}
    {policies : List (String × Policy)} {preferred : List String} {fallback : String}
    {workers : List (String × String)} {clock : Int} {past : List Transition} {s : ObservedStore}
    (accepted : endpointWorkers policies preferred fallback = some workers)
    (run : Run ObservedStore.Step (ObservedStore.start clock) past s)
    (coded : ∀ move ∈ past, move.event.coded) (taken : snapshot.Taken config reports s)
    : ∃ lines, render snapshot workers policies = some lines ∧ Agrees s workers lines := by
  obtain ⟨calls, gauges, called, rendered, drawn, named, -⟩ := taken.rendered accepted run
  obtain ⟨distinct, valid⟩ := endpointWorkers_distinct accepted
  obtain ⟨ids, -, apart⟩ := List.nodup_append'.mp distinct
  have balanced := balanced_run run coded
  have jobs (keep : List (String × String) → Bool) := sumOf_flatten named keep 0 rfl
    (by decide : ∀ own ∈ partNames.eraseIdx 0, "jobs" ∉ own)
  have expired := sumOf_flatten named (fun _ => true) 0 rfl
    (by decide : ∀ own ∈ partNames.eraseIdx 0, "expired_leases" ∉ own)
  have active (keep : List (String × String) → Bool) := sumOf_flatten named keep 4 rfl
    (by decide : ∀ own ∈ partNames.eraseIdx 4, "worker_active_jobs" ∉ own)
  have counter (keep : List (String × String) → Bool) (event : ObservedEvent) (metric : String)
      (listed : (eventText event, metric) ∈ totals) :=
    have apart : ∀ total ∈ totals, ∀ own ∈ partNames.eraseIdx 5, total.2 ∉ own := by decide
    (sumOf_flatten named keep 5 rfl (apart _ listed)).trans (total_sum called distinct keep listed)
  have waits (keep : List (String × String) → Bool) :=
    (sumOf_flatten named keep 6 rfl (by decide)).trans (waits_sum called distinct keep)
  have configured : ∀ worker ∈ workers,
      worker.1 ∈ workers.map Prod.fst ∧ worker.1 ≠ "ingress" ∧ worker.1 ≠ "" := by
    intro worker listed
    have member : worker.1 ∈ workers.map Prod.fst := List.mem_map_of_mem listed
    refine ⟨member, fun same => apart member (by simp [same]), fun empty => ?_⟩
    have isId := valid worker listed
    rw [empty] at isId
    exact absurd isId (by decide)
  refine ⟨_, drawn, ?_, ?_, ?_, ?_, ?_⟩
  · rw [jobs, taken.jobs_sum]
    simp
  · have total (event : ObservedEvent)
        : s.tally (fun _ observed => true && eventText observed = eventText event)
          = s.overall event := by
      simp only [Bool.true_and, eventText_injective.eq_iff]
      rfl
    have opened (status : Status)
        : openStatus [("status", status.name)] = !status.terminal := by
      cases status <;> decide
    rw [counter _ .submitted "jobs_submitted_total" (by decide), total,
      counter _ .completed "jobs_completed_total" (by decide), total,
      counter _ .failed "jobs_failed_total" (by decide), total,
      counter _ .cancelled "jobs_cancelled_total" (by decide), total, jobs, taken.jobs_sum]
    simp only [opened]
    exact_mod_cast balanced.jobs
  · rw [active, expired, jobs]
    exact taken.running_le ids rendered
  · intro worker listed own
    obtain ⟨member, pool, filled⟩ := configured worker listed
    have leased := taken.active_le ids rendered filled
    have attempts := balanced.attempts worker.1 pool
    have enough
        : s.counter worker.1 .completed + s.counter worker.1 .attemptFailures
            + s.counter worker.1 .cancelled + s.db.jobs.countP (fun row => row.leasedBy worker.1)
          ≤ s.counter worker.1 .attempts := by
      omega
    rw [counter own .completed "jobs_completed_total" (by decide),
      counter own .attemptFailures "attempt_failures_total" (by decide),
      counter own .cancelled "jobs_cancelled_total" (by decide),
      counter own .attempts "attempts_total" (by decide), active,
      worker_tally distinct member, worker_tally distinct member, worker_tally distinct member,
      worker_tally distinct member]
    refine (add_le_add_right leased _).trans ?_
    exact_mod_cast enough
  · intro worker listed own
    obtain ⟨member, pool, -⟩ := configured worker listed
    rw [counter own .attempts "attempts_total" (by decide),
      counter own .retries "retry_attempts_total" (by decide), waits own,
      worker_tally distinct member, worker_tally distinct member, worker_tally distinct member]
    exact_mod_cast balanced.starts worker.1 pool

/-- Of two attempts at the delivered job one was reclaimed and the other has failed. -/
theorem scrapes_agree_exhausted
    : ∃ lines,
        render
            (.of (Config.onePool .rabbitmq) [⟨"gpu", 0⟩] ObservedStore.playExhaust.2 (9 * second)
              ⟨0, 1, 2, 3⟩)
            [("gpu", "preferred"), ("server-fallback", "fallback")]
            (Config.onePool .rabbitmq).workerPolicies
          = some lines
        ∧ Agrees ObservedStore.playExhaust.2
          [("gpu", "preferred"), ("server-fallback", "fallback")] lines := by
  have run : Run ObservedStore.Step (ObservedStore.start 0) ObservedStore.playExhaust.1
      ObservedStore.playExhaust.2 :=
    (Execution.play_run ObservedStore.perform_step (.nil _) ObservedStore.exhaustOnce).run
      (fun _ _ _ _ _ step => step)
  have accepted
      : endpointWorkers (Config.onePool .rabbitmq).workerPolicies [] "server-fallback"
        = some [("gpu", "preferred"), ("server-fallback", "fallback")] := by
    decide
  have coded : ∀ move ∈ ObservedStore.playExhaust.1, move.event.coded := by decide +kernel
  exact scrapes_agree accepted run coded (Snapshot.taken_of ..)

end Transcriber.Metrics
