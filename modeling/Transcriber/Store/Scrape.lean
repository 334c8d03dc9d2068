import Mathlib.Data.List.Sort
import Mathlib.Data.String.Basic
import Transcriber.Store.Books
import Transcriber.Store.Snapshot
import Transcriber.Worker.Credentials

/-! The scrape: what `render_metrics` makes of a snapshot for the workers of the endpoint. Its lines
are the series of the text format, none twice, each after the definition of its metric.
-/

namespace Transcriber.Metrics

open Execution

-----------------------------------------------------------------------------------------
-- The workers of the endpoint
-----------------------------------------------------------------------------------------

/-- `workers[id] = role` -/
def setRole (role : String) (workers : List (String × String)) (id : String)
    : List (String × String) :=
  Table.upsert Prod.fst id (id, role) (fun entry => (entry.1, role)) workers

/-- The worker map of `MetricsEndpoint.__init__` with its checks. -/
def endpointWorkers (policies : List (String × Policy)) (preferred : List String)
    (fallback : String)
    : Option (List (String × String)) :=
  let ids := if policies.isEmpty then preferred else policies.map Prod.fst
  let workers := setRole "fallback" (ids.foldl (setRole "preferred") []) fallback
  if 129 < workers.length
      || workers.any (fun worker =>
        worker.1 = "ingress" || worker.1 = "other" || !isWorkerId worker.1) then
    none
  else
    some workers

-----------------------------------------------------------------------------------------
-- Lines
-----------------------------------------------------------------------------------------

/-- A line; the value of a sample is a number or `NaN`, its labels are in the order of their names.
-/
inductive Line
  | help (name text : String)
  | kind (name kind : String)
  | sample (name : String) (labels : List (String × String)) (value : Option Rat)
  deriving DecidableEq, Repr

def definition (name kind text : String) : List Line := [.help name text, .kind name kind]

/-- A metric with one sample. -/
def gauge (name text : String) (value : Option Rat) : List Line :=
  definition name "gauge" text ++ [.sample name [] value]

def allStatuses : List Status := [.accepted, .downloading, .queued, .running, .done, .failed]

section Gauges

variable (snapshot : Snapshot)

/-- `jobs.get(status, {}).get(column, 0)` -/
def jobsCount (status : Status) (count : JobsRow → Nat) : Nat :=
  (Table.lookup JobsRow.status status snapshot.jobs).elim 0 count

def jobsAge (status : Status) (age : JobsRow → Rat) : Rat :=
  (Table.lookup JobsRow.status status snapshot.jobs).elim 0 age

def jobsLines : List Line :=
  definition "jobs" "gauge" "Currently retained jobs, including terminal jobs awaiting cleanup."
    ++ allStatuses.map (fun status =>
      .sample "jobs" [("status", status.name)] (some (jobsCount snapshot status JobsRow.jobs)))
    ++ gauge "queue_oldest_wait_seconds"
      "Age since submission of the oldest queued job; zero for an empty queue."
      (some (jobsAge snapshot .queued JobsRow.oldestSeconds))
    ++ gauge "queue_retry_jobs" "Queued jobs that have already been attempted."
      (some (jobsCount snapshot .queued JobsRow.retried))
    ++ gauge "expired_leases" "Running rows whose lease has expired and require recovery."
      (some (jobsCount snapshot .running JobsRow.expired))
    ++ gauge "results_unacknowledged"
      ("Retained terminal results not yet durably acknowledged by the client; "
        ++ "not Telegram delivery confirmation.")
      (some (jobsCount snapshot .done JobsRow.unacknowledged
        + jobsCount snapshot .failed JobsRow.unacknowledged))
    ++ gauge "results_oldest_unacknowledged_seconds"
      "Age since completion of the oldest retained unacknowledged terminal result."
      (some (max (jobsAge snapshot .done JobsRow.oldestUnacknowledgedSeconds)
        (jobsAge snapshot .failed JobsRow.oldestUnacknowledgedSeconds)))

def storageLines : List Line :=
  snapshot.storage.items.flatMap (fun entry =>
    gauge ("storage_" ++ entry.1) "Job volume capacity in bytes." (some entry.2))

def outboxLines : List Line :=
  gauge "outbox_pending" "Ready outbox messages awaiting confirmed RabbitMQ publication."
      (some snapshot.outbox.pending)
    ++ gauge "outbox_oldest_seconds" "Age of the oldest ready unpublished outbox message."
      (some snapshot.outbox.oldestSeconds)

/-- `worker_metrics` -/
def workerMetrics : List (String × String) :=
  [
    ("worker_online", "At least one unexpired ready report exists for this worker ID."),
    ("worker_state",
      "Worker state: 0 offline, 1 ready and idle, 2 ready and busy. Busy means a valid job lease."),
    ("worker_instances",
      "Number of currently ready execution slots; multiple slots may share one process/model."),
    ("worker_last_report_age_seconds",
      "Age of the last availability report, NaN if never observed."),
    ("worker_active_jobs", "Jobs currently held by this worker with an unexpired lease."),
    ("worker_progress_percent",
      "Mean reported progress of currently leased jobs, zero when idle."),
    ("worker_attempt_age_seconds",
      "Age of the oldest currently leased attempt, zero when idle.")
  ]

def policyMetrics : List (String × String) :=
  [
    ("worker_priority", "Configured pool priority; lower numbers win."),
    ("worker_capacity", "Configured maximum concurrent jobs for the pool."),
    ("worker_free_slots",
      "Ready idle slots with fresh work requests or RabbitMQ admission, bounded by pool capacity.")
  ]

def workerDefinitions (policies : List (String × Policy)) : List Line :=
  (workerMetrics ++ if policies.isEmpty then [] else policyMetrics).flatMap (fun entry =>
    definition entry.1 "gauge" entry.2)

/-- The gauges of one worker, nothing where `float` raises on a NULL age. -/
def workerValues (id : String) : Option (List (Option Rat)) :=
  let row := Table.lookup WorkersRow.workerId id snapshot.workers
  let active := Table.lookup RunningRow.workerId id snapshot.running
  let online := row.any WorkersRow.online
  let jobs := active.elim 0 RunningRow.active
  (active.elim (some 0) RunningRow.attemptAge).map (fun attemptAge =>
    [
      some (if online then 1 else 0),
      some (if online then if jobs ≠ 0 then 2 else 1 else 0),
      some (row.elim 0 WorkersRow.instances : Nat),
      row.map WorkersRow.lastReportAge,
      some (jobs : Nat),
      some (active.elim 0 RunningRow.progress),
      some attemptAge
    ])

/-- `max(0, min(idle_slots, max_concurrency - active))` -/
def freeSlots (id : String) (policy : Policy) : Int :=
  let row := Table.lookup WorkersRow.workerId id snapshot.workers
  let active := Table.lookup RunningRow.workerId id snapshot.running
  max 0
    (min (row.elim 0 WorkersRow.idleSlots : Nat)
      (policy.maxConcurrency - (active.elim 0 RunningRow.active : Nat)))

def policyValues (policies : List (String × Policy)) (id : String) : List (Option Rat) :=
  match policy? policies id with
  | none => []
  | some policy =>
      [some policy.priority, some policy.maxConcurrency, some (freeSlots snapshot id policy)]

def workerLines (policies : List (String × Policy)) (worker : String × String)
    : Option (List Line) :=
  let labels := [("worker_id", worker.1), ("worker_role", worker.2)]
  (workerValues snapshot worker.1).map (fun values =>
    (workerMetrics.zip values ++ policyMetrics.zip (policyValues snapshot policies worker.1)).map
      (fun entry => .sample entry.1.1 labels entry.2))

end Gauges

-----------------------------------------------------------------------------------------
-- The scrape
-----------------------------------------------------------------------------------------

/-- `event.replace("_", " ")` -/
def spaced (event : String) : String := event.map (fun c => if c = '_' then ' ' else c)

def counterLines (entry : (String × String) × CounterFamily) : List Line :=
  definition entry.2.name "counter"
      ("Durable " ++ spaced entry.1.1
        ++ " observations since monitoring migration; survives job cleanup.")
    ++ entry.2.samples.map (fun sample =>
      .sample entry.2.name [("worker_id", sample.1)] (some sample.2))

def seriesLines (name : String) (series : Series) : List Line :=
  series.buckets.map (fun bucket =>
      .sample (name ++ "_bucket") [("le", toString bucket.1), ("worker_id", series.workerId)]
        (some bucket.2))
    ++ [
      .sample (name ++ "_bucket") [("le", "+Inf"), ("worker_id", series.workerId)]
        (some series.infinity),
      .sample (name ++ "_count") [("worker_id", series.workerId)] (some series.count),
      .sample (name ++ "_sum") [("worker_id", series.workerId)] (some series.sum)
    ]

def histogramLines (entry : (String × String) × HistogramFamily) : List Line :=
  definition entry.2.name "histogram"
      ("Durable " ++ entry.1.1
        ++ (" duration in seconds; queue_wait observes first claim, "
          ++ "processing and turnaround observe successful jobs."))
    ++ entry.2.series.flatMap (seriesLines entry.2.name)

def completionLines (snapshot : Snapshot) : List Line :=
  gauge "last_completion_age_seconds"
    "Seconds since last observed successful completion, NaN before the first completion."
    ((snapshot.observations.filter (fun row => row.event = "completed")).map (fun row =>
      age snapshot.now row.lastAt)).min?

/-- The parts of a scrape, in their order. -/
def blocks (snapshot : Snapshot) (policies : List (String × Policy)) (gauges : List (List Line))
    (exposition : Exposition)
    : List (List Line) :=
  [
    jobsLines snapshot,
    storageLines snapshot,
    outboxLines snapshot,
    workerDefinitions policies,
    gauges.flatten,
    (counters.zip exposition.counters).flatMap counterLines,
    (histograms.zip exposition.histograms).flatMap histogramLines,
    completionLines snapshot
  ]

/-- `render_metrics`, nothing where it raises. -/
def render (snapshot : Snapshot) (workers : List (String × String))
    (policies : List (String × Policy))
    : Option (List Line) :=
  ((workers.insertionSort (fun first second => first.1 ≤ second.1)).mapM
      (workerLines snapshot policies)).bind (fun gauges =>
    (renderMetrics snapshot.observations (workers.map Prod.fst)).map (fun exposition =>
      (blocks snapshot policies gauges exposition).flatten))

-----------------------------------------------------------------------------------------
-- Well-formed scrapes
-----------------------------------------------------------------------------------------

/-- The series of a sample. -/
def Line.series : Line → Option (String × List (String × String))
  | .sample name labels _ => some (name, labels)
  | .help _ _ | .kind _ _ => none

/-- The metric that a line defines. -/
def Line.defines : Line → Option String
  | .kind name _ => some name
  | .help _ _ | .sample _ _ _ => none

/-- The metric of a sample has its definition among earlier lines; a histogram has three kinds of
samples.
-/
def Line.Known (known : List Line) : Line → Prop
  | .sample name _ _ =>
      (∃ kind, .kind name kind ∈ known)
      ∨ ∃ metric suffix,
        .kind metric "histogram" ∈ known
        ∧ suffix ∈ ["_bucket", "_count", "_sum"]
        ∧ name = metric ++ suffix
  | .help _ _ | .kind _ _ => True

/-- Every line is known when it comes. -/
def Ordered (known lines : List Line) : Prop :=
  ∀ before line rest, lines = before ++ line :: rest → line.Known (known ++ before)

/-- No series and no definition comes twice, and a sample comes after the definition of its metric.
-/
structure WellFormed (lines : List Line) : Prop where
  distinct : (lines.filterMap Line.series).Nodup
  once : (lines.filterMap Line.defines).Nodup
  ordered : Ordered [] lines

section Lines

variable {known more lines first second : List Line} {line : Line}

theorem Line.Known.mono (is_known : line.Known known) (kept : known ⊆ more) : line.Known more := by
  cases line with
  | sample name labels value =>
      rcases is_known with ⟨kind, defined⟩ | ⟨metric, suffix, defined, listed, same⟩
      · exact .inl ⟨kind, kept defined⟩
      · exact .inr ⟨metric, suffix, kept defined, listed, same⟩
  | help | kind => trivial

theorem Ordered.of_known (all : ∀ line ∈ lines, line.Known known) : Ordered known lines := by
  rintro before line rest rfl
  exact (all line (by simp)).mono (List.subset_append_left known before)

theorem Ordered.append (ordered : Ordered known first) (others : Ordered (known ++ first) second)
    : Ordered known (first ++ second) := by
  intro before line rest split
  rcases List.append_eq_append_iff.mp split with ⟨middle, rfl, same⟩ | ⟨middle, rfl, same⟩
  · have later := others middle line rest same
    rwa [List.append_assoc] at later
  · cases middle with
    | nil =>
        have later := others [] line rest (by simpa using same.symm)
        simpa using later
    | cons head tail =>
        obtain ⟨rfl, rfl⟩ := List.cons.inj same
        exact ordered before line tail rfl

theorem Ordered.flatMap {α : Type*} {items : List α} {part : α → List Line}
    (each : ∀ item ∈ items, ∀ more, known ⊆ more → Ordered more (part item))
    : Ordered known (items.flatMap part) := by
  induction items generalizing known with
  | nil => exact .of_known (by simp)
  | cons head tail ih =>
      obtain ⟨own, others⟩ := List.forall_mem_cons.mp each
      refine (own known (List.Subset.refl known)).append (ih fun item member more kept => ?_)
      exact others item member more (List.Subset.trans (List.subset_append_left _ _) kept)

/-- A definition with samples of its metric. -/
theorem ordered_metric {name kind text : String} {samples : List Line}
    (own : ∀ line ∈ samples, ∃ labels value, line = .sample name labels value)
    : Ordered known (definition name kind text ++ samples) := by
  refine .append (.of_known (by simp [definition, Line.Known])) (.of_known fun line member => ?_)
  obtain ⟨labels, value, rfl⟩ := own line member
  exact .inl ⟨kind, by simp [definition]⟩

-----------------------------------------------------------------------------------------
-- The series of the parts
-----------------------------------------------------------------------------------------

def seriesOf (lines : List Line) : List (String × List (String × String)) :=
  lines.filterMap Line.series

@[simp] theorem seriesOf_append : seriesOf (first ++ second) = seriesOf first ++ seriesOf second :=
  List.filterMap_append

theorem seriesOf_flatMap {α : Type*} {items : List α} {part : α → List Line}
    : seriesOf (items.flatMap part) = items.flatMap (fun item => seriesOf (part item)) :=
  List.filterMap_flatMap ..

@[simp] theorem seriesOf_definition (name kind text : String)
    : seriesOf (definition name kind text) = [] :=
  rfl

theorem seriesOf_samples {α : Type*} {items : List α} {name : α → String}
    {labels : α → List (String × String)} {value : α → Option Rat}
    : seriesOf (items.map (fun item => .sample (name item) (labels item) (value item)))
      = items.map (fun item => (name item, labels item)) := by
  induction items with
  | nil => rfl
  | cons head tail ih => exact congrArg ((name head, labels head) :: ·) ih

/-- The names of the samples of each part. -/
def partNames : List (List String) :=
  [
    ["jobs", "queue_oldest_wait_seconds", "queue_retry_jobs", "expired_leases",
      "results_unacknowledged", "results_oldest_unacknowledged_seconds"],
    ["storage_used_bytes", "storage_free_bytes", "storage_limit_bytes", "storage_reserve_bytes"],
    ["outbox_pending", "outbox_oldest_seconds"],
    [],
    workerMetrics.map Prod.fst ++ policyMetrics.map Prod.fst,
    counters.map (fun entry => entry.2 ++ "_total"),
    histograms.flatMap (fun entry =>
      ["_bucket", "_count", "_sum"].map (fun suffix => entry.2 ++ suffix)),
    ["last_completion_age_seconds"]
  ]

/-- Distinct series, under the names given. -/
def Named (names : List String) (lines : List Line) : Prop :=
  (seriesOf lines).Nodup ∧ ∀ series ∈ seriesOf lines, series.1 ∈ names

/-- Parts with names of their own have distinct series together, by induction on the parts. -/
theorem Named.flatten {parts : List (List Line)} {names : List (List String)}
    (named : List.Forall₂ Named names parts)
    (apart : names.Pairwise (fun own others => ∀ name ∈ own, name ∉ others))
    : Named names.flatten parts.flatten := by
  induction named with
  | nil => exact ⟨List.nodup_nil, by simp [seriesOf]⟩
  | @cons own part others rest head tail ih =>
      obtain ⟨disjoint, apart⟩ := List.pairwise_cons.mp apart
      obtain ⟨distinct, listed⟩ := ih apart
      rw [Named, List.flatten_cons, List.flatten_cons, seriesOf_append]
      refine ⟨List.nodup_append'.mpr ⟨head.1, distinct, ?_⟩, ?_⟩
      · intro series member later
        obtain ⟨other, among, within⟩ := List.mem_flatten.mp (listed series later)
        exact disjoint other among series.1 (head.2 series member) within
      · intro series member
        rcases List.mem_append.mp member with member | member
        · exact List.mem_append_left _ (head.2 series member)
        · exact List.mem_append_right _ (listed series member)

/-- What is exported for some calls. -/
def exported (ids : List String) (calls : List Call) : Exposition where
  counters :=
    counters.map (fun entry =>
      ⟨entry.2 ++ "_total",
        (labels ids).map (fun label =>
          (label, (contributing ids calls label entry.1).length))⟩)
  histograms :=
    histograms.map (fun entry =>
      ⟨entry.2, (labels ids).map (exportedSeries ids calls entry.1)⟩)

section Parts

variable {snapshot : Snapshot} {policies : List (String × Policy)} {calls : List Call}
variable {workers : List (String × String)} {ids : List String}

theorem jobs_named : Named partNames[0] (jobsLines snapshot) := by
  have same : seriesOf (jobsLines snapshot)
      = allStatuses.map (fun status => ("jobs", [("status", status.name)]))
        ++ (partNames[0].tail.map (fun name => (name, []))) :=
    rfl
  rw [Named, same]
  decide

theorem storage_named : Named partNames[1] (storageLines snapshot) := by
  have same : seriesOf (storageLines snapshot) = partNames[1].map (fun name => (name, [])) := rfl
  rw [Named, same]
  decide

theorem outbox_named : Named partNames[2] (outboxLines snapshot) := by
  have same : seriesOf (outboxLines snapshot) = partNames[2].map (fun name => (name, [])) := rfl
  rw [Named, same]
  decide

theorem definitions_named : Named partNames[3] (workerDefinitions policies) := by
  have same : seriesOf (workerDefinitions policies) = [] := by
    cases empty : policies.isEmpty <;> simp only [workerDefinitions, empty] <;> rfl
  rw [Named, same]
  decide

theorem completion_named : Named partNames[7] (completionLines snapshot) := by
  have same : seriesOf (completionLines snapshot) = partNames[7].map (fun name => (name, [])) := rfl
  rw [Named, same]
  decide

/-- The samples of a counter have distinct labels. -/
theorem counters_named (distinct : (labels ids).Nodup)
    : Named partNames[5]
        ((counters.zip (exported ids calls).counters).flatMap counterLines) := by
  have same : seriesOf ((counters.zip (exported ids calls).counters).flatMap counterLines)
      = partNames[5].product ((labels ids).map (fun label => [("worker_id", label)])) := by
    rw [seriesOf_flatMap]
    simp only [counterLines, seriesOf_append, seriesOf_definition, List.nil_append,
      seriesOf_samples]
    simp [exported, counters, partNames, List.product, Function.comp_def]
  rw [Named, same]
  refine ⟨List.Nodup.product (by decide) (distinct.map ?_), ?_⟩
  · intro label other same
    simpa using same
  · rintro ⟨name, labels⟩ member
    exact (List.mem_product.mp member).1

/-- What tells the samples of a histogram under one worker label apart. -/
def sampleKeys : List (String × List (String × String)) :=
  (buckets.map (fun bound : Int => toString bound) ++ ["+Inf"]).map (fun bound =>
      ("_bucket", [("le", bound)]))
    ++ [("_count", []), ("_sum", [])]

theorem series_exported (name event label : String)
    : seriesOf (seriesLines name (exportedSeries ids calls event label))
      = sampleKeys.map (fun key => (name ++ key.1, key.2 ++ [("worker_id", label)])) := by
  have bounds : (exportedSeries ids calls event label).buckets.map Prod.fst = buckets := by
    simp only [exportedSeries]
    exact List.map_fst_zip (by rw [Histogram.length_tally]; rfl)
  rw [seriesLines, seriesOf_append, seriesOf_samples, sampleKeys, ← bounds]
  simp [seriesOf, Line.series, Function.comp_def, exportedSeries]

/-- The samples of a histogram differ in their suffix, their bound or their worker label. -/
theorem histogram_named (distinct : (labels ids).Nodup) (entry : String × String)
    : Named (["_bucket", "_count", "_sum"].map (fun suffix => entry.2 ++ suffix))
        (histogramLines
          (entry, ⟨entry.2, (labels ids).map (exportedSeries ids calls entry.1)⟩)) := by
  have same : seriesOf (histogramLines
        (entry, ⟨entry.2, (labels ids).map (exportedSeries ids calls entry.1)⟩))
      = (labels ids).flatMap (fun label =>
        sampleKeys.map (fun key => (entry.2 ++ key.1, key.2 ++ [("worker_id", label)]))) := by
    simp only [histogramLines, seriesOf_append, seriesOf_definition, List.nil_append,
      seriesOf_flatMap, List.flatMap_map, series_exported]
  rw [Named, same]
  refine ⟨List.nodup_flatMap.mpr ⟨fun label _ => ?_, ?_⟩, ?_⟩
  · refine List.Nodup.map ?_ (by decide)
    rintro ⟨suffix, bound⟩ ⟨other, limit⟩ same
    simpa using same
  · refine distinct.imp ?_
    rintro label other differs series member again
    obtain ⟨key, -, rfl⟩ := List.mem_map.mp member
    obtain ⟨_, -, same⟩ := List.mem_map.mp again
    have labelled := (List.append_inj' (Prod.mk.inj same).2 rfl).2
    simp only [List.cons.injEq, Prod.mk.injEq, true_and, and_true] at labelled
    exact differs labelled.symm
  · intro series member
    obtain ⟨label, -, member⟩ := List.mem_flatMap.mp member
    obtain ⟨key, among, rfl⟩ := List.mem_map.mp member
    have suffixes : ∀ key ∈ sampleKeys, key.1 ∈ ["_bucket", "_count", "_sum"] := by decide
    exact List.mem_map_of_mem (suffixes key among)

theorem histograms_named (distinct : (labels ids).Nodup)
    : Named partNames[6]
        ((histograms.zip (exported ids calls).histograms).flatMap histogramLines) := by
  rw [List.flatMap_def]
  have parts : List.Forall₂ Named
      (histograms.map (fun entry =>
        ["_bucket", "_count", "_sum"].map (fun suffix => entry.2 ++ suffix)))
      (histograms.map (fun entry =>
        histogramLines
          (entry, ⟨entry.2, (labels ids).map (exportedSeries ids calls entry.1)⟩))) := by
    rw [List.forall₂_map_left_iff, List.forall₂_map_right_iff, List.forall₂_same]
    exact fun entry _ => histogram_named distinct entry
  exact Named.flatten parts (by decide)

/-- The age of every running group is known. -/
def Snapshot.Aged (snapshot : Snapshot) : Prop :=
  ∀ row ∈ snapshot.running, row.attemptAge.isSome

/-- The metrics of a worker: those of the policies for a listed one. -/
def metricsOf (policies : List (String × Policy)) (id : String) : List (String × String) :=
  workerMetrics ++ if (policy? policies id).isSome then policyMetrics else []

def workerLabels (worker : String × String) : List (String × String) :=
  [("worker_id", worker.1), ("worker_role", worker.2)]

/-- The gauges of a worker come in the order of their metrics. -/
theorem workerLines_series (aged : snapshot.Aged) (policies : List (String × Policy))
    (worker : String × String)
    : ∃ lines,
        workerLines snapshot policies worker = some lines
        ∧ seriesOf lines
          = (metricsOf policies worker.1).map (fun entry => (entry.1, workerLabels worker)) := by
  obtain ⟨values, found, length⟩ : ∃ values,
      workerValues snapshot worker.1 = some values ∧ values.length = workerMetrics.length := by
    unfold workerValues
    cases found : Table.lookup RunningRow.workerId worker.1 snapshot.running with
    | none => exact ⟨_, rfl, rfl⟩
    | some row =>
        obtain ⟨attemptAge, known⟩ :=
          Option.isSome_iff_exists.mp (aged row (Table.lookup_mem found))
        simp only [Option.elim_some, known, Option.map_some]
        exact ⟨_, rfl, rfl⟩
  refine ⟨_, by rw [workerLines, found, Option.map_some], ?_⟩
  have own : (workerMetrics.zip values).map Prod.fst = workerMetrics :=
    List.map_fst_zip (by rw [length])
  have listed
      : (policyMetrics.zip (policyValues snapshot policies worker.1)).map Prod.fst
        = if (policy? policies worker.1).isSome then policyMetrics else [] := by
    cases found : policy? policies worker.1 <;> simp only [policyValues, found] <;> rfl
  have metrics
      : metricsOf policies worker.1
        = (workerMetrics.zip values
            ++ policyMetrics.zip (policyValues snapshot policies worker.1)).map Prod.fst := by
    rw [List.map_append, own, listed, metricsOf]
  rw [seriesOf_samples, metrics, List.map_map]
  rfl

/-- The gauges of workers with distinct ids. -/
theorem gauges_named (aged : snapshot.Aged) (policies : List (String × Policy))
    (distinct : (workers.map Prod.fst).Nodup)
    : ∃ gauges,
        workers.mapM (workerLines snapshot policies) = some gauges
        ∧ (∀ lines ∈ gauges, ∃ worker, workerLines snapshot policies worker = some lines)
        ∧ Named partNames[4] gauges.flatten := by
  have rendered (worker : String × String)
      : workerLines snapshot policies worker
        = some ((workerLines snapshot policies worker).getD []) := by
    obtain ⟨lines, rendered, -⟩ := workerLines_series aged policies worker
    rw [rendered, Option.getD_some]
  refine ⟨_, mapM_eq_map (fun worker _ => rendered worker), ?_, ?_⟩
  · intro lines member
    obtain ⟨worker, -, rfl⟩ := List.mem_map.mp member
    exact ⟨worker, rendered worker⟩
  · have each (worker : String × String)
        : seriesOf ((workerLines snapshot policies worker).getD [])
          = (metricsOf policies worker.1).map (fun entry => (entry.1, workerLabels worker)) := by
      obtain ⟨lines, rendered, same⟩ := workerLines_series aged policies worker
      rw [rendered, Option.getD_some, same]
    have names (id : String)
        : ((metricsOf policies id).map Prod.fst).Nodup
          ∧ ∀ entry ∈ metricsOf policies id, entry.1 ∈ partNames[4] := by
      unfold metricsOf
      split <;> decide
    rw [← List.flatMap_def, Named, seriesOf_flatMap]
    simp only [each]
    refine ⟨List.nodup_flatMap.mpr ⟨fun worker _ => ?_, ?_⟩, ?_⟩
    · have pairs := (names worker.1).1.map (f := fun name => (name, workerLabels worker))
        (fun name other same => (Prod.mk.inj same).1)
      rwa [List.map_map] at pairs
    · refine (List.pairwise_map.mp distinct).imp ?_
      rintro worker other differs series member again
      obtain ⟨_, -, rfl⟩ := List.mem_map.mp member
      obtain ⟨_, -, same⟩ := List.mem_map.mp again
      have labels := (Prod.mk.inj same).2
      simp only [workerLabels, List.cons.injEq, Prod.mk.injEq, true_and, and_true] at labels
      exact differs labels.1.symm
    · intro series member
      obtain ⟨worker, -, member⟩ := List.mem_flatMap.mp member
      obtain ⟨entry, among, rfl⟩ := List.mem_map.mp member
      exact (names worker.1).2 entry among

-----------------------------------------------------------------------------------------
-- The definitions of the parts
-----------------------------------------------------------------------------------------

def IsSample (line : Line) : Prop := ∃ name labels value, line = .sample name labels value

theorem defines_samples {samples : List Line} (all : ∀ line ∈ samples, IsSample line)
    : samples.filterMap Line.defines = [] := by
  rw [List.filterMap_eq_nil_iff]
  intro line member
  obtain ⟨name, labels, value, rfl⟩ := all line member
  rfl

theorem isSample_map {α : Type*} {items : List α} {name : α → String}
    {labels : α → List (String × String)} {value : α → Option Rat}
    : ∀ line ∈ items.map (fun item => Line.sample (name item) (labels item) (value item)),
      IsSample line := by
  intro line member
  obtain ⟨item, -, rfl⟩ := List.mem_map.mp member
  exact ⟨_, _, _, rfl⟩

theorem isSample_workerLines {worker : String × String} {lines : List Line}
    (rendered : workerLines snapshot policies worker = some lines)
    : ∀ line ∈ lines, IsSample line := by
  obtain ⟨values, -, rfl⟩ := Option.map_eq_some_iff.mp rendered
  exact isSample_map

theorem isSample_seriesLines {name : String} {series : Series}
    : ∀ line ∈ seriesLines name series, IsSample line := by
  intro line member
  rcases List.mem_append.mp member with member | member
  · exact isSample_map line member
  · simp only [List.mem_cons, List.not_mem_nil, or_false] at member
    rcases member with rfl | rfl | rfl <;> exact ⟨_, _, _, rfl⟩

theorem counters_ordered (exposition : Exposition)
    : Ordered known ((counters.zip exposition.counters).flatMap counterLines) := by
  refine .flatMap fun entry _ known _ => ordered_metric fun line member => ?_
  obtain ⟨sample, -, rfl⟩ := List.mem_map.mp member
  exact ⟨_, _, rfl⟩

theorem histograms_ordered (exposition : Exposition)
    : Ordered known ((histograms.zip exposition.histograms).flatMap histogramLines) := by
  refine .flatMap fun entry _ known _ => .append (.of_known (by simp [definition, Line.Known])) ?_
  refine .of_known fun line member => ?_
  obtain ⟨series, -, member⟩ := List.mem_flatMap.mp member
  have defined
      : .kind entry.2.name "histogram"
        ∈ known ++ definition entry.2.name "histogram" ("Durable " ++ entry.1.1
            ++ (" duration in seconds; queue_wait observes first claim, "
              ++ "processing and turnaround observe successful jobs.")) := by
    simp [definition]
  rcases List.mem_append.mp member with member | member
  · obtain ⟨bucket, -, rfl⟩ := List.mem_map.mp member
    exact .inr ⟨_, "_bucket", defined, by simp, rfl⟩
  · simp only [List.mem_cons, List.not_mem_nil, or_false] at member
    rcases member with rfl | rfl | rfl
    · exact .inr ⟨_, "_bucket", defined, by simp, rfl⟩
    · exact .inr ⟨_, "_count", defined, by simp, rfl⟩
    · exact .inr ⟨_, "_sum", defined, by simp, rfl⟩

/-- The gauges of the workers are defined before them. -/
theorem gauges_ordered {worker : String × String} {lines : List Line}
    (rendered : workerLines snapshot policies worker = some lines)
    (defined : workerDefinitions policies ⊆ known)
    : Ordered known lines := by
  obtain ⟨values, -, rfl⟩ := Option.map_eq_some_iff.mp rendered
  refine .of_known fun line member => ?_
  obtain ⟨entry, among, rfl⟩ := List.mem_map.mp member
  refine .inl ⟨"gauge", defined (List.mem_flatMap.mpr ⟨entry.1, ?_, by simp [definition]⟩)⟩
  rcases List.mem_append.mp among with own | listed
  · exact List.mem_append_left _ (List.of_mem_zip own).1
  · have member := (List.of_mem_zip listed).1
    have some : policies.isEmpty = false := by
      cases policies with
      | nil =>
          obtain ⟨_, valued⟩ := List.of_mem_zip listed
          cases valued
      | cons => rfl
    rw [some]
    exact List.mem_append_right _ member

theorem gauge_ordered {name text : String} {value : Option Rat}
    : Ordered known (gauge name text value) :=
  ordered_metric (by simp)

theorem jobs_ordered : Ordered known (jobsLines snapshot) := by
  refine .append (.append (.append (.append (.append (ordered_metric ?_) gauge_ordered)
    gauge_ordered) gauge_ordered) gauge_ordered) gauge_ordered
  intro line member
  obtain ⟨status, -, rfl⟩ := List.mem_map.mp member
  exact ⟨_, _, rfl⟩

/-- The metrics that a scrape defines, with those of the policies or without. -/
def definedMetrics (policies : List (String × Policy)) : List String :=
  partNames[0] ++ partNames[1] ++ partNames[2] ++ workerMetrics.map Prod.fst
    ++ (if policies.isEmpty then [] else policyMetrics.map Prod.fst) ++ partNames[5]
    ++ histograms.map Prod.snd ++ partNames[7]

theorem counterLines_defines (entry : (String × String) × CounterFamily)
    : (counterLines entry).filterMap Line.defines = [entry.2.name] := by
  rw [counterLines, List.filterMap_append, defines_samples isSample_map]
  rfl

theorem histogramLines_defines (entry : (String × String) × HistogramFamily)
    : (histogramLines entry).filterMap Line.defines = [entry.2.name] := by
  have samples : (entry.2.series.flatMap (seriesLines entry.2.name)).filterMap Line.defines
      = [] := by
    refine defines_samples fun line member => ?_
    obtain ⟨series, -, member⟩ := List.mem_flatMap.mp member
    exact isSample_seriesLines line member
  rw [histogramLines, List.filterMap_append, samples]
  rfl

theorem workerDefinitions_defines (policies : List (String × Policy))
    : (workerDefinitions policies).filterMap Line.defines
      = workerMetrics.map Prod.fst
        ++ if policies.isEmpty then [] else policyMetrics.map Prod.fst := by
  cases empty : policies.isEmpty <;> simp only [workerDefinitions, empty] <;> rfl

theorem blocks_defines {gauges : List (List Line)}
    (samples : ∀ lines ∈ gauges, ∀ line ∈ lines, IsSample line)
    : (blocks snapshot policies gauges (exported ids calls)).flatten.filterMap Line.defines
      = definedMetrics policies := by
  have none : gauges.flatten.filterMap Line.defines = [] := by
    refine defines_samples fun line member => ?_
    obtain ⟨lines, among, member⟩ := List.mem_flatten.mp member
    exact samples lines among line member
  have jobs : (jobsLines snapshot).filterMap Line.defines = partNames[0] := rfl
  have storage : (storageLines snapshot).filterMap Line.defines = partNames[1] := rfl
  have outbox : (outboxLines snapshot).filterMap Line.defines = partNames[2] := rfl
  have completion : (completionLines snapshot).filterMap Line.defines = partNames[7] := rfl
  have counted : ((counters.zip (exported ids calls).counters).flatMap counterLines).filterMap
      Line.defines = partNames[5] := by
    rw [List.filterMap_flatMap]
    simp only [counterLines_defines]
    rfl
  have measured : ((histograms.zip (exported ids calls).histograms).flatMap
      histogramLines).filterMap Line.defines = histograms.map Prod.snd := by
    rw [List.filterMap_flatMap]
    simp only [histogramLines_defines]
    rfl
  simp only [blocks, List.flatten_cons, List.flatten_nil, List.append_nil, List.filterMap_append,
    none, jobs, storage, outbox, completion, counted, measured, workerDefinitions_defines,
    List.nil_append, definedMetrics, List.append_assoc]

theorem definedMetrics_nodup (policies : List (String × Policy))
    : (definedMetrics policies).Nodup := by
  unfold definedMetrics
  cases policies.isEmpty <;> decide

end Parts

end Lines

/-- A scrape of a snapshot whose ages are known is well formed, for workers with distinct ids. -/
theorem render_parts {snapshot : Snapshot} {workers : List (String × String)}
    {calls : List Call} (policies : List (String × Policy)) (aged : snapshot.Aged)
    (distinct : (labels (workers.map Prod.fst)).Nodup)
    (observed : snapshot.observations.Perm (calls.foldl transcriberObserve []))
    : ∃ gauges,
        (workers.insertionSort (fun first second => first.1 ≤ second.1)).mapM
            (workerLines snapshot policies)
          = some gauges
        ∧ render snapshot workers policies
          = some (blocks snapshot policies gauges (exported (workers.map Prod.fst) calls)).flatten
        ∧ List.Forall₂ Named partNames
          (blocks snapshot policies gauges (exported (workers.map Prod.fst) calls))
        ∧ WellFormed
          (blocks snapshot policies gauges (exported (workers.map Prod.fst) calls)).flatten := by
  have ids : (workers.map Prod.fst).Nodup := (List.nodup_append.mp distinct).1
  have sorted : ((workers.insertionSort (fun first second => first.1 ≤ second.1)).map
      Prod.fst).Nodup := by
    rw [((List.perm_insertionSort _ workers).map Prod.fst).nodup_iff]
    exact ids
  obtain ⟨gauges, rendered, each, named⟩ := gauges_named aged policies sorted
  have exposed : renderMetrics snapshot.observations (workers.map Prod.fst)
      = some (exported (workers.map Prod.fst) calls) :=
    renderMetrics_eq observed
  have parts : List.Forall₂ Named partNames
      (blocks snapshot policies gauges (exported (workers.map Prod.fst) calls)) :=
    .cons jobs_named (.cons storage_named (.cons outbox_named (.cons definitions_named
      (.cons named (.cons (counters_named distinct) (.cons (histograms_named distinct)
        (.cons completion_named .nil)))))))
  refine ⟨gauges, rendered, by rw [render, rendered, Option.bind_some, exposed, Option.map_some],
    parts, (Named.flatten parts (by decide)).1, ?_, ?_⟩
  · rw [blocks_defines]
    · exact definedMetrics_nodup policies
    · intro lines member
      obtain ⟨worker, rendered⟩ := each lines member
      exact isSample_workerLines rendered
  · simp only [blocks, List.flatten_cons, List.flatten_nil, List.append_nil]
    refine .append jobs_ordered (.append (.flatMap fun _ _ _ _ => gauge_ordered)
      (.append (.append gauge_ordered gauge_ordered) (.append (.of_known ?_)
        (.append ?_ (.append (counters_ordered _) (.append (histograms_ordered _)
          gauge_ordered))))))
    · intro line member
      obtain ⟨entry, -, member⟩ := List.mem_flatMap.mp member
      simp only [definition, List.mem_cons, List.not_mem_nil, or_false] at member
      rcases member with rfl | rfl <;> trivial
    · rw [← List.flatMap_id]
      refine .flatMap fun lines member known kept => ?_
      obtain ⟨worker, rendered⟩ := each lines member
      exact gauges_ordered rendered (List.Subset.trans (List.subset_append_right _ _) kept)

-----------------------------------------------------------------------------------------
-- The snapshot of a reachable store
-----------------------------------------------------------------------------------------

/-- The worker map of an endpoint has distinct ids, none of them reserved or empty. -/
theorem endpointWorkers_distinct {policies : List (String × Policy)} {preferred : List String}
    {fallback : String} {workers : List (String × String)}
    (accepted : endpointWorkers policies preferred fallback = some workers)
    : (labels (workers.map Prod.fst)).Nodup ∧ ∀ worker ∈ workers, isWorkerId worker.1 = true := by
  have set (role : String) (workers : List (String × String)) (id : String)
      (distinct : (workers.map Prod.fst).Nodup)
      : ((setRole role workers id).map Prod.fst).Nodup :=
    Table.nodup_upsert distinct (fun _ => rfl) rfl
  simp only [endpointWorkers, Option.ite_none_left_eq_some, Option.some.injEq] at accepted
  obtain ⟨checked, rfl⟩ := accepted
  simp only [Bool.or_eq_true, decide_eq_true_eq, List.any_eq_true, not_or, not_exists, not_and,
    Bool.not_eq_true', Bool.not_eq_false] at checked
  obtain ⟨-, checked⟩ := checked
  have distinct := List.foldlRecOn (motive := fun workers => (workers.map Prod.fst).Nodup)
    (if policies.isEmpty then preferred else policies.map Prod.fst) (setRole "preferred") (b := [])
    List.nodup_nil (fun workers distinct id _ => set "preferred" workers id distinct)
  refine ⟨@labels_nodup ⟨_, set "fallback" _ fallback distinct⟩ ?_ ?_, ?_⟩
  · intro member
    obtain ⟨worker, listed, same⟩ := List.mem_map.mp member
    exact (checked worker listed).1.1 same
  · intro member
    obtain ⟨worker, listed, same⟩ := List.mem_map.mp member
    exact (checked worker listed).1.2 same
  · exact fun worker listed => (checked worker listed).2

/-- A running job has started. -/
def HasStart (row : JobRecord) : Prop := row.status = .running → row.startedAt.isSome

theorem hasStart_step {act : Option Act} {row next : JobRecord} (step : RowStep act row next)
    (started : HasStart row)
    : HasStart next := by
  cases step with
  | keep => exact started
  | claimed | delivered => exact fun _ => rfl
  | interrupted | acknowledged | renewed | redispatched => exact started
  | failed selected =>
      intro running
      simp only [Sql.fail] at running
      split at running <;> cases running
  | _ => exact fun running => by cases running

theorem hasStart_run {clock : Int} {past : List Transition} {s : ObservedStore}
    (run : Run ObservedStore.Step (ObservedStore.start clock) past s)
    : ∀ row ∈ s.db.jobs, HasStart row := by
  have kept : s.db.Consistent ∧ ∀ row ∈ s.db.jobs, HasStart row := by
    refine run.invariant (I := fun s => s.db.Consistent ∧ ∀ row ∈ s.db.jobs, HasStart row) ?_
      ⟨.empty clock, by simp [ObservedStore.start, Db.empty]⟩
    rintro s move t ⟨kept, started⟩ ⟨step, -⟩
    refine ⟨step.consistent kept, ?_⟩
    exact (step.outcome kept.distinct kept.held).change.rows started
      (fun _ _ _ _ running => by cases running) (fun _ _ _ => hasStart_step)
  exact kept.2

/-- A maximum over some numbers exists. -/
theorem oldest_isSome {now : Int} {moments : List (Option Int)} {moment : Int}
    (member : some moment ∈ moments)
    : (oldest now moments).isSome := by
  rw [oldest, List.isSome_max?_iff]
  exact List.ne_nil_of_mem (List.mem_filterMap.mpr ⟨some moment, member, rfl⟩)

/-- The groups of a snapshot of such rows have an age. -/
theorem Snapshot.Taken.aged {config : Config} {reports : List ReportRow} {s : ObservedStore}
    {snapshot : Snapshot} (taken : snapshot.Taken config reports s)
    (started : ∀ row ∈ s.db.jobs, HasStart row)
    : snapshot.Aged := by
  intro row member
  obtain ⟨group, grouped, rfl⟩ := List.mem_map.mp (taken.running.mem_iff.mp member)
  obtain ⟨occupied, rows⟩ := Table.groups_members grouped
  obtain ⟨first, among⟩ := List.exists_mem_of_ne_nil _ occupied
  obtain ⟨stored, holds⟩ := List.mem_filter.mp (rows first among).1
  obtain ⟨moment, start⟩ := Option.isSome_iff_exists.mp
    (started first stored (JobRecord.holdsLease_running holds))
  cases attempt : first.attemptStartedAt with
  | none =>
      exact oldest_isSome
        (List.mem_map.mpr ⟨first, among, by simp [attempt, start]⟩ : some moment ∈ _)
  | some began =>
      exact oldest_isSome
        (List.mem_map.mpr ⟨first, among, by simp [attempt]⟩ : some began ∈ _)

/-- The snapshot at a moment, its rows in the order of their groups. -/
def Snapshot.of (config : Config) (reports : List ReportRow) (s : ObservedStore) (now : Int)
    (storage : StorageBytes)
    : Snapshot where
  now := now
  jobs := metricsJobs now s.db.jobs
  workers := reports.map (workersRow now s.db.slots s.db.jobs)
  running := metricsRunning now s.db.jobs
  observations := s.observations.map Row.ofTrigger
  outbox := metricsOutbox config now s.db.outbox
  storage := storage

theorem Snapshot.taken_of (config : Config) (reports : List ReportRow) (s : ObservedStore)
    (now : Int) (storage : StorageBytes)
    : (Snapshot.of config reports s now storage).Taken config reports s :=
  ⟨.refl _, .refl _, .refl _, .refl _, rfl⟩

/-- A scrape of a reachable store is made of the parts for some calls of the trigger. -/
theorem Snapshot.Taken.rendered {config : Config} {reports : List ReportRow} {snapshot : Snapshot}
    {policies : List (String × Policy)} {preferred : List String} {fallback : String}
    {workers : List (String × String)} {clock : Int} {past : List Transition} {s : ObservedStore}
    (taken : snapshot.Taken config reports s)
    (accepted : endpointWorkers policies preferred fallback = some workers)
    (run : Run ObservedStore.Step (ObservedStore.start clock) past s)
    : ∃ calls gauges,
        s.observations.map Row.ofTrigger = calls.foldl transcriberObserve []
        ∧ (workers.insertionSort (fun first second => first.1 ≤ second.1)).mapM
            (workerLines snapshot policies)
          = some gauges
        ∧ render snapshot workers policies
          = some (blocks snapshot policies gauges (exported (workers.map Prod.fst) calls)).flatten
        ∧ List.Forall₂ Named partNames
          (blocks snapshot policies gauges (exported (workers.map Prod.fst) calls))
        ∧ WellFormed
          (blocks snapshot policies gauges (exported (workers.map Prod.fst) calls)).flatten := by
  obtain ⟨calls, called⟩ := called_run run
  obtain ⟨gauges, all⟩ := render_parts policies (taken.aged (hasStart_run run))
    (endpointWorkers_distinct accepted).1 (called ▸ taken.observations)
  exact ⟨calls, gauges, called, all⟩

/-- Every scrape of a reachable store renders, and its lines are well formed: at any moment, in
whatever order the rows come, for every worker map that the endpoint accepts.
-/
theorem scrapes_wellFormed {config : Config} {reports : List ReportRow} {snapshot : Snapshot}
    {policies : List (String × Policy)} {preferred : List String} {fallback : String}
    {workers : List (String × String)} {clock : Int} {past : List Transition} {s : ObservedStore}
    (accepted : endpointWorkers policies preferred fallback = some workers)
    (run : Run ObservedStore.Step (ObservedStore.start clock) past s)
    (taken : snapshot.Taken config reports s)
    : ∃ lines, render snapshot workers policies = some lines ∧ WellFormed lines := by
  obtain ⟨calls, gauges, -, -, rendered, -, formed⟩ := taken.rendered accepted run
  exact ⟨_, rendered, formed⟩

/-- A scrape after two attempts at the delivered job, with its pool listed. -/
theorem scrapes_wellFormed_exhausted
    : endpointWorkers (Config.onePool .rabbitmq).workerPolicies [] "server-fallback"
        = some [("gpu", "preferred"), ("server-fallback", "fallback")]
      ∧ ∃ lines,
          render
              (.of (Config.onePool .rabbitmq) [⟨"gpu", 0⟩] ObservedStore.playExhaust.2 (9 * second)
                ⟨0, 1, 2, 3⟩)
              [("gpu", "preferred"), ("server-fallback", "fallback")]
              (Config.onePool .rabbitmq).workerPolicies
            = some lines
          ∧ WellFormed lines := by
  have run : Run ObservedStore.Step (ObservedStore.start 0) ObservedStore.playExhaust.1
      ObservedStore.playExhaust.2 :=
    (Execution.play_run ObservedStore.perform_step (.nil _) ObservedStore.exhaustOnce).run
      (fun _ _ _ _ _ step => step)
  have accepted
      : endpointWorkers (Config.onePool .rabbitmq).workerPolicies [] "server-fallback"
        = some [("gpu", "preferred"), ("server-fallback", "fallback")] := by
    decide
  exact ⟨accepted, scrapes_wellFormed accepted run (Snapshot.taken_of ..)⟩

end Transcriber.Metrics
