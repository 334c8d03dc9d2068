import Mathlib.Algebra.Order.Ring.Rat
import Transcriber.Library.Histogram
import Transcriber.Store.Observations

/-! The counters and histograms that `render_metrics` exports, against the calls of
`transcriber_observe` that they count. Both stages add up in a commutative monoid: a call adds
its share to one row, and a row adds its columns to one worker label.
-/

namespace Transcriber.Metrics

-----------------------------------------------------------------------------------------
-- The table
-----------------------------------------------------------------------------------------

/-- The arguments of one `transcriber_observe` call, which may be NULL, and its `NOW()`. -/
structure Call where
  worker : Option String
  event : String
  seconds : Option Rat
  now : Int

/-- A row of `transcription_observations`, in exact arithmetic. -/
structure Row where
  workerId : String
  event : String
  total : Nat
  secondsSum : Rat
  buckets : List Nat
  lastAt : Int

/-- The primary key. -/
def Row.key (row : Row) : String × String := (row.workerId, row.event)

/-- `COALESCE(NULLIF(w, ''), 'ingress')` -/
def Call.workerId (call : Call) : String := observedWorker (call.worker.getD "")

/-- `GREATEST(0, seconds)` -/
def Call.duration (call : Call) : Rat := max 0 (call.seconds.getD 0)

def Call.key (call : Call) : String × String := (call.workerId, call.event)

/-- `transcriber_observe` -/
def transcriberObserve (rows : List Row) (call : Call) : List Row :=
  let increments :=
    bucketBounds.map (fun bound : Int => if call.duration ≤ (bound : Rat) then 1 else 0)
  Table.upsert Row.key call.key
    ⟨call.workerId, call.event, 1, call.duration, increments, call.now⟩
    (fun row =>
      { row with
        total := row.total + 1
        secondsSum := row.secondsSum + call.duration
        buckets := List.zipWith (· + ·) row.buckets increments
        lastAt := call.now })
    rows

-----------------------------------------------------------------------------------------
-- The export
-----------------------------------------------------------------------------------------

/-- `BUCKETS` -/
def buckets : List Int := [1, 5, 15, 30, 60, 120, 300, 600, 1800, 3600, 10800]

/-- `COUNTERS` -/
def counters : List (String × String) :=
  [
    ("submitted", "jobs_submitted"),
    ("completed", "jobs_completed"),
    ("failed", "jobs_failed"),
    ("cancelled", "jobs_cancelled"),
    ("attempts", "attempts"),
    ("retries", "retry_attempts"),
    ("attempt_failures", "attempt_failures"),
    ("lease_expirations", "lease_expirations")
  ]

/-- `HISTOGRAMS` -/
def histograms : List (String × String) :=
  [
    ("queue_wait", "job_queue_wait_seconds"),
    ("processing", "job_processing_seconds"),
    ("turnaround", "job_turnaround_seconds")
  ]

/-- The keys of `COUNTERS` and `HISTOGRAMS`: the known events. -/
def events : List String := counters.map Prod.fst ++ histograms.map Prod.fst

/-- `(*workers, "ingress", "other")` -/
def labels (workers : List String) : List String := workers ++ ["ingress", "other"]

/-- One entry of `totals`. -/
structure Values where
  count : Nat
  seconds : Rat
  buckets : List Nat

/-- `totals`, a dictionary over worker labels and events. -/
abbrev Totals := String × String → Option Values

def initialTotals (workers : List String) : Totals := fun key =>
  if key.1 ∈ labels workers ∧ key.2 ∈ events then
    some ⟨0, 0, List.replicate buckets.length 0⟩
  else
    none

/-- The label under which the loop adds a row. -/
def workerLabel (workers : List String) (workerId : String) : String :=
  if workerId ∉ workers ∧ workerId ≠ "ingress" then "other" else workerId

/-- The sums over `zip(left, right, strict=True)`, which raises on lists of different lengths. -/
def addStrict (left right : List Nat) : Option (List Nat) :=
  if left.length = right.length then some (List.zipWith (· + ·) left right) else none

/-- One round of the loop over `snapshot["observations"]`. -/
def addRow (workers : List String) (totals : Totals) (row : Row) : Option Totals :=
  let key := (workerLabel workers row.workerId, row.event)
  match totals key with
  | none => some totals
  | some values =>
      (addStrict values.buckets row.buckets).map (fun sums =>
        Function.update totals key
          (some ⟨values.count + row.total, values.seconds + row.secondsSum, sums⟩))

/-- The samples of one counter: a value for each worker label. -/
structure CounterFamily where
  name : String
  samples : List (String × Nat)

/-- The samples of one histogram under a worker label; `infinity` is the bucket `le="+Inf"`. -/
structure Series where
  workerId : String
  buckets : List (Int × Nat)
  infinity : Nat
  count : Nat
  sum : Rat

structure HistogramFamily where
  name : String
  series : List Series

/-- What `render_metrics` makes of `snapshot["observations"]`, before its values become text. -/
structure Exposition where
  counters : List CounterFamily
  histograms : List HistogramFamily

/-- `zip(BUCKETS, buckets, strict=True)` -/
def zipBuckets (sums : List Nat) : Option (List (Int × Nat)) :=
  if buckets.length = sums.length then some (buckets.zip sums) else none

/-- The samples of a counter, nothing on a missing key. -/
def renderCounter (workers : List String) (totals : Totals) (entry : String × String)
    : Option CounterFamily :=
  ((labels workers).mapM (fun label =>
      (totals (label, entry.1)).map (fun values => (label, values.count)))).map (fun samples =>
    ⟨entry.2 ++ "_total", samples⟩)

/-- The samples of a histogram, nothing on a missing key or buckets of another length. -/
def renderHistogram (workers : List String) (totals : Totals) (entry : String × String)
    : Option HistogramFamily :=
  ((labels workers).mapM (fun label =>
      (totals (label, entry.1)).bind (fun values =>
        (zipBuckets values.buckets).map (fun bounded =>
          ⟨label, bounded, values.count, values.count, values.seconds⟩)))).map (fun series =>
    ⟨entry.2, series⟩)

/-- The counters and histograms of `render_metrics`, nothing where it raises. -/
def renderMetrics (snapshot : List Row) (workers : List String) : Option Exposition :=
  (snapshot.foldlM (addRow workers) (initialTotals workers)).bind (fun totals =>
    (counters.mapM (renderCounter workers totals)).bind (fun counterFamilies =>
      (histograms.mapM (renderHistogram workers totals)).map (fun histogramFamilies =>
        ⟨counterFamilies, histogramFamilies⟩)))

/-- Both languages have the same bucket boundaries. -/
theorem buckets_eq : buckets = bucketBounds := rfl

-----------------------------------------------------------------------------------------
-- Shares
-----------------------------------------------------------------------------------------

/-- The bucket boundaries as durations. -/
def bounds : List Rat := buckets.map (fun bound : Int => (bound : Rat))

/-- A count, a sum of seconds and buckets, to be added up. -/
abbrev Share := Nat × Rat × (Nat → Nat)

def Row.share (row : Row) : Share := (row.total, row.secondsSum, Histogram.bucket row.buckets)

def Call.share (call : Call) : Share :=
  (1, call.duration, Histogram.bucket (Histogram.increments bounds call.duration))

def Values.share (values : Values) : Share :=
  (values.count, values.seconds, Histogram.bucket values.buckets)

/-- The increments of the statement. -/
theorem increments_eq (call : Call)
    : bucketBounds.map (fun bound : Int => if call.duration ≤ (bound : Rat) then 1 else 0)
      = Histogram.increments bounds call.duration := by
  rw [Histogram.increments, bounds, List.map_map, buckets_eq]
  rfl

/-- One row per key, each with a bucket for every boundary. -/
structure Stored (rows : List Row) : Prop where
  distinct : (rows.map Row.key).Nodup
  lengths : ∀ row ∈ rows, row.buckets.length = bounds.length

theorem Stored.nil : Stored [] := ⟨List.nodup_nil, by simp⟩

/-- A call adds its share to the rows of every set of keys that has its key. -/
theorem Stored.observe (keys : String × String → Bool) {rows : List Row} (stored : Stored rows)
    (call : Call)
    : Stored (transcriberObserve rows call)
      ∧ ((transcriberObserve rows call).map (fun row =>
          if keys row.key then row.share else 0)).sum
        = (rows.map (fun row => if keys row.key then row.share else 0)).sum
          + if keys call.key then call.share else 0 := by
  have length := Histogram.length_increments bounds call.duration
  unfold transcriberObserve
  simp only [increments_eq]
  refine ⟨⟨Table.nodup_upsert stored.distinct (fun _ => rfl) rfl, ?_⟩, ?_⟩
  · refine Table.forall_upsert stored.lengths (fun row same => ?_) length
    simp only [List.length_zipWith, same, length, min_self]
  · refine Table.sum_upsert stored.distinct (fun row member same => ?_) rfl
    have kept : ({ row with
          total := row.total + 1
          secondsSum := row.secondsSum + call.duration
          buckets := List.zipWith (· + ·) row.buckets (Histogram.increments bounds call.duration)
          lastAt := call.now } : Row).key = row.key := rfl
    rw [kept, same]
    split
    · simp only [Row.share, Call.share, Prod.mk_add_mk]
      rw [Histogram.bucket_zipWith ((stored.lengths row member).trans length.symm)]
    · rw [add_zero]

/-- The rows of a set of keys add up to the calls of these keys, after any calls. -/
theorem observe_sum (keys : String × String → Bool) (calls : List Call)
    : Stored (calls.foldl transcriberObserve [])
      ∧ ((calls.foldl transcriberObserve []).map (fun row =>
          if keys row.key then row.share else 0)).sum
        = (calls.map (fun call => if keys call.key then call.share else 0)).sum := by
  have adds := Table.foldl_adds (P := Stored) (f := transcriberObserve)
    (fun rows => (rows.map (fun row => if keys row.key then row.share else 0)).sum) _
    (fun rows call stored => stored.observe keys call) calls [] .nil
  simpa using adds

-----------------------------------------------------------------------------------------
-- The loop
-----------------------------------------------------------------------------------------

/-- The key under which the loop adds a row. -/
def Row.target (workers : List String) (row : Row) : String × String :=
  (workerLabel workers row.workerId, row.event)

/-- Buckets of one length are added without an error. -/
theorem addStrict_eq {left right : List Nat} (same : left.length = right.length)
    : addStrict left right = some (List.zipWith (· + ·) left right) :=
  if_pos same

/-- A row whose buckets have the right length adds its columns under its key, if there is one. -/
theorem addRow_spec (workers : List String) {totals : Totals} {row : Row}
    (lengths : ∀ key values, totals key = some values → values.buckets.length = bounds.length)
    (length : row.buckets.length = bounds.length)
    : ∃ next,
        addRow workers totals row = some next
        ∧ ∀ key,
            (totals key = none → next key = none)
            ∧ ∀ values,
                totals key = some values
                → ∃ values',
                    next key = some values'
                    ∧ values'.buckets.length = bounds.length
                    ∧ values'.share
                      = values.share + if row.target workers = key then row.share else 0 := by
  unfold addRow
  cases found : totals (row.target workers) with
  | none =>
      refine ⟨totals, by simp only [Row.target] at found; simp only [found], ?_⟩
      refine fun key => ⟨id, fun values present => ⟨values, present, lengths key values present, ?_⟩⟩
      rw [if_neg, add_zero]
      rintro rfl
      rw [found] at present
      cases present
  | some values =>
      have same := (lengths _ values found).trans length.symm
      simp only [Row.target] at found
      refine ⟨_, by simp only [found, addStrict_eq same, Option.map_some]; rfl, fun key => ?_⟩
      by_cases here : row.target workers = key
      · cases here
        constructor
        · intro absent
          rw [Row.target, found] at absent
          cases absent
        · intro other present
          rw [Row.target, found] at present
          cases present
          refine ⟨_, Function.update_self .., ?_, ?_⟩
          · simp only [List.length_zipWith, same, length, min_self]
          · simp only [Values.share, Row.share, if_pos, Histogram.bucket_zipWith same,
              Prod.mk_add_mk]
      · have elsewhere : key ≠ (workerLabel workers row.workerId, row.event) := fun equal =>
          here equal.symm
        constructor
        · intro absent
          rw [Function.update_of_ne elsewhere]
          exact absent
        · intro other present
          rw [Function.update_of_ne elsewhere]
          refine ⟨other, present, lengths key other present, ?_⟩
          rw [if_neg here, add_zero]

/-- The loop adds each row under its key, by induction on the rows. -/
theorem foldlM_addRow (workers : List String) {rows : List Row} {totals : Totals}
    (lengths : ∀ key values, totals key = some values → values.buckets.length = bounds.length)
    (rowLengths : ∀ row ∈ rows, row.buckets.length = bounds.length)
    : ∃ next,
        rows.foldlM (addRow workers) totals = some next
        ∧ ∀ key values,
            totals key = some values
            → ∃ values',
                next key = some values'
                ∧ values'.buckets.length = bounds.length
                ∧ values'.share
                  = values.share
                    + (rows.map (fun row =>
                        if row.target workers = key then row.share else 0)).sum := by
  induction rows generalizing totals with
  | nil => exact ⟨totals, rfl, fun key values present =>
      ⟨values, present, lengths key values present, by simp⟩⟩
  | cons row rest ih =>
      obtain ⟨first, others⟩ := List.forall_mem_cons.mp rowLengths
      obtain ⟨middle, added, spec⟩ := addRow_spec workers lengths first
      have kept : ∀ key values, middle key = some values
          → values.buckets.length = bounds.length := by
        intro key values present
        cases before : totals key with
        | none =>
            rw [(spec key).1 before] at present
            cases present
        | some old =>
            obtain ⟨new, same, length, _⟩ := (spec key).2 old before
            rw [same] at present
            cases present
            exact length
      obtain ⟨next, folded, sums⟩ := ih kept others
      refine ⟨next, ?_, ?_⟩
      · rw [List.foldlM_cons, added]
        exact folded
      · intro key values present
        obtain ⟨between, same, _, share⟩ := (spec key).2 values present
        obtain ⟨final, same', length, total⟩ := sums key between same
        refine ⟨final, same', length, ?_⟩
        rw [total, share, List.map_cons, List.sum_cons, add_assoc]

-----------------------------------------------------------------------------------------
-- The exported values
-----------------------------------------------------------------------------------------

/-- The calls that a worker label and an event export. -/
def contributing (workers : List String) (calls : List Call) (label event : String)
    : List Call :=
  calls.filter (fun call => workerLabel workers call.workerId = label && call.event = event)

/-- The shares of some items, added up over these alone. -/
theorem sum_ite_filter {β : Type*} (p : β → Bool) (share : β → Share) (items : List β)
    : (items.map (fun item => if p item then share item else 0)).sum
      = ((items.filter p).map share).sum := by
  induction items with
  | nil => rfl
  | cons head tail ih =>
      rw [List.map_cons, List.sum_cons, ih, List.filter_cons]
      split
      · rw [List.map_cons, List.sum_cons]
      · rw [zero_add]

/-- The shares of some calls: their number, their durations and their increments. -/
theorem shares_sum (calls : List Call)
    : (calls.map Call.share).sum
      = (calls.length, (calls.map Call.duration).sum,
          ((calls.map Call.duration).map (fun duration =>
            Histogram.bucket (Histogram.increments bounds duration))).sum) := by
  induction calls with
  | nil => rfl
  | cons call rest ih =>
      simp only [List.map_cons, List.sum_cons, ih, Call.share, Prod.mk_add_mk, List.length_cons,
        Nat.add_comm 1]

/-- Values that add up the shares of some calls are their number, duration and tally. -/
theorem values_eq {values : Values} {calls : List Call}
    (length : values.buckets.length = bounds.length)
    (share : values.share = (calls.map Call.share).sum)
    : values
      = ⟨calls.length, (calls.map Call.duration).sum,
          Histogram.tally bounds (calls.map Call.duration)⟩ := by
  obtain ⟨count, seconds, sums⟩ := values
  rw [shares_sum] at share
  simp only [Values.share, Prod.mk.injEq] at share
  obtain ⟨rfl, rfl, added⟩ := share
  have counted : sums = _ := Histogram.eq_tally length added
  rw [counted]

/-- What the loop leaves under a worker label and a known event. -/
theorem totals_eq (workers : List String) {calls : List Call} {snapshot : List Row}
    (taken : snapshot.Perm (calls.foldl transcriberObserve []))
    : ∃ totals,
        snapshot.foldlM (addRow workers) (initialTotals workers) = some totals
        ∧ ∀ label ∈ labels workers,
            ∀ event ∈ events,
              let called := contributing workers calls label event
              totals (label, event)
                = some ⟨called.length, (called.map Call.duration).sum,
                    Histogram.tally bounds (called.map Call.duration)⟩ := by
  have stored := (observe_sum (fun _ => true) calls).1
  have initial : ∀ key values, initialTotals workers key = some values
      → values.buckets.length = bounds.length := by
    intro key values present
    unfold initialTotals at present
    split at present
    · cases present
      rfl
    · cases present
  obtain ⟨totals, folded, sums⟩ := foldlM_addRow workers initial
    (fun row member => stored.lengths row (taken.mem_iff.mp member))
  refine ⟨totals, folded, ?_⟩
  intro label known event listed called
  obtain ⟨values, present, length, share⟩ := sums (label, event) _ (if_pos ⟨known, listed⟩)
  rw [present]
  refine congrArg some (values_eq length ?_)
  let keys : String × String → Bool := fun key =>
    workerLabel workers key.1 = label && key.2 = event
  have rows : (fun row : Row => if row.target workers = (label, event) then row.share else 0)
      = fun row => if keys row.key then row.share else 0 := by
    funext row
    simp only [Row.target, Prod.mk.injEq, keys, Row.key, Bool.and_eq_true, decide_eq_true_eq]
  have zero : Values.share ⟨0, 0, List.replicate buckets.length 0⟩ = 0 := by
    simp only [Values.share, Histogram.bucket_replicate]
    rfl
  rw [share, zero, zero_add, rows, (taken.map _).sum_eq, (observe_sum keys calls).2]
  exact sum_ite_filter (fun call : Call => keys call.key) Call.share calls

/-- A partial map that is defined everywhere on a list. -/
theorem mapM_eq_map {β γ : Type*} {f : β → Option γ} {g : β → γ} {items : List β}
    (defined : ∀ item ∈ items, f item = some (g item))
    : items.mapM f = some (items.map g) := by
  induction items with
  | nil => rfl
  | cons head tail ih =>
      obtain ⟨first, others⟩ := List.forall_mem_cons.mp defined
      rw [List.mapM_cons, first, ih others]
      rfl

/-- The series that a worker label exports for a histogram. -/
def exportedSeries (workers : List String) (calls : List Call) (event label : String) : Series :=
  let called := contributing workers calls label event
  ⟨label, buckets.zip (Histogram.tally bounds (called.map Call.duration)), called.length,
    called.length, (called.map Call.duration).sum⟩

/-- What is exported, for any calls and any order of the snapshot's rows: no round of the loop
raises, and each label's values are those of its calls.
-/
theorem renderMetrics_eq {workers : List String} {calls : List Call} {snapshot : List Row}
    (taken : snapshot.Perm (calls.foldl transcriberObserve []))
    : renderMetrics snapshot workers
      = some
          ⟨counters.map (fun entry =>
              ⟨entry.2 ++ "_total",
                (labels workers).map (fun label =>
                  (label, (contributing workers calls label entry.1).length))⟩),
            histograms.map (fun entry =>
              ⟨entry.2, (labels workers).map (exportedSeries workers calls entry.1)⟩)⟩ := by
  obtain ⟨totals, folded, values⟩ := totals_eq workers taken
  have counted : counters.mapM (renderCounter workers totals)
      = some (counters.map (fun entry =>
          (⟨entry.2 ++ "_total",
            (labels workers).map (fun label =>
              (label, (contributing workers calls label entry.1).length))⟩ : CounterFamily))) := by
    refine mapM_eq_map (fun entry member => ?_)
    have listed : entry.1 ∈ events :=
      List.mem_append_left _ (List.mem_map_of_mem member)
    rw [renderCounter, mapM_eq_map (fun label known => by
      rw [values label known entry.1 listed]
      rfl)]
    rfl
  have measured : histograms.mapM (renderHistogram workers totals)
      = some (histograms.map (fun entry =>
          (⟨entry.2, (labels workers).map (exportedSeries workers calls entry.1)⟩
            : HistogramFamily))) := by
    refine mapM_eq_map (fun entry member => ?_)
    have listed : entry.1 ∈ events :=
      List.mem_append_right _ (List.mem_map_of_mem member)
    rw [renderHistogram, mapM_eq_map (fun label known => by
      rw [values label known entry.1 listed]
      simp only [Option.bind_some, zipBuckets]
      rw [if_pos (by rw [Histogram.length_tally]; rfl)]
      rfl)]
    rfl
  rw [renderMetrics, folded, Option.bind_some, counted, Option.bind_some, measured]
  rfl

-----------------------------------------------------------------------------------------
-- Conservation
-----------------------------------------------------------------------------------------

/-- The worker map of the endpoint: a dictionary, whose keys are distinct. -/
structure WorkerMap where
  ids : List String
  distinct : ids.Nodup

/-- A histogram series under a worker label, against the calls that contribute to it. -/
structure Series.Valid (calls : List Call) (series : Series) : Prop where
  bounds : series.buckets.map Prod.fst = Metrics.buckets
  counts
    : ∀ bucket ∈ series.buckets,
        bucket.2 = calls.countP (fun call => call.seconds.getD 0 ≤ (bucket.1 : Rat))
  increasing : (series.buckets.map Prod.snd).Pairwise (· ≤ ·)
  bounded : ∀ bucket ∈ series.buckets, bucket.2 ≤ series.infinity
  infinity : series.infinity = series.count
  count : series.count = calls.length

/-- Nothing is lost between the calls and the export. -/
structure Exports (workers : List String) (calls : List Call) (snapshot : List Row)
    (exposition : Exposition)
    : Prop where
  labelled
    : ∀ row ∈ snapshot,
        row.event ∈ events
        → workerLabel workers row.workerId ∈ labels workers
          ∧ (row.workerId ∈ workers ∨ row.workerId = "ingress"
              → workerLabel workers row.workerId = row.workerId)
          ∧ (row.workerId ∉ workers
              → row.workerId ≠ "ingress"
              → workerLabel workers row.workerId = "other")
  counterNames
    : exposition.counters.map CounterFamily.name
      = counters.map (fun entry => entry.2 ++ "_total")
  counterLabels : ∀ family ∈ exposition.counters, family.samples.map Prod.fst = labels workers
  counterRows
    : ∀ entry ∈ counters,
        ∀ family ∈ exposition.counters,
          family.name = entry.2 ++ "_total"
          → ∀ sample ∈ family.samples,
              sample.2
              = ((snapshot.filter (fun row =>
                  row.event = entry.1 && workerLabel workers row.workerId = sample.1)).map
                  Row.total).sum
  conserved
    : ∀ entry ∈ counters,
        ∀ family ∈ exposition.counters,
          family.name = entry.2 ++ "_total"
          → (family.samples.map Prod.snd).sum
            = calls.countP (fun call => call.event = entry.1)
  histogramNames : exposition.histograms.map HistogramFamily.name = histograms.map Prod.snd
  histogramLabels
    : ∀ family ∈ exposition.histograms, family.series.map Series.workerId = labels workers
  valid
    : ∀ entry ∈ histograms,
        ∀ family ∈ exposition.histograms,
          family.name = entry.2
          → ∀ series ∈ family.series,
              series.Valid (contributing workers calls series.workerId entry.1)

/-- The label of a row or a call is one of the exported ones. -/
theorem workerLabel_mem (workers : List String) (workerId : String)
    : workerLabel workers workerId ∈ labels workers := by
  unfold workerLabel
  split
  · simp [labels]
  · rename_i known
    simp only [ne_eq, not_and_or, not_not] at known
    rcases known with listed | rfl
    · exact List.mem_append_left _ listed
    · simp [labels]

/-- The labels are distinct if the reserved ids are not configured. -/
theorem labels_nodup {workers : WorkerMap} (ingress : "ingress" ∉ workers.ids)
    (other : "other" ∉ workers.ids)
    : (labels workers.ids).Nodup := by
  refine List.nodup_append.mpr ⟨workers.distinct, by decide, ?_⟩
  intro id configured reserved member
  rcases List.mem_cons.mp member with rfl | member
  · rintro rfl
    exact ingress configured
  · obtain rfl := List.mem_singleton.mp member
    rintro rfl
    exact other configured

/-- Counts over distinct labels, each item under one of them, add up to all, by induction on the
items.
-/
theorem sum_countP_labels {β κ : Type*} [DecidableEq κ] {labels : List κ}
    (distinct : labels.Nodup) (label : β → κ) (p : β → Bool) (items : List β)
    (known : ∀ item ∈ items, label item ∈ labels)
    : (labels.map (fun key => items.countP (fun item => label item = key && p item))).sum
      = items.countP p := by
  induction items with
  | nil => simp
  | cons head tail ih =>
      obtain ⟨first, others⟩ := List.forall_mem_cons.mp known
      have one : (labels.map (fun key =>
            if (decide (label head = key) && p head) then 1 else 0)).sum
          = if p head then 1 else 0 := by
        rw [← Table.countP_eq_sum]
        cases p head with
        | false => simp
        | true =>
            rw [if_pos rfl, ← List.count_eq_one_of_mem distinct first]
            refine List.countP_congr (fun key _ => ?_)
            simp only [Bool.and_true, decide_eq_true_eq, beq_iff_eq]
            exact eq_comm
      simp only [List.countP_cons, List.sum_map_add, ih others, one]

/-- Histogram names, and counter names, tell their entries apart. -/
theorem entry_of_name
    : (∀ entry ∈ counters, ∀ other ∈ counters,
        other.2 ++ "_total" = entry.2 ++ "_total" → other = entry)
      ∧ ∀ entry ∈ histograms, ∀ other ∈ histograms, other.2 = entry.2 → other = entry := by
  decide

/-- A duration is small exactly where the reported seconds are: the boundaries are positive. -/
theorem duration_le {call : Call} {bound : Int} (member : bound ∈ buckets)
    : call.duration ≤ (bound : Rat) ↔ call.seconds.getD 0 ≤ (bound : Rat) := by
  have positive : ∀ bound ∈ buckets, 0 ≤ bound := by decide
  have reached : (0 : Rat) ≤ bound := by exact_mod_cast positive bound member
  simp [Call.duration, reached]

/-- An exported series is valid: it is the tally of the durations over increasing boundaries. -/
theorem exportedSeries_valid (workers : List String) (calls : List Call) (event label : String)
    : (exportedSeries workers calls event label).Valid
        (contributing workers calls label event) := by
  let called := contributing workers calls label event
  let tally := Histogram.tally bounds (called.map Call.duration)
  have length : tally.length = buckets.length := Histogram.length_tally _ _
  have counted : tally = buckets.map (fun bound : Int =>
        called.countP (fun call => call.seconds.getD 0 ≤ (bound : Rat))) := by
    simp only [tally, Histogram.tally, bounds, List.map_map]
    refine List.map_congr_left (fun bound member => ?_)
    rw [Function.comp_apply, List.countP_map]
    refine List.countP_congr (fun call _ => ?_)
    simp only [Function.comp_apply, decide_eq_true_eq, duration_le member]
  have increasing : bounds.Pairwise (· ≤ ·) := by
    refine List.pairwise_map.mpr (List.Pairwise.imp ?_ (by decide : buckets.Pairwise (· ≤ ·)))
    exact fun order => by exact_mod_cast order
  exact {
    bounds := List.map_fst_zip length.ge
    counts := by
      intro bucket member
      obtain ⟨bound, small⟩ := bucket
      change (bound, small) ∈ buckets.zip tally at member
      rw [counted] at member
      obtain ⟨index, within, same⟩ := List.mem_iff_getElem.mp member
      simp only [List.getElem_zip, List.getElem_map, Prod.mk.injEq] at same
      rw [← same.2, same.1]
    increasing := by
      change ((buckets.zip tally).map Prod.snd).Pairwise (· ≤ ·)
      rw [List.map_snd_zip length.le]
      exact Histogram.tally_increasing increasing _
    bounded := by
      intro bucket member
      have counts := Histogram.tally_le _ (List.of_mem_zip member).2
      rwa [List.length_map] at counts
    infinity := rfl
    count := rfl
  }

/-- The rows of one label and a known event add up to the calls there. -/
theorem rows_sum (workers : List String) {calls : List Call} {snapshot : List Row}
    (taken : snapshot.Perm (calls.foldl transcriberObserve [])) (label event : String)
    : (contributing workers calls label event).length
      = ((snapshot.filter (fun row =>
          row.event = event && workerLabel workers row.workerId = label)).map Row.total).sum := by
  let keys : String × String → Bool := fun key =>
    workerLabel workers key.1 = label && key.2 = event
  have sums := (observe_sum keys calls).2
  rw [← (taken.map _).sum_eq, sum_ite_filter (fun row : Row => keys row.key),
    sum_ite_filter (fun call : Call => keys call.key), shares_sum] at sums
  have totals := congrArg (AddMonoidHom.fst _ _) sums
  rw [map_list_sum, List.map_map] at totals
  refine totals.symm.trans ?_
  simp only [keys, Row.key, Bool.and_comm]
  rfl

/-- Metrics aggregation loses nothing and exports valid histograms: for every sequence of calls, in
any order of the rows of the snapshot that they leave, and for every worker map without the two
reserved ids.
-/
theorem metrics_exported (workers : WorkerMap) (ingress : "ingress" ∉ workers.ids)
    (other : "other" ∉ workers.ids) (calls : List Call) (snapshot : List Row)
    (taken : snapshot.Perm (calls.foldl transcriberObserve []))
    : ∃ exposition,
        renderMetrics snapshot workers.ids = some exposition
        ∧ Exports workers.ids calls snapshot exposition := by
  refine ⟨_, renderMetrics_eq taken, ?_⟩
  exact {
    labelled := by
      intro row _ _
      refine ⟨workerLabel_mem _ _, ?_, ?_⟩
      · intro known
        rw [workerLabel, if_neg]
        rintro ⟨unlisted, different⟩
        rcases known with listed | same
        · exact unlisted listed
        · exact different same
      · exact fun unlisted different => if_pos ⟨unlisted, different⟩
    counterNames := by rw [List.map_map]; rfl
    counterLabels := by
      rw [List.forall_mem_map]
      intro entry _
      rw [List.map_map]
      exact List.map_id _
    counterRows := by
      intro entry member family exported name sample listed
      obtain ⟨found, member', rfl⟩ := List.mem_map.mp exported
      obtain rfl := entry_of_name.1 entry member found member' name
      obtain ⟨label, _, rfl⟩ := List.mem_map.mp listed
      exact rows_sum workers.ids taken label found.1
    conserved := by
      intro entry member family exported name
      obtain ⟨found, member', rfl⟩ := List.mem_map.mp exported
      obtain rfl := entry_of_name.1 entry member found member' name
      rw [List.map_map, ← sum_countP_labels (labels_nodup ingress other)
        (fun call : Call => workerLabel workers.ids call.workerId) _ calls
        (fun call _ => workerLabel_mem _ _)]
      refine congrArg List.sum (List.map_congr_left (fun label _ => ?_))
      exact List.countP_eq_length_filter.symm
    histogramNames := by rw [List.map_map]; rfl
    histogramLabels := by
      rw [List.forall_mem_map]
      intro entry _
      rw [List.map_map]
      exact List.map_id _
    valid := by
      intro entry member family exported name series listed
      obtain ⟨found, member', rfl⟩ := List.mem_map.mp exported
      obtain rfl := entry_of_name.2 entry member found member' name
      obtain ⟨label, _, rfl⟩ := List.mem_map.mp listed
      exact exportedSeries_valid workers.ids calls found.1 label
  }

/-- Two pools are configured; a third one, the ingress and an unknown event are observed too. -/
def sampleCalls : List Call :=
  [
    ⟨some "", "submitted", none, 0⟩,
    ⟨some "gpu", "attempts", none, 1⟩,
    ⟨some "retired", "attempts", none, 2⟩,
    ⟨some "gpu", "processing", some 20, 3⟩,
    ⟨some "gpu", "processing", some (-1), 4⟩,
    ⟨none, "unknown", some 1, 5⟩
  ]

def sampleWorkers : WorkerMap := ⟨["gpu", "cpu"], by decide⟩

theorem metrics_exported_sample
    : (∃ exposition,
        renderMetrics (sampleCalls.foldl transcriberObserve []).reverse sampleWorkers.ids
          = some exposition
        ∧ Exports sampleWorkers.ids sampleCalls (sampleCalls.foldl transcriberObserve []).reverse
            exposition)
      ∧ (renderMetrics (sampleCalls.foldl transcriberObserve []).reverse sampleWorkers.ids).map
          (fun exposition =>
            (exposition.counters.map (fun family => (family.samples.map Prod.snd).sum),
              exposition.histograms.map (fun family => family.series.map Series.count)))
        = some ([1, 0, 0, 0, 2, 0, 0, 0], [[0, 0, 0, 0], [2, 0, 0, 0], [0, 0, 0, 0]]) :=
  ⟨metrics_exported sampleWorkers (by decide) (by decide) sampleCalls _ (List.reverse_perm _),
    by decide +kernel⟩

-----------------------------------------------------------------------------------------
-- The table of the store
-----------------------------------------------------------------------------------------

/-- The `event` column of an observation. -/
def eventText : ObservedEvent → String
  | .submitted => "submitted"
  | .attempts => "attempts"
  | .retries => "retries"
  | .queueWait => "queue_wait"
  | .leaseExpirations => "lease_expirations"
  | .attemptFailures => "attempt_failures"
  | .completed => "completed"
  | .processing => "processing"
  | .turnaround => "turnaround"
  | .failed => "failed"
  | .cancelled => "cancelled"

theorem eventText_injective : Function.Injective eventText := by
  intro left right same
  cases left <;> cases right <;> first | rfl | simp [eventText] at same

/-- A row that the trigger keeps in microseconds. -/
def Row.ofTrigger (row : ObservationRow) : Row :=
  ⟨row.workerId, eventText row.event, row.total, row.durationSum / 1000000, row.buckets,
    row.lastAt⟩

/-- A call of the trigger. -/
def Call.ofTrigger (now : Int) (call : Observation) : Call :=
  ⟨some call.worker, eventText call.event, some (call.duration / 1000000), now⟩

/-- A duration in microseconds is at most a boundary in seconds. -/
theorem ofTrigger_le (duration bound : Int)
    : ((max 0 duration : Int) : Rat) / 1000000 ≤ (bound : Rat)
      ↔ max 0 duration ≤ bound * second := by
  rw [div_le_iff₀ (by decide), second]
  exact_mod_cast Iff.rfl

/-- The trigger's calls are calls of the same function. -/
theorem transcriberObserve_ofTrigger (now : Int) (rows : List ObservationRow)
    (call : Observation)
    : (Transcriber.transcriberObserve now rows call).map Row.ofTrigger
      = transcriberObserve (rows.map Row.ofTrigger) (.ofTrigger now call) := by
  have duration : (Call.ofTrigger now call).duration
      = ((max 0 call.duration : Int) : Rat) / 1000000 := by
    change max 0 ((call.duration : Rat) / 1000000) = _
    rcases Int.le_total 0 call.duration with positive | negative
    · rw [max_eq_right positive, max_eq_right]
      exact div_nonneg (by exact_mod_cast positive) (by decide)
    · rw [max_eq_left negative, max_eq_left]
      · simp
      · exact div_nonpos_of_nonpos_of_nonneg (by exact_mod_cast negative) (by decide)
  have increments : bucketBounds.map (fun bound : Int =>
        if (Call.ofTrigger now call).duration ≤ (bound : Rat) then 1 else 0)
      = bucketBounds.map (fun bound =>
        if max 0 call.duration ≤ bound * second then 1 else 0) := by
    simp only [duration, ofTrigger_le]
  unfold Transcriber.transcriberObserve transcriberObserve
  simp only [increments]
  rw [Table.map_upsert Row.key (Call.ofTrigger now call).key Row.ofTrigger (fun row =>
    { row with
      total := row.total + 1
      secondsSum := row.secondsSum + (Call.ofTrigger now call).duration
      buckets := List.zipWith (· + ·) row.buckets (bucketBounds.map (fun bound =>
        if max 0 call.duration ≤ bound * second then 1 else 0))
      lastAt := now })]
  · simp only [Row.ofTrigger, ← duration]
    rfl
  · intro row
    simp only [Row.key, Row.ofTrigger, Call.key, Call.workerId, Call.ofTrigger,
      Option.getD_some, ObservationRow.key, Prod.mk.injEq, eventText_injective.eq_iff]
  · intro row
    simp only [Row.ofTrigger, duration, Int.cast_add, div_eq_mul_inv, add_mul]

/-- The table is what some calls leave. -/
def Called (rows : List ObservationRow) : Prop :=
  ∃ calls : List Call, rows.map Row.ofTrigger = calls.foldl transcriberObserve []

/-- Calls after some calls, by induction on them. -/
theorem Called.foldl (now : Int) (more : List Observation) {rows : List ObservationRow}
    (called : Called rows)
    : Called (more.foldl (Transcriber.transcriberObserve now) rows) := by
  induction more generalizing rows with
  | nil => exact called
  | cons call rest ih =>
      obtain ⟨calls, same⟩ := called
      refine ih ⟨calls ++ [.ofTrigger now call], ?_⟩
      rw [transcriberObserve_ofTrigger, same, List.foldl_append]
      rfl

/-- The trigger only calls the function. -/
theorem Called.observe (s t : Db) {rows : List ObservationRow} (called : Called rows)
    : Called (s.observe t rows) := by
  unfold Db.observe
  refine List.foldlRecOn (motive := Called) _ _ (List.foldlRecOn (motive := Called) _ _ called ?_) ?_
  · intro rows kept old _
    split
    · exact kept
    · exact kept.foldl _ _
  · intro rows kept new _
    split
    · exact kept.foldl _ _
    · exact kept

/-- In every run of the store the table is what some calls leave. -/
theorem called_run {clock : Int} {past : List Transition} {s : ObservedStore}
    (run : Execution.Run ObservedStore.Step (ObservedStore.start clock) past s)
    : Called s.observations := by
  refine run.invariant (I := fun s => Called s.observations) ?_ ⟨[], rfl⟩
  rintro s move t called ⟨_, _, _, observed⟩
  rw [observed]
  exact called.observe s.db t.db

/-- What the endpoint exports of any reachable store. -/
theorem store_exported (workers : WorkerMap) (ingress : "ingress" ∉ workers.ids)
    (other : "other" ∉ workers.ids) {clock : Int} {past : List Transition} {s : ObservedStore}
    (run : Execution.Run ObservedStore.Step (ObservedStore.start clock) past s)
    : ∃ calls exposition,
        renderMetrics (s.observations.map Row.ofTrigger) workers.ids = some exposition
        ∧ Exports workers.ids calls (s.observations.map Row.ofTrigger) exposition := by
  obtain ⟨calls, same⟩ := called_run run
  obtain ⟨exposition, rendered, exports⟩ :=
    metrics_exported workers ingress other calls _ (List.Perm.of_eq same)
  exact ⟨calls, exposition, rendered, exports⟩

end Transcriber.Metrics