import Transcriber.Store.RowSteps

/-! Inversion of the step function: every step is one of the four table changes.
The statements that are guarded by a job id alone need the row lock of their transaction,
so the lock's meaning is carried by the same case analysis.
-/

namespace Transcriber

namespace Db

/-- No two rows share a job id: the primary key. -/
def DistinctIds (s : Db) : Prop := (s.jobs.map JobRecord.jobId).Nodup

/-- The row that the lock holder selected FOR UPDATE is still the stored row of its job, and
passed the tests of `begin_attempt`.
-/
def LockHeld (s : Db) : Prop :=
  ∀ transaction row,
    s.scheduler = some transaction
    → transaction.phase.row? = some row
    → ∃ request clock,
        transaction.task = .begin request
        ∧ verdict row request clock = .proceed
        ∧ s.job? request.jobId = some row

/-- A step's change of the tables, with the lock and the drawn UUIDs it leaves behind. -/
structure Outcome (s : Db) (event : Event) (t : Db) : Prop where
  change : s.Change event t
  held : t.LockHeld
  drawn : ∀ uuid ∈ s.drawn, uuid ∈ t.drawn

-----------------------------------------------------------------------------------------
-- Reading rows after a rewriting
-----------------------------------------------------------------------------------------

@[simp] theorem rewrite_job? (s : Db) (statement : RowUpdate) (jobId : String)
    : (s.rewrite statement).job? jobId = (s.job? jobId).map statement.apply :=
  Table.lookup_map (fun row => statement.apply_jobId row) jobId s.jobs

theorem job?_mem {s : Db} {jobId : String} {row : JobRecord} (found : s.job? jobId = some row)
    : row ∈ s.jobs ∧ row.jobId = jobId :=
  ⟨Table.lookup_mem found, Table.lookup_key found⟩

theorem job?_of_mem {s : Db} (distinct : s.DistinctIds) {row : JobRecord}
    (member : row ∈ s.jobs)
    : s.job? row.jobId = some row :=
  Table.lookup_of_mem distinct member

/-- Rows under one id are one row. -/
theorem DistinctIds.eq {s : Db} (distinct : s.DistinctIds) {row other : JobRecord}
    (member : row ∈ s.jobs) (member' : other ∈ s.jobs) (same : row.jobId = other.jobId)
    : row = other := by
  have first := job?_of_mem distinct member
  have second := job?_of_mem distinct member'
  rw [same] at first
  exact Option.some.inj (first.symm.trans second)

-----------------------------------------------------------------------------------------
-- The row lock
-----------------------------------------------------------------------------------------

theorem LockHeld.of_none {s : Db} (free : s.scheduler = none) : s.LockHeld := by
  intro transaction row holder
  simp [free] at holder

/-- A step that leaves the holder and its locked row alone keeps the lock's meaning. -/
theorem LockHeld.frame {s t : Db} (held : s.LockHeld) (holder : t.scheduler = s.scheduler)
    (rows : ∀ jobId, s.locks jobId = true → t.job? jobId = s.job? jobId)
    : t.LockHeld := by
  intro transaction row open_ locked
  rw [holder] at open_
  obtain ⟨request, clock, task, passed, found⟩ := held transaction row open_ locked
  refine ⟨request, clock, task, passed, ?_⟩
  rw [rows, found]
  simp [locks, open_, locked, (job?_mem found).2]

/-- An unblocked statement selects no locked row. -/
theorem unblocked {s : Db} {selects : JobRecord → Bool} (free : s.blocks selects = false)
    {row : JobRecord} (member : row ∈ s.jobs) (selected : selects row)
    : s.locks row.jobId = false := by
  have waits := List.any_eq_false.mp free row member
  simpa [selected] using waits

/-- A rewriting of unlocked rows leaves a locked row in place. -/
theorem frame_rows {s t : Db} {selects : JobRecord → Bool} {f : JobRecord → JobRecord}
    (jobs : t.jobs = s.jobs.map f) (keepsId : ∀ row, (f row).jobId = row.jobId)
    (free : s.blocks selects = false)
    (kept : ∀ row ∈ s.jobs, selects row = false → f row = row)
    : ∀ jobId, s.locks jobId = true → t.job? jobId = s.job? jobId := by
  intro jobId locked
  have mapped : t.job? jobId = (s.job? jobId).map f := by
    rw [job?, jobs]
    exact Table.lookup_map keepsId jobId s.jobs
  rw [mapped]
  cases found : s.job? jobId with
  | none => rfl
  | some row =>
      obtain ⟨member, rfl⟩ := job?_mem found
      have unselected : selects row = false := by
        cases selected : selects row with
        | false => rfl
        | true => simp [unblocked free member selected] at locked
      simp [kept row member unselected]

-----------------------------------------------------------------------------------------
-- Steps that aim at one job
-----------------------------------------------------------------------------------------

/-- A step whose statement selects rows of one job only, and whose act, if it selected the
job's row, is `act`.
-/
structure Targets (s : Db) (event : Event) (selects : JobRecord → Bool) (jobId : String)
    (act : Option Act)
    : Prop where
  only : ∀ row, selects row → row.jobId = jobId
  hit : ∀ row ∈ s.jobs, selects row → event.act? jobId = act
  miss : (∀ row ∈ s.jobs, selects row = false) → event.act? jobId = none
  others : ∀ target, target ≠ jobId → event.act? target = none

/-- The act on each row is the target's act on selected rows and nothing elsewhere. -/
theorem Targets.act? {s : Db} {event : Event} {selects : JobRecord → Bool} {jobId : String}
    {act : Option Act} (targets : s.Targets event selects jobId act)
    (distinct : s.DistinctIds) {row : JobRecord} (member : row ∈ s.jobs)
    : event.act? row.jobId = if selects row then act else none := by
  split
  · rename_i selected
    rw [targets.only row selected]
    exact targets.hit row member selected
  · rename_i unselected
    rcases eq_or_ne row.jobId jobId with same | differs
    · rw [same]
      apply targets.miss
      intro other stored
      cases chosen : selects other with
      | false => rfl
      | true =>
          have equal := distinct.eq stored member ((targets.only other chosen).trans same.symm)
          simp [← equal, chosen] at unselected
    · exact targets.others row.jobId differs

/-- The outcome of a step that aims at one job, from what it does to the selected row. -/
theorem Outcome.of_target {s t : Db} {event : Event} {selects : JobRecord → Bool}
    {jobId : String} {act : Option Act} (f : JobRecord → JobRecord)
    (entries : List OutboxRow) (distinct : s.DistinctIds) (held : t.LockHeld)
    (jobs : t.jobs = s.jobs.map f) (outbox : t.outbox = s.outbox ++ entries)
    (drawn : ∀ uuid ∈ s.drawn, uuid ∈ t.drawn)
    (targets : s.Targets event selects jobId act)
    (chosen : ∀ row ∈ s.jobs, selects row → RowStep act row (f row))
    (kept : ∀ row ∈ s.jobs, selects row = false → f row = row)
    (dispatched
      : ∀ row ∈ s.jobs,
          selects row
          → (f row).dispatchId = row.dispatchId
            ∨ ∃ entry ∈ entries,
                entry.messageId = (f row).dispatchId ∧ entry.jobId = row.jobId)
    (announced
      : ∀ entry ∈ entries,
          entry.publishedAt = none ∧ ∃ uuid, entry.messageId = uuid.text ∧ s.Fresh t uuid)
    (separate : (entries.map OutboxRow.messageId).Nodup)
    (tokens
      : ∀ token deliveryId,
          act = some (.start token deliveryId)
          → ∃ workerId uuid, token = leaseToken workerId uuid ∧ s.Fresh t uuid)
    : s.Outcome event t := by
  have somewhere (target : String) (accepted : event.act? target ≠ none)
      : ∃ row ∈ s.jobs, row.jobId = target ∧ selects row := by
    rcases eq_or_ne target jobId with rfl | differs
    · by_contra missing
      apply accepted
      apply targets.miss
      intro row member
      cases selected : selects row with
      | false => rfl
      | true => exact absurd ⟨row, member, targets.only row selected, selected⟩ missing
    · exact absurd (targets.others target differs) accepted
  refine ⟨.rewrite f entries jobs outbox ?_ ?_ announced separate ?_ ?_, held, drawn⟩
  · intro row member
    rw [targets.act? distinct member]
    split
    · rename_i selected
      exact chosen row member selected
    · rename_i unselected
      rw [kept row member (by simpa using unselected)]
      exact .keep
  · intro row member
    cases selected : selects row with
    | true => exact dispatched row member selected
    | false => exact .inl (by rw [kept row member selected])
  · intro target token deliveryId started
    obtain ⟨row, member, rfl, selected⟩ := somewhere target (by simp [started])
    rw [targets.act? distinct member, if_pos selected] at started
    exact tokens token deliveryId started
  · intro target accepted
    obtain ⟨row, member, same, _⟩ := somewhere target accepted
    exact ⟨row, member, same⟩

/-- The outcome of a single statement that keeps dispatch identities and starts nothing. -/
theorem Outcome.of_statement {s t : Db} {event : Event} {statement : RowUpdate}
    {jobId : String} {act : Option Act} (distinct : s.DistinctIds) (held : t.LockHeld)
    (jobs : t.jobs = s.jobs.map statement.apply) (outbox : t.outbox = s.outbox)
    (drawn : ∀ uuid ∈ s.drawn, uuid ∈ t.drawn)
    (targets : s.Targets event statement.selects jobId act)
    (chosen : ∀ row ∈ s.jobs, statement.selects row → RowStep act row (statement.assign row))
    (keepsDispatch : ∀ row, (statement.assign row).dispatchId = row.dispatchId)
    (tokens
      : ∀ token deliveryId,
          act = some (.start token deliveryId)
          → ∃ workerId uuid, token = leaseToken workerId uuid ∧ s.Fresh t uuid)
    : s.Outcome event t := by
  refine Outcome.of_target statement.apply [] distinct held jobs (by simpa using outbox) drawn
    targets ?_ (fun row _ unselected => RowUpdate.apply_unselected unselected) ?_ (by simp)
    (by simp) tokens
  · intro row member selected
    rw [RowUpdate.apply_selected selected]
    exact chosen row member selected
  · intro row _ selected
    exact .inl (by rw [RowUpdate.apply_selected selected, keepsDispatch])

/-- The outcome of a step that leaves both tables alone. -/
theorem Outcome.of_unchanged {s t : Db} {event : Event} (held : t.LockHeld)
    (jobs : t.jobs = s.jobs) (outbox : t.outbox = s.outbox)
    (drawn : ∀ uuid ∈ s.drawn, uuid ∈ t.drawn) (quiet : ∀ target, event.act? target = none)
    : s.Outcome event t := by
  refine ⟨.rewrite id [] (by simpa using jobs) (by simpa using outbox) ?_ ?_ (by simp) (by simp)
    ?_ ?_, held, drawn⟩
  · intro row _
    rw [quiet]
    exact .keep
  · exact fun _ _ => .inl rfl
  · intro target token deliveryId started
    simp [quiet] at started
  · intro target accepted
    exact absurd (quiet target) accepted

end Db

end Transcriber
