import Transcriber.Store.RowInvariant

/-! Terminal results: a done or failed row keeps its result until its own cleanup, and only
an expired row is cleaned up.
-/

namespace Transcriber

open Execution

/-- The result of a terminal row, with its acknowledgement once that is set. -/
structure JobRecord.SameResult (row next : JobRecord) : Prop where
  jobId : next.jobId = row.jobId
  status : next.status = row.status
  text : next.text = row.text
  segments : next.segments = row.segments
  error : next.error = row.error
  attempts : next.attempts = row.attempts
  finishedAt : next.finishedAt = row.finishedAt
  retainUntilAck : next.retainUntilAck = row.retainUntilAck
  acknowledgedAt
    : ∀ moment, row.acknowledgedAt = some moment → next.acknowledgedAt = some moment

theorem JobRecord.SameResult.refl (row : JobRecord) : row.SameResult row :=
  ⟨rfl, rfl, rfl, rfl, rfl, rfl, rfl, rfl, fun _ same => same⟩

theorem JobRecord.SameResult.trans {row middle next : JobRecord}
    (first : row.SameResult middle) (second : middle.SameResult next)
    : row.SameResult next where
  jobId := second.jobId.trans first.jobId
  status := second.status.trans first.status
  text := second.text.trans first.text
  segments := second.segments.trans first.segments
  error := second.error.trans first.error
  attempts := second.attempts.trans first.attempts
  finishedAt := second.finishedAt.trans first.finishedAt
  retainUntilAck := second.retainUntilAck.trans first.retainUntilAck
  acknowledgedAt moment same := second.acknowledgedAt moment (first.acknowledgedAt moment same)

/-- The retention period of a finished row is over: the TTL runs from the acknowledgement of a
row that is retained until then, else from the finish.
-/
def JobRecord.Expired (row : JobRecord) (ttlSeconds now : Int) : Prop :=
  (row.retainUntilAck = false
    ∧ ∃ moment, row.finishedAt = some moment ∧ moment < now - ttlSeconds * second)
  ∨ (row.retainUntilAck = true
    ∧ ∃ moment, row.acknowledgedAt = some moment ∧ moment < now - ttlSeconds * second)

/-- What `cleanup.sql` selects is terminal and expired. -/
theorem JobRecord.WellFormed.cleanup {row : JobRecord} (wellFormed : row.WellFormed)
    {ttlSeconds now : Int} (selected : Sql.cleanup ttlSeconds now row)
    : row.status.terminal ∧ row.Expired ttlSeconds now := by
  simp only [Sql.cleanup, Bool.and_eq_true, Bool.or_eq_true, Bool.not_eq_true',
    Option.any_eq_true, decide_eq_true_eq] at selected
  exact ⟨wellFormed.finished.mp selected.1, selected.2⟩

/-- No statement but `ack.sql` touches a terminal row, by cases on the statement. -/
theorem RowStep.sameResult {act : Option Act} {row next : JobRecord}
    (step : RowStep act row next) (terminal : row.status.terminal)
    : row.SameResult next := by
  have inactive : row.status.active = false ∧ row.status.uploading = false := by
    cases status : row.status <;>
      simp_all [Status.terminal, Status.active, Status.uploading]
  have idle (moment : Int) : row.holdsLease moment = false := by
    cases status : row.status <;> simp_all [Status.terminal, JobRecord.holdsLease]
  cases step with
  | keep => exact .refl row
  | acknowledged =>
      refine ⟨rfl, rfl, rfl, rfl, rfl, rfl, rfl, rfl, ?_⟩
      intro moment set
      simp [Sql.ack, set]
  | downloading selected =>
      simp [Sql.updateStatus, inactive] at selected
  | interrupted selected =>
      simp [Sql.uploadInterrupted, inactive] at selected
  | queued selected =>
      simp [Sql.markQueued, inactive] at selected
  | cancelled selected =>
      simp [Sql.cancelJob, terminal] at selected
  | claimed startable =>
      simp [JobRecord.startable, inactive] at startable
  | delivered active | exhausted active | redispatched active =>
      simp [inactive] at active
  | renewed selected =>
      simp [Sql.heartbeat, idle] at selected
  | completed selected =>
      simp [Sql.complete, idle] at selected
  | failed selected =>
      simp [Sql.fail, idle, inactive] at selected

/-- Only a terminal row is acknowledged. -/
theorem RowStep.acknowledged_terminal {act : Option Act} {row next : JobRecord}
    (step : RowStep act row next)
    (before : row.acknowledgedAt.isSome → row.status.terminal)
    : next.acknowledgedAt.isSome → next.status.terminal := by
  intro acknowledged
  by_cases terminal : row.status.terminal
  · rw [(step.sameResult terminal).status]
    exact terminal
  · cases step with
    | acknowledged selected => simp [Sql.ack, terminal] at selected
    | _ => exact absurd (before acknowledged) terminal

namespace Db

/-- A row of a reachable state is there after a step, or the step was its cleanup. -/
theorem Step.retained {s t : Db} {event : Event} (step : s.Step event t)
    (consistent : s.Consistent) {row : JobRecord} (member : row ∈ s.jobs)
    : (∃ next ∈ t.jobs, ∃ act, RowStep act row next)
      ∨ ∃ ttlSeconds now,
          event.op = .cleanup row.jobId ttlSeconds now ∧ Sql.cleanup ttlSeconds now row := by
  cases (step.outcome consistent.distinct consistent.held).change with
  | rewrite f entries jobs outbox rows =>
      exact .inl ⟨f row, jobs ▸ List.mem_map_of_mem member, _, rows row member⟩
  | insert options jobId now called jobs =>
      exact .inl ⟨row, by simp [jobs, member], none, .keep⟩
  | publish messageId now called jobs =>
      exact .inl ⟨row, jobs ▸ member, none, .keep⟩
  | remove jobId ttlSeconds now called jobs =>
      cases selected : (decide (row.jobId = jobId) && Sql.cleanup ttlSeconds now row) with
      | false =>
          refine .inl ⟨row, ?_, none, .keep⟩
          rw [jobs]
          exact List.mem_filter.mpr ⟨member, by simp [selected]⟩
      | true =>
          simp only [Bool.and_eq_true, decide_eq_true_eq] at selected
          exact .inr ⟨ttlSeconds, now, selected.1 ▸ called, selected.2⟩

/-- An unfinished row outlives every step. -/
theorem Step.unfinished_retained {s t : Db} {event : Event} (step : s.Step event t)
    (consistent : s.Consistent) (valid : ∀ row ∈ s.jobs, row.Valid) {row : JobRecord}
    (member : row ∈ s.jobs) (unfinished : row.status.terminal = false)
    : ∃ next ∈ t.jobs, next.jobId = row.jobId := by
  rcases step.retained consistent member
    with ⟨next, memberNext, act, rowStep⟩ | ⟨ttlSeconds, now, _, selected⟩
  · exact ⟨next, memberNext, rowStep.jobId⟩
  · simp [((valid row member).cleanup selected).1] at unfinished

/-- What a cleanup returns are the files of the row that it deleted. -/
theorem cleanup_spec {s t : Db} {config : Config} {jobId inputPath resultPath : String}
    {ttlSeconds now : Int} (distinct : s.DistinctIds)
    (done
      : s.exec config (.cleanup jobId ttlSeconds now)
        = some (t, .removed (some (inputPath, resultPath))))
    : ∃ row ∈ s.jobs,
        row.jobId = jobId
        ∧ Sql.cleanup ttlSeconds now row
        ∧ inputPath = row.inputPath
        ∧ resultPath = row.resultPath
        ∧ ∀ next ∈ t.jobs, next.jobId ≠ jobId := by
  simp only [exec, cleanup] at done
  split at done
  · cases done
  split at done
  · cases done
  · rename_i row first
    cases done
    have selected := List.find?_some first
    have member := List.mem_of_find?_eq_some first
    simp only [Bool.and_eq_true, decide_eq_true_eq] at selected
    refine ⟨row, member, selected.1, selected.2, rfl, rfl, ?_⟩
    intro next stays same
    obtain ⟨stored, kept⟩ := List.mem_filter.mp stays
    obtain rfl := distinct.eq stored member (same.trans selected.1.symm)
    simp [selected] at kept

/-- One of the events is the cleanup of the row, whose retention period was over. -/
def CleanedUp (s : Db) (row : JobRecord) (events : List Event) : Prop :=
  ∃ before event after u version ttlSeconds now,
    events = before ++ event :: after
    ∧ Run Step s before u
    ∧ event.op = .cleanup row.jobId ttlSeconds now
    ∧ version ∈ u.jobs
    ∧ row.SameResult version
    ∧ version.Expired ttlSeconds now

theorem CleanedUp.append {s : Db} {row : JobRecord} {events : List Event}
    (cleanedUp : s.CleanedUp row events) (event : Event)
    : s.CleanedUp row (events ++ [event]) := by
  obtain ⟨before, cleanup, after, u, version, ttlSeconds, now, rfl, rest⟩ := cleanedUp
  exact ⟨before, cleanup, after ++ [event], u, version, ttlSeconds, now, by simp, rest⟩

/-- A terminal row keeps its result over a run that does not clean it up, by induction on the
run.
-/
theorem result_run {s t : Db} {events : List Event} (run : Run Step s events t)
    (consistent : s.Consistent) (valid : ∀ row ∈ s.jobs, row.Valid) {row : JobRecord}
    (member : row ∈ s.jobs) (terminal : row.status.terminal)
    : (∃ next ∈ t.jobs, row.SameResult next) ∨ s.CleanedUp row events := by
  induction run with
  | nil => exact .inl ⟨row, member, .refl row⟩
  | @snoc t u events event run last ih =>
      rcases ih with ⟨version, stored, same⟩ | cleanedUp
      · have terminalNow : version.status.terminal := same.status ▸ terminal
        rcases last.retained (consistent_run consistent run) stored
          with ⟨next, memberNext, act, rowStep⟩ | ⟨ttlSeconds, now, called, selected⟩
        · exact .inl ⟨next, memberNext, same.trans (rowStep.sameResult terminalNow)⟩
        · have wellFormed : version.Valid :=
            rows_run run consistent valid JobRecord.created_valid (fun _ _ _ step => step.valid)
              version stored
          exact .inr ⟨events, event, [], t, version, ttlSeconds, now, rfl, run,
            same.jobId ▸ called, stored, same, (wellFormed.cleanup selected).2⟩
      · exact .inr (cleanedUp.append event)

/-- Only terminal rows are acknowledged, in every reachable state. -/
theorem acknowledged_run {clock : Int} {s : Db} {events : List Event}
    (run : Run Step (Db.empty clock) events s)
    : ∀ row ∈ s.jobs, row.acknowledgedAt.isSome → row.status.terminal :=
  rows_run run (.empty clock) (by simp [Db.empty]) (by simp [JobRecord.created])
    (fun _ _ _ step => step.acknowledged_terminal)

/-- What holds of the results in a state of the store, over every run from there. -/
structure ResultsRetained (s : Db) : Prop where
  acknowledged : ∀ row ∈ s.jobs, row.acknowledgedAt.isSome → row.status.terminal
  terminal
    : ∀ row ∈ s.jobs,
        row.status.terminal
        → ∀ events t,
            Run Step s events t
            → (∃ next ∈ t.jobs, row.SameResult next) ∨ s.CleanedUp row events
  unfinished
    : ∀ row ∈ s.jobs,
        row.status.terminal = false
        → ∀ event t, s.Step event t → ∃ next ∈ t.jobs, next.jobId = row.jobId

theorem resultsRetained {clock : Int} {s : Db} {events : List Event}
    (run : Run Step (Db.empty clock) events s)
    : s.ResultsRetained where
  acknowledged := acknowledged_run run
  terminal _ member terminal _ _ more :=
    result_run more (consistent_run (.empty clock) run) (valid_run run) member terminal
  unfinished _ member unfinished _ _ step :=
    step.unfinished_retained (consistent_run (.empty clock) run) (valid_run run) member unfinished

end Db

end Transcriber
