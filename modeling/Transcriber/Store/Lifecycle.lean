import Transcriber.Store.AttemptFencing
import Transcriber.Store.Terminal

/-! The life of a job: upload, waiting and attempts, result, deletion.
Statements move a row forward through these phases only, and no row comes back once deleted.
-/

namespace Transcriber

open Execution

-----------------------------------------------------------------------------------------
-- Versions of a row
-----------------------------------------------------------------------------------------

/-- The phase of a job; its attempts alternate within one. -/
def Status.phase : Status → Nat
  | .accepted => 0
  | .downloading => 1
  | .queued | .running => 2
  | .done | .failed => 3

/-- The later version of a row: a terminal row changes in its acknowledgement only. -/
structure JobRecord.Advances (row next : JobRecord) : Prop where
  jobId : next.jobId = row.jobId
  phase : row.status.phase ≤ next.status.phase
  attempts : row.attempts ≤ next.attempts
  maxAttempts : next.maxAttempts = row.maxAttempts
  settled
    : row.status.terminal
      → next
        = { row with acknowledgedAt := next.acknowledgedAt, updatedAt := next.updatedAt }

theorem JobRecord.Advances.refl (row : JobRecord) : row.Advances row :=
  ⟨rfl, Nat.le_refl _, Int.le_refl _, rfl, fun _ => rfl⟩

theorem JobRecord.Advances.trans {row middle next : JobRecord} (first : row.Advances middle)
    (second : middle.Advances next)
    : row.Advances next where
  jobId := second.jobId.trans first.jobId
  phase := first.phase.trans second.phase
  attempts := first.attempts.trans second.attempts
  maxAttempts := second.maxAttempts.trans first.maxAttempts
  settled terminal := by
    have same := first.settled terminal
    have later : middle.status.terminal := by
      rw [same]
      exact terminal
    rw [second.settled later, same]

/-- Every statement advances its row, by cases on the statement. -/
theorem RowStep.advances {act : Option Act} {row next : JobRecord} (step : RowStep act row next)
    : row.Advances next := by
  by_cases terminal : row.status.terminal
  · cases step with
    | keep | acknowledged => exact ⟨rfl, Nat.le_refl _, Int.le_refl _, rfl, fun _ => rfl⟩
    | downloading selected | interrupted selected | queued selected | cancelled selected
    | renewed selected | completed selected | failed selected =>
        exfalso
        cases status : row.status <;>
          simp_all [Sql.updateStatus, Sql.uploadInterrupted, Sql.markQueued, Sql.cancelJob,
            Sql.heartbeat, Sql.complete, Sql.fail, JobRecord.holdsLease, Status.terminal,
            Status.uploading]
    | claimed startable =>
        exfalso
        cases status : row.status <;>
          simp_all [JobRecord.startable, Status.terminal, Status.active]
    | delivered active | exhausted active | redispatched active =>
        exfalso
        cases status : row.status <;> simp_all [Status.terminal, Status.active]
  · have early : row.status.phase ≤ 2 := by
      cases status : row.status <;> simp_all [Status.terminal, Status.phase]
    have open_ {next : JobRecord} (claim : row.status.terminal)
        : next
          = { row with acknowledgedAt := next.acknowledgedAt, updatedAt := next.updatedAt } :=
      absurd claim terminal
    cases step with
    | keep | interrupted | acknowledged | renewed | redispatched =>
        exact ⟨rfl, Nat.le_refl _, Int.le_refl _, rfl, open_⟩
    | downloading selected =>
        refine ⟨rfl, ?_, Int.le_refl _, rfl, open_⟩
        clear open_
        cases status : row.status <;>
          simp_all [Sql.updateStatus, Status.uploading, Status.phase]
    | queued => exact ⟨rfl, early, Int.le_refl _, rfl, open_⟩
    | claimed | delivered =>
        have more : row.attempts ≤ row.attempts + 1 := by omega
        exact ⟨rfl, early, more, rfl, open_⟩
    | cancelled | completed | exhausted =>
        exact ⟨rfl, early.trans (Nat.le_succ 2), Int.le_refl _, rfl, open_⟩
    | @failed _ jobId token error retryable now dispatchId selected caller =>
        refine ⟨rfl, ?_, Int.le_refl _, rfl, open_⟩
        simp only [Sql.fail]
        split
        · exact early
        · exact early.trans (Nat.le_succ 2)

-----------------------------------------------------------------------------------------
-- Runs of the store
-----------------------------------------------------------------------------------------

namespace Db

/-- The id was drawn for a job that is no longer stored. -/
def Gone (s : Db) (jobId : String) : Prop :=
  s.job? jobId = none ∧ ∃ uuid ∈ s.drawn, jobId = uuid.text

/-- A deleted job does not come back: a new row takes a freshly drawn id. -/
theorem Step.gone {s t : Db} {event : Event} {jobId : String} (step : s.Step event t)
    (consistent : s.Consistent) (gone : s.Gone jobId)
    : t.Gone jobId := by
  obtain ⟨missing, uuid, known, rfl⟩ := gone
  obtain ⟨change, _, drawn⟩ := step.outcome consistent.distinct consistent.held
  refine ⟨?_, uuid, drawn uuid known, rfl⟩
  cases found : t.job? uuid.text with
  | none => rfl
  | some next =>
      rcases change.origin consistent found with ⟨row, stored, _⟩ | ⟨_, unused, _⟩
      · rw [missing] at stored
        cases stored
      · exact absurd rfl (unused uuid known)

/-- A stored job has its row rewritten in place by a step, or is gone. -/
theorem Step.version {s t : Db} {event : Event} {row : JobRecord} {jobId : String}
    (step : s.Step event t) (consistent : s.Consistent) (found : s.job? jobId = some row)
    : (∃ next, t.job? jobId = some next ∧ RowStep (event.act? jobId) row next)
      ∨ t.Gone jobId := by
  obtain ⟨member, rfl⟩ := job?_mem found
  obtain ⟨uuid, known, named⟩ := consistent.known row member
  obtain ⟨change, _, drawn⟩ := step.outcome consistent.distinct consistent.held
  cases stored : t.job? row.jobId with
  | none => exact .inr ⟨stored, uuid, drawn uuid known, named⟩
  | some next =>
      rcases change.origin consistent stored with ⟨old, before, rowStep⟩ | ⟨_, unused, _⟩
      · obtain rfl := Option.some.inj (found.symm.trans before)
        exact .inl ⟨next, rfl, rowStep⟩
      · exact absurd named.symm (unused uuid known)

/-- A stored job has a later version after a step, or is gone. -/
theorem Step.advances {s t : Db} {event : Event} {row : JobRecord} {jobId : String}
    (step : s.Step event t) (consistent : s.Consistent) (found : s.job? jobId = some row)
    : (∃ next, t.job? jobId = some next ∧ row.Advances next) ∨ t.Gone jobId :=
  (step.version consistent found).imp_left (fun ⟨next, stored, rowStep⟩ =>
    ⟨next, stored, rowStep.advances⟩)

theorem gone_run {s t : Db} {events : List Event} {jobId : String} (run : Run Step s events t)
    (consistent : s.Consistent) (gone : s.Gone jobId)
    : t.Gone jobId :=
  (run.invariant (I := fun state => state.Consistent ∧ state.Gone jobId)
    (fun _ _ _ kept step => ⟨step.consistent kept.1, step.gone kept.1 kept.2⟩)
    ⟨consistent, gone⟩).2

/-- A stored job advances over every run until it is gone for good, by induction on the run. -/
theorem advances_run {s t : Db} {events : List Event} {row : JobRecord} {jobId : String}
    (run : Run Step s events t) (consistent : s.Consistent) (found : s.job? jobId = some row)
    : (∃ next, t.job? jobId = some next ∧ row.Advances next) ∨ t.Gone jobId := by
  induction run with
  | nil => exact .inl ⟨row, found, .refl row⟩
  | snoc run last ih =>
      have middle := consistent_run consistent run
      rcases ih with ⟨version, stored, advanced⟩ | gone
      · rcases last.advances middle stored with ⟨next, kept, later⟩ | gone
        · exact .inl ⟨next, kept, advanced.trans later⟩
        · exact .inr gone
      · exact .inr (last.gone middle gone)

end Db

-----------------------------------------------------------------------------------------
-- Completions and other ends
-----------------------------------------------------------------------------------------

theorem completions_append (events more : List Event) (jobId : String)
    : completions (events ++ more) jobId = completions events jobId ++ completions more jobId := by
  simp [completions, List.flatMap_append]

/-- Only an accepted completion adds to the completions of a job. -/
theorem completions_single (event : Event) (jobId : String)
    : completions [event] jobId = []
      ∨ ∃ token text segments resultPath,
          event.act? jobId = some (.complete token text segments resultPath) := by
  cases accepted : event.act? jobId with
  | none => exact .inl (by simp [completions, Event.fencing, accepted])
  | some act =>
      cases act with
      | complete token text segments resultPath => exact .inr ⟨_, _, _, _, rfl⟩
      | fail token =>
          left
          by_cases anonymous : token = "" <;>
            simp [completions, Event.fencing, accepted, Act.fencing?, anonymous,
              Fencing.Event.finished?]
      | _ =>
          left
          simp [completions, Event.fencing, accepted, Act.fencing?, Fencing.Event.finished?]

namespace Db

/-- An accepted completion finds its job running and leaves it done. -/
theorem Step.completes {s t : Db} {event : Event} {jobId : String} (step : s.Step event t)
    (consistent : s.Consistent) (completes : completions [event] jobId ≠ [])
    : (∃ row, s.job? jobId = some row ∧ row.status = .running)
      ∧ ∃ next, t.job? jobId = some next ∧ next.status = .done := by
  rcases completions_single event jobId with none | ⟨token, text, segments, resultPath, accepted⟩
  · exact absurd none completes
  · have change := (step.outcome consistent.distinct consistent.held).change
    have acts : event.act? jobId ≠ none := by simp [accepted]
    obtain ⟨row, next, found, stored, rowStep⟩ :=
      change.acted consistent (step.consistent consistent) acts
    rw [accepted] at rowStep
    cases rowStep with
    | completed selected =>
        simp only [Sql.complete, Bool.and_eq_true] at selected
        exact ⟨⟨row, found, JobRecord.holdsLease_running selected.2⟩, _, stored, rfl⟩

/-- A completed job is done until it is deleted, by induction on the run. -/
theorem completed_done {clock : Int} {s : Db} {events : List Event} {jobId : String}
    (run : Run Step (Db.empty clock) events s) (completed : completions events jobId ≠ [])
    : (∃ row, s.job? jobId = some row ∧ row.status = .done) ∨ s.Gone jobId := by
  have invariant
      : s.Consistent
        ∧ (completions events jobId ≠ []
          → (∃ row, s.job? jobId = some row ∧ row.status = .done) ∨ s.Gone jobId) := by
    refine run.history
      (I := fun past state =>
        state.Consistent
        ∧ (completions past jobId ≠ []
          → (∃ row, state.job? jobId = some row ∧ row.status = .done) ∨ state.Gone jobId))
      ?_ ⟨.empty clock, by simp [completions]⟩
    intro past state event next kept step
    obtain ⟨consistent, before⟩ := kept
    refine ⟨step.consistent consistent, fun some => ?_⟩
    rw [completions_append] at some
    by_cases earlier : completions past jobId = []
    · have now : completions [event] jobId ≠ [] := by simpa [earlier] using some
      exact .inl (step.completes consistent now).2
    · rcases before earlier with ⟨row, found, done⟩ | gone
      · refine (step.advances consistent found).imp_left ?_
        rintro ⟨version, stored, advances⟩
        refine ⟨version, stored, ?_⟩
        rw [advances.settled (by simp [done, Status.terminal])]
        exact done
      · exact .inr (step.gone consistent gone)
  exact invariant.2 completed

/-- A failed or deleted job is never completed, by induction on the run. -/
theorem uncompleted_run {s t : Db} {events : List Event} {jobId : String}
    (run : Run Step s events t) (consistent : s.Consistent)
    (lost : (∃ row, s.job? jobId = some row ∧ row.status = .failed) ∨ s.Gone jobId)
    : completions events jobId = [] := by
  have invariant
      : t.Consistent
        ∧ ((∃ row, t.job? jobId = some row ∧ row.status = .failed) ∨ t.Gone jobId)
        ∧ completions events jobId = [] := by
    refine run.history
      (I := fun past state =>
        state.Consistent
        ∧ ((∃ row, state.job? jobId = some row ∧ row.status = .failed) ∨ state.Gone jobId)
        ∧ completions past jobId = [])
      ?_ ⟨consistent, lost, rfl⟩
    intro past state event next kept step
    obtain ⟨consistent, lost, none⟩ := kept
    refine ⟨step.consistent consistent, ?_, ?_⟩
    · rcases lost with ⟨row, found, failed⟩ | gone
      · refine (step.advances consistent found).imp_left ?_
        rintro ⟨version, stored, advances⟩
        refine ⟨version, stored, ?_⟩
        rw [advances.settled (by simp [failed, Status.terminal])]
        exact failed
      · exact .inr (step.gone consistent gone)
    · rw [completions_append, none, List.nil_append]
      by_contra completes
      obtain ⟨⟨row, found, running⟩, _⟩ := step.completes consistent completes
      rcases lost with ⟨other, found', failed⟩ | gone
      · cases found.symm.trans found'
        cases running.symm.trans failed
      · cases found.symm.trans gone.1
  exact invariant.2.2

/-- A statement about one job either selects its row and writes it, or counts no row. -/
theorem executed_row {s t : Db} {statement : RowUpdate} {reply : Reply} {jobId : String}
    (done : s.execute statement = some (t, reply)) (distinct : s.DistinctIds)
    (only : ∀ row, statement.selects row → row.jobId = jobId)
    : (∃ row,
        s.job? jobId = some row
        ∧ statement.selects row
        ∧ t.job? jobId = some (statement.assign row)
        ∧ reply ≠ .rows 0)
      ∨ (∀ row, s.job? jobId = some row → statement.selects row = false)
        ∧ t.job? jobId = s.job? jobId
        ∧ reply = .rows 0 := by
  obtain ⟨_, rfl, rfl⟩ := execute_spec done
  by_cases some : ∃ row ∈ s.jobs, statement.selects row
  · obtain ⟨row, member, selected⟩ := some
    obtain rfl := only row selected
    have found := job?_of_mem distinct member
    refine .inl ⟨row, found, selected, ?_, ?_⟩
    · rw [rewrite_job?, found, Option.map_some, RowUpdate.apply_selected selected]
    · have positive := List.countP_pos_iff.mpr ⟨row, member, selected⟩
      simp only [ne_eq, Reply.rows.injEq]
      omega
  · have none : s.jobs.countP statement.selects = 0 := by
      rw [List.countP_eq_zero]
      exact fun row member selected => some ⟨row, member, selected⟩
    refine .inr ⟨?_, ?_, by rw [none]⟩
    · intro row found
      simpa using fun selected => some ⟨row, (job?_mem found).1, selected⟩
    · rw [job?, job?, rewrite_of_unselected none]

/-- No result is ever accepted for a job that is failed at some point of a run. -/
theorem failed_uncompleted {clock : Int} {s t : Db} {past more : List Event} {jobId : String}
    {row : JobRecord} (run : Run Step (Db.empty clock) past s) (later : Run Step s more t)
    (found : s.job? jobId = some row) (failed : row.status = .failed)
    : completions (past ++ more) jobId = [] := by
  have consistent := Db.consistent_run (.empty clock) run
  rw [completions_append, uncompleted_run later consistent (.inl ⟨row, found, failed⟩),
    List.append_nil]
  by_contra completed
  rcases completed_done run completed with ⟨other, stored, done⟩ | gone
  · cases found.symm.trans stored
    cases failed.symm.trans done
  · cases found.symm.trans gone.1

end Db

end Transcriber
