import Transcriber.Store.Outcomes

/-! What holds in every reachable state of the store.
Keys and request ids stay distinct, and every id in a table was drawn. Per-row facts follow
from one rule: the created row has them and every row step keeps them.
-/

namespace Transcriber

open Execution

namespace Db

/-- The keys of the tables and the meaning of the row lock. -/
structure Consistent (s : Db) : Prop where
  distinct : s.DistinctIds
  held : s.LockHeld
  known : ∀ row ∈ s.jobs, ∃ uuid ∈ s.drawn, row.jobId = uuid.text
  requests
    : ∀ row ∈ s.jobs,
        ∀ other ∈ s.jobs, row.requestId = other.requestId → row.requestId ≠ "" → row = other

theorem Consistent.empty (clock : Int) : (Db.empty clock).Consistent where
  distinct := List.nodup_nil
  held := .of_none rfl
  known := by simp [Db.empty]
  requests := by simp [Db.empty]

/-- A rewriting by row steps keeps the ids in place. -/
theorem keys_of_rows {s t : Db} {act : JobRecord → Option Act} {f : JobRecord → JobRecord}
    (jobs : t.jobs = s.jobs.map f) (rows : ∀ row ∈ s.jobs, RowStep (act row) row (f row))
    : t.jobs.map JobRecord.jobId = s.jobs.map JobRecord.jobId := by
  rw [jobs, List.map_map]
  exact List.map_congr_left (fun row member => (rows row member).jobId)

/-- A new job's id is carried by no stored row: it was not drawn before. -/
theorem Consistent.new_id {s t : Db} (kept : s.Consistent) {jobId : Uuid}
    (fresh : s.Fresh t jobId)
    : s.job? jobId.text = none := by
  cases found : s.job? jobId.text with
  | none => rfl
  | some row =>
      obtain ⟨member, same⟩ := job?_mem found
      obtain ⟨uuid, old, named⟩ := kept.known row member
      obtain rfl := Uuid.text_injective (same.symm.trans named)
      exact absurd old fresh.1

/-- Every step keeps the tables consistent, by cases on the change. -/
theorem Step.consistent {s t : Db} {event : Event} (kept : s.Consistent)
    (step : s.Step event t)
    : t.Consistent := by
  obtain ⟨change, held, drawn⟩ := step.outcome kept.distinct kept.held
  cases change with
  | rewrite f entries jobs outbox rows dispatched announced separate tokens present =>
      refine ⟨?_, held, ?_, ?_⟩
      · rw [DistinctIds, keys_of_rows jobs rows]
        exact kept.distinct
      · rw [jobs, List.forall_mem_map]
        intro row member
        obtain ⟨uuid, old, named⟩ := kept.known row member
        exact ⟨uuid, drawn uuid old, (rows row member).jobId.trans named⟩
      · rw [jobs, List.forall_mem_map]
        intro row member
        rw [List.forall_mem_map]
        intro other member' same named
        have first := congrArg SubmitOptions.requestId (rows row member).fixed.2.1
        have second := congrArg SubmitOptions.requestId (rows other member').fixed.2.1
        simp only [JobRecord.identity] at first second
        rw [first] at same named
        rw [second] at same
        rw [kept.requests row member other member' same named]
  | insert options jobId now called jobs outbox fresh unused quiet =>
      have new := kept.new_id fresh
      refine ⟨?_, held, ?_, ?_⟩
      · rw [DistinctIds, jobs]
        exact Table.nodup_append_singleton kept.distinct new
      · simp only [jobs, List.forall_mem_append, List.forall_mem_singleton]
        refine ⟨?_, jobId, fresh.2, rfl⟩
        intro row member
        obtain ⟨uuid, old, named⟩ := kept.known row member
        exact ⟨uuid, drawn uuid old, named⟩
      · simp only [jobs, List.forall_mem_append, List.forall_mem_singleton]
        refine ⟨?_, ?_, fun _ _ => trivial⟩
        · intro row member
          refine ⟨kept.requests row member, ?_⟩
          intro same named
          rcases unused with anonymous | other
          · exact absurd (same.trans anonymous) named
          · exact absurd same (other row member)
        · intro other member same named
          rcases unused with anonymous | different
          · exact absurd anonymous named
          · exact absurd same.symm (different other member)
  | remove jobId ttlSeconds now called jobs outbox quiet =>
      have stored : ∀ row ∈ t.jobs, row ∈ s.jobs := by
        rw [jobs]
        exact fun row member => (List.mem_filter.mp member).1
      refine ⟨?_, held, ?_, ?_⟩
      · rw [DistinctIds, jobs]
        exact Table.nodup_delete kept.distinct _
      · intro row member
        obtain ⟨uuid, old, named⟩ := kept.known row (stored row member)
        exact ⟨uuid, drawn uuid old, named⟩
      · intro row member other member'
        exact kept.requests row (stored row member) other (stored other member')
  | publish messageId now called jobs outbox quiet =>
      refine ⟨?_, held, ?_, ?_⟩
      · rw [DistinctIds, jobs]
        exact kept.distinct
      · rw [jobs]
        intro row member
        obtain ⟨uuid, old, named⟩ := kept.known row member
        exact ⟨uuid, drawn uuid old, named⟩
      · rw [jobs]
        exact kept.requests

theorem consistent_run {s t : Db} {events : List Event} (kept : s.Consistent)
    (run : Run Step s events t)
    : t.Consistent :=
  run.invariant (fun _ _ _ kept step => step.consistent kept) kept

/-- Where a row comes from: a row step of the stored one, or a creation under an unused id. -/
theorem Change.origin {s t : Db} {event : Event} {jobId : String} {next : JobRecord}
    (change : s.Change event t) (kept : s.Consistent) (found : t.job? jobId = some next)
    : (∃ row, s.job? jobId = some row ∧ RowStep (event.act? jobId) row next)
      ∨ (event.act? jobId = none
        ∧ (∀ uuid ∈ s.drawn, uuid.text ≠ jobId)
        ∧ ∃ options newId now,
            event.op = .createJob options newId now
            ∧ s.Fresh t newId
            ∧ next = JobRecord.created event.config options newId now) := by
  cases change with
  | rewrite f entries jobs outbox rows =>
      obtain ⟨member, rfl⟩ := job?_mem found
      rw [jobs] at member
      obtain ⟨row, stored, rfl⟩ := List.mem_map.mp member
      have step := rows row stored
      refine .inl ⟨row, ?_, ?_⟩
      · rw [step.jobId]
        exact job?_of_mem kept.distinct stored
      · rw [step.jobId]
        exact step
  | insert options newId now called jobs outbox fresh unused quiet =>
      rw [job?, jobs, Table.lookup_append_singleton] at found
      rcases Option.or_eq_some_iff.mp found with old | ⟨_, new⟩
      · refine .inl ⟨next, old, ?_⟩
        rw [quiet]
        exact .keep
      · split at new
        · rename_i same
          refine .inr ⟨quiet jobId, ?_, options, newId, now, called, fresh,
            (Option.some.inj new).symm⟩
          intro uuid old named
          obtain rfl := Uuid.text_injective (named.trans same.symm)
          exact fresh.1 old
        · cases new
  | remove target ttlSeconds now called jobs outbox quiet =>
      rw [job?, jobs, Table.lookup_delete kept.distinct] at found
      refine .inl ⟨next, (Option.filter_eq_some_iff.mp found).1, ?_⟩
      rw [quiet]
      exact .keep
  | publish messageId now called jobs outbox quiet =>
      rw [job?, jobs] at found
      refine .inl ⟨next, found, ?_⟩
      rw [quiet]
      exact .keep

/-- The row of an id drawn before the step comes from a stored one. -/
theorem Change.known_origin {s t : Db} {event : Event} {uuid : Uuid} {next : JobRecord}
    (change : s.Change event t) (kept : s.Consistent) (keptNext : t.Consistent)
    (known : uuid ∈ s.drawn) (member : next ∈ t.jobs) (named : next.jobId = uuid.text)
    : ∃ row ∈ s.jobs, RowStep (event.act? row.jobId) row next := by
  rcases change.origin kept (job?_of_mem keptNext.distinct member) with old | ⟨_, unused, _⟩
  · obtain ⟨row, found, step⟩ := old
    exact ⟨row, (job?_mem found).1, step.jobId ▸ step⟩
  · exact absurd named.symm (unused uuid known)

/-- An accepted act on a job finds its row and leaves it there. -/
theorem Change.acted {s t : Db} {event : Event} {jobId : String} (change : s.Change event t)
    (kept : s.Consistent) (keptNext : t.Consistent) (accepted : event.act? jobId ≠ none)
    : ∃ row next,
        s.job? jobId = some row
        ∧ t.job? jobId = some next
        ∧ RowStep (event.act? jobId) row next := by
  cases change with
  | rewrite f entries jobs outbox rows dispatched announced separate tokens present =>
      obtain ⟨row, member, rfl⟩ := present jobId accepted
      have step := rows row member
      have memberNext : f row ∈ t.jobs := by
        rw [jobs]
        exact List.mem_map_of_mem member
      refine ⟨row, f row, job?_of_mem kept.distinct member, ?_, step⟩
      rw [← step.jobId]
      exact job?_of_mem keptNext.distinct memberNext
  | insert _ _ _ _ _ _ _ _ quiet | remove _ _ _ _ _ _ quiet | publish _ _ _ _ _ quiet =>
      exact absurd (quiet jobId) accepted

/-- A started attempt has a token over a freshly drawn UUID. -/
theorem Change.token {s t : Db} {event : Event} {jobId token : String}
    {deliveryId : Option String} (change : s.Change event t)
    (started : event.act? jobId = some (.start token deliveryId))
    : ∃ workerId uuid, token = leaseToken workerId uuid ∧ s.Fresh t uuid := by
  cases change with
  | rewrite f entries jobs outbox rows dispatched announced separate tokens present =>
      exact tokens jobId token deliveryId started
  | insert _ _ _ _ _ _ _ _ quiet | remove _ _ _ _ _ _ quiet | publish _ _ _ _ _ quiet =>
      simp [quiet] at started

/-- A fact about single rows: new rows have it and every row step keeps it. -/
theorem Change.rows {P : JobRecord → Prop} {s t : Db} {event : Event}
    (change : s.Change event t) (kept : ∀ row ∈ s.jobs, P row)
    (created : ∀ config options jobId now, P (JobRecord.created config options jobId now))
    (keeps : ∀ act row next, RowStep act row next → P row → P next)
    : ∀ row ∈ t.jobs, P row := by
  cases change with
  | rewrite f entries jobs outbox rows =>
      rw [jobs, List.forall_mem_map]
      exact fun row member => keeps _ _ _ (rows row member) (kept row member)
  | insert options jobId now called jobs =>
      simp only [jobs, List.forall_mem_append, List.forall_mem_singleton]
      exact ⟨kept, created event.config options jobId now⟩
  | remove jobId ttlSeconds now called jobs =>
      rw [jobs]
      exact fun row member => kept row (List.mem_filter.mp member).1
  | publish messageId now called jobs =>
      rw [jobs]
      exact kept

/-- Such a fact holds of every row in every reachable state. -/
theorem rows_run {P : JobRecord → Prop} {s t : Db} {events : List Event}
    (run : Run Step s events t) (consistent : s.Consistent) (kept : ∀ row ∈ s.jobs, P row)
    (created : ∀ config options jobId now, P (JobRecord.created config options jobId now))
    (keeps : ∀ act row next, RowStep act row next → P row → P next)
    : ∀ row ∈ t.jobs, P row := by
  refine (run.invariant (I := fun state => state.Consistent ∧ ∀ row ∈ state.jobs, P row) ?_
    ⟨consistent, kept⟩).2
  intro state event next ⟨consistent, kept⟩ step
  exact ⟨step.consistent consistent,
    (step.outcome consistent.distinct consistent.held).change.rows kept created keeps⟩

theorem perform_step (s : Db) (call : Config × Op) (event : Event) (t : Db)
    (done : s.perform call = some (event, t))
    : s.Step event t := by
  obtain ⟨⟨next, reply⟩, executed, same⟩ := Option.map_eq_some_iff.mp done
  cases same
  exact executed

/-- Played operations are a run. -/
theorem play_run (s : Db) (calls : List (Config × Op))
    : Run Step s (s.play calls).1 (s.play calls).2 :=
  (Execution.play_run perform_step (.nil s) calls).run (fun _ _ _ _ _ step => step)

end Db

end Transcriber
