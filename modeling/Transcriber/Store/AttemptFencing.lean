import Transcriber.Library.Fencing
import Transcriber.Store.RowInvariant

/-! Attempt fencing: each job is a fenced resource whose tokens are the lease tokens.
The three starting statements write a token over a fresh UUID into the row, and the guards of
heartbeat, complete and fail compare with it, so late calls of earlier attempts are refused.
-/

namespace Transcriber

open Execution

-----------------------------------------------------------------------------------------
-- Observations
-----------------------------------------------------------------------------------------

/-- The result that a completion stores. -/
abbrev Transcript := String × List Segment

/-- An accepted act as an event of the fenced resource; a failure under the empty token is the
ingress giving up an upload, which no attempt owns.
-/
def Act.fencing? : Act → Option (Fencing.Event String Transcript)
  | .queue => none
  | .start token _ => some (.start token)
  | .renew token _ => some (.use token)
  | .complete token text segments _ => some (.finish token (text, segments))
  | .fail token => if token = "" then none else some (.use token)

/-- What an event does to the fenced resource of a job. -/
def Event.fencing (jobId : String) (event : Event) : List (Fencing.Event String Transcript) :=
  ((event.act? jobId).bind Act.fencing?).toList

/-- The lease tokens issued for a job, newest first. -/
def issuedTokens (events : List Event) (jobId : String) : List String :=
  Fencing.issued (events.flatMap (Event.fencing jobId))

/-- The accepted completions of a job with their tokens, oldest first. -/
def completions (events : List Event) (jobId : String) : List (String × Transcript) :=
  (events.flatMap (Event.fencing jobId)).filterMap Fencing.Event.finished?

/-- The event is a call that the store accepted under a lease token of the job. -/
def Event.accepts (event : Event) (jobId token : String) : Prop :=
  ∃ accepted ∈ event.fencing jobId, accepted.token? = some token

/-- The job and token of a worker's heartbeat, complete_job or fail_job call. -/
def Event.workerCall? (event : Event) : Option (String × String) :=
  match event.op with
  | .heartbeatLegacy jobId token .. | .heartbeat jobId token .. | .completeJob jobId token ..
  | .failJob jobId token .. => if token = "" then none else some (jobId, token)
  | _ => none

/-- Some later call under this token would be accepted. -/
def Db.CanChange (s : Db) (jobId token : String) : Prop :=
  ∃ events t event u, Run Db.Step s events t ∧ t.Step event u ∧ event.accepts jobId token

-----------------------------------------------------------------------------------------
-- The simulation by the fenced resource
-----------------------------------------------------------------------------------------

/-- The row against its fenced resource: a running row carries the newest token, an unfinished
row has no result, and a done row shows the result of the newest token.
-/
structure RowFenced (row : JobRecord) (resource : Fencing.State String Transcript) : Prop where
  holder : row.status = .running → resource.issued.head? = some row.leaseOwner
  unfinished : row.status.terminal = false → resource.result = none
  finished
    : row.status = .done
      → ∃ token,
          resource.result = some (token, row.text, row.segments)
          ∧ resource.issued.head? = some token

/-- A failed row shows nothing of its resource. -/
theorem RowFenced.failed {row : JobRecord} (resource : Fencing.State String Transcript)
    (failed : row.status = .failed)
    : RowFenced row resource := by
  constructor <;> simp [failed, Status.terminal]

/-- A waiting row only says that there is no result yet. -/
theorem RowFenced.waiting {row : JobRecord} {resource : Fencing.State String Transcript}
    (unfinished : resource.result = none) (idle : row.status ≠ .running)
    (open_ : row.status.terminal = false)
    : RowFenced row resource := by
  refine ⟨fun running => absurd running idle, fun _ => unfinished, ?_⟩
  intro done
  simp [done, Status.terminal] at open_

/-- A statement that sets neither status, owner nor result changes nothing here. -/
theorem RowFenced.frame {row next : JobRecord} {resource : Fencing.State String Transcript}
    (fenced : RowFenced row resource) (status : next.status = row.status)
    (owner : next.leaseOwner = row.leaseOwner) (text : next.text = row.text)
    (segments : next.segments = row.segments)
    : RowFenced next resource := by
  constructor
  · rw [status, owner]
    exact fenced.holder
  · rw [status]
    exact fenced.unfinished
  · rw [status, text, segments]
    exact fenced.finished

/-- The resource issued at most the token of the act. -/
def GrowsBy (act : Option Act) (before after : Fencing.State String Transcript) : Prop :=
  ∀ token ∈ after.issued,
    token ∈ before.issued ∨ ∃ deliveryId, act = some (.start token deliveryId)

/-- A started attempt is a start of the resource under its fresh token. -/
theorem RowFenced.started {row next : JobRecord} {resource : Fencing.State String Transcript}
    {token : String} {deliveryId : Option String} (fenced : RowFenced row resource)
    (active : row.status.active) (fresh : token ∉ resource.issued)
    (running : next.status = .running) (owner : next.leaseOwner = token)
    : ∃ after,
        Run Fencing.Step resource [.start token] after
        ∧ RowFenced next after
        ∧ GrowsBy (some (.start token deliveryId)) resource after := by
  have unfinished : resource.result = none := by
    apply fenced.unfinished
    cases status : row.status <;> simp_all [Status.active, Status.terminal]
  refine ⟨_, .single (.start unfinished fresh), ⟨?_, fun _ => unfinished, ?_⟩, ?_⟩
  · simp [owner]
  · simp [running]
  · intro other issued
    rcases List.mem_cons.mp issued with rfl | old
    · exact .inr ⟨deliveryId, rfl⟩
    · exact .inl old

/-- The owner of a running row may use the resource. -/
theorem RowFenced.uses {row : JobRecord} {resource : Fencing.State String Transcript}
    (fenced : RowFenced row resource) (running : row.status = .running)
    : Fencing.Step resource (.use row.leaseOwner) resource :=
  .use (fenced.unfinished (by simp [running, Status.terminal])) (fenced.holder running)

/-- Every row step is matched by the resource, by cases on the statement. -/
theorem RowStep.fenced {act : Option Act} {row next : JobRecord}
    {resource : Fencing.State String Transcript} (step : RowStep act row next)
    (valid : row.Valid) (fenced : RowFenced row resource)
    (fresh : ∀ token deliveryId, act = some (.start token deliveryId) → token ∉ resource.issued)
    : ∃ after,
        Run Fencing.Step resource (act.bind Act.fencing?).toList after
        ∧ RowFenced next after
        ∧ GrowsBy act resource after := by
  have same : GrowsBy act resource resource := fun _ issued => .inl issued
  have stays : Run Fencing.Step resource [] resource := .nil resource
  cases step with
  | keep => exact ⟨resource, stays, fenced, same⟩
  | interrupted | acknowledged | redispatched =>
      exact ⟨resource, stays, fenced.frame rfl rfl rfl rfl, same⟩
  | downloading selected =>
      simp only [Sql.updateStatus, Bool.and_eq_true] at selected
      have unfinished := fenced.unfinished (valid.uploading selected.2).2.2.2.2.2
      exact ⟨resource, stays, .waiting unfinished (by simp [Sql.updateStatus]) rfl, same⟩
  | queued selected =>
      simp only [Sql.markQueued, Bool.and_eq_true] at selected
      have unfinished := fenced.unfinished (valid.uploading selected.2).2.2.2.2.2
      exact ⟨resource, stays, .waiting unfinished (by simp [Sql.markQueued]) rfl, same⟩
  | cancelled | exhausted => exact ⟨resource, stays, .failed resource rfl, same⟩
  | claimed startable named =>
      simp only [JobRecord.startable, Bool.and_eq_true] at startable
      exact fenced.started startable.1.1 (fresh _ _ rfl) rfl rfl
  | delivered active attemptsLeft idle named =>
      exact fenced.started active (fresh _ _ rfl) rfl rfl
  | renewed selected =>
      simp only [Sql.heartbeat, Bool.and_eq_true, decide_eq_true_eq] at selected
      obtain ⟨⟨_, rfl⟩, holds⟩ := selected
      exact ⟨resource, .single (fenced.uses (JobRecord.holdsLease_running holds)),
        fenced.frame rfl rfl rfl rfl, same⟩
  | @completed row jobId token text segments resultPath now selected =>
      simp only [Sql.complete, Bool.and_eq_true, decide_eq_true_eq] at selected
      obtain ⟨⟨_, rfl⟩, holds⟩ := selected
      have running := JobRecord.holdsLease_running holds
      have newest := fenced.holder running
      have unfinished := fenced.unfinished (by simp [running, Status.terminal])
      refine ⟨_, .single (.finish unfinished newest), ⟨?_, ?_, ?_⟩, same⟩
      · simp [Sql.complete]
      · simp [Sql.complete, Status.terminal]
      · exact fun _ => ⟨row.leaseOwner, rfl, newest⟩
  | @failed row jobId token error retryable now dispatchId selected caller =>
      simp only [Sql.fail, Bool.and_eq_true, Bool.or_eq_true, decide_eq_true_eq] at selected
      obtain ⟨⟨_, rfl⟩, held⟩ := selected
      by_cases anonymous : row.leaseOwner = ""
      · refine ⟨resource, ?_, .failed resource ?_, same⟩
        · simpa [Act.fencing?, anonymous] using stays
        · simp [Sql.fail, Sql.retries, caller anonymous]
      · have running : row.status = .running := valid.owned.mp anonymous
        refine ⟨resource, ?_, ?_, same⟩
        · simpa [Act.fencing?, anonymous] using Run.single (fenced.uses running)
        · have unfinished := fenced.unfinished (by simp [running, Status.terminal])
          cases retry : Sql.retries retryable row with
          | true =>
              exact .waiting unfinished (by simp [Sql.fail, retry])
                (by simp [Sql.fail, retry, Status.terminal])
          | false => exact .failed resource (by simp [Sql.fail, retry])

/-- The store against the fenced resource of one job. -/
structure FencedAs (jobId : String) (s : Db) (resource : Fencing.State String Transcript)
    : Prop where
  consistent : s.Consistent
  valid : ∀ row ∈ s.jobs, row.Valid
  drawn
    : ∀ token ∈ resource.issued, ∃ workerId, ∃ uuid ∈ s.drawn, token = leaseToken workerId uuid
  unborn : (∀ uuid ∈ s.drawn, uuid.text ≠ jobId) → resource = .initial
  row : ∀ row, s.job? jobId = some row → RowFenced row resource

/-- Every step of the store is matched by the fenced resource of every job. -/
theorem FencedAs.step {jobId : String} {s t : Db} {event : Event}
    {resource : Fencing.State String Transcript} (related : FencedAs jobId s resource)
    (step : s.Step event t)
    : ∃ after,
        Run Fencing.Step resource (event.fencing jobId) after ∧ FencedAs jobId t after := by
  have consistent := step.consistent related.consistent
  obtain ⟨change, _, drawn⟩ :=
    step.outcome related.consistent.distinct related.consistent.held
  have valid := change.rows related.valid JobRecord.created_valid (fun _ _ _ step => step.valid)
  have older : ∀ token ∈ resource.issued,
      ∃ workerId, ∃ uuid ∈ t.drawn, token = leaseToken workerId uuid := by
    intro token issued
    obtain ⟨workerId, uuid, old, named⟩ := related.drawn token issued
    exact ⟨workerId, uuid, drawn uuid old, named⟩
  have unborn : (∀ uuid ∈ t.drawn, uuid.text ≠ jobId) → resource = .initial :=
    fun other => related.unborn (fun uuid old => other uuid (drawn uuid old))
  cases accepted : event.act? jobId with
  | none =>
      refine ⟨resource, ?_, consistent, valid, older, unborn, ?_⟩
      · simpa [Event.fencing, accepted] using Run.nil resource
      · intro next stored
        rcases change.origin related.consistent stored
          with ⟨row, found, step⟩ | ⟨_, unused, options, newId, now, _, _, rfl⟩
        · rw [accepted] at step
          obtain ⟨member, _⟩ := Db.job?_mem found
          obtain ⟨after, matched, fenced, _⟩ :=
            step.fenced (related.valid row member) (related.row row found) (by simp)
          cases matched.of_nil rfl
          exact fenced
        · rw [related.unborn unused]
          exact .waiting rfl (by simp [JobRecord.created]) rfl
  | some act =>
      have acts : event.act? jobId ≠ none := by simp [accepted]
      obtain ⟨row, next, found, foundNext, step⟩ :=
        change.acted related.consistent consistent acts
      obtain ⟨member, rfl⟩ := Db.job?_mem found
      obtain ⟨after, matched, fenced, grows⟩ := step.fenced (related.valid row member)
        (related.row row found) (by
          intro token deliveryId started issued
          obtain ⟨workerId, uuid, named, fresh⟩ := change.token started
          obtain ⟨workerId', uuid', old, named'⟩ := related.drawn token issued
          obtain rfl := leaseToken_uuid (named.symm.trans named')
          exact fresh.1 old)
      refine ⟨after, matched, consistent, valid, ?_, ?_, ?_⟩
      · intro token issued
        rcases grows token issued with old | ⟨deliveryId, started⟩
        · exact older token old
        · obtain ⟨workerId, uuid, named, fresh⟩ := change.token started
          exact ⟨workerId, uuid, fresh.2, named⟩
      · intro other
        obtain ⟨uuid, old, named⟩ := related.consistent.known row member
        exact absurd named.symm (other uuid (drawn uuid old))
      · intro other stored
        obtain rfl := Option.some.inj (foundNext.symm.trans stored)
        exact fenced

/-- Every run of the store is matched from the empty table on. -/
theorem FencedAs.run {clock : Int} {s : Db} {events : List Event} (jobId : String)
    (run : Run Db.Step (Db.empty clock) events s)
    : ∃ resource,
        Run Fencing.Step .initial (events.flatMap (Event.fencing jobId)) resource
        ∧ FencedAs jobId s resource := by
  refine run.simulate (fun _ _ _ _ related step => related.step step) ?_
  exact ⟨.empty clock, by simp [Db.empty], by simp [Fencing.State.initial], fun _ => rfl,
    by simp [Db.empty, Db.job?, Table.lookup]⟩

-----------------------------------------------------------------------------------------
-- Worker calls
-----------------------------------------------------------------------------------------

/-- A statement that selects no row writes nothing. -/
theorem Db.rewrite_of_unselected {s : Db} {statement : RowUpdate}
    (none : s.jobs.countP statement.selects = 0)
    : (s.rewrite statement).jobs = s.jobs := by
  have kept : s.jobs.map statement.apply = s.jobs.map id := by
    apply List.map_congr_left
    intro row member
    have unselected := List.countP_eq_zero.mp none row member
    exact RowUpdate.apply_unselected (by simpa using unselected)
  exact kept.trans (List.map_id s.jobs)

/-- A statement that a worker call makes selects running rows under its token only. -/
theorem Db.count_spec {s : Db} {statement : RowUpdate} {jobId token : String}
    (guards
      : ∀ row,
          statement.selects row
          → row.jobId = jobId ∧ row.leaseOwner = token ∧ row.status = .running)
    : s.jobs.countP statement.selects = 0
      ∨ ∃ row ∈ s.jobs, row.jobId = jobId ∧ row.leaseOwner = token ∧ row.status = .running := by
  rcases Nat.eq_zero_or_pos (s.jobs.countP statement.selects) with none | some
  · exact .inl none
  · obtain ⟨row, member, selected⟩ := List.countP_pos_iff.mp some
    exact .inr ⟨row, member, guards row selected⟩

/-- A worker call is refused without a trace, or its token owns the running job. -/
theorem Db.Step.workerCall {s t : Db} {event : Event} {jobId token : String}
    (step : s.Step event t) (call : event.workerCall? = some (jobId, token))
    : event.reply = .rows 0 ∧ t.jobs = s.jobs
      ∨ ∃ row ∈ s.jobs, row.jobId = jobId ∧ row.leaseOwner = token ∧ row.status = .running := by
  obtain ⟨config, op, reply⟩ := event
  have aimed {target name : String}
      (named : (if name = "" then none else some (target, name)) = some (jobId, token))
      : name ≠ "" ∧ target = jobId ∧ name = token := by
    split at named
    · cases named
    · rename_i other
      cases named
      exact ⟨other, rfl, rfl⟩
  cases op with
  | heartbeatLegacy target name progress now clock =>
      obtain ⟨_, rfl, rfl⟩ := aimed call
      simp only [Db.Step, exec, heartbeatLegacy] at step
      split at step
      · cases step
      obtain ⟨_, rfl, rfl⟩ := execute_spec step
      refine (count_spec ?_).imp_left (fun none => ⟨by rw [none], rewrite_of_unselected none⟩)
      intro row selected
      simp only [Sql.heartbeat, Bool.and_eq_true, decide_eq_true_eq] at selected
      exact ⟨selected.1.1, selected.1.2, JobRecord.holdsLease_running selected.2⟩
  | heartbeat target name progress clock =>
      obtain ⟨_, rfl, rfl⟩ := aimed call
      obtain ⟨transaction, _, done⟩ := Option.map_eq_some_iff.mp step
      cases done
      refine (count_spec ?_).imp_left (fun none => ⟨by rw [none], rewrite_of_unselected none⟩)
      intro row selected
      simp only [Sql.heartbeat, Bool.and_eq_true, decide_eq_true_eq] at selected
      exact ⟨selected.1.1, selected.1.2, JobRecord.holdsLease_running selected.2⟩
  | completeJob target name text segments resultPath now =>
      obtain ⟨_, rfl, rfl⟩ := aimed call
      obtain ⟨_, rfl, rfl⟩ := execute_spec step
      refine (count_spec ?_).imp_left (fun none => ⟨by rw [none], rewrite_of_unselected none⟩)
      intro row selected
      simp only [Sql.complete, Bool.and_eq_true, decide_eq_true_eq] at selected
      exact ⟨selected.1.1, selected.1.2, JobRecord.holdsLease_running selected.2⟩
  | failJob target name error retryable messageId now clock =>
      obtain ⟨named, rfl, rfl⟩ := aimed call
      simp only [Db.Step, exec, failJob] at step
      split at step
      · cases step
      split at step
      · cases step
        exact .inl ⟨rfl, rfl⟩
      · rename_i row found
        obtain ⟨member, selected⟩ := find_spec found
        simp only [Sql.fail, Bool.and_eq_true, Bool.or_eq_true, decide_eq_true_eq] at selected
        obtain ⟨⟨same, owner⟩, holds | ⟨anonymous, _⟩⟩ := selected
        · exact .inr ⟨row, member, same, owner, JobRecord.holdsLease_running holds⟩
        · exact absurd anonymous named
  | _ => simp [Event.workerCall?] at call

-----------------------------------------------------------------------------------------
-- Fencing of a job
-----------------------------------------------------------------------------------------

/-- What fencing means for one job after a history. -/
structure AttemptsFenced (events : List Event) (s : Db) (jobId : String) : Prop where
  one_token
    : ∀ token ∈ issuedTokens events jobId,
        ∀ token' ∈ issuedTokens events jobId,
          s.CanChange jobId token → s.CanChange jobId token' → token = token'
  stale_rejected
    : ∀ event t token,
        s.Step event t
        → event.workerCall? = some (jobId, token)
        → (issuedTokens events jobId).head? ≠ some token
        → event.reply = .rows 0 ∧ t.job? jobId = s.job? jobId
  completed_once : (completions events jobId).length ≤ 1
  result
    : ∀ row,
        s.job? jobId = some row
        → row.status = .done
        → ∃ token,
            (issuedTokens events jobId).head? = some token
            ∧ completions events jobId = [(token, row.text, row.segments)]

/-- A token that may still change the job is the newest one. -/
theorem FencedAs.can_change {jobId token : String} {s : Db}
    {resource : Fencing.State String Transcript} (related : FencedAs jobId s resource)
    (issued : token ∈ resource.issued) (can : s.CanChange jobId token)
    : resource.issued.head? = some token := by
  obtain ⟨events, t, event, u, run, step, accepted, member, carries⟩ := can
  obtain ⟨middle, matched, relatedMiddle⟩ :=
    run.simulate (fun _ _ _ _ related step => related.step step) related
  obtain ⟨after, last, _⟩ := relatedMiddle.step step
  have only : event.fencing jobId = [accepted] := by
    simp only [Event.fencing, Option.mem_toList] at member
    rw [Event.fencing, Option.mem_def.mp member]
    rfl
  exact Fencing.continues_newest issued matched (last.of_single only) carries

/-- Attempt fencing: in every state that any interleaving of operations reaches, under any
clock readings, the attempts of every job are fenced.
-/
theorem Db.attempts_fenced {clock : Int} {s : Db} {events : List Event}
    (run : Run Db.Step (Db.empty clock) events s) (jobId : String)
    : AttemptsFenced events s jobId := by
  obtain ⟨resource, matched, related⟩ := FencedAs.run jobId run
  have tokens : resource.issued = issuedTokens events jobId := Fencing.issued_history matched
  have results : completions events jobId = resource.result.toList :=
    Fencing.result_history matched
  constructor
  · intro token issued token' issued' can can'
    rw [← tokens] at issued issued'
    have first := related.can_change issued can
    have second := related.can_change issued' can'
    exact Option.some.inj (first.symm.trans second)
  · intro event t token step call stale
    rcases step.workerCall call with ⟨refused, same⟩ | ⟨row, member, rfl, rfl, running⟩
    · refine ⟨refused, ?_⟩
      rw [job?, job?, same]
    · have found := job?_of_mem related.consistent.distinct member
      rw [← tokens] at stale
      exact absurd ((related.row row found).holder running) stale
  · rw [results]
    cases resource.result <;> simp
  · intro row found done
    obtain ⟨token, result, newest⟩ := (related.row row found).finished done
    refine ⟨token, tokens ▸ newest, ?_⟩
    rw [results, result]
    rfl

/-- A completed job is fenced, with one token and one completion. -/
theorem Db.attempts_fenced_completed
    : let played := (Db.empty 0).play completeOnce
      let jobId := (Uuid.nth 0).text
      issuedTokens played.1 jobId = [leaseToken "gpu" (.nth 2)]
        ∧ completions played.1 jobId = [(leaseToken "gpu" (.nth 2), "text", [])]
        ∧ AttemptsFenced played.1 played.2 jobId :=
  ⟨by decide +kernel, by decide +kernel,
    attempts_fenced (play_run (Db.empty 0) completeOnce) (Uuid.nth 0).text⟩

end Transcriber
