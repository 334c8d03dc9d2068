import Mathlib.Tactic.NormNum
import Transcriber.Store.DeliveryCharge
import Transcriber.Store.Entries

/-! The progress column against the attempts that reported it.
Of the statements that start an attempt only `broker_start.sql` resets the column, and of those
that fail a job `reap.sql` and `broker_exhausted.sql` do not: the condition under which the
column is right in every state is that these find it at zero.
-/

namespace Transcriber

open Execution

-----------------------------------------------------------------------------------------
-- Reports
-----------------------------------------------------------------------------------------

/-- The progress that an accepted heartbeat under the token reported. -/
def Act.report? (token : String) : Act → Option Rat
  | .renew owner progress => if owner = token then some progress else none
  | .queue | .start _ _ | .complete _ _ _ _ | .fail _ => none

/-- The reports accepted under a token of a job, oldest first. -/
def reports (events : List Event) (jobId token : String) : List Rat :=
  events.filterMap (fun event => (event.act? jobId).bind (Act.report? token))

/-- A heartbeat reports a progress that the worker API lets through. -/
def Event.inRange (event : Event) : Bool :=
  match event.op with
  | .heartbeat _ _ progress _ | .heartbeatLegacy _ _ progress _ _ =>
      0 ≤ progress && progress ≤ 99
  | _ => true

/-- The progress of a row is the current attempt's. -/
structure JobRecord.ProgressCurrent (row : JobRecord) (past : List Event) : Prop where
  running
    : row.status = .running
      → row.progressPercent = (reports past row.jobId row.leaseOwner).getLastD 0
  done : row.progressPercent = 100 ↔ row.status = .done
  idle : row.status ≠ .running → row.status ≠ .done → row.progressPercent = 0

/-- The statements that leave the column alone find it at zero: the row that a claim takes
over, and the row that is failed because its attempts are used up.
-/
def Event.clears (s : Db) (event : Event) : Prop :=
  match event.op with
  | .claimLegacy workerId instanceId fallback _ locked now =>
      s.legacyAllows event.config workerId instanceId fallback now
      → ∀ row, candidate now locked s.jobs = some row → row.progressPercent = 0
  | .claimSlot _ _ _ locked clock =>
      ∀ row, candidate clock locked s.jobs = some row → row.progressPercent = 0
  | .reap jobId now =>
      ∀ row ∈ s.jobs, ((Sql.reap now).only jobId).selects row → row.progressPercent = 0
  | .brokerJob request clock =>
      ∀ row,
        s.job? request.jobId = some row
        → Db.verdict row request clock = .exhausted
        → row.progressPercent = 0
  | _ => True

/-- A step of the store under the range check of the worker API. -/
def Db.ReportStep (s : Db) (event : Event) (t : Db) : Prop := s.Step event t ∧ event.inRange

theorem reports_snoc (past : List Event) (event : Event) (jobId token : String)
    : reports (past ++ [event]) jobId token
      = reports past jobId token ++ ((event.act? jobId).bind (Act.report? token)).toList := by
  cases reported : (event.act? jobId).bind (Act.report? token) <;> simp [reports, reported]

/-- An event that reports nothing under the token leaves its reports. -/
theorem reports_silent {past : List Event} {event : Event} {jobId token : String}
    (silent : (event.act? jobId).bind (Act.report? token) = none)
    : reports (past ++ [event]) jobId token = reports past jobId token := by
  simp [reports_snoc, silent]

/-- A report is an accepted heartbeat under the token. -/
theorem Act.report?_some {act : Option Act} {token : String} {progress : Rat}
    (reported : act.bind (Act.report? token) = some progress)
    : act = some (.renew token progress) := by
  obtain ⟨renewal, rfl, reported⟩ := Option.bind_eq_some_iff.mp reported
  cases renewal with
  | renew owner value =>
      change (if owner = token then some value else none) = some progress at reported
      split at reported
      · rename_i same
        cases reported
        rw [same]
      · cases reported
  | queue | start | complete | fail => cases reported

/-- A renewal is an accepted heartbeat, whose progress is in range. -/
theorem Event.renew_range {event : Event} {jobId token : String} {progress : Rat}
    (inRange : event.inRange) (renewed : event.act? jobId = some (.renew token progress))
    : progress ≤ 99 := by
  obtain ⟨config, op, reply⟩ := event
  simp only [Event.act?] at renewed
  split at renewed
  case h_5 | h_6 =>
    split at renewed
    · cases renewed
      simp only [Event.inRange, Bool.and_eq_true, decide_eq_true_eq] at inRange
      exact inRange.2
    · cases renewed
  all_goals
    first
    | cases renewed
    | split at renewed <;> cases renewed

-----------------------------------------------------------------------------------------
-- Tokens of reports
-----------------------------------------------------------------------------------------

/-- The token is over a UUID that was drawn. -/
def Db.Drew (s : Db) (token : String) : Prop :=
  ∃ workerId uuid, token = leaseToken workerId uuid ∧ uuid ∈ s.drawn

/-- Running rows carry drawn tokens, and only drawn tokens have reported. -/
structure Reporting (past : List Event) (s : Db) : Prop where
  consistent : s.Consistent
  owners : ∀ row ∈ s.jobs, row.status = .running → s.Drew row.leaseOwner
  reporters : ∀ jobId token, reports past jobId token ≠ [] → s.Drew token

theorem Db.Drew.mono {s t : Db} {token : String} (drew : s.Drew token)
    (drawn : ∀ uuid ∈ s.drawn, uuid ∈ t.drawn)
    : t.Drew token := by
  obtain ⟨workerId, uuid, same, old⟩ := drew
  exact ⟨workerId, uuid, same, drawn uuid old⟩

/-- A running row carries its token from before, or was started under it. -/
theorem RowStep.running {act : Option Act} {row next : JobRecord} (step : RowStep act row next)
    (running : next.status = .running)
    : (row.status = .running ∧ next.leaseOwner = row.leaseOwner)
      ∨ ∃ deliveryId, act = some (.start next.leaseOwner deliveryId) := by
  cases step with
  | keep | interrupted | acknowledged | renewed | redispatched => exact .inl ⟨running, rfl⟩
  | claimed => exact .inr ⟨none, rfl⟩
  | delivered => exact .inr ⟨_, rfl⟩
  | downloading | queued | cancelled | completed | exhausted => cases running
  | @failed row jobId token error retryable now dispatchId =>
      simp only [Sql.fail] at running
      split at running <;> cases running

/-- A renewed row was running under the token of the renewal. -/
theorem RowStep.renewer {row next : JobRecord} {token : String} {progress : Rat}
    (step : RowStep (some (.renew token progress)) row next)
    : row.status = .running
      ∧ row.leaseOwner = token
      ∧ next.status = .running
      ∧ next.leaseOwner = token
      ∧ next.progressPercent = progress := by
  cases step with
  | renewed selected =>
      simp only [Sql.heartbeat, Bool.and_eq_true, decide_eq_true_eq] at selected
      have running := JobRecord.holdsLease_running selected.2
      exact ⟨running, selected.1.2, running, selected.1.2, rfl⟩

/-- Every step keeps the tokens of the reports drawn. -/
theorem Reporting.step {past : List Event} {s t : Db} {event : Event}
    (kept : Reporting past s) (step : s.Step event t)
    : Reporting (past ++ [event]) t := by
  have consistent := kept.consistent
  have next := step.consistent consistent
  obtain ⟨change, _, drawn⟩ := step.outcome consistent.distinct consistent.held
  refine ⟨next, ?_, ?_⟩
  · intro row member running
    rcases change.origin consistent (Db.job?_of_mem next.distinct member)
      with ⟨old, found, rowStep⟩ | ⟨_, _, _, _, _, _, _, rfl⟩
    · rcases rowStep.running running with ⟨was, same⟩ | ⟨deliveryId, started⟩
      · rw [same]
        exact (kept.owners old (Db.job?_mem found).1 was).mono drawn
      · obtain ⟨workerId, uuid, same, fresh⟩ := change.token started
        exact ⟨workerId, uuid, same, fresh.2⟩
    · cases running
  · intro jobId token reported
    cases report : (event.act? jobId).bind (Act.report? token) with
    | none =>
        rw [reports_silent report] at reported
        exact (kept.reporters jobId token reported).mono drawn
    | some progress =>
        have renewed := Act.report?_some report
        have accepted : event.act? jobId ≠ none := by simp [renewed]
        obtain ⟨row, after, found, _, rowStep⟩ := change.acted consistent next accepted
        rw [renewed] at rowStep
        obtain ⟨was, owner, _⟩ := rowStep.renewer
        exact owner ▸ (kept.owners row (Db.job?_mem found).1 was).mono drawn

theorem Reporting.run {clock : Int} {past : List Event} {s : Db}
    (run : Run Db.ReportStep (Db.empty clock) past s)
    : Reporting past s := by
  refine run.history (fun _ _ _ _ kept step => kept.step step.1) ⟨.empty clock, ?_, ?_⟩
  · simp [Db.empty]
  · simp [reports]

/-- A freshly issued token has reported nothing. -/
theorem Reporting.fresh {past : List Event} {s t : Db} {event : Event}
    {jobId token : String} {deliveryId : Option String} (kept : Reporting past s)
    (change : s.Change event t) (started : event.act? jobId = some (.start token deliveryId))
    : reports (past ++ [event]) jobId token = [] := by
  have silent : (event.act? jobId).bind (Act.report? token) = none := by
    simp [started, Act.report?]
  rw [reports_silent silent]
  by_contra reported
  obtain ⟨workerId, uuid, named, fresh⟩ := change.token started
  obtain ⟨workerId', uuid', named', old⟩ := kept.reporters jobId token reported
  obtain rfl := leaseToken_uuid (named.symm.trans named')
  exact fresh.1 old

-----------------------------------------------------------------------------------------
-- The statements that leave the column alone
-----------------------------------------------------------------------------------------

namespace Db

/-- A claim started the attempt of the candidate that its query found. -/
theorem Step.claimed_candidate {s t : Db} {event : Event} {jobId token : String}
    (step : s.Step event t) (started : event.act? jobId = some (.start token none))
    : ∃ row,
        row ∈ s.jobs
        ∧ row.jobId = jobId
        ∧ (event.clears s → row.progressPercent = 0) := by
  obtain ⟨config, op, reply⟩ := event
  rcases Event.start_op started
    with ⟨workerId, instanceId, fallback, uuid, locked, now, rfl⟩
      | ⟨workerId, instanceId, uuid, locked, clock, rfl⟩ | ⟨request, uuid, clock, _, _, other⟩
  · simp only [Db.Step, exec, claimLegacy] at step
    split at step
    · cases step
    split at step
    · cases step
    split at step
    · cases step
      simp [Event.act?] at started
    rename_i allowed
    split at step
    · cases step
      simp [Event.act?] at started
    · rename_i row chosen
      cases step
      have same : row.jobId = jobId := by
        by_contra differs
        simp [Event.act?, Sql.claim, Sql.startAttempt, differs] at started
      exact ⟨row, (candidate_spec chosen).1, same,
        fun clears => clears (by simpa using allowed) row chosen⟩
  · obtain ⟨transaction, _, step⟩ := Option.bind_eq_some_iff.mp step
    split at step
    · cases step
    split at step
    · cases step
      simp [Event.act?] at started
    · rename_i row chosen
      cases step
      have same : row.jobId = jobId := by
        by_contra differs
        simp [Event.act?, Sql.claimSlot, Sql.startAttempt, differs] at started
      exact ⟨row, (candidate_spec chosen).1, same, fun clears => clears row chosen⟩
  · cases other

/-- A row that an accepted failure leaves failed has its column reset. -/
theorem failJob_reset {s t : Db} {config : Config} {jobId token error : String}
    {retryable : Bool} {messageId : Uuid} {now clock : Int} {reply : Reply}
    (done : s.failJob config jobId token error retryable messageId now clock = some (t, reply))
    : ∀ next ∈ t.jobs,
        next.progressPercent = 0
        ∨ ∃ row ∈ s.jobs, row.jobId = next.jobId ∧ row.status = next.status := by
  let statement := Sql.fail jobId token error retryable now
  have applied : ∀ next ∈ (s.rewrite statement).jobs,
      next.progressPercent = 0
      ∨ ∃ row ∈ s.jobs, row.jobId = next.jobId ∧ row.status = next.status := by
    intro next member
    obtain ⟨row, stored, rfl⟩ := List.mem_map.mp member
    cases selected : statement.selects row with
    | true =>
        rw [RowUpdate.apply_selected selected]
        exact .inl rfl
    | false =>
        rw [RowUpdate.apply_unselected selected]
        exact .inr ⟨row, stored, rfl, rfl⟩
  simp only [failJob] at done
  split at done
  · cases done
  split at done
  · cases done
    exact fun next member => .inr ⟨next, member, rfl, rfl⟩
  split at done
  · split at done
    · cases done
    · cases done
      intro next member
      -- the dispatch only sets the identity of a rewritten row
      obtain ⟨row, stored, rfl⟩ := List.mem_map.mp member
      have same : ((Sql.dispatch messageId.text jobId).apply row).progressPercent
            = row.progressPercent
          ∧ ((Sql.dispatch messageId.text jobId).apply row).status = row.status := by
        unfold RowUpdate.apply
        split <;> exact ⟨rfl, rfl⟩
      rw [same.1, same.2, RowUpdate.apply_jobId]
      exact applied row stored
  · cases done
    exact applied

/-- An exhausted row was found by `reap` or by `begin_attempt`, by cases on the operation. -/
theorem Step.exhausted_reset {s t : Db} {event : Event} {row next : JobRecord}
    (step : s.Step event t) (consistent : s.Consistent) (clears : event.clears s)
    (member : row ∈ s.jobs) (member' : next ∈ t.jobs) (same : next.jobId = row.jobId)
    (active : row.status.active) (spent : next.spent)
    : next.progressPercent = 0 := by
  have changed : next.status ≠ row.status := by
    rw [spent.1]
    intro failed
    simp [← failed, Status.active] at active
  have origin (other : JobRecord) (stored : other ∈ s.jobs) (named : other.jobId = next.jobId)
      : other = row :=
    consistent.distinct.eq stored member (named.trans same)
  cases exhausts : event.op.exhausts with
  | true =>
      have applied (statement : RowUpdate)
          (found : ∀ row ∈ s.jobs, statement.selects row → row.progressPercent = 0)
          (keeps : ∀ row, (statement.assign row).progressPercent = row.progressPercent)
          (image : next ∈ s.jobs.map statement.apply)
          : next.progressPercent = 0 := by
        obtain ⟨other, stored, rfl⟩ := List.mem_map.mp image
        cases selected : statement.selects other with
        | true =>
            rw [RowUpdate.apply_selected selected, keeps]
            exact found other stored selected
        | false =>
            rw [RowUpdate.apply_unselected selected] at changed origin
            exact absurd (congrArg JobRecord.status (origin other stored rfl)) changed
      obtain ⟨config, op, reply⟩ := event
      cases op with
      | reap jobId now =>
          obtain ⟨_, rfl, _⟩ := execute_spec step
          exact applied _ clears (fun _ => rfl) member'
      | brokerJob request clock =>
          obtain ⟨transaction, _, done⟩ := Option.map_eq_some_iff.mp step
          have kept (image : next ∈ s.jobs) : next.progressPercent = 0 :=
            absurd (congrArg JobRecord.status (origin next image rfl)) changed
          split at done
          · cases done
            exact kept member'
          rename_i stored found
          split at done
          case h_4 passed =>
            cases done
            refine applied _ (fun other here selected => ?_) (fun _ => rfl) member'
            have named : other.jobId = request.jobId := by
              simpa [Sql.brokerExhausted] using selected
            obtain ⟨there, named'⟩ := job?_mem found
            obtain rfl := consistent.distinct.eq here there (named.trans named'.symm)
            exact clears other found passed
          case h_5 =>
            split at done <;>
            · cases done
              exact kept member'
          all_goals
            cases done
            exact kept member'
      | _ => simp [Op.exhausts] at exhausts
  | false =>
      cases coded : event.coded with
      | true =>
          obtain ⟨other, stored, named, already⟩ := step.spends coded exhausts next member' spent
          obtain rfl := origin other stored named
          exact absurd (spent.1.trans already.1.symm) changed
      | false =>
          obtain ⟨config, op, reply⟩ := event
          cases op with
          | failJob jobId token error retryable messageId now clock =>
              rcases failJob_reset step next member' with reset | ⟨other, stored, named, status⟩
              · exact reset
              · obtain rfl := origin other stored named
                exact absurd status.symm changed
          | _ => simp [Event.coded] at coded

end Db

-----------------------------------------------------------------------------------------
-- One step
-----------------------------------------------------------------------------------------

/-- A row that no heartbeat or start touched keeps what its column says. -/
theorem JobRecord.ProgressCurrent.frame {row next : JobRecord} {past : List Event}
    {event : Event} (current : row.ProgressCurrent past) (jobId : next.jobId = row.jobId)
    (status : next.status = row.status) (owner : next.leaseOwner = row.leaseOwner)
    (progress : next.progressPercent = row.progressPercent)
    (silent : (event.act? row.jobId).bind (Act.report? row.leaseOwner) = none)
    : next.ProgressCurrent (past ++ [event]) := by
  refine ⟨?_, ?_, ?_⟩
  · rw [status, progress, jobId, owner, reports_silent silent]
    exact current.running
  · rw [status, progress]
    exact current.done
  · rw [status, progress]
    exact current.idle

/-- A row outside an attempt shows no progress. -/
theorem JobRecord.ProgressCurrent.outside {next : JobRecord} {past : List Event}
    (idle : next.status ≠ .running) (unfinished : next.status ≠ .done)
    (reset : next.progressPercent = 0)
    : next.ProgressCurrent past := by
  refine ⟨fun running => absurd running idle, ?_, fun _ _ => reset⟩
  rw [reset]
  exact ⟨fun hundred => by norm_num at hundred, fun done => absurd done unfinished⟩

/-- A row that starts an attempt shows the progress of a token that has reported nothing. -/
theorem JobRecord.ProgressCurrent.started {next : JobRecord} {past : List Event}
    (running : next.status = .running) (reset : next.progressPercent = 0)
    (fresh : reports past next.jobId next.leaseOwner = [])
    : next.ProgressCurrent past := by
  refine ⟨fun _ => by rw [reset, fresh]; rfl, ?_, fun idle => absurd running idle⟩
  rw [reset, running]
  exact ⟨fun hundred => by norm_num at hundred, fun done => by cases done⟩

/-- Every row step keeps the column current, by cases on the statement. -/
theorem RowStep.current {past : List Event} {event : Event} {row next : JobRecord}
    (step : RowStep (event.act? row.jobId) row next) (current : row.ProgressCurrent past)
    (inRange
      : ∀ token progress,
          event.act? row.jobId = some (.renew token progress) → progress ≤ 99)
    (fresh
      : ∀ token deliveryId,
          event.act? row.jobId = some (.start token deliveryId)
          → reports (past ++ [event]) row.jobId token = [])
    (claimed
      : ∀ token, event.act? row.jobId = some (.start token none) → row.progressPercent = 0)
    (exhausted : row.status.active → next.spent → next.progressPercent = 0)
    : next.ProgressCurrent (past ++ [event]) := by
  generalize accepted : event.act? row.jobId = act at step
  cases step with
  | keep | interrupted | acknowledged | redispatched =>
      exact current.frame rfl rfl rfl rfl (by rw [accepted]; rfl)
  | downloading selected =>
      simp only [Sql.updateStatus, Bool.and_eq_true] at selected
      refine .outside (by simp [Sql.updateStatus]) (by simp [Sql.updateStatus]) ?_
      apply current.idle <;>
      · intro status
        simp [status, Status.uploading] at selected
  | queued | cancelled =>
      refine .outside ?_ ?_ rfl <;> simp [Sql.markQueued, Sql.cancelJob]
  | @claimed _ token =>
      exact .started rfl (claimed token accepted) (fresh token none accepted)
  | delivered => exact .started rfl rfl (fresh _ _ accepted)
  | @renewed _ _ token _ progress now clock selected =>
      simp only [Sql.heartbeat, Bool.and_eq_true, decide_eq_true_eq] at selected
      have running := JobRecord.holdsLease_running selected.2
      refine ⟨fun _ => ?_, ?_, fun idle => absurd running idle⟩
      · simp [Sql.heartbeat, reports_snoc, accepted, Act.report?, selected.1.2]
      · have bound := inRange token progress accepted
        simp only [Sql.heartbeat, running]
        exact ⟨fun hundred => by rw [hundred] at bound; norm_num at bound,
          fun done => by cases done⟩
  | completed =>
      refine ⟨fun running => ?_, ?_, fun _ unfinished => absurd rfl unfinished⟩
      · cases running
      · simp [Sql.complete]
  | @failed _ _ token error retryable now =>
      cases retry : Sql.retries retryable row <;>
        refine .outside ?_ ?_ rfl <;> simp [Sql.fail, retry]
  | exhausted active =>
      exact .outside (by simp [Sql.reap]) (by simp [Sql.reap]) (exhausted active ⟨rfl, rfl⟩)

/-- The column of every row is current. -/
def Db.ProgressCurrent (past : List Event) (s : Db) : Prop :=
  ∀ row ∈ s.jobs, row.ProgressCurrent past

/-- A step under the guard keeps the column of every row current. -/
theorem Db.ProgressCurrent.step {past : List Event} {s t : Db} {event : Event}
    (current : s.ProgressCurrent past) (reporting : Reporting past s)
    (step : s.ReportStep event t) (clears : event.clears s)
    : t.ProgressCurrent (past ++ [event]) := by
  obtain ⟨step, inRange⟩ := step
  have consistent := reporting.consistent
  have next_consistent := step.consistent consistent
  have change := (step.outcome consistent.distinct consistent.held).change
  intro next member
  rcases change.origin consistent (job?_of_mem next_consistent.distinct member)
    with ⟨row, found, rowStep⟩ | ⟨_, _, _, _, _, _, _, rfl⟩
  · obtain ⟨stored, same⟩ := job?_mem found
    rw [← same] at rowStep
    refine rowStep.current (current row stored) ?_ ?_ ?_ ?_
    · exact fun token progress renewed => Event.renew_range inRange renewed
    · exact fun token deliveryId started => reporting.fresh change started
    · intro token started
      obtain ⟨claimed, stored', same', reset⟩ := step.claimed_candidate started
      rw [← consistent.distinct.eq stored' stored same']
      exact reset clears
    · exact fun active spent =>
        step.exhausted_reset consistent clears stored member rowStep.jobId active spent
  · exact .outside (by simp [JobRecord.created]) (by simp [JobRecord.created]) rfl

-----------------------------------------------------------------------------------------
-- The guard is exact
-----------------------------------------------------------------------------------------

/-- The row that a started attempt leaves shows no progress if its column is current. -/
theorem Reporting.started_reset {past : List Event} {s t : Db} {event : Event}
    {next : JobRecord} {deliveryId : Option String} (reporting : Reporting past s)
    (step : s.Step event t) (current : t.ProgressCurrent (past ++ [event]))
    (member : next ∈ t.jobs) (running : next.status = .running)
    (started : event.act? next.jobId = some (.start next.leaseOwner deliveryId))
    : next.progressPercent = 0 := by
  have change :=
    (step.outcome reporting.consistent.distinct reporting.consistent.held).change
  rw [(current next member).running running, reporting.fresh change started]
  rfl

/-- The row that a failed job leaves shows no progress if its column is current. -/
theorem Db.ProgressCurrent.failed_reset {past : List Event} {s t : Db} {statement : RowUpdate}
    (current : t.ProgressCurrent past) (jobs : t.jobs = s.jobs.map statement.apply)
    {row : JobRecord} (member : row ∈ s.jobs) (selected : statement.selects row)
    (failed : (statement.assign row).status = .failed)
    : (statement.assign row).progressPercent = 0 := by
  have stored : statement.assign row ∈ t.jobs := by
    rw [jobs, ← RowUpdate.apply_selected selected]
    exact List.mem_map_of_mem member
  refine (current _ stored).idle ?_ ?_ <;>
  · rw [failed]
    intro same
    cases same

/-- A step between states with current columns met the guard, by cases on the operation. -/
theorem Db.Step.clears_of_current {past : List Event} {s t : Db} {event : Event}
    (step : s.Step event t) (reporting : Reporting past s)
    (current : t.ProgressCurrent (past ++ [event]))
    : event.clears s := by
  have started {row : JobRecord} {statement : RowUpdate} (jobs : t.jobs = s.jobs.map statement.apply)
      (member : row ∈ s.jobs) (selected : statement.selects row)
      (running : (statement.assign row).status = .running)
      (keeps : (statement.assign row).progressPercent = row.progressPercent)
      (act
        : event.act? (statement.assign row).jobId
          = some (.start (statement.assign row).leaseOwner none))
      : row.progressPercent = 0 := by
    have stored : statement.assign row ∈ t.jobs := by
      rw [jobs, ← RowUpdate.apply_selected selected]
      exact List.mem_map_of_mem member
    rw [← keeps]
    exact reporting.started_reset step current stored running act
  obtain ⟨config, op, reply⟩ := event
  cases op with
  | claimLegacy workerId instanceId fallback uuid locked now =>
      intro allowed row chosen
      obtain ⟨stored, startable, _⟩ := candidate_spec chosen
      have done : s.claimLegacy config workerId instanceId fallback uuid locked now
          = some (t, reply) := step
      simp only [claimLegacy, allowed, chosen] at done
      split at done
      · cases done
      split at done
      · cases done
      · simp only [Bool.not_true, Bool.false_eq_true, if_false] at done
        cases done
        exact started rfl stored (by simp [Sql.claim, startable]) rfl rfl
          (by simp [Event.act?, Sql.claim, Sql.startAttempt])
  | claimSlot workerId instanceId uuid locked clock =>
      intro row chosen
      obtain ⟨stored, startable, _⟩ := candidate_spec chosen
      obtain ⟨transaction, _, done⟩ := Option.bind_eq_some_iff.mp step
      simp only [chosen] at done
      split at done
      · cases done
      · cases done
        exact started rfl stored (by simp [Sql.claimSlot, startable]) rfl rfl
          (by simp [Event.act?, Sql.claimSlot, Sql.startAttempt])
  | reap jobId now =>
      intro row stored selected
      obtain ⟨_, rfl, _⟩ := execute_spec step
      exact current.failed_reset rfl stored selected rfl
  | brokerJob request clock =>
      intro row found passed
      obtain ⟨transaction, _, done⟩ := Option.map_eq_some_iff.mp step
      simp only [found, passed] at done
      cases done
      obtain ⟨stored, same⟩ := job?_mem found
      have selected : (Sql.brokerExhausted request.jobId transaction.now).selects row := by
        simpa [Sql.brokerExhausted] using same
      exact current.failed_reset rfl stored selected rfl
  | _ => trivial

theorem Db.ReportStep.deterministic {s t u : Db} {event : Event} (step : s.ReportStep event t)
    (step' : s.ReportStep event u)
    : t = u := by
  have same := step.1.symm.trans step'.1
  cases same
  rfl

/-- Progress belongs to the current attempt, exactly: over a run of either backend in which every
heartbeat is in range, the column of every row is current in every state if and only if each
claim, each `reap` and each exhaustion finds the column at zero.
-/
theorem Db.progress_current_iff {clock : Int} {events : List Event} {s : Db}
    (run : Run ReportStep (Db.empty clock) events s)
    : (∀ before after u,
        events = before ++ after
        → Run ReportStep (Db.empty clock) before u
        → u.ProgressCurrent before)
      ↔ ∀ before event after u,
          events = before ++ event :: after
          → Run ReportStep (Db.empty clock) before u
          → event.clears u := by
  constructor
  · intro current before event after u split reached
    have parts : events = (before ++ [event]) ++ after := by simpa using split
    obtain ⟨v, further⟩ := (parts ▸ run).of_append
    obtain ⟨u', reached', step⟩ := further.last
    obtain rfl := reached.deterministic (fun _ _ _ _ step step' => step.deterministic step') reached'
    exact step.1.clears_of_current (Reporting.run reached) (current _ after v parts further)
  · intro clears before after u split reached
    induction reached generalizing after with
    | nil => simp [ProgressCurrent, Db.empty]
    | @snoc t u past event earlier step ih =>
        have parts : events = past ++ event :: after := by simpa using split
        exact (ih (event :: after) parts).step (Reporting.run earlier) step
          (clears past event after t parts earlier)

-----------------------------------------------------------------------------------------
-- A reclaimed attempt
-----------------------------------------------------------------------------------------

/-- A slot claims the job at moment 0 and reports half of it done; four seconds later its lease
has expired and it claims the job again.
-/
def Db.claimTwice : List (Config × Op) :=
  let config := Config.onePool .postgres
  let jobId := (Uuid.nth 0).text
  let token := leaseToken "gpu" (.nth 1)
  let clock := 4 * second
  [
    (config, .createJob (.wav "request") (.nth 0) 0),
    (config, .markQueued jobId (.nth 9) 0 0),
    (config, .reportAvailability "gpu" "slot" true 0),
    (config, .lockScheduler (.claim "gpu" "slot") 0),
    (config, .selectWorker "gpu" "slot" 0),
    (config, .claimSlot "gpu" "slot" (.nth 1) [] 0),
    (config, .lockScheduler (.heartbeat jobId token 50) 0),
    (config, .heartbeat jobId token 50 0),
    (config, .tick clock),
    (config, .lockScheduler (.claim "gpu" "slot") clock),
    (config, .selectWorker "gpu" "slot" clock),
    (config, .claimSlot "gpu" "slot" (.nth 2) [] clock)
  ]

/-- The same operations under the range check, with the readings of one wall clock. -/
def Db.playReports : List Event × Db :=
  Execution.play Db.perform (fun _ s event => event.timely s && event.inRange) [] (Db.empty 0)
    claimTwice

theorem Db.playReports_run
    : Run (fun s event t => TimedStep s event t ∧ event.inRange) (Db.empty 0) playReports.1
        playReports.2 := by
  refine (Execution.play_run perform_step (.nil (Db.empty 0)) claimTwice).run ?_
  intro past s event t met step
  obtain ⟨timely, inRange⟩ := Bool.and_eq_true_iff.mp met
  exact ⟨⟨step, timely⟩, inRange⟩

/-- The second attempt of the job has reported nothing and shows the progress of the first. -/
theorem Db.playReports_stale : ¬playReports.2.ProgressCurrent playReports.1 := by
  intro current
  have shown : playReports.2.jobs.map (fun row =>
        (row.status, row.progressPercent, reports playReports.1 row.jobId row.leaseOwner))
      = [(.running, 50, [])] := by
    decide +kernel
  obtain ⟨row, rest, jobs, same, _⟩ := List.map_eq_cons_iff.mp shown
  have running := congrArg Prod.fst same
  have progress := congrArg (fun shown => shown.2.1) same
  have silent := congrArg (fun shown => shown.2.2) same
  have reported := (current row (by simp [jobs])).running running
  dsimp only at progress silent
  rw [progress, silent] at reported
  norm_num at reported

/-- In that run some statement found the column of its row set. -/
theorem Db.progress_current_iff_claimed
    : ¬∀ before event after u,
        playReports.1 = before ++ event :: after
        → Run ReportStep (Db.empty 0) before u
        → event.clears u := by
  have run : Run ReportStep (Db.empty 0) playReports.1 playReports.2 :=
    playReports_run.mono (fun _ _ _ step => ⟨step.1.1, step.2⟩)
  rw [← progress_current_iff run]
  exact fun current => playReports_stale (current _ [] _ (by simp) run)

/-- Not every run keeps the column current, even under one wall clock. -/
theorem Db.progress_reclaimed
    : ¬∀ clock events s,
        Run (fun s event t => TimedStep s event t ∧ event.inRange) (Db.empty clock) events s
        → s.ProgressCurrent events :=
  fun always => playReports_stale (always 0 _ _ playReports_run)

end Transcriber
