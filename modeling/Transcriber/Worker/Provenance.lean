import Transcriber.Store.Lifecycle
import Transcriber.Worker.Fleet
import Transcriber.Worker.Origins
import Transcriber.Worker.Scoping

/-! Where results come from: a result is backed when an engine returned it for everything that one
stream of its job sent. Every call of the worker endpoint hands such audio on, and completes a job
with backed results only.
-/

namespace Transcriber

open Execution

-----------------------------------------------------------------------------------------
-- Claimed jobs
-----------------------------------------------------------------------------------------

namespace Db

/-- A started row is stored as its statement leaves it. -/
theorem rewrite_started {s : Db} {statement : RowUpdate} {row : JobRecord}
    (member : row ∈ s.jobs) (selected : statement.selects row)
    : statement.assign row ∈ (s.rewrite statement).jobs :=
  List.mem_map.mpr ⟨row, member, RowUpdate.apply_selected selected⟩

/-- A claim of a local worker, or of one without deliveries, returns a stored row. -/
theorem exec_taken {s t : Db} {config : Config} {op : Op} {claimed : ClaimedJob}
    (takes : op.takes) (done : s.exec config op = some (t, .claimed (some claimed)))
    : claimed.job ∈ t.jobs := by
  cases op with
  | claimLegacy workerId instanceId fallback uuid locked now =>
      simp only [exec, claimLegacy] at done
      repeat' split at done
      all_goals cases done
      rename_i row chosen
      obtain ⟨member, startable, _⟩ := candidate_spec chosen
      exact rewrite_started member (by simp [Sql.claim, startable])
  | claimSlot workerId instanceId uuid locked clock =>
      obtain ⟨transaction, _, done⟩ := Option.bind_eq_some_iff.mp done
      repeat' split at done
      all_goals cases done
      rename_i row chosen
      obtain ⟨member, startable, _⟩ := candidate_spec chosen
      exact rewrite_started member (by simp [Sql.claimSlot, startable])
  | _ => cases takes

/-- A replayed delivery returns the row that it found. -/
theorem brokerJob_job {s t : Db} {request : BeginRequest} {clock : Int}
    {disposition : Disposition} {claimed : ClaimedJob}
    (done : s.brokerJob request clock = some (t, .attempt disposition (some claimed)))
    : claimed.job ∈ t.jobs := by
  obtain ⟨transaction, _, same⟩ := Option.map_eq_some_iff.mp done
  split at same
  · cases same
  · rename_i row found
    split at same
    case h_2 =>
        cases same
        exact (job?_mem found).1
    all_goals
      repeat' split at same
      all_goals cases same

/-- A started delivery returns the row that its transaction holds locked. -/
theorem brokerStart_job {s t : Db} {request : BeginRequest} {uuid : Uuid} {clock : Int}
    {disposition : Disposition} {claimed : ClaimedJob} (held : s.LockHeld)
    (done : s.brokerStart request uuid clock = some (t, .attempt disposition (some claimed)))
    : claimed.job ∈ t.jobs := by
  obtain ⟨transaction, holder, done⟩ := Option.bind_eq_some_iff.mp done
  split at done
  · rename_i row phase
    split at done
    · cases done
    rename_i allowed
    simp only [ne_eq, Bool.or_eq_true, decide_eq_true_eq, not_or, Decidable.not_not] at allowed
    obtain ⟨asked, _, task, _, found⟩ := held transaction row holder (by simp [phase, Phase.row?])
    obtain rfl : asked = request := by simpa [allowed.1] using task.symm
    obtain ⟨member, same⟩ := job?_mem found
    cases done
    exact rewrite_started member (by simp [Sql.brokerStart, same])
  · cases done

/-- A handler that ends up with a claimed job has a row that is stored then. -/
theorem call_claimed_job {s t : Db} {config : Config} {draw : Draw} {request : WorkerRequest}
    {stage : Stage} {op : Op} {reply : Reply} {disposition : Option Disposition}
    {claimed : ClaimedJob} (held : s.LockHeld)
    (called : request.call? config draw stage = some op)
    (done : s.exec config op = some (t, reply))
    (resumed : request.resume config stage reply = .claimed disposition claimed)
    : claimed.job ∈ t.jobs := by
  rcases WorkerRequest.resume_claimed resumed with rfl | ⟨⟨workerId, instanceId, rfl⟩, rfl⟩ | begun
  · cases request <;> cases called
  · cases stage with
    | called =>
        simp only [WorkerRequest.call?] at called
        split at called
        · cases called
          exact exec_taken rfl done
        · cases called
          simp only [exec, lockScheduler] at done
          split at done <;> cases done
    | locked =>
        cases called
        obtain ⟨transaction, _, same⟩ := Option.map_eq_some_iff.mp done
        dsimp only at same
        split at same <;> cases same
    | selected =>
        cases called
        exact exec_taken rfl done
    | missing => cases resumed
    | _ => cases called
  · obtain ⟨begun, disposition', rfl, rfl⟩ := begun
    cases stage with
    | called =>
        cases called
        simp only [exec, lockScheduler] at done
        split at done <;> cases done
    | locked =>
        cases called
        exact brokerJob_job done
    | loaded =>
        cases called
        obtain ⟨transaction, _, done⟩ := Option.bind_eq_some_iff.mp done
        repeat' split at done
        all_goals cases done
    | capable =>
        cases called
        exact brokerStart_job held done
    | missing => cases resumed
    | _ => cases called

end Db

-----------------------------------------------------------------------------------------
-- What handlers ask of the store
-----------------------------------------------------------------------------------------

/-- Operations of the ingress and of its cleanup. -/
def Op.ingressOnly : Op → Bool
  | .createJob .. | .markQueued .. | .cleanup .. => true
  | _ => false

theorem WorkerRequest.call?_foreign {config : Config} {draw : Draw} {request : WorkerRequest}
    {stage : Stage} {op : Op} (called : request.call? config draw stage = some op)
    : op.ingressOnly = false := by
  unfold call? at called
  repeat' split at called
  all_goals cases called
  all_goals rfl

/-- A handler completes what its request completes. -/
theorem WorkerRequest.call?_complete {config : Config} {draw : Draw} {request : WorkerRequest}
    {stage : Stage} {jobId token text resultPath : String} {segments : List Segment} {now : Int}
    (called
      : request.call? config draw stage
        = some (.completeJob jobId token text segments resultPath now))
    : resultPath = ""
      ∧ ∃ sent byteSize,
          request = .complete jobId token text sent byteSize ∧ segments = storedSegments sent := by
  unfold call? at called
  repeat' split at called
  all_goals cases called
  exact ⟨rfl, _, _, rfl, rfl⟩

-----------------------------------------------------------------------------------------
-- Results
-----------------------------------------------------------------------------------------

/-- The engine returned this result, as the coordinator gets it, for this call. -/
def Inferred (settings : WorkerSettings) (past : List FleetLabel) (call : EngineCall)
    (result : TranscriptionResult)
    : Prop :=
  ∃ label ∈ past, label.inference? settings = some (call, result)

/-- The result is what the engine returned for the audio and the options of the job. -/
def Backed (settings : WorkerSettings) (past : List FleetLabel) (s : Service)
    (jobId text : String) (segments : List Segment)
    : Prop :=
  ∃ call result,
    Inferred settings past call result
    ∧ s.Sent jobId call.audio
    ∧ s.Knows jobId call.engineOptions
    ∧ text = result.text
    ∧ segments = WorkerRequest.storedSegments result.segments

theorem Backed.later {settings : WorkerSettings} {past : List FleetLabel} {s t : Service}
    {jobId text : String} {segments : List Segment}
    (backed : Backed settings past s jobId text segments)
    (follows : s.Follows t) (label : FleetLabel)
    : Backed settings (past ++ [label]) t jobId text segments := by
  obtain ⟨call, result, ⟨inferred, member, same⟩, sent, knows, parts⟩ := backed
  exact ⟨call, result, ⟨inferred, List.mem_append_left _ member, same⟩, sent.follows follows,
    knows.follows follows, parts⟩

/-- A done row was done with the same result, or is completed with it. -/
theorem RowStep.done {act : Option Act} {row next : JobRecord} (step : RowStep act row next)
    (done : next.status = .done)
    : (row.status = .done ∧ next.text = row.text ∧ next.segments = row.segments)
      ∨ ∃ token resultPath, act = some (.complete token next.text next.segments resultPath) := by
  cases step with
  | completed => exact .inr ⟨_, _, rfl⟩
  | keep | interrupted | acknowledged | renewed | redispatched => exact .inl ⟨done, rfl, rfl⟩
  | downloading | queued | claimed | delivered | cancelled | exhausted => cases done
  | @failed _ jobId token error retryable now =>
      simp only [Sql.fail] at done
      split at done <;> cases done

/-- A step of the store keeps every result backed if what it completes is. -/
theorem backed_step {settings : WorkerSettings} {past : List FleetLabel} {s t : Service}
    {event : Event} {label : FleetLabel}
    (kept
      : ∀ row ∈ s.db.jobs,
          row.status = .done → Backed settings past s row.jobId row.text row.segments)
    (consistent : s.db.Consistent) (step : s.db.Step event t.db) (follows : s.Follows t)
    (completes
      : ∀ jobId token text segments resultPath,
          event.act? jobId = some (.complete token text segments resultPath)
          → Backed settings past s jobId text segments)
    : ∀ row ∈ t.db.jobs,
        row.status = .done
        → Backed settings (past ++ [label]) t row.jobId row.text row.segments := by
  intro next member done
  have change := (step.outcome consistent.distinct consistent.held).change
  have distinct := (step.consistent consistent).distinct
  rcases change.origin consistent (Db.job?_of_mem distinct member) with ⟨row, found, rowStep⟩ | new
  · have same := rowStep.jobId
    rcases rowStep.done done with ⟨before, text, segments⟩ | ⟨token, resultPath, act⟩
    · rw [same, text, segments]
      exact (kept row (Db.job?_mem found).1 before).later follows label
    · exact (completes _ _ _ _ _ act).later follows label
  · obtain ⟨_, _, options, newId, now, _, _, rfl⟩ := new
    cases done

-----------------------------------------------------------------------------------------
-- The service
-----------------------------------------------------------------------------------------

namespace Service

/-- Only a call of the store itself completes a job. -/
theorem Step.completion {s t : Service} {label : Label} (step : s.Step label t)
    : s.SameStore t
      ∨ ∃ config op reply,
          s.Stored config op reply t
          ∧ (label = .store config op
            ∨ ∀ jobId token text segments resultPath now,
                op ≠ .completeJob jobId token text segments resultPath now) := by
  cases label with
  | store config op =>
      simp only [Service.Step, next, store] at step
      split at step
      · cases step
      rename_i free
      obtain ⟨⟨db, reply⟩, executed, rfl⟩ := Option.map_eq_some_iff.mp step
      refine .inr ⟨config, op, reply, ⟨⟨rfl, rfl, rfl⟩, executed, ⟨?_, ?_⟩, rfl⟩, .inl rfl⟩
      · rintro options jobId now rfl
        simp [reservedOp] at free
      · rintro jobId token text segments resultPath now rfl
        simpa [reservedOp] using free
  | create i config jobId now =>
      obtain ⟨stream, _, _, done⟩ := on_spec step
      split at done
      · cases done
      rename_i sameRoot
      have called : s.Called config (.createJob stream.options jobId now) :=
        ⟨fun _ _ _ _ => by simpa using sameRoot, by simp⟩
      split at done
      · cases done
      all_goals
        rename_i executed
        cases done
        exact .inr ⟨config, _, _, ⟨⟨rfl, rfl, rfl⟩, executed, called, rfl⟩, .inr (by simp)⟩
  | reserve i config now =>
      obtain ⟨stream, job, _, _, _, done⟩ := onJob_spec step
      split at done
      · cases done
        exact .inl ⟨⟨rfl, rfl, rfl⟩, rfl, rfl⟩
      · obtain ⟨⟨db, reply⟩, executed, rfl⟩ := Option.map_eq_some_iff.mp done
        exact .inr ⟨config, _, _, ⟨⟨rfl, rfl, rfl⟩, executed, ⟨by simp, by simp⟩, rfl⟩,
          .inr (by simp)⟩
  | queue i config messageId now clock =>
      obtain ⟨stream, job, _, _, _, done⟩ := onJob_spec step
      split at done
      · cases done
      all_goals
        rename_i executed
        cases done
        exact .inr ⟨config, _, _, ⟨⟨rfl, rfl, rfl⟩, executed, ⟨by simp, by simp⟩, rfl⟩,
          .inr (by simp)⟩
  | reject i config messageId now clock =>
      obtain ⟨stream, job, _, _, _, done⟩ := onJob_spec step
      obtain ⟨⟨db, reply⟩, executed, rfl⟩ := Option.map_eq_some_iff.mp done
      refine .inr ⟨config, _, reply, ⟨⟨rfl, rfl, rfl⟩, executed, ?_, ?_⟩, .inr ?_⟩
      · constructor <;> split <;> simp
      · split <;> rfl
      · split <;> simp
  | _ => exact .inl (step.sameStore rfl)

/-- The upload invariant with what streams asked for, and every result backed. -/
structure Traced (settings : WorkerSettings) (past : List FleetLabel) (s : Service) : Prop where
  sound : s.Sound
  ends : s.EndsComplete
  asked : s.Asked
  results
    : ∀ row ∈ s.db.jobs, row.status = .done → Backed settings past s row.jobId row.text row.segments

/-- A step of the ingress, which completes a job only with a backed result. -/
theorem Traced.step {settings : WorkerSettings} {past : List FleetLabel} {s t : Service}
    {label : Label} (kept : s.Traced settings past) (step : s.Step label t)
    (guarded : s.endsClosed label)
    (event : FleetLabel)
    (completes
      : ∀ config jobId token text segments resultPath now,
          label = .store config (.completeJob jobId token text segments resultPath now)
          → Backed settings past s jobId text segments)
    : t.Traced settings (past ++ [event]) ∧ s.Follows t := by
  have follows := kept.sound.follows step
  have sound := kept.sound.step (kept.ends.passesWhole label) step
  refine ⟨⟨sound, step.streamMove.endsComplete kept.ends guarded,
    kept.asked.step kept.sound sound.consistent step, ?_⟩, follows⟩
  rcases step.completion with same | ⟨config, op, reply, stored, origin⟩
  · intro row member done
    exact (kept.results row (same.db ▸ member) done).later follows event
  · have called : s.db.Step ⟨config, op, reply⟩ t.db := stored.done
    refine backed_step kept.results kept.sound.consistent called follows ?_
    intro jobId token text segments resultPath act
    obtain ⟨now, rfl⟩ := Event.act?_complete act
    rcases origin with rfl | other
    · exact completes _ _ _ _ _ _ _ rfl
    · exact absurd rfl (other jobId token text segments resultPath now)

/-- A call of the endpoint, which completes a job only with a backed result. -/
theorem Traced.stored {settings : WorkerSettings} {past : List FleetLabel} {s : Service}
    {config : Config} {op : Op} {reply : Reply} {db : Db}
    (kept : s.Traced settings past)
    (done : s.db.exec config op = some (db, reply)) (foreign : op.ingressOnly = false)
    (event : FleetLabel)
    (completes
      : ∀ jobId token text segments resultPath now,
          op = .completeJob jobId token text segments resultPath now
          → resultPath = "" ∧ Backed settings past s jobId text segments)
    : ({ s with db } : Service).Traced settings (past ++ [event]) ∧ s.Follows { s with db } := by
  have called : s.Called config op := by
    refine ⟨?_, fun _ _ _ _ _ _ same => (completes _ _ _ _ _ _ same).1⟩
    rintro options jobId now rfl
    cases foreign
  have nothing : removedFiles op reply = [] := by
    unfold removedFiles
    split
    · cases foreign
    · rfl
  have step : s.db.Step ⟨config, op, reply⟩ db := done
  have follows : s.Follows { s with db } :=
    .of_db kept.sound.consistent step ⟨rfl, rfl, rfl⟩
      (fun i stream found => ⟨stream, found, .refl stream, rfl⟩)
  refine ⟨⟨?_, kept.ends, kept.asked.follows follows rfl, ?_⟩, follows⟩
  · refine kept.sound.exec done called nothing ?_
    intro row _ act
    obtain ⟨_, _, _, _, queues, _⟩ := Event.act?_queue act
    obtain rfl : op = _ := queues
    cases foreign
  · refine backed_step kept.results kept.sound.consistent step follows ?_
    intro jobId token text segments resultPath act
    obtain ⟨now, same⟩ := Event.act?_complete act
    exact (completes _ _ _ _ _ _ same).2

end Service

-----------------------------------------------------------------------------------------
-- Calls
-----------------------------------------------------------------------------------------

/-- What the stage of a handler says about its job. -/
def Stage.Traced (s : Service) (request : WorkerRequest) : Stage → Prop
  | .claimed _ handed => request.issues ∧ s.Knows handed.job.jobId handed.job.engineOptions
  | .streaming inputPath _ =>
      ∃ jobId leaseToken, request = .download jobId leaseToken ∧ s.PathOf jobId inputPath
  | .answered response =>
      ∀ claim,
        response.claim? = some claim → request.issues ∧ s.Knows claim.jobId claim.engineOptions
  | _ => True

theorem Stage.Traced.follows {s t : Service} {request : WorkerRequest} {stage : Stage}
    (traced : stage.Traced s request) (follows : s.Follows t)
    : stage.Traced t request := by
  cases stage with
  | claimed => exact ⟨traced.1, traced.2.follows follows⟩
  | streaming =>
      obtain ⟨jobId, leaseToken, download, path⟩ := traced
      exact ⟨jobId, leaseToken, download, path.follows follows⟩
  | answered =>
      intro claim handed
      exact ⟨(traced claim handed).1, (traced claim handed).2.follows follows⟩
  | called | locked | selected | loaded | capable | missing | aborted => trivial

/-- The call hands the audio to its worker: what was delivered, what is on its way and what the
open file still has are everything that one stream of the job sent.
-/
structure WorkerCall.Transfers (s : Service) (jobId : String) (audio : Bytes) (call : WorkerCall)
    : Prop where
  download : ∃ leaseToken, call.handler.request = .download jobId leaseToken
  closed : call.file = none → audio = []
  opened : ∀ rest, call.file = some rest → s.Sent jobId (audio ++ call.transit.flatten ++ rest)

theorem WorkerCall.Transfers.follows {s t : Service} {jobId : String} {audio : Bytes}
    {call : WorkerCall} (transfers : call.Transfers s jobId audio) (follows : s.Follows t)
    : call.Transfers t jobId audio :=
  ⟨transfers.download, transfers.closed,
    fun rest file => (transfers.opened rest file).follows follows⟩

/-- One call against the service. -/
structure WorkerCall.Traced (settings : WorkerSettings) (past : List FleetLabel) (s : Service)
    (call : WorkerCall)
    : Prop where
  stage : call.handler.stage.Traced s call.handler.request
  completes
    : ∀ jobId leaseToken text segments byteSize,
        call.handler.request = .complete jobId leaseToken text segments byteSize
        → Backed settings past s jobId text (WorkerRequest.storedSegments segments)
  sent : call.sender.isSome → call.handler.request.issues = false
  closed : call.file = none → call.transit = []
  through : call.handler.stage = .answered .streamed → call.file = some []

theorem WorkerCall.Traced.later {settings : WorkerSettings} {past : List FleetLabel}
    {s t : Service} {call : WorkerCall} (traced : call.Traced settings past s)
    (follows : s.Follows t) (label : FleetLabel)
    : call.Traced settings (past ++ [label]) t where
  stage := traced.stage.follows follows
  completes jobId leaseToken text segments byteSize request :=
    (traced.completes jobId leaseToken text segments byteSize request).later follows label
  sent := traced.sent
  closed := traced.closed
  through := traced.through

/-- A call with the step that it took: it stays with its request and its sender, and hands on the
same audio.
-/
structure WorkerCall.Goes (settings : WorkerSettings) (past : List FleetLabel) (s t : Service)
    (call next : WorkerCall)
    : Prop where
  traced : next.Traced settings past t
  sender : next.sender = call.sender
  transfers : ∀ jobId audio, call.Transfers s jobId audio → next.Transfers t jobId audio

-----------------------------------------------------------------------------------------
-- Steps of a call
-----------------------------------------------------------------------------------------

@[simp] theorem WorkerResponse.claim?_attempt_none (disposition : Disposition)
    : (WorkerResponse.attempt disposition none).claim? = none := by
  cases disposition <;> rfl

/-- A store call answers neither with a claim nor with the end of a stream. -/
theorem WorkerRequest.resume_answered {config : Config} {draw : Draw} {request : WorkerRequest}
    {stage : Stage} {op : Op} {reply : Reply} {response : WorkerResponse}
    (called : request.call? config draw stage = some op)
    (resumed : request.resume config stage reply = .answered response)
    : response.claim? = none ∧ response ≠ .streamed := by
  by_cases same : stage = .answered response
  · rw [same] at called
    cases request <;> cases called
  · unfold resume at resumed
    split at resumed
    all_goals
      first
        | exact absurd resumed same
        | cases resumed
    all_goals exact ⟨by first | rfl | exact WorkerResponse.claim?_attempt_none _, by simp⟩

namespace WorkerCall

variable {coordinator : WorkerService} {settings : WorkerSettings} {past : List FleetLabel}
  {s t : Service} {call : WorkerCall} {served : Served} {db : Db} {handler : Handler}

/-- A handler that moves on without a chunk, to a stage that fits its request. -/
theorem Traced.goes (traced : call.Traced settings past s) (follows : s.Follows t)
    (label : FleetLabel) {stage : Stage} (stands : stage.Traced t call.handler.request)
    (through : stage = .answered .streamed → call.file = some [])
    : Goes settings (past ++ [label]) s t call { call with handler.stage := stage } := by
  have later := traced.later follows label
  refine ⟨⟨stands, later.completes, later.sent, later.closed, through⟩, rfl, ?_⟩
  exact fun jobId audio transfers => ⟨transfers.download, transfers.closed,
    (transfers.follows follows).opened⟩

/-- A store call of a handler. -/
theorem Traced.stored (traced : call.Traced settings past s) (consistent : s.db.Consistent)
    {draw : Draw} {op : Op} {reply : Reply} (label : FleetLabel)
    (called : call.handler.request.call? coordinator.config draw call.handler.stage = some op)
    (done : s.db.exec coordinator.config op = some (t.db, reply)) (follows : s.Follows t)
    : Goes settings (past ++ [label]) s t call
        { call with
          handler.stage :=
            call.handler.request.resume coordinator.config call.handler.stage reply } := by
  have step : s.db.Step ⟨coordinator.config, op, reply⟩ t.db := done
  refine traced.goes follows label ?_ ?_
  · cases resumed : call.handler.request.resume coordinator.config call.handler.stage reply with
    | claimed disposition claimed =>
        exact ⟨(Db.call_claimed called done resumed).1,
          .of_row (step.consistent consistent)
            (Db.call_claimed_job consistent.held called done resumed)⟩
    | streaming inputPath owned =>
        rw [WorkerRequest.resume_streaming resumed] at called
        cases request : call.handler.request <;> simp [request, WorkerRequest.call?] at called
    | answered response =>
        intro claim handed
        rw [(WorkerRequest.resume_answered called resumed).1] at handed
        cases handed
    | called | locked | selected | loaded | capable | missing | aborted => trivial
  · intro streamed
    exact absurd rfl (WorkerRequest.resume_answered called streamed).2

end WorkerCall

/-- An owned job is a stored row. -/
theorem Db.ownedJob?_spec {s : Db} {jobId leaseOwner : String} {now : Int} {row : JobRecord}
    (owned : s.ownedJob? jobId leaseOwner now = some row)
    : row ∈ s.jobs ∧ row.jobId = jobId := by
  refine ⟨List.mem_of_find?_eq_some owned, ?_⟩
  have selected := List.find?_some owned
  simp only [Bool.and_eq_true, decide_eq_true_eq] at selected
  exact selected.1.1

namespace Fleet

variable {coordinator : WorkerService} {settings : WorkerSettings} {past : List FleetLabel}
  {s t : Fleet}

/-- A step of the endpoint, taken apart. -/
theorem answer_spec {c : Nat} {call : WorkerCall} {action : Action}
    (done : s.answer coordinator c call action = some t)
    : ∃ served db handler,
        Endpoint.exec coordinator ⟨s.service.db, [call.handler]⟩ action
          = some (served, ⟨db, [handler]⟩)
        ∧ t
          = (s.setDb db).setCall c
              { call with handler, transit := call.transit ++ served.chunks } := by
  unfold answer at done
  split at done
  · rename_i served db handler executed
    cases done
    exact ⟨served, db, handler, executed, rfl⟩
  · cases done

/-- What a step of a call leaves: the service with or without a store call, and the call. -/
structure CallMove (settings : WorkerSettings) (past : List FleetLabel) (s : Fleet) (c : Nat)
    (t : Fleet) (call next : WorkerCall)
    : Prop where
  found : s.calls c = some call
  same : t = ({ s with service := t.service } : Fleet).setCall c next
  kept : t.service.Traced settings past
  follows : s.service.Follows t.service
  goes : call.Goes settings past s.service t.service next

/-- A step without a store call. -/
theorem CallMove.quiet {c : Nat} {call next : WorkerCall} {event : FleetLabel}
    (kept : s.service.Traced settings past) (found : s.calls c = some call)
    (goes : call.Goes settings (past ++ [event]) s.service s.service next)
    : CallMove settings (past ++ [event]) s c (s.setCall c next) call next := by
  refine ⟨found, rfl, ⟨kept.sound, kept.ends, kept.asked, ?_⟩, .refl _, goes⟩
  exact fun row member done => (kept.results row member done).later (.refl _) event

/-- Every step of a call, by cases on the step. -/
theorem serve_spec {c : Nat} {step : CallStep} (kept : s.service.Traced settings past)
    (calls : ∀ c call, s.calls c = some call → call.Traced settings past s.service)
    (done : s.serve coordinator c step = some t) (event : FleetLabel)
    : ∃ call next, CallMove settings (past ++ [event]) s c t call next := by
  obtain ⟨call, found, done⟩ := Option.bind_eq_some_iff.mp done
  have traced := calls c call found
  have refl := Service.Follows.refl s.service
  cases step with
  | call draw =>
      obtain ⟨served, db, handler, executed, rfl⟩ := answer_spec done
      obtain ⟨_, op, after, reply, stands, called, stored, rfl, same⟩ := Endpoint.call_spec executed
      cases stands
      cases same
      obtain ⟨next, follows⟩ := kept.stored stored (WorkerRequest.call?_foreign called) event
        (fun jobId token text segments resultPath now completes => by
          subst completes
          obtain ⟨plain, sent, byteSize, request, rfl⟩ := WorkerRequest.call?_complete called
          exact ⟨plain, traced.completes jobId token text sent byteSize request⟩)
      have goes := traced.stored (t := { s.service with db := after }) kept.sound.consistent event
        called stored follows
      simp only [Served.chunks, List.append_nil]
      exact ⟨call, _, found, rfl, next, follows, goes⟩
  | unlisted =>
      obtain ⟨served, db, handler, executed, rfl⟩ := answer_spec done
      simp only [Endpoint.exec, List.getElem?_cons_zero, Option.bind_eq_bind, Option.bind_some]
        at executed
      repeat' split at executed
      all_goals cases executed
      simp only [Served.chunks, List.append_nil]
      exact ⟨call, _, .quiet kept found
        (traced.goes refl event (fun _ handed => absurd handed (by simp [WorkerResponse.claim?]))
          (by simp))⟩
  | stat broken =>
      dsimp only at done
      split at done
      case h_2 => cases done
      rename_i disposition claimed stage
      have stands := traced.stage
      rw [stage] at stands
      generalize (if broken then none else _ : Option Nat) = size at done
      obtain ⟨served, db, handler, executed, rfl⟩ := answer_spec done
      simp only [Endpoint.exec, List.getElem?_cons_zero, Option.bind_eq_bind, Option.bind_some,
        stage] at executed
      cases executed
      simp only [Served.chunks, List.append_nil]
      refine ⟨call, _, .quiet kept found (traced.goes refl event ?_ ?_)⟩
      · cases size with
        | none => trivial
        | some size =>
            cases disposition with
            | none =>
                intro claim handed
                obtain rfl := Option.some.inj handed
                exact stands
            | some disposition =>
                intro claim handed
                cases disposition <;> cases handed
                exact stands
      · split <;> simp
  | own now =>
      dsimp only at done
      split at done
      · cases done
      obtain ⟨served, db, handler, executed, rfl⟩ := answer_spec done
      simp only [Endpoint.exec, List.getElem?_cons_zero, Option.bind_eq_bind, Option.bind_some]
        at executed
      have stands := traced.stage
      split at executed
      · rename_i jobId leaseToken request
        split at executed
        · cases executed
          simp only [Served.chunks, List.append_nil]
          refine ⟨call, _, .quiet kept found (traced.goes refl event ?_ ?_)⟩
          · cases owned : s.service.db.ownedJob? jobId leaseToken now with
            | none => trivial
            | some row =>
                obtain ⟨member, same⟩ := Db.ownedJob?_spec owned
                refine ⟨jobId, leaseToken, request, same ▸ .of_placed ?_⟩
                exact (kept.sound.rows row member).1
          · cases s.service.db.ownedJob? jobId leaseToken now <;> simp
        · rename_i inputPath stage
          rw [stage] at stands
          cases executed
          simp only [Served.chunks, List.append_nil]
          refine ⟨call, _, .quiet kept found (traced.goes refl event ?_ ?_)⟩
          · split
            · exact stands
            · trivial
          · split <;> simp
        · cases executed
      · cases executed
  | openFile =>
      dsimp only [openFile] at done
      split at done
      case h_2 => cases done
      rename_i inputPath stage closed
      have stands := traced.stage
      rw [stage] at stands
      split at done
      · cases done
        exact ⟨call, _, .quiet kept found (traced.goes refl event trivial (by simp))⟩
      · rename_i data file
        cases done
        obtain ⟨jobId, leaseToken, download, path⟩ := stands
        have later := traced.later refl event
        refine ⟨call, _, .quiet kept found ⟨⟨later.stage, later.completes, later.sent, by simp, ?_⟩,
          rfl, ?_⟩⟩
        · intro streamed
          rw [stage] at streamed
          cases streamed
        · intro jobId' audio transfers
          obtain ⟨leaseToken', download'⟩ := transfers.download
          cases download.symm.trans download'
          refine ⟨transfers.download, by simp, fun rest opened => ?_⟩
          cases opened
          rw [transfers.closed closed, traced.closed closed]
          exact kept.sound.sent path file
  | read broken =>
      obtain ⟨rest, file, done⟩ := Option.bind_eq_some_iff.mp done
      have stands := traced.stage
      have later := traced.later refl event
      split at done
      · obtain ⟨served, db, handler, executed, rfl⟩ := answer_spec done
        simp only [Endpoint.exec, List.getElem?_cons_zero, Option.bind_eq_bind, Option.bind_some]
          at executed
        split at executed <;> cases executed
        simp only [Served.chunks, List.append_nil]
        exact ⟨call, _, .quiet kept found (traced.goes refl event trivial (by simp))⟩
      · obtain ⟨served, db, handler, executed, rfl⟩ := answer_spec done
        simp only [Endpoint.exec, List.getElem?_cons_zero, Option.bind_eq_bind, Option.bind_some]
          at executed
        split at executed
        case h_2 => cases executed
        rename_i inputPath stage
        rw [stage] at stands
        generalize taken : rest.take readSize = data at executed
        have parts : data ++ rest.drop readSize = rest := taken ▸ List.take_append_drop _ _
        cases data with
        | nil =>
            cases executed
            simp only [Served.chunks, List.append_nil]
            have spent : rest = [] := (List.take_eq_nil_iff.mp taken).resolve_left (by decide)
            subst spent
            refine ⟨call, _, .quiet kept found ⟨⟨?_, later.completes, later.sent, by simp, by simp⟩,
              rfl, ?_⟩⟩
            · exact fun claim handed => absurd handed (by simp [WorkerResponse.claim?])
            · intro jobId audio transfers
              refine ⟨transfers.download, by simp, fun left opened => ?_⟩
              cases opened
              exact transfers.opened [] file
        | cons byte more =>
            cases executed
            refine ⟨call, _, .quiet kept found ⟨⟨stands, later.completes, later.sent, by simp,
              by simp⟩, rfl, ?_⟩⟩
            intro jobId audio transfers
            refine ⟨transfers.download, by simp, fun left opened => ?_⟩
            cases opened
            have sent := transfers.opened rest file
            rw [← parts] at sent
            simpa [Served.chunks] using sent

end Fleet

end Transcriber
