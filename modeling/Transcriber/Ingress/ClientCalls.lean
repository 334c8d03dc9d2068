import Transcriber.Store.Lifecycle

/-! The calls that clients make about a submitted job: GetStatus, Cancel, Ack and the polling of
Transcribe. A call goes from one transaction to the next while others use the store.
-/

namespace Transcriber

open Execution

-----------------------------------------------------------------------------------------
-- Messages
-----------------------------------------------------------------------------------------

inductive ClientCode
  | invalidArgument
  | notFound
  | failedPrecondition
  | internal
  | cancelled
  deriving DecidableEq, Repr

/-- The name of a status in its column. -/
def Status.name : Status → String
  | .accepted => "accepted"
  | .downloading => "downloading"
  | .queued => "queued"
  | .running => "running"
  | .done => "done"
  | .failed => "failed"

/-- `StatusResponse`; `_STATUS_MAP` takes a status to the enumerator of the same name. -/
structure StatusResponse where
  jobId : String
  status : Status
  stage : String
  text : String
  error : String
  segments : List Segment
  progressPercent : Rat
  attempts : Int
  maxAttempts : Int
  deriving DecidableEq, Repr

/-- `StatusResponse()`, whose status is the enumerator of number 0. -/
def StatusResponse.empty : StatusResponse := ⟨"", .accepted, "", "", "", [], 0, 0, 0⟩

/-- What `GetStatus` says of a stored job; `single` rounds to the `float` fields of messages. -/
def statusResponse (single : Rat → Rat) (job : JobRecord) : StatusResponse where
  jobId := job.jobId
  status := job.status
  stage := job.status.name
  text := job.text
  error := job.error
  segments :=
    job.segments.map (fun segment =>
      ⟨single segment.start, single segment.stop, segment.text⟩)
  progressPercent := single job.progressPercent
  attempts := job.attempts
  maxAttempts := job.maxAttempts

/-- `GetStatus`: the error that it sets in its context, and its response. -/
def getStatus (single : Rat → Rat) (s : Db) (jobId : String)
    : Option (ClientCode × String) × StatusResponse :=
  match s.job? jobId with
  | none => (some (.notFound, "Job not found: " ++ jobId), .empty)
  | some job => (none, statusResponse single job)

/-- The calls about a job. `transcribe` is the polling of Transcribe, which starts when its own
Submit has returned the id: an upload that this Submit aborts never gets here.
-/
inductive ClientRequest
  | getStatus (jobId : String)
  | cancel (jobId : String)
  | ack (jobId : String)
  | transcribe (jobId : String)
  deriving DecidableEq, Repr

inductive ClientAnswer
  | status (response : StatusResponse)
  | cancelled (cancelled : Bool)
  | acknowledged
  | transcribed (text : String)
  | error (code : ClientCode) (details : String)
  deriving DecidableEq, Repr

-----------------------------------------------------------------------------------------
-- Calls among other users of the store
-----------------------------------------------------------------------------------------

/-- Where a call stands; `refused` is an Ack whose update matched no row. -/
inductive ClientStage
  | called
  | refused
  | answered
  deriving DecidableEq, Repr

structure ClientCall where
  request : ClientRequest
  stage : ClientStage
  deriving DecidableEq, Repr

/-- The store and the calls so far. -/
structure Desk where
  db : Db
  calls : List ClientCall

/-- A call arrives, takes its next transaction or is closed by its client; or another user of the
store takes a step.
-/
inductive ClientAction
  | receive (request : ClientRequest)
  | proceed (index : Nat) (config : Config) (now : Int)
  | close (index : Nat)
  | other (config : Config) (op : Op)

/-- What a step wrote to the store and which call it answered. -/
structure ClientEvent where
  stored : Option Event
  answered : Option (Nat × ClientRequest × ClientAnswer)

/-- The store operations of a history. -/
def storeEvents (labels : List ClientEvent) : List Event := labels.filterMap ClientEvent.stored

namespace Desk

def start (clock : Int) : Desk := ⟨.empty clock, []⟩

def stand (s : Desk) (index : Nat) (request : ClientRequest) (stage : ClientStage) : Desk :=
  { s with calls := s.calls.set index ⟨request, stage⟩ }

/-- The step that answers a call. -/
def answer (s : Desk) (index : Nat) (request : ClientRequest) (answer : ClientAnswer)
    (stored : Option Event)
    : ClientEvent × Desk :=
  (⟨stored, some (index, request, answer)⟩, s.stand index request .answered)

/-- The next transaction of a call. -/
def advance (single : Rat → Rat) (s : Desk) (index : Nat) (config : Config) (now : Int)
    : ClientCall → Option (ClientEvent × Desk)
  | ⟨.getStatus jobId, .called⟩ =>
      match getStatus single s.db jobId with
      | (some (code, details), _) =>
          some (s.answer index (.getStatus jobId) (.error code details) none)
      | (none, response) => some (s.answer index (.getStatus jobId) (.status response) none)
  | ⟨.cancel jobId, .called⟩ =>
      (s.db.exec config (.cancelJob jobId now)).map (fun done =>
        { s with db := done.1 }.answer index (.cancel jobId)
          (.cancelled (done.2 ≠ Reply.rows 0)) (some ⟨config, .cancelJob jobId now, done.2⟩))
  | ⟨.ack jobId, .called⟩ =>
      if jobId = "" then
        some (s.answer index (.ack jobId) (.error .invalidArgument "Job ID required") none)
      else
        (s.db.exec config (.acknowledgeJob jobId now)).map (fun done =>
          let event := some ⟨config, .acknowledgeJob jobId now, done.2⟩
          if done.2 = .rows 0 then
            (⟨event, none⟩, { s with db := done.1 }.stand index (.ack jobId) .refused)
          else
            { s with db := done.1 }.answer index (.ack jobId) .acknowledged event)
  | ⟨.ack jobId, .refused⟩ =>
      match s.db.job? jobId with
      | none => some (s.answer index (.ack jobId) (.error .notFound "Job not found") none)
      | some _ =>
          some (s.answer index (.ack jobId)
            (.error .failedPrecondition "Only terminal jobs can be acknowledged") none)
  -- the code that GetStatus sets about a missing job does not end the loop
  | ⟨.transcribe jobId, .called⟩ =>
      let response := (getStatus single s.db jobId).2
      match response.status with
      | .done => some (s.answer index (.transcribe jobId) (.transcribed response.text) none)
      | .failed => some (s.answer index (.transcribe jobId) (.error .internal response.error) none)
      | _ => some (⟨none, none⟩, s)
  | _ => none

/-- One step, or nothing where a transaction has to wait or a call is over. -/
def exec (single : Rat → Rat) (s : Desk) : ClientAction → Option (ClientEvent × Desk)
  | .receive request => some (⟨none, none⟩, { s with calls := s.calls ++ [⟨request, .called⟩] })
  | .proceed index config now => (s.calls[index]?).bind (s.advance single index config now)
  | .close index =>
      match s.calls[index]? with
      | some ⟨.transcribe jobId, .called⟩ =>
          some (s.answer index (.transcribe jobId)
            (.error .cancelled "Transcription request closed") none)
      | _ => none
  | .other config op =>
      (s.db.exec config op).map (fun done =>
        (⟨some ⟨config, op, done.2⟩, none⟩, { s with db := done.1 }))

def Step (single : Rat → Rat) (s : Desk) (label : ClientEvent) (t : Desk) : Prop :=
  ∃ action, s.exec single action = some (label, t)

/-- Actions one after another, without those that would have to wait. -/
def play (s : Desk) (actions : List ClientAction) : List ClientEvent × Desk :=
  Execution.play (exec id) (fun _ _ _ => true) [] s actions

theorem play_run (s : Desk) (actions : List ClientAction)
    : Run (Step id) s (s.play actions).1 (s.play actions).2 :=
  (Execution.play_run (fun _ action _ _ done => ⟨action, done⟩) (.nil s) actions).run
    (fun _ _ _ _ _ step => step)

end Desk

end Transcriber
