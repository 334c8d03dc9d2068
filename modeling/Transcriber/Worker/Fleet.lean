import Transcriber.Ingress.Publication
import Transcriber.Worker.Authorization
import Transcriber.Worker.Reports

/-! The whole service over one store and one job volume: the ingress, the calls of the worker
endpoint, the attempts of the remote workers and those of the local ones, step by step.
-/

namespace Transcriber

open Execution

-----------------------------------------------------------------------------------------
-- Calls of the worker endpoint
-----------------------------------------------------------------------------------------

/-- A call with its handler: the attempt that waits for it, if any, what an open input file still
has to give, and the chunks on their way to the worker.
-/
structure WorkerCall where
  sender : Option Nat
  handler : Handler
  file : Option Bytes
  transit : List Bytes
  deriving DecidableEq, Repr

/-- What a call does next; `broken` is an `OSError` of the file. -/
inductive CallStep
  | call (draw : Draw)
  | unlisted
  | stat (broken : Bool)
  | own (now : Int)
  | openFile
  | read (broken : Bool)
  deriving DecidableEq, Repr

/-- `audio.read(1024 * 1024)` -/
def readSize : Nat := 1024 * 1024

/-- The chunk that a step of the endpoint sends. -/
def Served.chunks : Served → List Bytes
  | .sent _ _ data => [data]
  | _ => []

/-- A request arrives: its handler runs, or is aborted at once. -/
def WorkerService.receive (service : WorkerService) (metadata : List (String × String))
    (request : WorkerRequest)
    : Handler :=
  match service.vet metadata request with
  | .ok identity => ⟨identity, request, .called⟩
  | .error abort => ⟨"", request, .aborted abort⟩

/-- The claim that an answer hands to its worker. -/
def WorkerResponse.claim? : WorkerResponse → Option ClaimResponse
  | .claimed job => job
  | .attempt .started job => job
  | _ => none

-----------------------------------------------------------------------------------------
-- Attempts
-----------------------------------------------------------------------------------------

/-- A call of `process` with the calls that its two threads made last. -/
structure Attempt where
  process : Process
  main : Option Nat
  beat : Option Nat
  deriving DecidableEq, Repr

/-- Where `_process_claimed_job` stands: inside the engine, after it, in the handler of another
exception, or at its end.
-/
inductive LocalStage
  | transcribing
  | transcribed (result : TranscriptionResult)
  | failing
  | over
  deriving DecidableEq, Repr

/-- A call of `_process_claimed_job` with `stop` and `lease_lost`. -/
structure LocalTask where
  claimed : ClaimedJob
  stopped : Bool
  stage : LocalStage
  deriving DecidableEq, Repr

/-- What a local worker does next; `lose` sets one of the two events that it checks. -/
inductive LocalStep
  | lose
  | infer (call : EngineCall) (result : TranscriptionResult)
  | interrupt
  | raise
  | complete (config : Config) (now : Int)
  | fail (config : Config) (messageId : Uuid) (now clock : Int)
  | crash

/-- Every timestamp is finite, as `json.dumps` and the `jsonb` column need it. -/
def TranscriptionResult.finite (result : TranscriptionResult) : Bool :=
  result.segments.all (fun segment => segment.start.isSome && segment.stop.isSome)

-----------------------------------------------------------------------------------------
-- The service
-----------------------------------------------------------------------------------------

structure Fleet where
  service : Service
  calls : Nat → Option WorkerCall
  attempts : Nat → Option Attempt
  locals : Nat → Option LocalTask

/-- A step of the ingress, of a slot that asks for work, of a call, of a remote attempt or of a
local one.
-/
inductive FleetLabel
  | ingress (label : Label)
  | ask (c : Nat) (metadata : List (String × String)) (request : WorkerRequest)
  | serve (c : Nat) (step : CallStep)
  | begin (i c : Nat)
  | work (i c : Nat) (metadata : List (String × String)) (signal : Signal)
  | take (i : Nat) (config : Config) (op : Op)
  | locally (i : Nat) (step : LocalStep)

/-- The engine call that a step returns from, with its result as the coordinator gets it: from a
remote worker in the fields of a message.
-/
def FleetLabel.inference? (settings : WorkerSettings)
    : FleetLabel → Option (EngineCall × TranscriptionResult)
  | .work _ _ _ (.infer call result) => some (call, result.sent settings)
  | .locally _ (.infer call result) => some (call, result)
  | _ => none

/-- The label completes a job past the workers. -/
def Label.completes : Label → Bool
  | .store _ (.completeJob ..) => true
  | _ => false

/-- `claim_next_job` of a local worker, at its last statement. -/
def Op.takes : Op → Bool
  | .claimLegacy .. | .claimSlot .. => true
  | _ => false

namespace Fleet

def empty (storageRoot : String) (maxAudioBytes : Nat) (hashtext : String → Int) (clock : Int)
    : Fleet :=
  ⟨.empty storageRoot maxAudioBytes hashtext clock, fun _ => none, fun _ => none, fun _ => none⟩

def setCall (s : Fleet) (c : Nat) (call : WorkerCall) : Fleet :=
  { s with calls := Function.update s.calls c (some call) }

def setAttempt (s : Fleet) (i : Nat) (attempt : Attempt) : Fleet :=
  { s with attempts := Function.update s.attempts i (some attempt) }

def setLocal (s : Fleet) (i : Nat) (task : LocalTask) : Fleet :=
  { s with locals := Function.update s.locals i (some task) }

/-- The store after a step of a call. -/
def setDb (s : Fleet) (db : Db) : Fleet := { s with service := { s.service with db } }

-----------------------------------------------------------------------------------------
-- The endpoint
-----------------------------------------------------------------------------------------

/-- A slot calls `Claim`, `BeginAttempt` or one of the calls about itself. -/
def ask (coordinator : WorkerService) (s : Fleet) (c : Nat) (metadata : List (String × String))
    (request : WorkerRequest)
    : Option Fleet :=
  if (s.calls c).isSome || request.leaseToken?.isSome then
    none
  else
    some (s.setCall c ⟨none, coordinator.receive metadata request, none, []⟩)

/-- A call takes one step of the endpoint. -/
def answer (coordinator : WorkerService) (s : Fleet) (c : Nat) (call : WorkerCall)
    (action : Action)
    : Option Fleet :=
  match Endpoint.exec coordinator ⟨s.service.db, [call.handler]⟩ action with
  | some (served, ⟨db, [handler]⟩) =>
      some ((s.setDb db).setCall c
        { call with handler, transit := call.transit ++ served.chunks })
  | _ => none

/-- `Path(job.input_path).open("rb")` -/
def openFile (s : Fleet) (c : Nat) (call : WorkerCall) : Option Fleet :=
  match call.handler.stage, call.file with
  | .streaming inputPath false, none =>
      match s.service.volume.inputs inputPath with
      | none =>
          some (s.setCall c
            { call with
              handler.stage := .aborted ⟨.failedPrecondition, "Input is unavailable"⟩ })
      | some data => some (s.setCall c { call with file := some data })
  | _, _ => none

/-- One step of a call. An input file is opened between the first two ownership checks, and each
chunk is what the file still has, up to the size of a read.
-/
def serve (coordinator : WorkerService) (s : Fleet) (c : Nat) (step : CallStep) : Option Fleet :=
  (s.calls c).bind (fun call =>
    match step with
    | .call draw => s.answer coordinator c call (.call 0 draw)
    | .unlisted => s.answer coordinator c call (.unlisted 0)
    | .stat broken =>
        match call.handler.stage with
        | .claimed _ claimed =>
            s.answer coordinator c call
              (.stat 0
                (if broken then
                  none
                else
                  (s.service.volume.inputs claimed.job.inputPath).map List.length))
        | _ => none
    | .own now =>
        if call.handler.stage ≠ .called && call.file.isNone then
          none
        else
          s.answer coordinator c call (.own 0 now)
    | .openFile => s.openFile c call
    | .read broken =>
        call.file.bind (fun rest =>
          if broken then
            s.answer coordinator c call (.read 0 none)
          else
            s.answer coordinator c { call with file := some (rest.drop readSize) }
              (.read 0 (some (rest.take readSize)))))

-----------------------------------------------------------------------------------------
-- Remote attempts
-----------------------------------------------------------------------------------------

/-- A worker starts `process` with the claim that a call answered. -/
def begin (s : Fleet) (i c : Nat) : Option Fleet :=
  if (s.attempts i).isSome then
    none
  else
    (s.calls c).bind (fun call =>
      match call.handler.stage with
      | .answered response =>
          response.claim?.map (fun claim =>
            { s with calls := Function.update s.calls c none }.setAttempt i
              ⟨.start claim, none, none⟩)
      | _ => none)

/-- What reaches a worker from its calls: chunks in order, the end of a whole stream, and the
answers to its reports and heartbeats. A call may end in an error at any time.
-/
def delivers (s : Fleet) (attempt : Attempt) : Signal → Bool
  | .chunk data => (attempt.main.bind s.calls).any (fun call => call.transit.head? = some data)
  | .eof =>
      (attempt.main.bind s.calls).any (fun call =>
        call.transit = [] && call.handler.stage = .answered .streamed)
  | .acked accepted =>
      (attempt.main.bind s.calls).any (fun call =>
        call.handler.stage = .answered (.ack accepted))
  | .beaten (some accepted) =>
      (attempt.beat.bind s.calls).any (fun call =>
        call.handler.stage = .answered (.ack accepted))
  | _ => true

/-- A delivered chunk leaves the wire. -/
def deliver (s : Fleet) (attempt : Attempt) : Signal → Fleet
  | .chunk _ =>
      match attempt.main with
      | none => s
      | some c => { s with
          calls := Function.update s.calls c
            ((s.calls c).map (fun call => { call with transit := call.transit.tail })) }
  | _ => s

/-- The worker starts a call, which the endpoint receives. -/
def send (coordinator : WorkerService) (s : Fleet) (i c : Nat)
    (metadata : List (String × String)) (attempt : Attempt) (request : WorkerRequest)
    : Option Fleet :=
  if (s.calls c).isSome then
    none
  else
    let next : Attempt :=
      match request with
      | .heartbeat .. => { attempt with beat := some c }
      | _ => { attempt with main := some c }
    some ((s.setCall c ⟨some i, coordinator.receive metadata request, none, []⟩).setAttempt i next)

/-- One step of a remote attempt. -/
def work (coordinator : WorkerService) (settings : WorkerSettings) (s : Fleet) (i c : Nat)
    (metadata : List (String × String)) (signal : Signal)
    : Option Fleet :=
  (s.attempts i).bind (fun attempt =>
    if !s.delivers attempt signal then
      none
    else
      (attempt.process.next settings signal).bind (fun done =>
        let next := { attempt with process := done.2 }
        match done.1 with
        | none => some ((s.deliver attempt signal).setAttempt i next)
        | some request => s.send coordinator i c metadata next request))

-----------------------------------------------------------------------------------------
-- Local attempts
-----------------------------------------------------------------------------------------

/-- The same store operation through the ingress. -/
def perform (s : Fleet) (config : Config) (op : Op) : Option Fleet :=
  (s.service.next (.store config op)).map (fun service => { s with service })

/-- A local worker claims a job and starts with it. -/
def take (s : Fleet) (i : Nat) (config : Config) (op : Op) : Option Fleet :=
  if (s.locals i).isSome || !op.takes then
    none
  else
    match s.service.db.exec config op with
    | some (_, .claimed (some claimed)) =>
        (s.perform config op).map (fun t => t.setLocal i ⟨claimed, false, .transcribing⟩)
    | _ => none

/-- The arguments of the engine, with what its input path holds. -/
def localCall (s : Fleet) (job : JobRecord) : Option EngineCall :=
  (s.service.volume.inputs job.inputPath).map (fun audio =>
    ⟨audio, job.preset, job.languageOverride, job.initialPromptOverride⟩)

/-- One step of `_process_claimed_job`. -/
def locally (s : Fleet) (i : Nat) (step : LocalStep) : Option Fleet :=
  (s.locals i).bind (fun task =>
    match task.stage, step with
    | _, .lose => some (s.setLocal i { task with stopped := true })
    | .transcribing, .infer call result =>
        if s.localCall task.claimed.job = some call then
          some (s.setLocal i { task with stage := .transcribed result })
        else
          none
    | .transcribing, .interrupt =>
        if task.stopped then some (s.setLocal i { task with stage := .over }) else none
    | .transcribing, .raise | .transcribed _, .raise =>
        some (s.setLocal i { task with stage := .failing })
    | .transcribed result, .complete config now =>
        if task.stopped then
          some (s.setLocal i { task with stage := .over })
        else if !result.finite then
          some (s.setLocal i { task with stage := .failing })
        else
          (s.perform config
            (.completeJob task.claimed.job.jobId task.claimed.leaseOwner result.text
              (WorkerRequest.storedSegments result.segments) "" now)).map (fun t =>
            t.setLocal i { task with stage := .over })
    | .failing, .fail config messageId now clock =>
        (s.perform config
          (.failJob task.claimed.job.jobId task.claimed.leaseOwner "transcription_failed" true
            messageId now clock)).map (fun t => t.setLocal i { task with stage := .over })
    | _, .crash => some (s.setLocal i { task with stage := .over })
    | _, _ => none)

-----------------------------------------------------------------------------------------
-- The step function
-----------------------------------------------------------------------------------------

def next (coordinator : WorkerService) (settings : WorkerSettings) (s : Fleet)
    : FleetLabel → Option Fleet
  | .ingress label =>
      if label.completes then
        none
      else
        (s.service.next label).map (fun service => { s with service })
  | .ask c metadata request => s.ask coordinator c metadata request
  | .serve c step => s.serve coordinator c step
  | .begin i c => s.begin i c
  | .work i c metadata signal => s.work coordinator settings i c metadata signal
  | .take i config op => s.take i config op
  | .locally i step => s.locally i step

def Step (coordinator : WorkerService) (settings : WorkerSettings) (s : Fleet)
    (label : FleetLabel) (t : Fleet)
    : Prop :=
  s.next coordinator settings label = some t

end Fleet

end Transcriber
