import Transcriber.Library.Execution
import Transcriber.Worker.Api

/-! One `process` call of a remote worker. Its main thread downloads the input, infers and reports;
its heartbeat thread renews the lease beside it and tells the main thread when that is lost.
-/

namespace Transcriber

open Execution

-----------------------------------------------------------------------------------------
-- Inputs, results and failures
-----------------------------------------------------------------------------------------

/-- The arguments of `engine.transcribe`, with the bytes of the input file for its path. -/
structure EngineCall where
  audio : List UInt8
  preset : String
  language : String
  initialPrompt : String
  deriving DecidableEq, Repr

/-- `TranscriptionResult` -/
structure TranscriptionResult where
  text : String
  segments : List ResultSegment
  deriving DecidableEq, Repr

/-- What a worker brings to its calls: `REMOTE_WORKER_MAX_INPUT_BYTES`, the size that protobuf gives
a completion with this job, token, text and segments, and `single`, what a `float` field keeps of a
double.
-/
structure WorkerSettings where
  maxInputBytes : Nat
  byteSize : String → String → String → List ResultSegment → Nat
  single : Number → Number

/-- A result as the fields of a message carry it. -/
def TranscriptionResult.sent (result : TranscriptionResult) (settings : WorkerSettings)
    : TranscriptionResult :=
  { result with
    segments := result.segments.map (fun segment =>
      { segment with
        start := settings.single segment.start
        stop := settings.single segment.stop }) }

/-- The exceptions that `process` reports: `ValueError` of its own checks or of the engine, and any
other exception.
-/
inductive Failure
  | invalidSize
  | inputTooLarge
  | incompleteInput
  | rejectedInput
  | resultTooLarge
  | unexpected
  deriving DecidableEq, Repr

/-- The `error_code` that `_fail` sends. -/
def Failure.code : Failure → String
  | .unexpected => "inference_failed"
  | _ => "invalid_input"

def Failure.retryable : Failure → Bool
  | .unexpected => true
  | _ => false

-----------------------------------------------------------------------------------------
-- Both threads
-----------------------------------------------------------------------------------------

/-- The heartbeat thread: not started, before the test of its loop, after it, inside its call, or
returned.
-/
inductive Beat
  | off
  | waiting
  | due
  | calling
  | over
  deriving DecidableEq, Repr

/-- How `_process` leaves its temporary directory: with the answer to its completion, or with an
exception.
-/
inductive Exit
  | acked (accepted : Bool)
  | stopped
  | disconnected
  | failed (failure : Failure)
  deriving DecidableEq, Repr

/-- The main thread: `received` stands before the check that follows the download, `transcribed`
before the one that follows the engine and `posting` after it, `leaving` before the temporary
directory is removed, `failing` before the check of `_fail` and `warning` after it.
-/
inductive ProcessStage
  | entered
  | admitting
  | receiving
  | received
  | transcribing
  | transcribed (result : TranscriptionResult)
  | posting (result : TranscriptionResult)
  | completing
  | leaving (exit : Exit)
  | failing (failure : Failure)
  | warning (failure : Failure)
  | reporting (failure : Failure)
  | returned (value : Option Bool)
  deriving DecidableEq, Repr

/-- A call of `process` with its claim; `halted` is `worker.stop`, `leaseLost` and `finished` are its
own events, and `audio` is what it wrote to its input file.
-/
structure Process where
  claim : ClaimResponse
  stage : ProcessStage
  beat : Beat
  audio : List UInt8
  progress : Number
  leaseLost : Bool
  halted : Bool
  finished : Bool
  deriving DecidableEq, Repr

/-- What one of the threads does next, or what reaches it from outside. -/
inductive Signal
  | halt
  | enter
  | fetch
  | chunk (data : List UInt8)
  | eof
  | disconnect
  | prepare
  | progress (value : Number)
  | infer (call : EngineCall) (result : TranscriptionResult)
  | interrupt
  | refuse
  | unexpected
  | check
  | post
  | cleaned
  | uncleaned
  | report
  | acked (accepted : Bool)
  | wake
  | beat
  | beaten (accepted : Option Bool)
  | expire
  | rest
  deriving DecidableEq, Repr

namespace Process

def start (claim : ClaimResponse) : Process :=
  ⟨claim, .entered, .off, [], some 0, false, false, false⟩

/-- `lease_lost.is_set() or self.stop.is_set()` -/
def stopped (p : Process) : Bool := p.leaseLost || p.halted

/-- The `finally` of `process`. -/
def finish (p : Process) (value : Option Bool) : Process :=
  { p with stage := .returned value, finished := true }

/-- The engine is called with the downloaded file and the options of the claim. -/
def engineCall (p : Process) : EngineCall :=
  ⟨p.audio, p.claim.preset, p.claim.language, p.claim.initialPrompt⟩

/-- The request of a completion. -/
def completion (settings : WorkerSettings) (p : Process) (result : TranscriptionResult)
    : WorkerRequest :=
  let segments := (result.sent settings).segments
  .complete p.claim.jobId p.claim.leaseToken result.text segments
    (settings.byteSize p.claim.jobId p.claim.leaseToken result.text segments)

/-- `_process` returns or raises. -/
def leave (p : Process) (exit : Exit) : Process := { p with stage := .leaving exit }

/-- What `process` makes of it once the temporary directory is removed. -/
def settle (p : Process) : Exit → Process
  | .acked accepted => p.finish (some accepted)
  | .stopped | .disconnected => p.finish (some false)
  | .failed failure => { p with stage := .failing failure }

/-- The main thread: the request that it sends, if any, and where it stands then. -/
def main (settings : WorkerSettings) (p : Process)
    : ProcessStage → Signal → Option (Option WorkerRequest × Process)
  | .entered, .enter =>
      if p.halted then
        some (none, p.finish (some false))
      else if p.claim.leaseToken = "" || p.claim.leaseSeconds ≤ 0 then
        some (none, p.finish none)
      else
        some (none, { p with stage := .admitting, beat := .waiting })
  | .admitting, .fetch =>
      if p.claim.inputSize = 0 || settings.maxInputBytes < p.claim.inputSize then
        some (none, { p with stage := .failing .invalidSize })
      else
        some (some (.download p.claim.jobId p.claim.leaseToken), { p with stage := .receiving })
  | .receiving, .chunk data =>
      if p.stopped then
        some (none, p.leave .stopped)
      else if settings.maxInputBytes < p.audio.length + data.length
        || p.claim.inputSize < p.audio.length + data.length then
        some (none, p.leave (.failed .inputTooLarge))
      else
        some (none, { p with audio := p.audio ++ data })
  | .receiving, .eof =>
      if p.audio.length = p.claim.inputSize then
        some (none, { p with stage := .received })
      else
        some (none, p.leave (.failed .incompleteInput))
  | .received, .prepare =>
      if p.stopped then
        some (none, p.leave .stopped)
      else
        some (none, { p with stage := .transcribing })
  | .transcribing, .progress value => some (none, { p with progress := value })
  | .transcribing, .infer call result =>
      if call = p.engineCall then
        some (none, { p with stage := .transcribed result })
      else
        none
  -- the engine raises InferenceStopped once `should_stop`, the lost lease, is set
  | .transcribing, .interrupt => if p.leaseLost then some (none, p.leave .stopped) else none
  | .transcribing, .refuse => some (none, p.leave (.failed .rejectedInput))
  | .transcribed result, .check =>
      if p.stopped then
        some (none, p.leave .stopped)
      else
        some (none, { p with stage := .posting result })
  | .posting result, .post =>
      if maxResultBytes
          < settings.byteSize p.claim.jobId p.claim.leaseToken result.text
              (result.sent settings).segments then
        some (none, p.leave (.failed .resultTooLarge))
      else
        some (some (p.completion settings result), { p with stage := .completing })
  | .completing, .acked accepted => some (none, p.leave (.acked accepted))
  -- an RpcError of the download or of Complete
  | .receiving, .disconnect | .completing, .disconnect => some (none, p.leave .disconnected)
  -- any other exception of the temporary file or of the engine
  | .admitting, .unexpected => some (none, { p with stage := .failing .unexpected })
  | .receiving, .unexpected | .transcribing, .unexpected =>
      some (none, p.leave (.failed .unexpected))
  | .leaving exit, .cleaned => some (none, p.settle exit)
  | .leaving _, .uncleaned => some (none, { p with stage := .failing .unexpected })
  | .failing failure, .check =>
      if p.stopped then
        some (none, p.finish (some false))
      else
        some (none, { p with stage := .warning failure })
  | .warning failure, .report =>
      some
        (some (.fail p.claim.jobId p.claim.leaseToken failure.code failure.retryable),
          { p with stage := .reporting failure })
  | .reporting _, .acked accepted => some (none, p.finish (some accepted))
  | .reporting _, .disconnect => some (none, p.finish (some false))
  | _, _ => none

/-- The heartbeat thread; `wake` is its test of `finished`, `expire` its check of the deadline, of
`worker.stop` and of the broker, and `rest` its wait.
-/
def heartbeat (settings : WorkerSettings) (p : Process)
    : Beat → Signal → Option (Option WorkerRequest × Process)
  | .waiting, .wake => some (none, { p with beat := if p.finished then .over else .due })
  | .due, .expire => some (none, { p with beat := .over, leaseLost := true })
  | .due, .beat =>
      some
        (some (.heartbeat p.claim.jobId p.claim.leaseToken (settings.single p.progress)),
          { p with beat := .calling })
  | .due, .rest => some (none, { p with beat := .waiting })
  | .calling, .beaten (some true) => some (none, { p with beat := .waiting })
  | .calling, .beaten _ => some (none, { p with beat := .over, leaseLost := true })
  | _, _ => none

/-- One step of either thread, or the stop of the worker. -/
def next (settings : WorkerSettings) (p : Process)
    : Signal → Option (Option WorkerRequest × Process)
  | .halt => some (none, { p with halted := true })
  | .wake => p.heartbeat settings p.beat .wake
  | .beat => p.heartbeat settings p.beat .beat
  | .beaten accepted => p.heartbeat settings p.beat (.beaten accepted)
  | .expire => p.heartbeat settings p.beat .expire
  | .rest => p.heartbeat settings p.beat .rest
  | signal => p.main settings p.stage signal

/-- A step with the request that it sends. -/
def Step (settings : WorkerSettings) (p : Process) (label : Signal × Option WorkerRequest)
    (q : Process)
    : Prop :=
  p.next settings label.1 = some (label.2, q)

end Process

end Transcriber
