import Transcriber.Store.RowSteps
import Transcriber.Worker.Credentials

/-! The worker endpoint: eight calls over the job store.
A call is checked in the order of its handler before it touches the store; a handler then goes from
one store call to the next while others run, so its place is part of the state.
-/

namespace Transcriber

-----------------------------------------------------------------------------------------
-- Requests and answers
-----------------------------------------------------------------------------------------

/-- A floating-point number: a `float` of a message, a double of an engine; none is an infinity or
no number.
-/
abbrev Number := Option Rat

structure ResultSegment where
  start : Number
  stop : Number
  text : String
  deriving DecidableEq, Repr

/-- The calls of `WorkerService` with their messages. -/
inductive WorkerRequest
  | claim (workerId instanceId : String)
  | registerConsumer (workerId instanceId : String)
  | beginAttempt (request : BeginRequest)
  | reportAvailability (workerId instanceId : String) (ready : Bool)
  | download (jobId leaseToken : String)
  | heartbeat (jobId leaseToken : String) (progressPercent : Number)
  | complete (jobId leaseToken text : String) (segments : List ResultSegment) (byteSize : Nat)
  | fail (jobId leaseToken errorCode : String) (retryable : Bool)
  deriving DecidableEq, Repr

inductive StatusCode
  | unauthenticated
  | permissionDenied
  | invalidArgument
  | failedPrecondition
  | resourceExhausted
  deriving DecidableEq, Repr

/-- `context.abort` -/
structure Abort where
  code : StatusCode
  details : String
  deriving DecidableEq, Repr

/-- `WorkerClaimResponse` of a claimed job. -/
structure ClaimResponse where
  jobId : String
  leaseToken : String
  leaseSeconds : Int
  format : String
  preset : String
  language : String
  initialPrompt : String
  inputSize : Nat
  traceparent : String
  tracestate : String
  deriving DecidableEq, Repr

inductive WorkerResponse
  | claimed (job : Option ClaimResponse)
  | consumer (admitted : Bool) (priority : Int)
  | attempt (disposition : Disposition) (job : Option ClaimResponse)
  | availability (accepted : Bool) (ttlSeconds : Int)
  | ack (accepted : Bool)
  | streamed
  deriving DecidableEq, Repr

/-- `MAX_RESULT_BYTES` -/
def maxResultBytes : Nat := 4 * 1024 * 1024

-----------------------------------------------------------------------------------------
-- Checks
-----------------------------------------------------------------------------------------

/-- A coordinator process with its registry. `sha256` is the hexadecimal digest of `hashlib`. -/
structure WorkerService where
  config : Config
  credentials : WorkerCredentials
  sha256 : String → String

namespace WorkerService

/-- `_authenticate`; the identity is the caller's. -/
def authenticate (service : WorkerService) (metadata : List (String × String))
    (workerId leaseToken : Option String)
    : Except Abort String :=
  let values := (metadata.filter (fun entry => entry.1 = "authorization")).map Prod.snd
  let identity :=
    match values with
    | [value] => service.credentials.authenticate service.sha256 value
    | _ => none
  match identity with
  | none => .error ⟨.unauthenticated, "Worker authentication required"⟩
  | some identity =>
      if workerId.any (fun workerId => identity ≠ workerId)
        || leaseToken.any (fun token => !hasPrefix (identity ++ "/") token) then
        .error ⟨.permissionDenied, "Worker identity mismatch"⟩
      else
        .ok identity

end WorkerService

/-- A check that aborts the call unless it passes. -/
def require (passed : Bool) (code : StatusCode) (details : String) : Except Abort Unit :=
  if passed then .ok () else .error ⟨code, details⟩

namespace WorkerService

/-- `_consumer_identity` -/
def consumerIdentity (service : WorkerService) (metadata : List (String × String))
    (workerId instanceId : String)
    : Except Abort String := do
  let identity ← service.authenticate metadata (some workerId) none
  require (isCanonicalUuid instanceId) .invalidArgument "Invalid worker instance ID"
  require (service.config.queueBackend = .rabbitmq) .failedPrecondition "RabbitMQ is not enabled"
  return identity

/-- The error codes that `Fail` accepts. -/
def workerErrors : List String := ["invalid_input", "inference_failed", "worker_stopping"]

/-- What each handler checks before its first store call, in its order. -/
def vet (service : WorkerService) (metadata : List (String × String))
    : WorkerRequest → Except Abort String
  | .claim workerId instanceId => do
      let identity ← service.authenticate metadata (some workerId) none
      require (service.config.queueBackend ≠ .rabbitmq) .failedPrecondition
        "Use RabbitMQ delivery and BeginAttempt"
      require (isWorkerId workerId) .invalidArgument "Invalid worker ID"
      require (instanceId = "" || isCanonicalUuid instanceId) .invalidArgument
        "Invalid worker instance ID"
      return identity
  | .registerConsumer workerId instanceId => service.consumerIdentity metadata workerId instanceId
  | .beginAttempt request => do
      let identity ← service.consumerIdentity metadata request.workerId request.instanceId
      require
        (isCanonicalUuid request.jobId && isCanonicalUuid request.messageId
          && isCanonicalUuid request.deliveryId)
        .invalidArgument "Invalid delivery identity"
      return identity
  | .reportAvailability workerId instanceId _ => do
      let identity ← service.authenticate metadata (some workerId) none
      require (isWorkerId workerId) .invalidArgument "Invalid worker ID"
      require (isCanonicalUuid instanceId) .invalidArgument "Invalid worker instance ID"
      return identity
  | .download jobId leaseToken => do
      let identity ← service.authenticate metadata none (some leaseToken)
      require (jobId ≠ "" && leaseToken ≠ "") .invalidArgument "Job and lease token required"
      return identity
  | .heartbeat _ leaseToken progressPercent => do
      let identity ← service.authenticate metadata none (some leaseToken)
      require (progressPercent.any (fun progress => 0 ≤ progress && progress ≤ 99))
        .invalidArgument "Progress must be within 0..99"
      return identity
  | .complete _ leaseToken _ segments byteSize => do
      let identity ← service.authenticate metadata none (some leaseToken)
      require (byteSize ≤ maxResultBytes) .resourceExhausted "Result is too large"
      require
        (segments.all (fun segment =>
          segment.start.any (fun start =>
            segment.stop.any (fun stop => 0 ≤ start && start ≤ stop))))
        .invalidArgument "Invalid segment timestamps"
      return identity
  | .fail _ leaseToken errorCode _ => do
      let identity ← service.authenticate metadata none (some leaseToken)
      require (workerErrors.contains errorCode) .invalidArgument "Unknown worker error code"
      return identity

end WorkerService

-----------------------------------------------------------------------------------------
-- Handlers
-----------------------------------------------------------------------------------------

/-- Where a handler stands: before a store call, inside its transaction, in `_claim_response`, in
the loop of `Download`, or at its end.
-/
inductive Stage
  | called
  | locked
  | selected
  | loaded
  | capable
  | claimed (disposition : Option Disposition) (claimed : ClaimedJob)
  | missing (claimed : ClaimedJob)
  | streaming (inputPath : String) (owned : Bool)
  | answered (response : WorkerResponse)
  | aborted (abort : Abort)
  deriving DecidableEq, Repr

/-- A running call of an authenticated worker. -/
structure Handler where
  identity : String
  request : WorkerRequest
  stage : Stage
  deriving DecidableEq, Repr

/-- What a store call reads from its surroundings. -/
structure Draw where
  now : Int
  clock : Int
  uuid : Uuid
  locked : List String
  deriving DecidableEq, Repr

namespace WorkerRequest

/-- The segments that `Complete` stores. -/
def storedSegments (segments : List ResultSegment) : List Segment :=
  segments.map (fun segment => ⟨segment.start.getD 0, segment.stop.getD 0, segment.text⟩)

/-- The next store call of a handler. -/
def call? (config : Config) (draw : Draw) : WorkerRequest → Stage → Option Op
  | .claim workerId instanceId, .called =>
      if config.workerPolicies = [] then
        some (.claimLegacy workerId instanceId false draw.uuid draw.locked draw.now)
      else
        some (.lockScheduler (.claim workerId instanceId) draw.now)
  | .claim workerId instanceId, .locked => some (.selectWorker workerId instanceId draw.clock)
  | .claim workerId instanceId, .selected =>
      some (.claimSlot workerId instanceId draw.uuid draw.locked draw.clock)
  | .registerConsumer workerId instanceId, .called =>
      if maxConcurrency config.workerPolicies workerId = 0 then
        none
      else
        some (.lockScheduler (.register workerId instanceId) draw.now)
  | .registerConsumer workerId instanceId, .locked =>
      some (.brokerAdmit workerId instanceId draw.clock)
  | .registerConsumer workerId instanceId, .selected =>
      some (.registerConsumer workerId instanceId draw.clock)
  | .beginAttempt request, .called => some (.lockScheduler (.begin request) draw.now)
  | .beginAttempt request, .locked => some (.brokerJob request draw.clock)
  | .beginAttempt request, .loaded => some (.brokerCapacity request draw.clock)
  | .beginAttempt request, .capable => some (.brokerStart request draw.uuid draw.clock)
  | .claim .., .missing claimed | .beginAttempt .., .missing claimed =>
      some (.failJob claimed.job.jobId claimed.leaseOwner "input_missing" false draw.uuid draw.now
        draw.clock)
  | .reportAvailability workerId instanceId ready, .called =>
      some (.reportAvailability workerId instanceId ready draw.now)
  | .heartbeat jobId leaseToken progressPercent, .called =>
      let progress := progressPercent.getD 0
      if config.workerPolicies = [] then
        some (.heartbeatLegacy jobId leaseToken progress draw.now draw.clock)
      else
        some (.lockScheduler (.heartbeat jobId leaseToken progress) draw.now)
  | .heartbeat jobId leaseToken progressPercent, .locked =>
      some (.heartbeat jobId leaseToken (progressPercent.getD 0) draw.clock)
  | .complete jobId leaseToken text segments _, .called =>
      some (.completeJob jobId leaseToken text (storedSegments segments) "" draw.now)
  | .fail jobId leaseToken errorCode retryable, .called =>
      some (.failJob jobId leaseToken errorCode retryable draw.uuid draw.now draw.clock)
  | _, _ => none

/-- Where a handler stands once the store has answered its call. -/
def resume (config : Config) : WorkerRequest → Stage → Reply → Stage
  | _, .missing _, _ => .aborted ⟨.failedPrecondition, "Input is unavailable"⟩
  | .claim .., .called, .unit => .locked
  | .claim .., .locked, .unit => .selected
  | .claim .., _, .claimed (some claimed) => .claimed none claimed
  | .claim .., _, .claimed none => .answered (.claimed none)
  | .registerConsumer .., .called, .unit => .locked
  | .registerConsumer .., .locked, .unit => .selected
  | .registerConsumer .., _, .admitted priority =>
      .answered (.consumer priority.isSome (priority.getD 0))
  | .beginAttempt _, .called, .unit => .locked
  | .beginAttempt _, .locked, .unit => .loaded
  | .beginAttempt _, .loaded, .unit => .capable
  | .beginAttempt _, _, .attempt disposition (some claimed) => .claimed (some disposition) claimed
  | .beginAttempt _, _, .attempt disposition none => .answered (.attempt disposition none)
  | .reportAvailability .., _, _ => .answered (.availability true config.availabilityTtlSeconds)
  | .heartbeat .., .called, .unit => .locked
  | .heartbeat .., _, .rows count | .complete .., _, .rows count | .fail .., _, .rows count =>
      .answered (.ack (count = 1))
  | _, stage, _ => stage

end WorkerRequest

/-- The response of `_claim_response`. -/
def claimResponse (config : Config) (claimed : ClaimedJob) (size : Nat) : ClaimResponse where
  jobId := claimed.job.jobId
  leaseToken := claimed.leaseOwner
  leaseSeconds := config.leaseSeconds
  format := claimed.job.format
  preset := claimed.job.preset
  language := claimed.job.languageOverride
  initialPrompt := claimed.job.initialPromptOverride
  inputSize := size
  traceparent := claimed.job.traceparent
  tracestate := claimed.job.tracestate

/-- `get_owned_job` -/
def Db.ownedJob? (s : Db) (jobId leaseOwner : String) (now : Int) : Option JobRecord :=
  s.jobs.find? (fun row =>
    row.jobId = jobId && row.leaseOwner = leaseOwner && row.holdsLease now)

-----------------------------------------------------------------------------------------
-- The endpoint
-----------------------------------------------------------------------------------------

/-- The database and the running calls. -/
structure Endpoint where
  db : Db
  handlers : List Handler

/-- What can happen next: a request arrives, a handler goes on, or another process uses the store.
-/
inductive Action
  | receive (metadata : List (String × String)) (request : WorkerRequest)
  | call (index : Nat) (draw : Draw)
  | unlisted (index : Nat)
  | stat (index : Nat) (size : Option Nat)
  | own (index : Nat) (now : Int)
  | read (index : Nat) (data : Option (List UInt8))
  | fault (index : Nat)
  | other (config : Config) (op : Op)

/-- What an observer of the endpoint sees of a step. -/
inductive Served
  | received (metadata : List (String × String)) (request : WorkerRequest)
    (outcome : Except Abort String)
  | stored (handler : Handler) (event : Event)
  | owned (handler : Handler) (jobId leaseToken : String) (job : Option JobRecord)
  | sent (handler : Handler) (inputPath : String) (data : List UInt8)
  | quiet
  | other (event : Event)

namespace Endpoint

def start (clock : Int) : Endpoint := ⟨Db.empty clock, []⟩

/-- The endpoint with one handler further on. -/
def proceed (s : Endpoint) (index : Nat) (handler : Handler) (stage : Stage) : Endpoint :=
  { s with handlers := s.handlers.set index { handler with stage } }

/-- One step of the endpoint, or nothing where the handler has to wait or has no such step. -/
def exec (service : WorkerService) (s : Endpoint) : Action → Option (Served × Endpoint)
  | .receive metadata request =>
      let outcome := service.vet metadata request
      match outcome with
      | .error _ => some (.received metadata request outcome, s)
      | .ok identity =>
          some
            (.received metadata request outcome,
              { s with handlers := s.handlers ++ [⟨identity, request, .called⟩] })
  | .call index draw => do
      let handler ← s.handlers[index]?
      let op ← handler.request.call? service.config draw handler.stage
      let (db, reply) ← s.db.exec service.config op
      let stage := handler.request.resume service.config handler.stage reply
      some (.stored handler ⟨service.config, op, reply⟩, { s with db }.proceed index handler stage)
  -- register_consumer returns None at once for a pool without a policy or capacity
  | .unlisted index => do
      let handler ← s.handlers[index]?
      match handler.request, handler.stage with
      | .registerConsumer workerId _, .called =>
          if maxConcurrency service.config.workerPolicies workerId = 0 then
            some (.quiet, s.proceed index handler (.answered (.consumer false 0)))
          else
            none
      | _, _ => none
  | .stat index size => do
      let handler ← s.handlers[index]?
      match handler.stage with
      | .claimed disposition claimed =>
          let stage :=
            match size, disposition with
            | none, _ => .missing claimed
            | some size, none =>
                .answered (.claimed (some (claimResponse service.config claimed size)))
            | some size, some disposition =>
                .answered
                  (.attempt disposition (some (claimResponse service.config claimed size)))
          some (.quiet, s.proceed index handler stage)
      | _ => none
  | .own index now => do
      let handler ← s.handlers[index]?
      match handler.request, handler.stage with
      | .download jobId leaseToken, stage =>
          let job := s.db.ownedJob? jobId leaseToken now
          let lost := Stage.aborted ⟨.failedPrecondition, "Lease is no longer owned"⟩
          match stage with
          | .called =>
              some
                (.owned handler jobId leaseToken job,
                  s.proceed index handler
                    ((job.map (fun row => Stage.streaming row.inputPath false)).getD lost))
          | .streaming inputPath false =>
              some
                (.owned handler jobId leaseToken job,
                  s.proceed index handler
                    (if job.isSome then .streaming inputPath true else lost))
          | _ => none
      | _, _ => none
  | .read index data => do
      let handler ← s.handlers[index]?
      match handler.stage with
      | .streaming inputPath true =>
          match data with
          | none =>
              some
                (.quiet,
                  s.proceed index handler
                    (.aborted ⟨.failedPrecondition, "Input is unavailable"⟩))
          | some [] => some (.quiet, s.proceed index handler (.answered .streamed))
          | some (byte :: rest) =>
              some
                (.sent handler inputPath (byte :: rest),
                  s.proceed index handler (.streaming inputPath false))
      | _ => none
  -- an exception or a cancelled call; its transaction is rolled back by the server
  | .fault index => some (.quiet, { s with handlers := s.handlers.eraseIdx index })
  | .other config op => do
      let (db, reply) ← s.db.exec config op
      some (.other ⟨config, op, reply⟩, { s with db })

/-- Another process starts no attempt in the name of a registered worker. -/
def Foreign (service : WorkerService) (event : Event) : Prop :=
  ∀ jobId token deliveryId,
    event.act? jobId = some (.start token deliveryId)
    → ∀ entry ∈ service.credentials.hashes, hasPrefix (entry.1 ++ "/") token = false

/-- A step of the endpoint among other processes. -/
def Step (service : WorkerService) (s : Endpoint) (label : Served) (t : Endpoint) : Prop :=
  (∃ action, exec service s action = some (label, t))
  ∧ ∀ event, label = .other event → Foreign service event

end Endpoint

end Transcriber
