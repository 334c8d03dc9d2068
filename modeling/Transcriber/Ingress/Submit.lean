import Mathlib.Logic.Function.Basic
import Transcriber.Store.Invariants

/-! The ingress service: concurrent Submit streams over the job store and the job volume.
Each stream runs `Submit`, `reserve_upload` and `_submit_reserved` step by step; between its
steps other streams, clients, workers and the cleanup loop take theirs.
-/

namespace Transcriber

-----------------------------------------------------------------------------------------
-- Streams
-----------------------------------------------------------------------------------------

abbrev Bytes := List UInt8

/-- How a Submit call ends; every other error is `aborted`. -/
inductive Outcome
  | accepted (jobId : String)
  | replayed (jobId : String)
  | busy
  | conflict
  | aborted
  deriving DecidableEq, Repr

/-- Why an upload is rejected. -/
inductive Rejection
  | tooLarge
  | exhausted
  | failed
  deriving DecidableEq, Repr

/-- The `error_code` of a rejected upload. -/
def Rejection.errorCode : Rejection → String
  | .tooLarge => "input_too_large"
  | .exhausted => "storage_capacity"
  | .failed => "upload_failed"

/-- How far a Submit call has come: `absent` after a lookup without a row, `ended` after its
iterator ended, `received` after the poll of `is_active()`, `failing` and `rejecting` in its
exception handler, `leaving` in the `finally` of `reserve_upload`.
-/
inductive SubmitPhase
  | opened
  | locked
  | absent
  | reserved
  | sweeping
  | writing
  | ended
  | received
  | published
  | failing (reason : Rejection)
  | rejecting (reason : Rejection)
  | leaving (outcome : Outcome)
  | finished (outcome : Outcome)
  deriving DecidableEq, Repr

/-- A Submit call: what its client sends, how much of it was read, whether the client closed
its send side or cancelled before that, what `context.is_active()` reads, and its reservation.
-/
structure Stream where
  options : SubmitOptions
  chunks : List Bytes
  position : Nat
  total : Nat
  closed : Bool
  cancelled : Bool
  active : Bool
  reservation : Option JobRecord
  phase : SubmitPhase
  deriving DecidableEq, Repr

/-- A call whose first chunk has arrived. -/
def Stream.new (options : SubmitOptions) (chunks : List Bytes) : Stream :=
  ⟨options, chunks, 0, 0, false, false, true, none, .opened⟩

/-- The client closed its send side and everything it sent was read. -/
def Stream.complete (stream : Stream) : Prop :=
  stream.closed ∧ stream.position = stream.chunks.length

/-- The tuple that `reserve_upload` compares with the stored row. -/
def SubmitOptions.sameUpload (options : SubmitOptions) (job : JobRecord) : Bool :=
  job.format = options.format
    && job.preset = options.preset
    && job.languageOverride = options.languageOverride
    && job.initialPromptOverride = options.initialPromptOverride
    && job.retainUntilAck = options.retainUntilAck

-----------------------------------------------------------------------------------------
-- The service
-----------------------------------------------------------------------------------------

/-- A file `upload-*.part` next to the input file of its job. -/
structure Partial where
  inputPath : String
  data : Bytes
  deriving DecidableEq, Repr

/-- The job volume: input files by path and the partial file of each stream. -/
structure Volume where
  inputs : String → Option Bytes
  partials : Nat → Option Partial

/-- The ingress with its store, its volume, the session locks by key and the files that
`_cleanup_job_files` is still to remove.
-/
structure Service where
  storageRoot : String
  maxAudioBytes : Nat
  hashtext : String → Int
  db : Db
  volume : Volume
  streams : Nat → Option Stream
  locks : Int → Option Nat
  removing : List String

/-- An ingress over an empty store and an empty volume. -/
def Service.empty (storageRoot : String) (maxAudioBytes : Nat) (hashtext : String → Int)
    (clock : Int)
    : Service where
  storageRoot
  maxAudioBytes
  hashtext
  db := .empty clock
  volume := ⟨fun _ => none, fun _ => none⟩
  streams := fun _ => none
  locks := fun _ => none
  removing := []

/-- A step of the ingress: of stream `i`, of its client and its connection, of the cleanup, or
of anybody else on the store.
-/
inductive Label
  | submit (i : Nat) (options : SubmitOptions) (chunks : List Bytes)
  | lock (i : Nat)
  | lookup (i : Nat)
  | create (i : Nat) (config : Config) (jobId : Uuid) (now : Int)
  | reserve (i : Nat) (config : Config) (now : Int)
  | unlink (i other : Nat)
  | openPart (i : Nat)
  | chunk (i : Nat)
  | eof (i : Nat)
  | poll (i : Nat)
  | rename (i : Nat)
  | queue (i : Nat) (config : Config) (messageId : Uuid) (now clock : Int)
  | raise (i : Nat) (reason : Rejection)
  | discard (i : Nat)
  | reject (i : Nat) (config : Config) (messageId : Uuid) (now clock : Int)
  | abort (i : Nat)
  | leave (i : Nat)
  | crash (i : Nat)
  | cancel (i : Nat)
  | close (i : Nat)
  | deactivate (i : Nat)
  | loseLock (i : Nat)
  | store (config : Config) (op : Op)
  | removeInput (path : String)
  | removePart (path : String) (i : Nat)

namespace Service

def setStream (s : Service) (i : Nat) (stream : Stream) : Service :=
  { s with streams := Function.update s.streams i (some stream) }

def setPart (s : Service) (i : Nat) (part : Option Partial) : Service :=
  { s with volume.partials := Function.update s.volume.partials i part }

def setInput (s : Service) (path : String) (data : Option Bytes) : Service :=
  { s with volume.inputs := Function.update s.volume.inputs path data }

def setLock (s : Service) (key : Int) (holder : Option Nat) : Service :=
  { s with locks := Function.update s.locks key holder }

/-- The session of the stream is open and holds its lock; a stream without a request id needs
none.
-/
def holds (s : Service) (i : Nat) (stream : Stream) : Bool :=
  stream.options.requestId = "" || s.locks (s.hashtext stream.options.requestId) = some i

/-- A step of a stream in one phase. -/
def on (s : Service) (i : Nat) (phase : SubmitPhase) (step : Stream → Option Service)
    : Option Service :=
  (s.streams i).bind (fun stream => if stream.phase = phase then step stream else none)

/-- A step of a stream in one phase that has its reservation. -/
def onJob (s : Service) (i : Nat) (phase : SubmitPhase)
    (step : Stream → JobRecord → Option Service)
    : Option Service :=
  s.on i phase (fun stream => stream.reservation.bind (step stream))

-----------------------------------------------------------------------------------------
-- Submit and reserve_upload
-----------------------------------------------------------------------------------------

def submit (s : Service) (i : Nat) (options : SubmitOptions) (chunks : List Bytes)
    : Option Service :=
  if (s.streams i).isSome || chunks.isEmpty then
    none
  else
    some (s.setStream i (.new options chunks))

/-- `pg_try_advisory_lock(hashtextextended(request_id, 0))` -/
def lock (s : Service) (i : Nat) : Option Service :=
  s.on i .opened (fun stream =>
    if stream.options.requestId = "" then
      some (s.setStream i { stream with phase := .locked })
    else if (s.locks (s.hashtext stream.options.requestId)).isSome then
      some (s.setStream i { stream with phase := .finished .busy })
    else
      some ((s.setStream i { stream with phase := .locked }).setLock
        (s.hashtext stream.options.requestId) (some i)))

/-- `upload_lookup.sql` and the comparison of options. -/
def lookup (s : Service) (i : Nat) : Option Service :=
  s.on i .locked (fun stream =>
    if stream.options.requestId = "" then
      some (s.setStream i { stream with phase := .absent })
    else if !s.holds i stream then
      none
    else
      match s.db.upload? stream.options.requestId with
      | none => some (s.setStream i { stream with phase := .absent })
      | some job =>
          if stream.options.sameUpload job then
            some (s.setStream i { stream with reservation := some job, phase := .reserved })
          else
            some (s.setStream i { stream with phase := .leaving .conflict }))

/-- `create_job` on a new connection. -/
def create (s : Service) (i : Nat) (config : Config) (jobId : Uuid) (now : Int)
    : Option Service :=
  s.on i .absent (fun stream =>
    if config.storageRoot ≠ s.storageRoot then
      none
    else
      match s.db.exec config (.createJob stream.options jobId now) with
      | none => none
      | some (db, .created _) =>
          some ({ s with db }.setStream i
            { stream with
              reservation := some (JobRecord.created config stream.options jobId now)
              phase := .reserved })
      | some (db, _) => some ({ s with db }.setStream i { stream with phase := .leaving .aborted }))

-----------------------------------------------------------------------------------------
-- _submit_reserved
-----------------------------------------------------------------------------------------

/-- The replay branch, or `mark_downloading`. -/
def reserve (s : Service) (i : Nat) (config : Config) (now : Int) : Option Service :=
  s.onJob i .reserved (fun stream job =>
    if !job.status.uploading then
      some (s.setStream i { stream with phase := .leaving (.replayed job.jobId) })
    else
      (s.db.exec config (.markDownloading job.jobId now)).map (fun done =>
        { s with db := done.1 }.setStream i { stream with phase := .sweeping }))

/-- One previous partial file of the job is removed. -/
def unlink (s : Service) (i other : Nat) : Option Service :=
  s.onJob i .sweeping (fun _ job =>
    match s.volume.partials other with
    | none => none
    | some part => if part.inputPath = job.inputPath then some (s.setPart other none) else none)

def openPart (s : Service) (i : Nat) : Option Service :=
  s.onJob i .sweeping (fun stream job =>
    some ((s.setPart i (some ⟨job.inputPath, []⟩)).setStream i
      { stream with phase := .writing }))

/-- The loop body: a chunk is counted, then appended to the partial file if that is still
linked.
-/
def chunk (s : Service) (i : Nat) : Option Service :=
  s.onJob i .writing (fun stream _ =>
    match stream.chunks[stream.position]? with
    | none => none
    | some data =>
        if s.maxAudioBytes < stream.total + data.length then
          some (s.setStream i { stream with phase := .failing .tooLarge })
        else
          some ((s.setPart i
              ((s.volume.partials i).map (fun part =>
                { part with data := part.data ++ data }))).setStream i
            { stream with
              position := stream.position + 1
              total := stream.total + data.length }))

/-- The iterator ends: after the last chunk of a closed stream, or anywhere once the client
cancelled.
-/
def eof (s : Service) (i : Nat) : Option Service :=
  s.onJob i .writing (fun stream _ =>
    if stream.cancelled || (stream.closed && stream.position = stream.chunks.length) then
      some (s.setStream i { stream with phase := .ended })
    else
      none)

/-- `if not context.is_active(): raise InterruptedError` -/
def poll (s : Service) (i : Nat) : Option Service :=
  s.onJob i .ended (fun stream _ =>
    some (s.setStream i
      { stream with phase := if stream.active then .received else .failing .failed }))

/-- `os.replace(temporary, upload.input_path)`, which fails once the partial is unlinked. -/
def rename (s : Service) (i : Nat) : Option Service :=
  s.onJob i .received (fun stream job =>
    match s.volume.partials i with
    | none => some (s.setStream i { stream with phase := .failing .failed })
    | some part =>
        some (((s.setInput job.inputPath (some part.data)).setPart i none).setStream i
          { stream with phase := .published }))

def queue (s : Service) (i : Nat) (config : Config) (messageId : Uuid) (now clock : Int)
    : Option Service :=
  s.onJob i .published (fun stream job =>
    match s.db.exec config (.markQueued job.jobId messageId now clock) with
    | none => none
    | some (db, .queued (some _)) =>
        some ({ s with db }.setStream i
          { stream with phase := .leaving (.accepted job.jobId) })
    | some (db, _) => some ({ s with db }.setStream i { stream with phase := .leaving .aborted }))

-----------------------------------------------------------------------------------------
-- Errors and ends
-----------------------------------------------------------------------------------------

/-- An exception inside the `try` of `_submit_reserved`, at any of its steps. -/
def raise (s : Service) (i : Nat) (reason : Rejection) : Option Service :=
  (s.streams i).bind (fun stream =>
    match stream.phase with
    | .sweeping | .writing | .ended | .received | .published =>
        if reason = .tooLarge then
          none
        else
          some (s.setStream i { stream with phase := .failing reason })
    | _ => none)

/-- `temporary.unlink(missing_ok=True)` -/
def discard (s : Service) (i : Nat) (reason : Rejection) : Option Service :=
  s.onJob i (.failing reason) (fun stream _ =>
    some ((s.setPart i none).setStream i { stream with phase := .rejecting reason }))

/-- `mark_upload_interrupted`, or `fail_job` under the empty token. -/
def reject (s : Service) (i : Nat) (reason : Rejection) (config : Config) (messageId : Uuid)
    (now clock : Int)
    : Option Service :=
  s.onJob i (.rejecting reason) (fun stream job =>
    let op :=
      if job.requestId ≠ "" && reason ≠ .tooLarge then
        Op.markUploadInterrupted job.jobId now
      else
        Op.failJob job.jobId "" reason.errorCode false messageId now clock
    (s.db.exec config op).map (fun done =>
      { s with db := done.1 }.setStream i { stream with phase := .leaving .aborted }))

/-- The reason that the exception handler of a stream carries. -/
def reason (s : Service) (i : Nat) : Rejection :=
  match (s.streams i).map Stream.phase with
  | some (.failing reason) | some (.rejecting reason) => reason
  | _ => .failed

/-- An exception outside that `try`, such as a lost database connection. -/
def abort (s : Service) (i : Nat) : Option Service :=
  (s.streams i).bind (fun stream =>
    match stream.phase with
    | .locked | .absent | .reserved | .sweeping | .published | .rejecting _ | .leaving _ =>
        some (s.setStream i { stream with phase := .leaving .aborted })
    | _ => none)

/-- `pg_advisory_unlock`, which raises on a lost connection; then the call returns. -/
def leave (s : Service) (i : Nat) : Option Service :=
  (s.streams i).bind (fun stream =>
    match stream.phase with
    | .leaving outcome =>
        if stream.options.requestId = "" then
          some (s.setStream i { stream with phase := .finished outcome })
        else if s.holds i stream then
          some ((s.setStream i { stream with phase := .finished outcome }).setLock
            (s.hashtext stream.options.requestId) none)
        else
          some (s.setStream i { stream with phase := .finished .aborted })
    | _ => none)

/-- The lock of a session that ends is released. -/
def release (s : Service) (i : Nat) (stream : Stream) : Service :=
  if s.locks (s.hashtext stream.options.requestId) = some i then
    s.setLock (s.hashtext stream.options.requestId) none
  else
    s

/-- The process of the call dies; its partial file stays. -/
def crash (s : Service) (i : Nat) : Option Service :=
  (s.streams i).bind (fun stream =>
    match stream.phase with
    | .finished _ => none
    | _ => some ((s.release i stream).setStream i { stream with phase := .finished .aborted }))

-----------------------------------------------------------------------------------------
-- Clients, other operations on the store, file cleanup
-----------------------------------------------------------------------------------------

/-- The operations that only the steps above perform, or that no caller performs so. -/
def reservedOp : Op → Bool
  | .createJob .. | .markDownloading .. | .markUploadInterrupted .. | .markQueued .. => true
  | .failJob _ token .. => token = ""
  | .completeJob _ _ _ _ resultPath _ => resultPath ≠ ""
  | _ => false

/-- The files of a deleted job, which `_cleanup_job_files` is to remove. -/
def removedFiles : Op → Reply → List String
  | .cleanup .., .removed (some (inputPath, resultPath)) =>
      inputPath :: if resultPath = "" then [] else [resultPath]
  | _, _ => []

/-- Anybody else on the store. -/
def store (s : Service) (config : Config) (op : Op) : Option Service :=
  if reservedOp op then
    none
  else
    (s.db.exec config op).map (fun done =>
      { s with db := done.1, removing := removedFiles op done.2 ++ s.removing })

/-- One step of the ingress. -/
def next (s : Service) : Label → Option Service
  | .submit i options chunks => s.submit i options chunks
  | .lock i => s.lock i
  | .lookup i => s.lookup i
  | .create i config jobId now => s.create i config jobId now
  | .reserve i config now => s.reserve i config now
  | .unlink i other => s.unlink i other
  | .openPart i => s.openPart i
  | .chunk i => s.chunk i
  | .eof i => s.eof i
  | .poll i => s.poll i
  | .rename i => s.rename i
  | .queue i config messageId now clock => s.queue i config messageId now clock
  | .raise i reason => s.raise i reason
  | .discard i => s.discard i (s.reason i)
  | .reject i config messageId now clock =>
      s.reject i (s.reason i) config messageId now clock
  | .abort i => s.abort i
  | .leave i => s.leave i
  | .crash i => s.crash i
  | .cancel i =>
      (s.streams i).bind (fun stream =>
        if stream.closed then none else some (s.setStream i { stream with cancelled := true }))
  | .close i =>
      (s.streams i).bind (fun stream =>
        if stream.cancelled then none else some (s.setStream i { stream with closed := true }))
  | .deactivate i =>
      (s.streams i).map (fun stream => s.setStream i { stream with active := false })
  | .loseLock i => (s.streams i).map (s.release i)
  | .store config op => s.store config op
  | .removeInput path => if path ∈ s.removing then some (s.setInput path none) else none
  | .removePart path i =>
      match s.volume.partials i with
      | none => none
      | some part =>
          if path ∈ s.removing ∧ part.inputPath = path then some (s.setPart i none) else none

def Step (s : Service) (label : Label) (t : Service) : Prop := s.next label = some t

end Service

end Transcriber
