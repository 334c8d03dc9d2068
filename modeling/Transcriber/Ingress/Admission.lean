import Mathlib.Logic.Function.Basic
import Transcriber.Library.Execution
import Transcriber.Library.Rounding
import Transcriber.Library.Table

/-! The job volume that cooperating ingress writers share: `UploadAdmission` with its file lock, the
walk of `storage_bytes`, and what `_submit_reserved` does to the volume.
Each step is one operation of the file system; of the audio only the sizes are kept.
-/

namespace Transcriber.Admission

open Rounding

-----------------------------------------------------------------------------------------
-- The volume
-----------------------------------------------------------------------------------------

/-- The components of a path below JOB_STORAGE_DIR; the root has none. -/
abbrev Path := List String

instance : LawfulBEq Path := inferInstance

structure File where
  inode : Nat
  path : Path
  size : Nat
  deriving DecidableEq, Repr

/-- The tree below the storage root, and the free bytes of its file system, of which only written
audio takes some.
-/
structure Volume where
  files : List File
  directories : List Path
  nextInode : Nat
  free : Nat
  deriving DecidableEq, Repr

/-- The limits that the ingress processes share, with the `f_frsize` of their volume. -/
structure UploadLimits where
  audioBytes : Nat
  storageBytes : Nat
  minFreeBytes : Nat
  concurrentUploads : Nat
  block : Nat
  positive : 0 < block

namespace File

/-- `storage_bytes` leaves out the directory `.admission` of the root. -/
def counted (file : File) : Bool :=
  file.path.length < 2 || file.path.head? ≠ some ".admission"

/-- The greater of `st_size` and `st_blocks * 512`; a file occupies whole blocks. -/
def bytes (block : Nat) (file : File) : Nat := max file.size (roundUp block file.size)

/-- What the file adds to `storage_bytes`. -/
def weight (block : Nat) (file : File) : Nat := if file.counted then file.bytes block else 0

end File

/-- The names that the pattern `upload-*.part` matches. -/
def isPartial (name : String) : Bool := name.startsWith "upload-" && name.endsWith ".part"

abbrev PartialName := { name : String // isPartial name = true }

namespace Volume

/-- `storage_bytes` of a tree that stands still. -/
def storageBytes (block : Nat) (volume : Volume) : Nat :=
  (volume.files.map (File.weight block)).sum

/-- The file under a path. -/
def file? (volume : Volume) (path : Path) : Option File :=
  Table.lookup File.path path volume.files

def isDirectory (volume : Volume) (path : Path) : Bool := path = [] || path ∈ volume.directories

/-- The files in a directory. -/
def entries (volume : Volume) (directory : Path) : List Path :=
  (volume.files.map File.path).filter (fun path => path ≠ [] && path.dropLast = directory)

/-- The directories in a directory, `.admission` of the root left out. -/
def subdirectories (volume : Volume) (directory : Path) : List Path :=
  volume.directories.filter (fun path =>
    path ≠ [] && path.dropLast = directory && path ≠ [".admission"])

/-- The names of the partial uploads in a directory. -/
def partials (volume : Volume) (directory : Path) : List PartialName :=
  ((volume.entries directory).filterMap List.getLast?).filterMap (fun name =>
    if matched : isPartial name = true then some ⟨name, matched⟩ else none)

def unlink (volume : Volume) (path : Path) : Volume :=
  { volume with files := Table.delete (fun file => file.path = path) volume.files }

/-- `open("xb")`: a new empty file. -/
def create (volume : Volume) (path : Path) : Volume :=
  { volume with
    files := volume.files ++ [⟨volume.nextInode, path, 0⟩]
    nextInode := volume.nextInode + 1 }

/-- A write to an open file, which may have lost its name, and what it takes of the free bytes. -/
def append (volume : Volume) (inode bytes used : Nat) : Volume :=
  { volume with
    files :=
      volume.files.map (fun file =>
        if file.inode = inode then { file with size := file.size + bytes } else file)
    free := volume.free - used }

/-- `os.replace`. -/
def replace (volume : Volume) (source target : Path) : Volume :=
  if source = target then
    volume
  else
    { volume.unlink target with
      files :=
        (volume.unlink target).files.map (fun file =>
          if file.path = source then { file with path := target } else file) }

def mkdir (volume : Volume) (path : Path) : Volume :=
  if path ∈ volume.directories then
    volume
  else
    { volume with directories := volume.directories ++ [path] }

/-- Nothing is below the directory. -/
def isEmpty (volume : Volume) (directory : Path) : Bool :=
  volume.files.all (fun file => !directory.isPrefixOf file.path)
  && volume.directories.all (fun path => path = directory || !directory.isPrefixOf path)

def rmdir (volume : Volume) (directory : Path) : Volume :=
  { volume with directories := volume.directories.filter (fun path => path ≠ directory) }

end Volume

-----------------------------------------------------------------------------------------
-- storage_bytes
-----------------------------------------------------------------------------------------

/-- `storage_bytes` under way: the directories that `os.walk` has still to list, the listed files
that are still to be inspected, and the sum so far.
-/
structure Walk where
  stack : List Path
  pending : List Path
  total : Nat
  deriving DecidableEq, Repr

def Walk.start : Walk := ⟨[[]], [], 0⟩

/-- A step of `storage_bytes`: a file that is gone counts nothing, a directory that is gone raises.
-/
inductive WalkStep
  | going (walk : Walk)
  | done (total : Nat)
  | failed
  deriving DecidableEq, Repr

def Walk.next (block : Nat) (volume : Volume) (walk : Walk) : WalkStep :=
  match walk.pending, walk.stack with
  | path :: pending, stack =>
      .going
        ⟨stack, pending, walk.total + ((volume.file? path).map (File.bytes block)).getD 0⟩
  | [], directory :: stack =>
      if volume.isDirectory directory then
        .going
          ⟨volume.subdirectories directory ++ stack, volume.entries directory, walk.total⟩
      else
        .failed
  | [], [] => .done walk.total

-----------------------------------------------------------------------------------------
-- Uploads
-----------------------------------------------------------------------------------------

/-- What `_check_capacity` is called for: an admission, or a chunk. -/
inductive Purpose
  | admission
  | chunk (size : Nat)
  deriving DecidableEq, Repr

/-- The `extra` bytes of a check. -/
def Purpose.extra : Purpose → Nat
  | .admission => 0
  | .chunk size => size

/-- How far an upload has come: `globbing` and `clearing` remove earlier partials; `locking` to
`registering` are the entry of `upload()` and, for a chunk, `locking` to `appending` are `write`;
`leaving` and `unregistering` are the exit of `upload()`; `aborting` is the exception handler.
-/
inductive UploadStage
  | idle
  | globbing
  | clearing (names : List PartialName)
  | locking (purpose : Purpose)
  | counting
  | scanning (purpose : Purpose) (walk : Walk)
  | budgeting (purpose : Purpose) (total : Nat)
  | reserving (purpose : Purpose)
  | registering
  | opening
  | streaming
  | appending (left budget : Nat)
  | syncing
  | leaving (complete : Bool)
  | unregistering (complete : Bool)
  | publishing
  | replacing
  | aborting
  deriving DecidableEq, Repr

/-- An upload of one ingress process; `handle` is its open file. -/
structure Upload where
  directory : Path
  final : String
  temporary : String
  handle : Option Nat
  total : Nat
  stage : UploadStage
  deriving DecidableEq, Repr

def Upload.idle : Upload := ⟨[], "", "", none, 0, .idle⟩

def Upload.temporaryPath (upload : Upload) : Path := upload.directory ++ [upload.temporary]

def Upload.inputPath (upload : Upload) : Path := upload.directory ++ [upload.final]

/-- A slot token: the upload that made it, and whether it still holds its lock. -/
structure Token where
  owner : Nat
  held : Bool
  deriving DecidableEq, Repr

/-- The volume with its admission lock, its tokens and any number of uploads. -/
structure Storage extends Volume where
  lock : Option Nat
  tokens : List Token
  uploads : Nat → Upload

/-- What decides a step: how a call ends, what the client sends, how much a write takes. -/
inductive UploadChoice
  | go
  | fail
  | chunk (size : Nat)
  | append (bytes used : Nat)
  deriving DecidableEq, Repr

/-- What a step shows. -/
inductive StorageLabel
  | silent
  | chunk (i size : Nat)
  | refused (i : Nat) (purpose : Purpose)
  | wrote (i bytes : Nat)
  | accepted (i : Nat)
  deriving DecidableEq, Repr

/-- Where an exception leads: out of the call before its `try`, through the exit of `upload()`, or
to the handler.
-/
def UploadStage.raised : UploadStage → Option UploadStage
  | .idle => none
  | .globbing | .clearing _ | .aborting => some .idle
  | .locking .admission | .counting | .scanning .admission _ | .budgeting .admission _
  | .reserving .admission | .registering | .leaving _ | .unregistering _ | .publishing
  | .replacing =>
      some .aborting
  | .locking (.chunk _) | .scanning (.chunk _) _ | .budgeting (.chunk _) _
  | .reserving (.chunk _) | .opening | .streaming | .appending .. | .syncing =>
      some (.leaving false)

/-- Where CapacityExceeded leads. -/
def Purpose.refused : Purpose → UploadStage
  | .admission => .aborting
  | .chunk _ => .leaving false

namespace Storage

/-- The upload at a new stage. -/
def move (s : Storage) (i : Nat) (stage : UploadStage) : Storage :=
  { s with uploads := Function.update s.uploads i { s.uploads i with stage } }

/-- The upload at a new stage, its admission lock released. -/
def release (s : Storage) (i : Nat) (stage : UploadStage) : Storage :=
  { s.move i stage with lock := if s.lock = some i then none else s.lock }

/-- The locks of the upload's token are released with its file. -/
def drop (s : Storage) (i : Nat) : Storage :=
  { s with tokens := s.tokens.map (fun token => { token with held := token.held && token.owner ≠ i }) }

/-- An exception in the upload. -/
def raise (s : Storage) (i : Nat) : Option Storage :=
  (s.uploads i).stage.raised.map (fun stage =>
    match (s.uploads i).stage with
    | .leaving _ | .unregistering _ => (s.release i stage).drop i
    | _ => s.release i stage)

/-- A step of an upload, or nothing where it has to wait. -/
def run (limits : UploadLimits) (s : Storage) (i : Nat) (choice : UploadChoice)
    : Option (StorageLabel × Storage) :=
  let upload := s.uploads i
  match upload.stage with
  | .idle => none
  | .globbing => some (.silent, s.move i (.clearing (s.partials upload.directory)))
  | .clearing (name :: names) =>
      some
        (.silent,
          { s.move i (.clearing names) with
            toVolume := s.unlink (upload.directory ++ [name.val]) })
  | .clearing [] => some (.silent, s.move i (.locking .admission))
  | .locking purpose =>
      if s.lock.isSome then
        none
      else
        let stage := match purpose with
          | .admission => .counting
          | .chunk _ => .scanning purpose .start
        some
          (.silent,
            { s.move i stage with lock := some i, toVolume := s.mkdir [".admission"] })
  | .counting =>
      if limits.concurrentUploads ≤ s.tokens.countP Token.held then
        some (.refused i .admission, s.release i .aborting)
      else
        some
          (.silent,
            { s.move i (.scanning .admission .start) with
              tokens := s.tokens.filter Token.held })
  | .scanning purpose walk =>
      match walk.next limits.block s.toVolume with
      | .going walk => some (.silent, s.move i (.scanning purpose walk))
      | .done total => some (.silent, s.move i (.budgeting purpose total))
      | .failed => (s.raise i).map (fun t => (.silent, t))
  | .budgeting purpose total =>
      if limits.storageBytes < total + roundUp limits.block purpose.extra then
        some (.refused i purpose, s.release i purpose.refused)
      else
        some (.silent, s.move i (.reserving purpose))
  | .reserving purpose =>
      let allocation := roundUp limits.block purpose.extra
      if (s.free : Int) - allocation < limits.minFreeBytes then
        some (.refused i purpose, s.release i purpose.refused)
      else
        match purpose with
        | .admission => some (.silent, s.move i .registering)
        | .chunk size => some (.silent, s.move i (.appending size allocation))
  | .registering =>
      some (.silent, { s.release i .opening with tokens := s.tokens ++ [⟨i, true⟩] })
  | .opening =>
      if s.isDirectory upload.directory && (s.file? upload.temporaryPath).isNone then
        some
          (.silent,
            { s with
              toVolume := s.create upload.temporaryPath
              uploads :=
                Function.update s.uploads i
                  { upload with handle := some s.nextInode, stage := .streaming } })
      else
        (s.raise i).map (fun t => (.silent, t))
  | .streaming =>
      match choice with
      | .chunk size =>
          let read := { upload with total := upload.total + size }
          let s := { s with uploads := Function.update s.uploads i read }
          if limits.audioBytes < read.total then
            some (.chunk i size, s.move i (.leaving false))
          else if size = 0 then
            some (.accepted i, s)
          else
            some (.chunk i size, s.move i (.locking (.chunk size)))
      | .go => some (.silent, s.move i .syncing)
      | _ => none
  | .appending left budget =>
      match choice with
      | .append bytes used =>
          if bytes ≤ left && used ≤ budget && used ≤ s.free then
            some
              (.wrote i bytes,
                { s.move i (.appending (left - bytes) (budget - used)) with
                  toVolume :=
                    match upload.handle with
                    | some inode => s.append inode bytes used
                    | none => s.toVolume })
          else
            none
      | .go => if left = 0 then some (.accepted i, s.release i .streaming) else none
      | _ => none
  | .syncing => some (.silent, s.move i (.leaving true))
  | .leaving complete =>
      if s.lock.isSome then
        none
      else
        some
          (.silent,
            { s.move i (.unregistering complete) with
              lock := some i
              toVolume := s.mkdir [".admission"] })
  | .unregistering complete =>
      some
        (.silent,
          { s.release i (if complete then .publishing else .aborting) with
            tokens := s.tokens.filter (fun token => token.owner ≠ i) })
  | .publishing =>
      if s.lock.isSome then
        none
      else
        some
          (.silent,
            { s.move i .replacing with lock := some i, toVolume := s.mkdir [".admission"] })
  | .replacing =>
      if (s.file? upload.temporaryPath).isSome then
        -- the directory may still fail to sync
        some
          (.silent,
            { s.release i (if choice = .fail then .aborting else .idle) with
              toVolume := s.replace upload.temporaryPath upload.inputPath })
      else
        (s.raise i).map (fun t => (.silent, t))
  | .aborting =>
      some (.silent, { s.move i .idle with toVolume := s.unlink upload.temporaryPath })

end Storage

/-- What can happen next on the volume: a request begins or is retried, an upload takes a step, fails
or dies with its process, a cleanup removes a file, a directory comes or goes, bytes become free.
-/
inductive StorageAction
  | start (i : Nat) (directory : Path) (final uuid : String)
  | run (i : Nat) (choice : UploadChoice)
  | raise (i : Nat)
  | die (i : Nat)
  | cleanup (path : Path)
  | mkdir (directory : Path) (name : String)
  | rmdir (directory : Path)
  | freed (bytes : Nat)
  deriving DecidableEq, Repr

namespace Storage

def exec (limits : UploadLimits) (s : Storage) : StorageAction → Option (StorageLabel × Storage)
  | .start i directory final uuid =>
      if (s.uploads i).stage = .idle then
        some
          (.silent,
            { s with
              uploads :=
                Function.update s.uploads i
                  ⟨directory, final, "upload-" ++ uuid ++ ".part", none, 0, .globbing⟩ })
      else
        none
  | .run i choice => s.run limits i choice
  | .raise i => (s.raise i).map (fun t => (.silent, t))
  | .die i => some (.silent, (s.release i .idle).drop i)
  | .cleanup path => some (.silent, { s with toVolume := s.unlink path })
  | .mkdir directory name =>
      if s.isDirectory directory then
        some (.silent, { s with toVolume := s.toVolume.mkdir (directory ++ [name]) })
      else
        none
  | .rmdir directory =>
      if s.isEmpty directory then
        some (.silent, { s with toVolume := s.toVolume.rmdir directory })
      else
        none
  | .freed bytes => some (.silent, { s with free := s.free + bytes })

/-- A step of the volume under the shared limits. -/
def Step (limits : UploadLimits) (s : Storage) (label : StorageLabel) (t : Storage) : Prop :=
  ∃ action, s.exec limits action = some (label, t)

theorem Step.of_exec (limits : UploadLimits) (s : Storage) (action : StorageAction)
    (label : StorageLabel) (t : Storage) (done : s.exec limits action = some (label, t))
    : Step limits s label t :=
  ⟨action, done⟩

end Storage

end Transcriber.Admission
