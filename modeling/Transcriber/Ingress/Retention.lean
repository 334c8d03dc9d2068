import Transcriber.Store.Terminal
import Transcriber.Ingress.Streams

/-! The files of jobs: each input file is in the directory of its own job id, and file cleanup
is after a deleted, expired job alone.
-/

namespace Transcriber

open Execution

-----------------------------------------------------------------------------------------
-- Jobs and their paths
-----------------------------------------------------------------------------------------

/-- The row's input file is in the directory of its own drawn id. -/
def JobRecord.PlacedUnder (row : JobRecord) (storageRoot : String) (db : Db) : Prop :=
  ∃ uuid ∈ db.drawn,
    row.jobId = uuid.text ∧ row.inputPath = audioPath storageRoot uuid.text row.format

/-- Placed rows with one path are one job. -/
theorem JobRecord.PlacedUnder.jobId_eq {row other : JobRecord} {storageRoot : String}
    {db db' : Db} (placed : row.PlacedUnder storageRoot db)
    (placed' : other.PlacedUnder storageRoot db') (same : row.inputPath = other.inputPath)
    : row.jobId = other.jobId := by
  obtain ⟨uuid, _, id, path⟩ := placed
  obtain ⟨uuid', _, id', path'⟩ := placed'
  rw [path, path'] at same
  rw [id, id', audioPath_uuid same]

theorem RowStep.placed {act : Option Act} {row next : JobRecord} {storageRoot : String}
    {db db' : Db} (step : RowStep act row next) (placed : row.PlacedUnder storageRoot db)
    (drawn : ∀ uuid ∈ db.drawn, uuid ∈ db'.drawn)
    : next.PlacedUnder storageRoot db' := by
  obtain ⟨uuid, known, id, path⟩ := placed
  obtain ⟨sameId, identity, samePath, _⟩ := step.fixed
  have format : next.format = row.format := congrArg SubmitOptions.format identity
  exact ⟨uuid, drawn uuid known, sameId.trans id, by rw [samePath, path, format]⟩

theorem RowStep.resultPath {act : Option Act} {row next : JobRecord}
    (step : RowStep act row next)
    (plain
      : ∀ token text segments resultPath,
          act = some (.complete token text segments resultPath) → resultPath = "")
    (empty : row.resultPath = "")
    : next.resultPath = "" := by
  cases step with
  | completed => exact plain _ _ _ _ rfl
  | _ => exact empty

namespace Service

-----------------------------------------------------------------------------------------
-- The invariant
-----------------------------------------------------------------------------------------

/-- The path of a deleted job. -/
def Retired (s : Service) (path : String) : Prop :=
  ∃ uuid ∈ s.db.drawn,
    (∃ format, path = audioPath s.storageRoot uuid.text format)
    ∧ ∀ row ∈ s.db.jobs, row.jobId ≠ uuid.text

/-- Every row has a path of its own and no result file; file cleanup has retired paths only.
-/
structure Placed (s : Service) : Prop where
  consistent : s.db.Consistent
  rows : ∀ row ∈ s.db.jobs, row.PlacedUnder s.storageRoot s.db ∧ row.resultPath = ""
  removing : ∀ path ∈ s.removing, s.Retired path

theorem Placed.empty (storageRoot : String) (maxAudioBytes : Nat) (hashtext : String → Int)
    (clock : Int)
    : (Service.empty storageRoot maxAudioBytes hashtext clock).Placed where
  consistent := .empty clock
  rows := by simp [Service.empty, Db.empty]
  removing := by simp [Service.empty]

/-- The path of a job with a stored row is not retired. -/
theorem Retired.unused {s : Service} {path : String} (retired : s.Retired path)
    {job : JobRecord} (placed : job.PlacedUnder s.storageRoot s.db)
    (stored : ∃ row ∈ s.db.jobs, row.jobId = job.jobId)
    : job.inputPath ≠ path := by
  rintro rfl
  obtain ⟨uuid, _, ⟨format, same⟩, absent⟩ := retired
  obtain ⟨own, _, id, path⟩ := placed
  obtain ⟨row, member, named⟩ := stored
  obtain rfl := audioPath_uuid (path.symm.trans same)
  exact absent row member (named.trans id)

/-- The files that a cleanup returns: the input file of the deleted, expired row. -/
theorem Placed.removedFiles {s : Service} {config : Config} {op : Op} {reply : Reply} {db : Db}
    {path : String} (kept : s.Placed) (done : s.db.exec config op = some (db, reply))
    (listed : path ∈ removedFiles op reply)
    : ∃ row ∈ s.db.jobs, ∃ ttlSeconds now,
        op = .cleanup row.jobId ttlSeconds now
        ∧ Sql.cleanup ttlSeconds now row
        ∧ path = row.inputPath
        ∧ ∀ next ∈ db.jobs, next.jobId ≠ row.jobId := by
  unfold Service.removedFiles at listed
  split at listed
  · rename_i jobId ttlSeconds now inputPath resultPath
    obtain ⟨row, member, rfl, selected, rfl, rfl, gone⟩ :=
      Db.cleanup_spec kept.consistent.distinct done
    refine ⟨row, member, ttlSeconds, now, rfl, selected, ?_, gone⟩
    simpa [(kept.rows row member).2] using listed
  · cases listed

/-- A retired path stays retired: its UUID is never drawn again. -/
theorem Retired.store {s t : Service} {event : Event} {path : String}
    (retired : s.Retired path) (consistent : s.db.Consistent) (step : s.db.Step event t.db)
    (root : t.storageRoot = s.storageRoot)
    : t.Retired path := by
  have outcome := step.outcome consistent.distinct consistent.held
  obtain ⟨uuid, known, placed, unused⟩ := retired
  refine ⟨uuid, outcome.drawn uuid known, root ▸ placed, ?_⟩
  intro row member same
  obtain ⟨old, oldMember, rowStep⟩ := outcome.change.known_origin consistent
    (step.consistent consistent) known member same
  exact unused old oldMember (rowStep.jobId.symm.trans same)

theorem Placed.stored {s t : Service} {config : Config} {op : Op} {reply : Reply}
    (kept : s.Placed) (stored : s.Stored config op reply t)
    : t.Placed := by
  have step : s.db.Step ⟨config, op, reply⟩ t.db := stored.done
  have consistent := step.consistent kept.consistent
  have outcome := step.outcome kept.consistent.distinct kept.consistent.held
  refine ⟨consistent, ?_, ?_⟩
  · intro row member
    rw [stored.root]
    rcases outcome.change.origin kept.consistent (Db.job?_of_mem consistent.distinct member)
      with ⟨old, found, rowStep⟩ | ⟨_, _, options, newId, now, called, fresh, rfl⟩
    · obtain ⟨placed, empty⟩ := kept.rows old (Db.job?_mem found).1
      refine ⟨rowStep.placed placed outcome.drawn, rowStep.resultPath ?_ empty⟩
      intro token text segments resultPath act
      obtain ⟨now, completed⟩ := Event.act?_complete act
      exact stored.called.plain _ _ _ _ _ _ completed
    · refine ⟨⟨newId, fresh.2, rfl, ?_⟩, rfl⟩
      rw [← stored.called.root options newId now called]
      rfl
  · intro path listed
    rw [stored.removing] at listed
    rcases List.mem_append.mp listed with new | old
    · obtain ⟨row, member, ttlSeconds, now, called, _, rfl, gone⟩ :=
        kept.removedFiles stored.done new
      obtain ⟨uuid, known, id, placed⟩ := (kept.rows row member).1
      exact ⟨uuid, outcome.drawn uuid known, ⟨row.format, stored.root ▸ placed⟩, id ▸ gone⟩
    · exact (kept.removing path old).store kept.consistent step stored.root

theorem Placed.sameStore {s t : Service} (kept : s.Placed) (same : s.SameStore t)
    : t.Placed where
  consistent := same.db ▸ kept.consistent
  rows := by
    rw [same.db, same.root]
    exact kept.rows
  removing path listed := by
    obtain ⟨uuid, known, placed, unused⟩ := kept.removing path (same.removing ▸ listed)
    exact ⟨uuid, same.db ▸ known, same.root ▸ placed, same.db ▸ unused⟩

theorem Placed.step {s t : Service} {label : Label} (kept : s.Placed) (step : s.Step label t)
    : t.Placed := by
  rcases step.stored with same | ⟨config, op, reply, stored, _⟩
  · exact kept.sameStore same
  · exact kept.stored stored

-----------------------------------------------------------------------------------------
-- File cleanup
-----------------------------------------------------------------------------------------

/-- One of the labels is the cleanup of the row with this path, whose retention period was over.
-/
def CleanedUp (s : Service) (labels : List Label) (path : String) : Prop :=
  ∃ before label after u v config reply row ttlSeconds now,
    labels = before ++ label :: after
    ∧ Run Step s before u
    ∧ u.Stored config (.cleanup row.jobId ttlSeconds now) reply v
    ∧ row ∈ u.db.jobs
    ∧ row.inputPath = path
    ∧ row.status.terminal
    ∧ row.Expired ttlSeconds now

theorem CleanedUp.append {s : Service} {labels : List Label} {path : String}
    (cleanedUp : s.CleanedUp labels path) (label : Label)
    : s.CleanedUp (labels ++ [label]) path := by
  obtain ⟨before, cleanup, after, u, v, config, reply, row, ttlSeconds, now, rfl, rest⟩ :=
    cleanedUp
  exact ⟨before, cleanup, after ++ [label], u, v, config, reply, row, ttlSeconds, now, by simp,
    rest⟩

/-- The paths that file cleanup has come from cleanups of expired rows, by induction on the run.
-/
theorem removing_run {s t : Service} {labels : List Label} (run : Run Step s labels t)
    (kept : s.Placed) (valid : ∀ row ∈ s.db.jobs, row.Valid) (nothing : s.removing = [])
    : ∀ path ∈ t.removing, s.CleanedUp labels path := by
  induction run with
  | nil => simp [nothing]
  | @snoc t u labels label run last ih =>
      intro path listed
      rcases last.stored with same | ⟨config, op, reply, stored, _⟩
      · exact (ih path (same.removing ▸ listed)).append label
      rw [stored.removing] at listed
      rcases List.mem_append.mp listed with new | old
      · have placed : t.Placed := run.invariant (fun _ _ _ kept step => kept.step step) kept
        obtain ⟨events, past⟩ := run_db run
        obtain ⟨row, member, ttlSeconds, now, rfl, selected, rfl, _⟩ :=
          placed.removedFiles stored.done new
        have wellFormed : row.Valid :=
          Db.rows_run past kept.consistent valid JobRecord.created_valid
            (fun _ _ _ step => step.valid) row member
        obtain ⟨terminal, expired⟩ := wellFormed.cleanup selected
        exact ⟨labels, label, [], t, u, config, reply, row, ttlSeconds, now, rfl, run, stored,
          member, rfl, terminal, expired⟩
      · exact (ih path old).append label

/-- What holds of the files after a run: whatever file cleanup removes is of an expired row
that is gone.
-/
structure FilesRetained (start : Service) (labels : List Label) (s : Service) : Prop where
  resultless : ∀ row ∈ s.db.jobs, row.resultPath = ""
  inputs
    : ∀ label t path,
        s.Step label t
        → (s.volume.inputs path).isSome
        → t.volume.inputs path = none
        → (∀ row ∈ s.db.jobs, row.inputPath ≠ path) ∧ start.CleanedUp labels path
  partials
    : ∀ path i t part,
        s.Step (.removePart path i) t
        → s.volume.partials i = some part
        → (∀ row ∈ s.db.jobs, row.inputPath ≠ part.inputPath)
          ∧ start.CleanedUp labels part.inputPath

theorem filesRetained {storageRoot : String} {maxAudioBytes : Nat} {hashtext : String → Int}
    {clock : Int} {s : Service} {labels : List Label}
    (run : Run Step (Service.empty storageRoot maxAudioBytes hashtext clock) labels s)
    : FilesRetained (Service.empty storageRoot maxAudioBytes hashtext clock) labels s := by
  have initial := Placed.empty storageRoot maxAudioBytes hashtext clock
  have placed : s.Placed := run.invariant (fun _ _ _ kept step => kept.step step) initial
  have removal (path : String) (listed : path ∈ s.removing)
      : (∀ row ∈ s.db.jobs, row.inputPath ≠ path)
        ∧ CleanedUp (Service.empty storageRoot maxAudioBytes hashtext clock) labels path := by
    refine ⟨fun row member => ?_, removing_run run initial ?_ rfl path listed⟩
    · exact (placed.removing path listed).unused (placed.rows row member).1 ⟨row, member, rfl⟩
    · simp [Service.empty, Db.empty]
  refine ⟨fun row member => (placed.rows row member).2, ?_, ?_⟩
  · intro label t path step present gone
    exact removal path (step.removed present gone).2
  · intro path i t part step linked
    simp only [Step, next, linked] at step
    split at step <;> cases step
    rename_i listed
    obtain ⟨listed, rfl⟩ := listed
    exact removal part.inputPath listed

/-- Results and their files over every run of the store and of the ingress: a terminal row
keeps its result until the cleanup of its expired row, an unfinished row is kept, and files
are removed after such a cleanup alone.
-/
theorem results_retained {clock : Int} {db : Db} {events : List Event}
    (run : Run Db.Step (Db.empty clock) events db)
    {storageRoot : String} {maxAudioBytes : Nat} {hashtext : String → Int} {opened : Int}
    {s : Service} {labels : List Label}
    (uploads : Run Step (Service.empty storageRoot maxAudioBytes hashtext opened) labels s)
    : db.ResultsRetained
      ∧ FilesRetained (Service.empty storageRoot maxAudioBytes hashtext opened) labels s :=
  ⟨Db.resultsRetained run, filesRetained uploads⟩

/-- A completed, acknowledged job keeps its result; the file of a queued job goes after the
cancellation, acknowledgement and expiry of that job.
-/
theorem results_retained_completed
    : let config := Config.onePool .rabbitmq
      let jobId := (Uuid.nth 0).text
      let past := (Db.empty 0).play (Db.completeOnce ++ [(config, .acknowledgeJob jobId 2)])
      let uploads := sample.play (fun _ _ => true)
        (uploadOnce [.chunk 0, .close 0, .eof 0]
          ++ [queueOnce, .store config (.cancelJob jobId 1), .store config (.acknowledgeJob jobId 2),
            .store config (.cleanup jobId 0 3)])
      past.2.jobs.map (fun row => (row.status, row.text, row.acknowledgedAt))
          = [(.done, "text", some 2)]
        ∧ uploads.2.db.jobs = []
        ∧ uploads.2.removing.map (fun path => (uploads.2.volume.inputs path).isSome) = [true]
        ∧ past.2.ResultsRetained
        ∧ FilesRetained sample uploads.1 uploads.2 :=
  ⟨by decide +kernel, by decide +kernel, by decide +kernel,
    results_retained (Db.play_run _ _) ((play_run (fun _ _ => true) sample _).run
      (fun _ _ _ _ _ step => step))⟩

end Service

end Transcriber
