import Transcriber.Ingress.StorageInvariant

/-! The storage quota of concurrent uploads, over every run of the volume. -/

namespace Transcriber.Admission

open Execution Rounding

variable {limits : UploadLimits} {past : List StorageLabel} {s t : Storage} {i : Nat}

-----------------------------------------------------------------------------------------
-- What a step shows and what it discards
-----------------------------------------------------------------------------------------

/-- The file is still there under its name, with all its bytes. -/
def File.KeptIn (file : File) (volume : Volume) : Prop :=
  ∃ same ∈ volume.files,
    same.inode = file.inode ∧ same.path = file.path ∧ file.size ≤ same.size

/-- What removes or renames a file: a cleanup, the partials of a retry, the handler of an upload
for its own partial, and the rename of that partial to the final name.
-/
def Storage.Discards (s : Storage) (action : StorageAction) (file : File) : Prop :=
  match action with
  | .cleanup path => file.path = path
  | .run i _ =>
      match (s.uploads i).stage with
      | .clearing _ =>
          ∃ name : PartialName, file.path = (s.uploads i).directory ++ [name.val]
      | .aborting => file.path = (s.uploads i).temporaryPath
      | .replacing =>
          file.path = (s.uploads i).temporaryPath ∨ file.path = (s.uploads i).inputPath
      | _ => False
  | _ => False

theorem File.KeptIn.same {file : File} {volume : Volume} (member : file ∈ volume.files)
    : file.KeptIn volume :=
  ⟨file, member, rfl, rfl, Nat.le_refl _⟩

theorem File.KeptIn.of_files {file : File} {before after : Volume}
    (member : file ∈ before.files) (same : after.files = before.files)
    : file.KeptIn after :=
  .same (same ▸ member)

theorem File.KeptIn.unlink {file : File} {volume : Volume} {path : Path}
    (member : file ∈ volume.files) (other : file.path ≠ path)
    : file.KeptIn (volume.unlink path) :=
  .same (List.mem_filter.mpr ⟨member, by simpa using other⟩)

theorem Volume.mkdir_files (volume : Volume) (path : Path)
    : (volume.mkdir path).files = volume.files := by
  unfold Volume.mkdir
  split <;> rfl

/-- What a step of an upload shows of its check, and that it leaves every file alone but where it
clears, renames or aborts.
-/
structure Storage.Shows (limits : UploadLimits) (s : Storage) (i : Nat) (label : StorageLabel)
    (t : Storage)
    : Prop where
  accepted : ∀ j, label = .accepted j → (s.uploads i).stage.admitted = true ∧ t.free = s.free
  refused
    : ∀ j purpose,
        label = .refused j purpose
        → j = i
          ∧ t.files = s.files
          ∧ ∀ size, purpose = .chunk size → (s.uploads i).stage.checking = true
  kept
    : ∀ file ∈ s.files, file.KeptIn t.toVolume ∨ s.Discards (.run i .go) file

namespace Storage

/-- A step that shows neither an acceptance nor a refusal. -/
theorem Shows.quiet {label : StorageLabel} (accepts : ∀ j, label ≠ .accepted j)
    (refuses : ∀ j purpose, label ≠ .refused j purpose)
    (kept : ∀ file ∈ s.files, file.KeptIn t.toVolume ∨ s.Discards (.run i .go) file)
    : s.Shows limits i label t where
  accepted j same := absurd same (accepts j)
  refused j purpose same := absurd same (refuses j purpose)
  kept := kept

/-- A silent step that leaves the files alone. -/
theorem Shows.silent (files : t.files = s.files) : s.Shows limits i .silent t :=
  .quiet nofun nofun (fun _ member => .inl (.of_files member files))

/-- A refused check leaves the files alone. -/
theorem Shows.refuse {purpose : Purpose}
    (checking : ∀ size, purpose = .chunk size → (s.uploads i).stage.checking = true)
    (files : t.files = s.files)
    : s.Shows limits i (.refused i purpose) t where
  accepted := nofun
  refused j other same := by
    cases same
    exact ⟨rfl, files, checking⟩
  kept file member := .inl (.of_files member files)

theorem raise_files (done : s.raise i = some t) : t.files = s.files := by
  obtain ⟨stage, _, rfl⟩ := Option.map_eq_some_iff.mp done
  split <;> rfl

theorem Shows.raise {label : StorageLabel}
    (done : (s.raise i).map (fun t => (StorageLabel.silent, t)) = some (label, t))
    : s.Shows limits i label t := by
  obtain ⟨u, raised, same⟩ := Option.map_eq_some_iff.mp done
  cases same
  exact .silent (raise_files raised)

/-- What a step of an upload shows, by cases on where it is. -/
theorem run_shows {choice : UploadChoice} {label : StorageLabel}
    (done : s.run limits i choice = some (label, t))
    : s.Shows limits i label t := by
  cases stage : (s.uploads i).stage with
  | idle => simp [Storage.run, stage] at done
  | globbing | syncing | registering | unregistering complete =>
      simp only [Storage.run, stage] at done
      cases done
      exact .silent rfl
  | clearing names =>
      cases names with
      | nil =>
          simp only [Storage.run, stage] at done
          cases done
          exact .silent rfl
      | cons name names =>
          simp only [Storage.run, stage] at done
          cases done
          refine .quiet (by simp) (by simp) (fun file member => ?_)
          by_cases same : file.path = (s.uploads i).directory ++ [name.val]
          · exact .inr (by simp only [Discards, stage]; exact ⟨name, same⟩)
          · exact .inl (.unlink member same)
  | locking purpose | leaving complete | publishing =>
      simp only [Storage.run, stage] at done
      split at done <;> cases done
      exact .silent (Volume.mkdir_files _ _)
  | counting =>
      simp only [Storage.run, stage] at done
      split at done <;> cases done
      · exact .refuse (by simp) rfl
      · exact .silent rfl
  | scanning purpose walk =>
      simp only [Storage.run, stage] at done
      split at done
      · cases done
        exact .silent rfl
      · cases done
        exact .silent rfl
      · exact .raise done
  | budgeting purpose total =>
      simp only [Storage.run, stage] at done
      split at done <;> cases done
      · exact .refuse (fun size chunk => by rw [stage, chunk]; rfl) rfl
      · exact .silent rfl
  | reserving purpose =>
      simp only [Storage.run, stage] at done
      split at done
      · cases done
        exact .refuse (fun size chunk => by rw [stage, chunk]; rfl) rfl
      · split at done <;> cases done <;> exact .silent rfl
  | opening =>
      simp only [Storage.run, stage] at done
      split at done
      · cases done
        exact .quiet (by simp) (by simp) (fun file member => .inl (.same (List.mem_append_left _ member)))
      · exact .raise done
  | streaming =>
      have files : ∀ file ∈ s.files, file.KeptIn s.toVolume := fun file member => .same member
      cases choice with
      | go =>
          simp only [Storage.run, stage] at done
          cases done
          exact .silent rfl
      | chunk size =>
          simp only [Storage.run, stage] at done
          split at done
          · cases done
            exact .quiet (by simp) (by simp) (fun file member => .inl (files file member))
          · split at done <;> cases done
            · exact {
                accepted := fun _ _ => ⟨by rw [stage]; rfl, rfl⟩
                refused := by simp
                kept := fun file member => .inl (files file member)
              }
            · exact .quiet (by simp) (by simp) (fun file member => .inl (files file member))
      | fail | append => simp [Storage.run, stage] at done
  | appending left budget =>
      cases choice with
      | append bytes used =>
          simp only [Storage.run, stage] at done
          split at done <;> cases done
          refine .quiet (by simp) (by simp) (fun file member => .inl ?_)
          cases (s.uploads i).handle with
          | none => exact .same member
          | some inode =>
              refine ⟨_, List.mem_map_of_mem member, ?_⟩
              split
              · exact ⟨rfl, rfl, Nat.le_add_right _ _⟩
              · exact ⟨rfl, rfl, Nat.le_refl _⟩
      | go =>
          simp only [Storage.run, stage] at done
          split at done <;> cases done
          exact {
            accepted := fun _ _ => ⟨by rw [stage]; rfl, rfl⟩
            refused := by simp
            kept := fun file member => .inl (.same member)
          }
      | fail | chunk => simp [Storage.run, stage] at done
  | replacing =>
      simp only [Storage.run, stage] at done
      split at done
      · cases done
        refine .quiet (by simp) (by simp) (fun file member => ?_)
        by_cases moved : file.path = (s.uploads i).temporaryPath
            ∨ file.path = (s.uploads i).inputPath
        · exact .inr (by simp only [Discards, stage]; exact moved)
        · refine .inl ?_
          simp only [not_or] at moved
          unfold Volume.replace
          split
          · exact .same member
          · refine .same (List.mem_map.mpr ⟨file, List.mem_filter.mpr ⟨member, ?_⟩, ?_⟩)
            · simpa using moved.2
            · rw [if_neg moved.1]
      · exact .raise done
  | aborting =>
      simp only [Storage.run, stage] at done
      cases done
      refine .quiet (by simp) (by simp) (fun file member => ?_)
      by_cases same : file.path = (s.uploads i).temporaryPath
      · exact .inr (by simp only [Discards, stage]; exact same)
      · exact .inl (.unlink member same)

/-- Whatever else happens is neither an acceptance nor a refusal, and only a cleanup removes files.
-/
theorem exec_shows {action : StorageAction} {label : StorageLabel}
    (done : s.exec limits action = some (label, t)) (other : ∀ i choice, action ≠ .run i choice)
    : label = .silent
      ∧ ∀ file ∈ s.files, file.KeptIn t.toVolume ∨ s.Discards action file := by
  cases action with
  | run i choice => exact absurd rfl (other i choice)
  | start i directory final uuid =>
      simp only [exec] at done
      split at done <;> cases done
      exact ⟨rfl, fun file member => .inl (.same member)⟩
  | raise i =>
      obtain ⟨u, raised, same⟩ := Option.map_eq_some_iff.mp done
      cases same
      exact ⟨rfl, fun file member => .inl (.of_files member (raise_files raised))⟩
  | die i =>
      cases done
      exact ⟨rfl, fun file member => .inl (.same member)⟩
  | cleanup path =>
      cases done
      refine ⟨rfl, fun file member => ?_⟩
      by_cases same : file.path = path
      · exact .inr same
      · exact .inl (.unlink member same)
  | mkdir directory name =>
      simp only [exec] at done
      split at done <;> cases done
      exact ⟨rfl, fun file member => .inl (.of_files member (Volume.mkdir_files _ _))⟩
  | rmdir directory =>
      simp only [exec] at done
      split at done <;> cases done
      exact ⟨rfl, fun file member => .inl (.same member)⟩
  | freed bytes =>
      cases done
      exact ⟨rfl, fun file member => .inl (.same member)⟩

/-- No upload is in progress on a well-formed tree, and nobody holds the lock. -/
structure Fresh (s : Storage) : Prop where
  tree : s.toVolume.Tree
  lock : s.lock = none
  uploads : ∀ i, s.uploads i = .idle

end Storage

theorem Sound.start {start : Storage} (fresh : start.Fresh)
    (within : start.storageBytes limits.block ≤ limits.storageBytes)
    : Sound limits [] start where
  tree := fresh.tree
  quota := within
  uploads i := by
    rw [fresh.uploads i]
    exact {
      lock := by simp [fresh.lock, Upload.idle, UploadStage.locked]
      handle := nofun
      admitted := nofun
      checking := nofun
      checked := trivial
    }

/-- In every run from a volume within its budget the volume stays within it, an accepted chunk
leaves the free-space reserve, a refused chunk has written nothing, and no check or write removes
a file.
-/
theorem storage_quota {start : Storage} (fresh : start.Fresh)
    (within : start.storageBytes limits.block ≤ limits.storageBytes)
    (run : Run (Storage.Step limits) start past s)
    : s.storageBytes limits.block ≤ limits.storageBytes
      ∧ ∀ action label t,
          s.exec limits action = some (label, t)
          → (∀ i, label = .accepted i → limits.minFreeBytes ≤ t.free)
            ∧ (∀ i size,
                label = .refused i (.chunk size) → t.files = s.files ∧ chunkBytes i past = 0)
            ∧ ∀ file ∈ s.files, file.KeptIn t.toVolume ∨ s.Discards action file := by
  have kept : Sound limits past s :=
    run.history (fun _ _ _ _ kept step => kept.step step) (.start fresh within)
  refine ⟨kept.quota, fun action label t done => ?_⟩
  by_cases other : ∀ i choice, action ≠ .run i choice
  · obtain ⟨rfl, files⟩ := Storage.exec_shows done other
    exact ⟨nofun, nofun, files⟩
  · simp only [not_forall, not_not] at other
    obtain ⟨i, choice, rfl⟩ := other
    have shows := Storage.run_shows done
    refine ⟨fun j accepted => ?_, fun j size refused => ?_, shows.kept⟩
    · obtain ⟨admitted, free⟩ := shows.accepted j accepted
      exact ((kept.uploads i).admitted admitted).trans_eq free.symm
    · obtain ⟨rfl, files, checking⟩ := shows.refused j _ refused
      exact ⟨files, (kept.uploads j).checking (checking size rfl)⟩

-----------------------------------------------------------------------------------------
-- A concrete run
-----------------------------------------------------------------------------------------

/-- A budget of two blocks of four bytes. -/
def twoBlocks : UploadLimits where
  audioBytes := 100
  storageBytes := 8
  minFreeBytes := 2
  concurrentUploads := 1
  block := 4
  positive := by decide

/-- A volume with one job directory and a retained file of one block. -/
def retained : Storage where
  files := [⟨0, ["old", "input.wav"], 3⟩]
  directories := [["old"], ["new"]]
  nextInode := 1
  free := 20
  lock := none
  tokens := []
  uploads := fun _ => .idle

/-- The request is admitted and sends three bytes, which are written, and one more, which is checked.
-/
def uploadActions : List StorageAction :=
  .start 0 ["new"] "input.wav" "0"
    :: List.replicate 13 (.run 0 .go)
    ++ .run 0 (.chunk 3) :: List.replicate 9 (.run 0 .go)
    ++ .run 0 (.append 3 4) :: .run 0 .go
    :: .run 0 (.chunk 1) :: List.replicate 7 (.run 0 .go)

def playUpload : List StorageLabel × Storage :=
  Execution.play (Storage.exec twoBlocks) (fun _ _ _ => true) [] retained uploadActions

/-- Both blocks are taken, so the last byte is refused and none of it is written. -/
theorem storage_quota_refused
    : playUpload.2.storageBytes 4 = 8
      ∧ .accepted 0 ∈ playUpload.1
      ∧ ∃ t,
          playUpload.2.exec twoBlocks (.run 0 .go) = some (.refused 0 (.chunk 1), t)
          ∧ t.files = playUpload.2.files
          ∧ chunkBytes 0 playUpload.1 = 0 := by
  have fresh : retained.Fresh := by
    have above : ∀ file ∈ retained.files, ∀ path ∈ file.path.inits,
        path ≠ [] → path ≠ file.path → path ∈ retained.directories := by
      decide
    have nested : ∀ directory ∈ retained.directories, ∀ path ∈ directory.inits,
        path ≠ [] → path ∈ retained.directories := by
      decide
    refine ⟨⟨by decide, by decide, by decide, by decide, ?_, ?_⟩, rfl, fun _ => rfl⟩
    · intro file member path nonempty below proper
      exact above file member path (List.mem_inits _ _ |>.mpr below) nonempty proper
    · intro directory member path nonempty below
      exact nested directory member path (List.mem_inits _ _ |>.mpr below) nonempty
  have run : Run (Storage.Step twoBlocks) retained playUpload.1 playUpload.2 :=
    (Execution.play_run (Storage.Step.of_exec twoBlocks) (.nil _) _).run
      (fun _ _ _ _ _ step => step)
  have refusal : (playUpload.2.exec twoBlocks (.run 0 .go)).map Prod.fst
      = some (.refused 0 (.chunk 1)) := by
    decide +kernel
  obtain ⟨⟨label, t⟩, done, rfl⟩ := Option.map_eq_some_iff.mp refusal
  have shown := (storage_quota fresh (by decide) run).2 _ _ _ done
  exact ⟨by decide +kernel, by decide +kernel, t, done, shown.2.1 0 1 rfl⟩

end Transcriber.Admission
