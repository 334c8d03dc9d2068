import Transcriber.Ingress.StorageScan

/-! What holds of the volume and of its uploads between any two steps: whatever grows does so under
the admission lock, after a check whose sum covers the tree, and by at most what that check allowed
for.
-/

namespace Transcriber.Admission

open Rounding

-----------------------------------------------------------------------------------------
-- Stages
-----------------------------------------------------------------------------------------

namespace UploadStage

/-- The upload holds the admission lock. -/
def locked : UploadStage → Bool
  | .counting | .scanning .. | .budgeting .. | .reserving _ | .registering | .appending ..
  | .unregistering _ | .replacing => true
  | _ => false

/-- The admission's own check has passed. -/
def admitted : UploadStage → Bool
  | .registering | .opening | .streaming | .appending .. | .syncing
  | .locking (.chunk _) | .scanning (.chunk _) _ | .budgeting (.chunk _) _
  | .reserving (.chunk _) => true
  | _ => false

/-- In `write`, before the chunk is written. -/
def checking : UploadStage → Bool
  | .locking (.chunk _) | .scanning (.chunk _) _ | .budgeting (.chunk _) _
  | .reserving (.chunk _) => true
  | _ => false

end UploadStage

/-- What the volume would count if an open file grew. -/
def Volume.storageWith (block : Nat) (volume : Volume) (handle : Option Nat) (left : Nat) : Nat :=
  (volume.files.map (fun file =>
    if handle = some file.inode then
      { file with size := file.size + left }.weight block
    else
      file.weight block)).sum

/-- What the check of an upload has established so far. -/
def UploadStage.Checked (limits : UploadLimits) (volume : Volume) (handle : Option Nat)
    : UploadStage → Prop
  | .scanning _ walk => volume.Covered limits.block walk
  | .budgeting _ total => volume.storageBytes limits.block ≤ total
  | .reserving purpose =>
      volume.storageBytes limits.block + roundUp limits.block purpose.extra
      ≤ limits.storageBytes
  | .appending left budget =>
      volume.storageWith limits.block handle left ≤ limits.storageBytes
      ∧ limits.minFreeBytes + budget ≤ volume.free
  | _ => True

/-- The bytes of its current chunk that an upload has written. -/
def chunkBytes (i : Nat) (past : List StorageLabel) : Nat :=
  past.foldl
    (fun written label =>
      match label with
      | .chunk j _ => if j = i then 0 else written
      | .wrote j bytes => if j = i then written + bytes else written
      | _ => written)
    0

/-- The upload that a label names. -/
def StorageLabel.upload? : StorageLabel → Option Nat
  | .silent => none
  | .chunk i _ | .refused i _ | .wrote i _ | .accepted i => some i

/-- Only the labels of an upload change what it has written. -/
theorem chunkBytes_other {i : Nat} {label : StorageLabel} (past : List StorageLabel)
    (other : label.upload? ≠ some i)
    : chunkBytes i (past ++ [label]) = chunkBytes i past := by
  cases label <;> simp_all [chunkBytes, StorageLabel.upload?]

-----------------------------------------------------------------------------------------
-- The invariant
-----------------------------------------------------------------------------------------

/-- What holds of one upload. -/
structure Agrees (limits : UploadLimits) (past : List StorageLabel) (s : Storage) (i : Nat)
    (upload : Upload)
    : Prop where
  lock : s.lock = some i ↔ upload.stage.locked = true
  handle : ∀ inode, upload.handle = some inode → inode < s.nextInode
  admitted : upload.stage.admitted = true → limits.minFreeBytes ≤ s.free
  checking : upload.stage.checking = true → chunkBytes i past = 0
  checked : upload.stage.Checked limits s.toVolume upload.handle

/-- What holds of the volume and of every upload. -/
structure Sound (limits : UploadLimits) (past : List StorageLabel) (s : Storage) : Prop where
  tree : s.toVolume.Tree
  quota : s.storageBytes limits.block ≤ limits.storageBytes
  uploads : ∀ i, Agrees limits past s i (s.uploads i)

variable {limits : UploadLimits} {past : List StorageLabel} {s t : Storage} {i : Nat}
  {upload : Upload}

namespace Volume

variable {before after : Volume} {block : Nat} {handle : Option Nat} {left : Nat}

theorem Shrinks.storageWith (shrinks : before.Shrinks after)
    (old : ∀ inode, handle = some inode → inode < before.nextInode)
    : after.storageWith block handle left ≤ before.storageWith block handle left := by
  refine shrinks.sum _ (fun file empty new => ?_)
  rw [if_neg, File.weight_empty empty]
  intro opened
  exact absurd (old _ opened) (by omega)

/-- What a check has established stays so while others empty the volume. -/
theorem Shrinks.checked (shrinks : before.Shrinks after)
    (old : ∀ inode, handle = some inode → inode < before.nextInode) {stage : UploadStage}
    (checked : stage.Checked limits before handle)
    : stage.Checked limits after handle := by
  cases stage with
  | scanning purpose walk => exact Covered.shrink checked shrinks
  | budgeting purpose total => exact shrinks.storageBytes.trans checked
  | reserving purpose => exact (Nat.add_le_add_right shrinks.storageBytes _).trans checked
  | appending left budget =>
      exact ⟨(shrinks.storageWith old).trans checked.1, checked.2.trans shrinks.free⟩
  | _ => trivial

/-- A chunk that is written to one file grows the sum by at most its rounded size. -/
theorem storageWith_le (positive : 0 < block) {volume : Volume} (tree : volume.Tree)
    (handle : Option Nat) (left : Nat)
    : volume.storageWith block handle left
      ≤ volume.storageBytes block + roundUp block left := by
  cases handle with
  | none =>
      simp only [Volume.storageWith, reduceCtorEq, if_false]
      exact Nat.le_add_right _ _
  | some inode =>
      refine Table.sum_raise tree.inodes inode (fun file _ other => ?_) (fun file _ same => ?_)
      · rw [if_neg (fun opened => other (Option.some.inj opened).symm)]
      · rw [if_pos (by rw [same])]
        exact File.weight_grow positive file left

theorem storageBytes_le (positive : 0 < block) (volume : Volume) (handle : Option Nat)
    (left : Nat)
    : volume.storageBytes block ≤ volume.storageWith block handle left := by
  refine List.sum_le_sum (fun file _ => ?_)
  split
  · exact File.weight_mono positive file left
  · exact Nat.le_refl _

/-- What is written of a chunk is no longer left of it. -/
theorem storageWith_append (volume : Volume) {inode bytes used left : Nat} (fits : bytes ≤ left)
    : (volume.append inode bytes used).storageWith block (some inode) (left - bytes)
      = volume.storageWith block (some inode) left := by
  simp only [storageWith, append, List.map_map]
  congr 1
  refine List.map_congr_left (fun file _ => ?_)
  simp only [Function.comp_apply, Option.some.injEq]
  by_cases opened : file.inode = inode
  · simp only [opened, if_true]
    congr 2
    omega
  · simp [opened, Ne.symm opened]

end Volume

-----------------------------------------------------------------------------------------
-- What keeps the invariant
-----------------------------------------------------------------------------------------

/-- Only what holds the lock has checked anything. -/
theorem UploadStage.checked_of_unlocked {volume : Volume} {handle : Option Nat}
    {stage : UploadStage} (unlocked : stage.locked = false)
    : stage.Checked limits volume handle := by
  cases stage <;> trivial

/-- The tokens matter to the number of uploads only. -/
theorem Sound.tokens (kept : Sound limits past s) (tokens : List Token)
    : Sound limits past { s with tokens } :=
  ⟨kept.tree, kept.quota, fun i => { kept.uploads i with }⟩

/-- Another writer empties the volume. -/
theorem Sound.shrink (kept : Sound limits past s) {volume : Volume}
    (shrinks : s.toVolume.Shrinks volume) (tree : volume.Tree)
    : Sound limits past { s with toVolume := volume } where
  tree := tree
  quota := shrinks.storageBytes.trans kept.quota
  uploads i := {
    lock := (kept.uploads i).lock
    handle := fun inode opened =>
      ((kept.uploads i).handle inode opened).trans_le shrinks.inode
    admitted := fun admitted => ((kept.uploads i).admitted admitted).trans shrinks.free
    checking := (kept.uploads i).checking
    checked := shrinks.checked (kept.uploads i).handle (kept.uploads i).checked
  }

/-- A label of an upload that is not about to write. -/
theorem Sound.label (kept : Sound limits past s) {label : StorageLabel}
    (mine : ∀ i, label.upload? = some i → (s.uploads i).stage.checking = true
      → chunkBytes i (past ++ [label]) = 0)
    : Sound limits (past ++ [label]) s where
  tree := kept.tree
  quota := kept.quota
  uploads i := {
    lock := (kept.uploads i).lock
    handle := (kept.uploads i).handle
    admitted := (kept.uploads i).admitted
    checking := fun checking => by
      by_cases own : label.upload? = some i
      · exact mine i own checking
      · rw [chunkBytes_other past own]
        exact (kept.uploads i).checking checking
    checked := (kept.uploads i).checked
  }

theorem Sound.silent (kept : Sound limits past s) : Sound limits (past ++ [.silent]) s :=
  kept.label nofun

/-- An upload changes by itself. -/
theorem Sound.update (kept : Sound limits past s) (own : Agrees limits past s i upload)
    : Sound limits past { s with uploads := Function.update s.uploads i upload } where
  tree := kept.tree
  quota := kept.quota
  uploads := (Function.forall_update_iff s.uploads
      (fun j each =>
        Agrees limits past { s with uploads := Function.update s.uploads i upload } j each)).mpr
    ⟨{ own with }, fun j _ => { kept.uploads j with }⟩

variable {stage : UploadStage}

theorem Sound.move (kept : Sound limits past s)
    (locked : stage.locked = (s.uploads i).stage.locked)
    (admitted : stage.admitted = true
      → (s.uploads i).stage.admitted = true ∨ limits.minFreeBytes ≤ s.free)
    (checking : stage.checking = true → chunkBytes i past = 0)
    (checked : stage.Checked limits s.toVolume (s.uploads i).handle)
    : Sound limits past (s.move i stage) :=
  kept.update {
    lock := (kept.uploads i).lock.trans (by rw [locked])
    handle := (kept.uploads i).handle
    admitted := fun passed => (admitted passed).elim (kept.uploads i).admitted id
    checking
    checked
  }

/-- An upload goes on within its check. -/
theorem Sound.advance (kept : Sound limits past s)
    (locked : stage.locked = (s.uploads i).stage.locked)
    (admitted : stage.admitted = (s.uploads i).stage.admitted)
    (checking : stage.checking = (s.uploads i).stage.checking)
    (checked : stage.Checked limits s.toVolume (s.uploads i).handle)
    : Sound limits past (s.move i stage) :=
  kept.move locked (fun passed => .inl (admitted ▸ passed))
    (fun writing => (kept.uploads i).checking (checking ▸ writing)) checked

/-- An upload takes the admission lock. -/
theorem Sound.acquire (kept : Sound limits past s) (free : s.lock = none)
    (locked : stage.locked = true)
    (admitted : stage.admitted = true → (s.uploads i).stage.admitted = true)
    (checking : stage.checking = true → (s.uploads i).stage.checking = true)
    (checked : stage.Checked limits s.toVolume (s.uploads i).handle)
    : Sound limits past { s.move i stage with lock := some i } where
  tree := kept.tree
  quota := kept.quota
  uploads := by
    refine (Function.forall_update_iff s.uploads
      (fun j upload =>
        Agrees limits past { s.move i stage with lock := some i } j upload)).mpr
      ⟨?_, fun j other => ?_⟩
    · exact {
        lock := by simp [locked]
        handle := (kept.uploads i).handle
        admitted := fun passed => (kept.uploads i).admitted (admitted passed)
        checking := fun writing => (kept.uploads i).checking (checking writing)
        checked
      }
    · have unlocked := (kept.uploads j).lock
      rw [free] at unlocked
      exact { kept.uploads j with lock := by simpa [Ne.symm other] using unlocked }

/-- An upload gives the admission lock back, if it has it. -/
theorem Sound.release (kept : Sound limits past s) (locked : stage.locked = false)
    (admitted : stage.admitted = true → (s.uploads i).stage.admitted = true)
    (checking : stage.checking = true → chunkBytes i past = 0)
    : Sound limits past (s.release i stage) where
  tree := kept.tree
  quota := kept.quota
  uploads := by
    refine (Function.forall_update_iff s.uploads
      (fun j upload => Agrees limits past (s.release i stage) j upload)).mpr
      ⟨?_, fun j other => ?_⟩
    · exact {
        lock := by
          simp only [Storage.release, locked]
          split
          · simp
          · rename_i free
            simp [free]
        handle := (kept.uploads i).handle
        admitted := fun passed => (kept.uploads i).admitted (admitted passed)
        checking
        checked := UploadStage.checked_of_unlocked locked
      }
    · refine { kept.uploads j with lock := ?_ }
      rw [← (kept.uploads j).lock]
      simp only [Storage.release]
      split
      · rename_i held
        simp [held, Ne.symm other]
      · exact Iff.rfl

/-- The holder of the lock changes the volume. -/
theorem Sound.hold (kept : Sound limits past s) (held : s.lock = some i) {volume : Volume}
    (tree : volume.Tree) (quota : volume.storageBytes limits.block ≤ limits.storageBytes)
    (inode : s.nextInode ≤ volume.nextInode)
    (free : limits.minFreeBytes ≤ s.free → limits.minFreeBytes ≤ volume.free)
    (own : Agrees limits past { s with toVolume := volume } i upload)
    : Sound limits past
        { s with toVolume := volume, uploads := Function.update s.uploads i upload } where
  tree := tree
  quota := quota
  uploads := by
    refine (Function.forall_update_iff s.uploads
      (fun j each =>
        Agrees limits past
          { s with toVolume := volume, uploads := Function.update s.uploads i upload } j
          each)).mpr
      ⟨{ own with }, fun j other => ?_⟩
    have unlocked : (s.uploads j).stage.locked = false := by
      have lock := (kept.uploads j).lock
      rw [held] at lock
      simpa [Ne.symm other] using lock
    exact {
      lock := (kept.uploads j).lock
      handle := fun node opened => ((kept.uploads j).handle node opened).trans_le inode
      admitted := fun admitted => free ((kept.uploads j).admitted admitted)
      checking := (kept.uploads j).checking
      checked := UploadStage.checked_of_unlocked unlocked
    }

-----------------------------------------------------------------------------------------
-- Steps
-----------------------------------------------------------------------------------------

/-- Where an exception leads, nothing is locked, admitted or about to be written. -/
theorem UploadStage.raised_plain {stage raised : UploadStage} (leads : stage.raised = some raised)
    : raised.locked = false ∧ raised.admitted = false ∧ raised.checking = false := by
  cases stage with
  | idle => cases leads
  | locking purpose | scanning purpose | budgeting purpose | reserving purpose =>
      cases purpose <;> cases leads <;> exact ⟨rfl, rfl, rfl⟩
  | _ =>
      cases leads
      exact ⟨rfl, rfl, rfl⟩

/-- A stage at which nothing is locked, admitted or about to be written. -/
theorem Sound.releasePlain (kept : Sound limits past s)
    (plain : stage.locked = false ∧ stage.admitted = false ∧ stage.checking = false)
    : Sound limits past (s.release i stage) :=
  kept.release plain.1 (by simp [plain.2.1]) (by simp [plain.2.2])

theorem Sound.raise (kept : Sound limits past s) (done : s.raise i = some t)
    : Sound limits past t := by
  obtain ⟨stage, leads, rfl⟩ := Option.map_eq_some_iff.mp done
  have released := kept.releasePlain (i := i) (UploadStage.raised_plain leads)
  split
  · exact released.tokens _
  · exact released.tokens _
  · exact released

theorem Sound.mkdirControl (kept : Sound limits past s)
    : Sound limits past { s with toVolume := s.mkdir [".admission"] } := by
  have root : s.isDirectory [] = true := rfl
  exact kept.shrink (.mkdir _ _) (kept.tree.mkdir root)

/-- The refusal of a check: nothing was written since it began. -/
theorem Sound.refuse (kept : Sound limits past s) {purpose : Purpose}
    : Sound limits (past ++ [.refused i purpose]) (s.release i purpose.refused) := by
  have plain : purpose.refused.locked = false ∧ purpose.refused.admitted = false
      ∧ purpose.refused.checking = false := by
    cases purpose <;> exact ⟨rfl, rfl, rfl⟩
  refine (kept.releasePlain (i := i) plain).label (fun j mine checking => ?_)
  cases mine
  simp [Storage.release, Storage.move, plain.2.2] at checking

/-- A part of a chunk is written: what it adds to the tree and takes of the free bytes was allowed
for.
-/
theorem Sound.append (kept : Sound limits past s) {left budget bytes used : Nat}
    (stage : (s.uploads i).stage = .appending left budget) {label : StorageLabel}
    (done : s.run limits i (.append bytes used) = some (label, t))
    : Sound limits (past ++ [label]) t := by
  have own := kept.uploads i
  obtain ⟨room, reserve⟩ : s.storageWith limits.block (s.uploads i).handle left
        ≤ limits.storageBytes
      ∧ limits.minFreeBytes + budget ≤ s.free := by
    have checked := own.checked
    rwa [stage] at checked
  have held : s.lock = some i := own.lock.mpr (by rw [stage]; rfl)
  simp only [Storage.run, stage] at done
  split at done
  · rename_i fits
    simp only [Bool.and_eq_true, decide_eq_true_eq] at fits
    obtain ⟨⟨bytes_le, used_le⟩, _⟩ := fits
    cases done
    have labelled : Sound limits (past ++ [.wrote i bytes]) s := by
      refine kept.label (fun j mine checking => ?_)
      cases mine
      rw [stage] at checking
      cases checking
    cases opened : (s.uploads i).handle with
    | none =>
        refine .move labelled (by rw [stage]; rfl) (fun _ => .inl (by rw [stage]; rfl))
          (fun checking => by cases checking) ?_
        rw [opened] at room ⊢
        refine ⟨?_, by omega⟩
        simpa [Volume.storageWith] using room
    | some inode =>
        rw [opened] at room
        have grown : (s.append inode bytes used).storageWith limits.block (some inode)
              (left - bytes)
            = s.storageWith limits.block (some inode) left :=
          s.storageWith_append bytes_le
        refine .hold labelled held (kept.tree.append _ _ _) ?_ (Nat.le_refl _) (fun _ => ?_) ?_
        · exact (Volume.storageBytes_le limits.positive _ (some inode) (left - bytes)).trans
            (grown.trans_le room)
        · simp only [Volume.append]
          omega
        · exact {
            lock := by simp [held, UploadStage.locked]
            handle := own.handle
            admitted := fun _ => by
              simp only [Volume.append]
              omega
            checking := fun checking => by cases checking
            checked := by
              refine ⟨?_, by simp only [Volume.append]; omega⟩
              simp only [opened]
              exact grown.trans_le room
          }
  · cases done

/-- A rename within a directory adds nothing to the tree. -/
theorem Volume.storageBytes_replace (volume : Volume) (block : Nat) (directory : Path)
    (source target : String)
    : (volume.replace (directory ++ [source]) (directory ++ [target])).storageBytes block
      ≤ volume.storageBytes block := by
  unfold Volume.replace
  split
  · exact Nat.le_refl _
  · have unlinked := fun block => @Shrinks.storageBytes _ _ block (.unlink volume (directory ++ [target]))
    refine Nat.le_trans (Nat.le_of_eq ?_) (unlinked block)
    simp only [Volume.storageBytes, List.map_map]
    congr 1
    refine List.map_congr_left (fun file _ => ?_)
    simp only [Function.comp_apply]
    split
    · rename_i same
      have counted : { file with path := directory ++ [target] }.counted = file.counted := by
        cases directory <;> simp [File.counted, same]
      simp [File.weight, counted, File.bytes]
    · rfl

/-- The rename to the final name. -/
theorem Sound.replace (kept : Sound limits past s) (stage : (s.uploads i).stage = .replacing)
    (found : (s.file? (s.uploads i).temporaryPath).isSome = true)
    : Sound limits past
        { s with
          toVolume := s.replace (s.uploads i).temporaryPath (s.uploads i).inputPath } := by
  have held : s.lock = some i := (kept.uploads i).lock.mpr (by rw [stage]; rfl)
  have own := kept.uploads i
  have frame : (s.replace (s.uploads i).temporaryPath (s.uploads i).inputPath).nextInode
        = s.nextInode
      ∧ (s.replace (s.uploads i).temporaryPath (s.uploads i).inputPath).free = s.free := by
    unfold Volume.replace
    split <;> exact ⟨rfl, rfl⟩
  have replaced : Agrees limits past
      { s with toVolume := s.replace (s.uploads i).temporaryPath (s.uploads i).inputPath } i
      (s.uploads i) := {
    lock := own.lock
    handle := fun inode opened => (own.handle inode opened).trans_eq frame.1.symm
    admitted := by simp [stage, UploadStage.admitted]
    checking := own.checking
    checked := by
      rw [stage]
      trivial
  }
  have changed := kept.hold held (kept.tree.replace found)
    ((s.storageBytes_replace _ _ _ _).trans kept.quota) frame.1.ge
    (fun enough => enough.trans_eq frame.2.symm) replaced
  rwa [Function.update_eq_self] at changed

/-- A chunk arrives. -/
theorem Sound.read (kept : Sound limits past s) (stage : (s.uploads i).stage = .streaming)
    (size : Nat) {label : StorageLabel} (mine : label.upload? = some i)
    : Sound limits (past ++ [label])
        { s with
          uploads :=
            Function.update s.uploads i
              { s.uploads i with total := (s.uploads i).total + size, stage := .streaming } } := by
  have own := kept.uploads i
  have counted : Sound limits past
      { s with
        uploads :=
          Function.update s.uploads i
            { s.uploads i with total := (s.uploads i).total + size, stage := .streaming } } :=
    kept.update {
      lock := by simpa [stage] using own.lock
      handle := own.handle
      admitted := fun _ => own.admitted (by rw [stage]; rfl)
      checking := nofun
      checked := trivial
    }
  refine counted.label (fun j named checking => ?_)
  cases mine.symm.trans named
  simp [UploadStage.checking] at checking

/-- The step of an upload, by cases on where it is. -/
theorem Sound.run (kept : Sound limits past s) {choice : UploadChoice} {label : StorageLabel}
    (done : s.run limits i choice = some (label, t))
    : Sound limits (past ++ [label]) t := by
  have own := kept.uploads i
  cases stage : (s.uploads i).stage with
  | idle => simp [Storage.run, stage] at done
  | globbing =>
      simp only [Storage.run, stage] at done
      cases done
      exact .silent (.move kept (by rw [stage]; rfl) nofun nofun trivial)
  | clearing names =>
      cases names with
      | nil =>
          simp only [Storage.run, stage] at done
          cases done
          exact .silent (.move kept (by rw [stage]; rfl) nofun nofun trivial)
      | cons name names =>
          simp only [Storage.run, stage] at done
          cases done
          have cleared := kept.shrink (.unlink _ ((s.uploads i).directory ++ [name.val]))
            (kept.tree.unlink _)
          exact .silent (.move cleared (by simp only [stage]; rfl) nofun nofun trivial)
  | locking purpose =>
      simp only [Storage.run, stage] at done
      split at done
      · cases done
      · rename_i unlocked
        have free : s.lock = none := by simpa using unlocked
        cases purpose with
        | admission =>
            cases done
            exact .silent (.acquire kept.mkdirControl free rfl nofun nofun trivial)
        | chunk size =>
            cases done
            refine .silent (.acquire kept.mkdirControl free rfl ?_ ?_ ?_)
            · simp only [stage]
              exact fun _ => rfl
            · simp only [stage]
              exact fun _ => rfl
            · exact Volume.Covered.start kept.mkdirControl.tree
  | counting =>
      simp only [Storage.run, stage] at done
      split at done
      · cases done
        exact kept.refuse
      · cases done
        have moved : Sound limits past (s.move i (.scanning .admission .start)) :=
          kept.move (by rw [stage]; rfl) nofun nofun (Volume.Covered.start kept.tree)
        exact (moved.tokens _).silent
  | scanning purpose walk =>
      have covered : s.toVolume.Covered limits.block walk := by
        have checked := own.checked
        rwa [stage] at checked
      simp only [Storage.run, stage] at done
      split at done
      · rename_i further next
        cases done
        exact .silent (.advance kept (by rw [stage]; rfl) (by rw [stage]; cases purpose <;> rfl)
          (by rw [stage]; cases purpose <;> rfl) (covered.next kept.tree next))
      · rename_i total finished
        cases done
        exact .silent (.advance kept (by rw [stage]; rfl) (by rw [stage]; cases purpose <;> rfl)
          (by rw [stage]; cases purpose <;> rfl) (covered.done finished))
      · obtain ⟨u, raised, same⟩ := Option.map_eq_some_iff.mp done
        cases same
        exact (kept.raise raised).silent
  | budgeting purpose total =>
      have covered : s.storageBytes limits.block ≤ total := by
        have checked := own.checked
        rwa [stage] at checked
      simp only [Storage.run, stage] at done
      split at done
      · cases done
        exact kept.refuse
      · rename_i room
        cases done
        refine .silent (.advance kept (by rw [stage]; rfl) (by rw [stage]; cases purpose <;> rfl)
          (by rw [stage]; cases purpose <;> rfl) ?_)
        exact (Nat.add_le_add_right covered _).trans (Nat.not_lt.mp room)
  | reserving purpose =>
      have room : s.storageBytes limits.block + roundUp limits.block purpose.extra
          ≤ limits.storageBytes := by
        have checked := own.checked
        rwa [stage] at checked
      simp only [Storage.run, stage] at done
      split at done
      · cases done
        exact kept.refuse
      · rename_i reserve
        have free : limits.minFreeBytes + roundUp limits.block purpose.extra ≤ s.free := by
          omega
        cases purpose with
        | admission =>
            cases done
            exact .silent (.move kept (by rw [stage]; rfl)
              (fun _ => .inr ((Nat.le_add_right _ _).trans free)) nofun trivial)
        | chunk size =>
            cases done
            refine .silent (.move kept (by rw [stage]; rfl)
              (fun _ => .inr ((Nat.le_add_right _ _).trans free)) nofun ⟨?_, free⟩)
            exact (Volume.storageWith_le limits.positive kept.tree _ _).trans room
  | registering =>
      simp only [Storage.run, stage] at done
      cases done
      have released : Sound limits past (s.release i .opening) :=
        kept.release rfl (fun _ => by rw [stage]; rfl) nofun
      exact (released.tokens _).silent
  | opening =>
      simp only [Storage.run, stage] at done
      split at done
      · rename_i possible
        simp only [Bool.and_eq_true, Option.isNone_iff_eq_none] at possible
        cases done
        have created := kept.shrink (.create _ (s.uploads i).temporaryPath)
          (kept.tree.create possible.1 possible.2)
        refine .silent (.update created ?_)
        have unlocked := own.lock
        rw [stage] at unlocked
        exact {
          lock := unlocked
          handle := fun inode opened => by
            cases opened
            exact Nat.lt_succ_self _
          admitted := fun _ => own.admitted (by rw [stage]; rfl)
          checking := nofun
          checked := trivial
        }
      · obtain ⟨u, raised, same⟩ := Option.map_eq_some_iff.mp done
        cases same
        exact (kept.raise raised).silent
  | streaming =>
      cases choice with
      | chunk size =>
          have labelled : ∀ label : StorageLabel, label.upload? = some i → _ :=
            fun label mine => kept.read stage size mine
          simp only [Storage.run, stage] at done
          split at done
          · cases done
            refine .move (labelled (.chunk i size) rfl) ?_ nofun nofun trivial
            simp only [Function.update_self]
            rfl
          · split at done
            · cases done
              exact labelled _ rfl
            · cases done
              exact .move (labelled _ rfl) (by simp only [Function.update_self]; rfl)
                (fun _ => .inl (by simp only [Function.update_self]; rfl))
                (fun _ => by simp [chunkBytes]) trivial
      | go =>
          simp only [Storage.run, stage] at done
          cases done
          exact .silent (.move kept (by rw [stage]; rfl)
            (fun _ => .inl (by rw [stage]; rfl)) nofun trivial)
      | fail => simp [Storage.run, stage] at done
      | append bytes used => simp [Storage.run, stage] at done
  | appending left budget =>
      cases choice with
      | append bytes used => exact kept.append stage done
      | go =>
          simp only [Storage.run, stage] at done
          split at done <;> cases done
          have released : Sound limits past (s.release i .streaming) :=
            kept.release rfl (fun _ => by rw [stage]; rfl) nofun
          refine released.label (fun j mine checking => ?_)
          cases mine
          simp [Storage.release, Storage.move, UploadStage.checking] at checking
      | fail => simp [Storage.run, stage] at done
      | chunk size => simp [Storage.run, stage] at done
  | syncing =>
      simp only [Storage.run, stage] at done
      cases done
      exact .silent (.move kept (by rw [stage]; rfl) nofun nofun trivial)
  | leaving complete =>
      simp only [Storage.run, stage] at done
      split at done
      · cases done
      · rename_i unlocked
        cases done
        exact .silent (.acquire kept.mkdirControl (by simpa using unlocked) rfl nofun nofun trivial)
  | unregistering complete =>
      simp only [Storage.run, stage] at done
      cases done
      refine .silent (.tokens (.releasePlain kept ?_) _)
      cases complete <;> exact ⟨rfl, rfl, rfl⟩
  | publishing =>
      simp only [Storage.run, stage] at done
      split at done
      · cases done
      · rename_i unlocked
        cases done
        exact .silent (.acquire kept.mkdirControl (by simpa using unlocked) rfl nofun nofun trivial)
  | replacing =>
      simp only [Storage.run, stage] at done
      split at done
      · rename_i found
        cases done
        refine .silent (.releasePlain (kept.replace stage found) ?_)
        split <;> exact ⟨rfl, rfl, rfl⟩
      · obtain ⟨u, raised, same⟩ := Option.map_eq_some_iff.mp done
        cases same
        exact (kept.raise raised).silent
  | aborting =>
      simp only [Storage.run, stage] at done
      cases done
      have cleared := kept.shrink (.unlink _ (s.uploads i).temporaryPath) (kept.tree.unlink _)
      exact .silent (.move cleared (by simp only [stage]; rfl) nofun nofun trivial)

/-- Every step keeps the invariant, by cases on what happens. -/
theorem Sound.step (kept : Sound limits past s) {label : StorageLabel}
    (step : s.Step limits label t)
    : Sound limits (past ++ [label]) t := by
  obtain ⟨action, done⟩ := step
  cases action with
  | start i directory final uuid =>
      simp only [Storage.exec] at done
      split at done <;> cases done
      rename_i idle
      have unlocked := (kept.uploads i).lock
      rw [idle] at unlocked
      exact .silent (.update kept {
        lock := unlocked
        handle := nofun
        admitted := nofun
        checking := nofun
        checked := trivial
      })
  | run i choice => exact kept.run done
  | raise i =>
      obtain ⟨u, raised, same⟩ := Option.map_eq_some_iff.mp done
      cases same
      exact (kept.raise raised).silent
  | die i =>
      cases done
      exact .silent (.tokens (kept.releasePlain ⟨rfl, rfl, rfl⟩) _)
  | cleanup path =>
      cases done
      exact .silent (kept.shrink (.unlink _ path) (kept.tree.unlink path))
  | mkdir directory name =>
      simp only [Storage.exec] at done
      split at done <;> cases done
      rename_i exists_
      exact .silent (kept.shrink (.mkdir _ _) (kept.tree.mkdir exists_))
  | rmdir directory =>
      simp only [Storage.exec] at done
      split at done <;> cases done
      rename_i empty
      exact .silent (kept.shrink (.directories _ _) (kept.tree.rmdir empty))
  | freed bytes =>
      cases done
      exact .silent (kept.shrink (.freed _ bytes) { kept.tree with })

end Transcriber.Admission
