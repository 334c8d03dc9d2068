import Transcriber.Ingress.Admission

/-! The sum that `storage_bytes` returns under the admission lock covers the tree it has walked: a
file with bytes cannot appear or move while the lock is held, so each one that is left is either
counted or still ahead of the walk.
-/

namespace Transcriber.Admission

open Rounding

-----------------------------------------------------------------------------------------
-- Weights
-----------------------------------------------------------------------------------------

namespace File

variable {block : Nat}

/-- A file occupies at least its size. -/
theorem bytes_eq (positive : 0 < block) (file : File)
    : file.bytes block = roundUp block file.size :=
  max_eq_right (le_roundUp positive _)

theorem weight_empty {file : File} (empty : file.size = 0) : file.weight block = 0 := by
  simp [weight, bytes, empty, roundUp_zero]

/-- What a file adds grows with its size, by at most the rounded growth. -/
theorem weight_grow (positive : 0 < block) (file : File) (bytes : Nat)
    : { file with size := file.size + bytes }.weight block
      ≤ file.weight block + roundUp block bytes := by
  simp only [weight, counted, bytes_eq positive]
  split
  · exact roundUp_add_le positive _ _
  · omega

theorem weight_mono (positive : 0 < block) (file : File) (bytes : Nat)
    : file.weight block ≤ { file with size := file.size + bytes }.weight block := by
  simp only [weight, counted, bytes_eq positive]
  split
  · exact roundUp_mono (Nat.le_add_right _ _)
  · exact Nat.le_refl _

end File

-----------------------------------------------------------------------------------------
-- Trees
-----------------------------------------------------------------------------------------

namespace Volume

/-- Paths and inodes are unique, and whatever is above a file or a directory is a directory. -/
structure Tree (volume : Volume) : Prop where
  paths : (volume.files.map File.path).Nodup
  inodes : (volume.files.map File.inode).Nodup
  fresh : ∀ file ∈ volume.files, file.inode < volume.nextInode
  named : ∀ file ∈ volume.files, file.path ≠ []
  above
    : ∀ file ∈ volume.files, ∀ path,
        path ≠ []
        → path <+: file.path
        → path ≠ file.path
        → path ∈ volume.directories
  nested
    : ∀ directory ∈ volume.directories, ∀ path,
        path ≠ [] → path <+: directory → path ∈ volume.directories

variable {volume : Volume}

theorem Tree.unlink (tree : volume.Tree) (path : Path) : (volume.unlink path).Tree where
  paths := Table.nodup_delete tree.paths _
  inodes := Table.nodup_delete tree.inodes _
  fresh file member := tree.fresh file (List.mem_of_mem_filter member)
  named file member := tree.named file (List.mem_of_mem_filter member)
  above file member := tree.above file (List.mem_of_mem_filter member)
  nested := tree.nested

/-- A path just above another one is a directory, by the prefixes of an append. -/
theorem Tree.of_prefix (tree : volume.Tree) {directory : Path} {name : String} {path : Path}
    (exists_ : volume.isDirectory directory = true) (nonempty : path ≠ [])
    (below : path <+: directory ++ [name]) (proper : path ≠ directory ++ [name])
    : path ∈ volume.directories := by
  have inside : path <+: directory := (List.prefix_concat_iff.mp below).resolve_left proper
  simp only [isDirectory, Bool.or_eq_true, decide_eq_true_eq] at exists_
  rcases exists_ with rfl | member
  · exact absurd (List.prefix_nil.mp inside) nonempty
  · exact tree.nested directory member path nonempty inside

theorem Tree.create (tree : volume.Tree) {directory : Path} {name : String}
    (exists_ : volume.isDirectory directory = true)
    (free : volume.file? (directory ++ [name]) = none)
    : (volume.create (directory ++ [name])).Tree where
  paths := Table.nodup_append_singleton tree.paths free
  inodes := by
    have new : Table.lookup File.inode volume.nextInode volume.files = none := by
      simp only [Table.lookup, List.find?_eq_none, decide_eq_true_eq]
      intro file member same
      exact absurd (tree.fresh file member) (by omega)
    exact Table.nodup_append_singleton tree.inodes new
  fresh file member := by
    rcases List.mem_append.mp member with old | new
    · exact Nat.lt_succ_of_lt (tree.fresh file old)
    · rw [List.mem_singleton.mp new]
      exact Nat.lt_succ_self _
  named file member := by
    rcases List.mem_append.mp member with old | new
    · exact tree.named file old
    · rw [List.mem_singleton.mp new]
      simp
  above file member path nonempty below proper := by
    rcases List.mem_append.mp member with old | new
    · exact tree.above file old path nonempty below proper
    · cases List.mem_singleton.mp new
      exact tree.of_prefix exists_ nonempty below proper
  nested := tree.nested

theorem Tree.append (tree : volume.Tree) (inode bytes used : Nat)
    : (volume.append inode bytes used).Tree := by
  have kept : ∀ file : File,
      (if file.inode = inode then { file with size := file.size + bytes } else file).path
          = file.path
        ∧ (if file.inode = inode then { file with size := file.size + bytes } else file).inode
          = file.inode := by
    intro file
    split <;> exact ⟨rfl, rfl⟩
  refine {
    paths := ?_
    inodes := ?_
    fresh := fun file member => ?_
    named := fun file member => ?_
    above := fun file member => ?_
    nested := tree.nested
  }
  · simpa [Volume.append, Function.comp_def, kept] using tree.paths
  · simpa [Volume.append, Function.comp_def, kept] using tree.inodes
  · obtain ⟨old, stored, rfl⟩ := List.mem_map.mp member
    rw [(kept old).2]
    exact tree.fresh old stored
  · obtain ⟨old, stored, rfl⟩ := List.mem_map.mp member
    rw [(kept old).1]
    exact tree.named old stored
  · obtain ⟨old, stored, rfl⟩ := List.mem_map.mp member
    rw [(kept old).1]
    exact tree.above old stored

theorem Tree.mkdir (tree : volume.Tree) {directory : Path} {name : String}
    (exists_ : volume.isDirectory directory = true)
    : (volume.mkdir (directory ++ [name])).Tree := by
  unfold Volume.mkdir
  split
  · exact tree
  · refine { tree with above := ?_, nested := ?_ }
    · intro file member path nonempty below proper
      exact List.mem_append_left _ (tree.above file member path nonempty below proper)
    · intro other member path nonempty below
      rcases List.mem_append.mp member with old | new
      · exact List.mem_append_left _ (tree.nested other old path nonempty below)
      · rw [List.mem_singleton.mp new] at below
        by_cases same : path = directory ++ [name]
        · exact List.mem_append_right _ (List.mem_singleton.mpr same)
        · exact List.mem_append_left _ (tree.of_prefix exists_ nonempty below same)

theorem Tree.rmdir (tree : volume.Tree) {directory : Path}
    (empty : volume.isEmpty directory = true)
    : (volume.rmdir directory).Tree := by
  simp only [isEmpty, Bool.and_eq_true, List.all_eq_true, Bool.not_eq_true',
    Bool.or_eq_true, decide_eq_true_eq] at empty
  obtain ⟨noFile, noDirectory⟩ := empty
  refine { tree with above := ?_, nested := ?_ }
  · intro file member path nonempty below proper
    refine List.mem_filter.mpr ⟨tree.above file member path nonempty below proper, ?_⟩
    rw [decide_eq_true_eq]
    rintro rfl
    have absent := noFile file member
    rw [List.isPrefixOf_iff_prefix.mpr below] at absent
    cases absent
  · intro other member path nonempty below
    obtain ⟨stored, different⟩ := List.mem_filter.mp member
    refine List.mem_filter.mpr ⟨tree.nested other stored path nonempty below, ?_⟩
    rw [decide_eq_true_eq] at different ⊢
    rintro rfl
    rcases noDirectory other stored with same | absent
    · exact different same
    · rw [List.isPrefixOf_iff_prefix.mpr below] at absent
      cases absent

/-- The directory of a file is one. -/
theorem Tree.isDirectory_of_file (tree : volume.Tree) {directory : Path} {name : String}
    (found : (volume.file? (directory ++ [name])).isSome = true)
    : volume.isDirectory directory = true := by
  obtain ⟨file, stored⟩ := Option.isSome_iff_exists.mp found
  have member := Table.lookup_mem stored
  have path := Table.lookup_key stored
  by_cases root : directory = []
  · simp [isDirectory, root]
  · have above := tree.above file member directory root
      (path ▸ List.prefix_append _ _) (by rw [path]; simp)
    simp [isDirectory, above]

/-- A rename within a directory. -/
theorem Tree.replace (tree : volume.Tree) {directory : Path} {source target : String}
    (found : (volume.file? (directory ++ [source])).isSome = true)
    : (volume.replace (directory ++ [source]) (directory ++ [target])).Tree := by
  have exists_ := tree.isDirectory_of_file found
  unfold Volume.replace
  split
  · exact tree
  · rename_i different
    have cleared := tree.unlink (directory ++ [target])
    have absent : ∀ file ∈ (volume.unlink (directory ++ [target])).files,
        file.path ≠ directory ++ [target] := by
      intro file member
      simpa using (List.mem_filter.mp member).2
    refine {
      paths := ?_
      inodes := ?_
      fresh := fun file member => ?_
      named := fun file member => ?_
      above := fun file member path nonempty below proper => ?_
      nested := cleared.nested
    }
    · have mapped : ((volume.unlink (directory ++ [target])).files.map (fun file =>
            if file.path = directory ++ [source] then
              { file with path := directory ++ [target] }
            else
              file)).map File.path
          = ((volume.unlink (directory ++ [target])).files.map File.path).map (fun path =>
              if path = directory ++ [source] then directory ++ [target] else path) := by
        simp only [List.map_map]
        refine List.map_congr_left (fun file _ => ?_)
        simp only [Function.comp_apply]
        split <;> rfl
      simp only [mapped]
      refine cleared.paths.map_on (fun first one second two same => ?_)
      obtain ⟨oneFile, oneMember, rfl⟩ := List.mem_map.mp one
      obtain ⟨twoFile, twoMember, rfl⟩ := List.mem_map.mp two
      split at same <;> split at same
      · rename_i oneSource twoSource
        rw [oneSource, twoSource]
      · exact absurd same.symm (absent twoFile twoMember)
      · exact absurd same (absent oneFile oneMember)
      · exact same
    · have mapped : ∀ file : File,
          (if file.path = directory ++ [source] then
              { file with path := directory ++ [target] }
            else
              file).inode = file.inode := by
        intro file
        split <;> rfl
      simpa [Function.comp_def, mapped] using cleared.inodes
    · obtain ⟨old, stored, rfl⟩ := List.mem_map.mp member
      split <;> exact cleared.fresh old stored
    · obtain ⟨old, stored, rfl⟩ := List.mem_map.mp member
      split
      · simp
      · exact cleared.named old stored
    · obtain ⟨old, stored, rfl⟩ := List.mem_map.mp member
      split at below <;> split at proper
      · exact cleared.of_prefix exists_ nonempty below proper
      · contradiction
      · contradiction
      · exact cleared.above old stored path nonempty below proper

-----------------------------------------------------------------------------------------
-- What other writers do under the lock
-----------------------------------------------------------------------------------------

/-- No measure that a new empty file leaves at zero grows, and no byte is taken. -/
structure Shrinks (before after : Volume) : Prop where
  sum
    : ∀ measure : File → Nat,
        (∀ file, file.size = 0 → before.nextInode ≤ file.inode → measure file = 0)
        → (after.files.map measure).sum ≤ (before.files.map measure).sum
  inode : before.nextInode ≤ after.nextInode
  free : before.free ≤ after.free

theorem Shrinks.refl (volume : Volume) : volume.Shrinks volume :=
  ⟨fun _ _ => Nat.le_refl _, Nat.le_refl _, Nat.le_refl _⟩

/-- The directories are in no measure. -/
theorem Shrinks.directories (volume : Volume) (directories : List Path)
    : volume.Shrinks { volume with directories } :=
  ⟨fun _ _ => Nat.le_refl _, Nat.le_refl _, Nat.le_refl _⟩

theorem Shrinks.mkdir (volume : Volume) (path : Path) : volume.Shrinks (volume.mkdir path) := by
  unfold Volume.mkdir
  split
  · exact .refl volume
  · exact .directories volume _

theorem Shrinks.unlink (volume : Volume) (path : Path) : volume.Shrinks (volume.unlink path) where
  sum measure _ := by
    simp only [Volume.unlink, Table.sum_delete]
    refine List.sum_le_sum (fun file _ => ?_)
    split <;> omega
  inode := Nat.le_refl _
  free := Nat.le_refl _

theorem Shrinks.create (volume : Volume) (path : Path) : volume.Shrinks (volume.create path) where
  sum measure empty := by
    have new := empty ⟨volume.nextInode, path, 0⟩ rfl (Nat.le_refl _)
    simp [Volume.create, new]
  inode := Nat.le_succ _
  free := Nat.le_refl _

theorem Shrinks.freed (volume : Volume) (bytes : Nat)
    : volume.Shrinks { volume with free := volume.free + bytes } :=
  ⟨fun _ _ => Nat.le_refl _, Nat.le_refl _, Nat.le_add_right _ _⟩

variable {before after : Volume} {block : Nat}

theorem Shrinks.storageBytes (shrinks : before.Shrinks after)
    : after.storageBytes block ≤ before.storageBytes block :=
  shrinks.sum _ (fun _ empty _ => File.weight_empty empty)

-----------------------------------------------------------------------------------------
-- Walks
-----------------------------------------------------------------------------------------

end Volume

/-- The file has still to be listed or inspected. -/
def Walk.ahead (walk : Walk) (file : File) : Bool :=
  file.path ∈ walk.pending
  || walk.stack.any (fun directory => directory.isPrefixOf file.path && directory ≠ file.path)

namespace Volume

variable {before after volume : Volume} {block : Nat} {walk further : Walk}

/-- The sum covers every file that is not ahead of the walk. -/
def Covered (block : Nat) (volume : Volume) (walk : Walk) : Prop :=
  (volume.files.map (fun file => if walk.ahead file then 0 else file.weight block)).sum
  ≤ walk.total

/-- The whole tree is ahead of a walk that begins. -/
theorem Covered.start (tree : volume.Tree) : volume.Covered block .start := by
  refine (List.sum_le_sum (g := fun _ => 0) (fun file member => ?_)).trans (by simp)
  have named := tree.named file member
  simp [Walk.ahead, Walk.start, Ne.symm named]

theorem Covered.shrink (covered : before.Covered block walk) (shrinks : before.Shrinks after)
    : after.Covered block walk := by
  refine (shrinks.sum _ (fun file empty _ => ?_)).trans covered
  simp [File.weight_empty empty]

/-- A file with bytes below a listed directory is among its files or below one of its directories.
-/
theorem Tree.ahead_listed (tree : volume.Tree) {file : File} (member : file ∈ volume.files)
    {directory : Path} (below : directory <+: file.path) (proper : directory ≠ file.path)
    (weighs : file.weight block ≠ 0) (stack : List Path) (total : Nat)
    : Walk.ahead ⟨volume.subdirectories directory ++ stack, volume.entries directory, total⟩ file
      = true := by
  obtain ⟨rest, path⟩ := below
  cases rest with
  | nil => exact absurd (by simpa using path) proper
  | cons name rest =>
      by_cases last : rest = []
      · subst last
        have listed : file.path ∈ volume.entries directory := by
          refine List.mem_filter.mpr ⟨List.mem_map_of_mem member, ?_⟩
          simp [← path]
        simp [Walk.ahead, listed]
      · have prefix_ : directory ++ [name] <+: file.path := ⟨rest, by simpa using path⟩
        have different : directory ++ [name] ≠ file.path := by
          rw [← path]
          simpa using Ne.symm last
        have counted : directory ++ [name] ≠ [".admission"] := by
          intro admission
          refine weighs ?_
          cases directory with
          | nil =>
              cases rest with
              | nil => exact absurd rfl last
              | cons second rest =>
                  cases admission
                  simp [File.weight, File.counted, ← path]
          | cons first directory => simp at admission
        have listed : directory ++ [name] ∈ volume.subdirectories directory := by
          refine List.mem_filter.mpr ⟨?_, by simp [counted]⟩
          exact tree.above file member _ (by simp) prefix_ different
        simp only [Walk.ahead, Bool.or_eq_true, List.any_eq_true]
        refine .inr ⟨directory ++ [name], List.mem_append_left _ listed, ?_⟩
        simp [prefix_, different]

/-- A step of the walk: an inspected file is counted, and a listed directory leads on to whatever
has bytes below it.
-/
theorem Covered.next (covered : volume.Covered block walk) (tree : volume.Tree)
    (done : walk.next block volume = .going further)
    : volume.Covered block further := by
  obtain ⟨stack, pending, total⟩ := walk
  cases pending with
  | cons path pending =>
      cases done
      refine (Table.sum_raise tree.paths path (fun file _ other => ?_)
        (fun file member same => ?_)).trans (Nat.add_le_add_right covered _)
      · simp [Walk.ahead, other]
      · have found : volume.file? path = some file := same ▸ Table.lookup_of_mem tree.paths member
        have counts : file.weight block ≤ file.bytes block := by
          unfold File.weight
          split <;> omega
        simp only [found, Option.map_some, Option.getD_some]
        split <;> omega
  | nil =>
      cases stack with
      | nil => cases done
      | cons directory stack =>
          simp only [Walk.next] at done
          split at done <;> cases done
          refine (List.sum_le_sum (fun file member => ?_)).trans covered
          by_cases weighs : file.weight block = 0
          · simp [weighs]
          by_cases listed : directory <+: file.path ∧ directory ≠ file.path
          · rw [if_pos (tree.ahead_listed member listed.1 listed.2 weighs _ _)]
            exact Nat.zero_le _
          · have same : Walk.ahead ⟨directory :: stack, [], total⟩ file = true
                → Walk.ahead
                    ⟨volume.subdirectories directory ++ stack, volume.entries directory, total⟩
                    file = true := by
              intro ahead
              simp only [Walk.ahead, List.any_append, Bool.or_eq_true] at ahead ⊢
              rcases ahead with pending | elsewhere
              · simp at pending
              · simp only [List.any_cons, Bool.or_eq_true, Bool.and_eq_true,
                  List.isPrefixOf_iff_prefix, decide_eq_true_eq] at elsewhere
                exact .inr (.inr (elsewhere.resolve_left listed))
            split
            · exact Nat.zero_le _
            · rename_i inspected
              rw [if_neg (fun ahead => inspected (same ahead))]

/-- A finished walk covers the tree. -/
theorem Covered.done (covered : volume.Covered block walk) {total : Nat}
    (done : walk.next block volume = .done total)
    : volume.storageBytes block ≤ total := by
  obtain ⟨stack, pending, sum⟩ := walk
  cases pending with
  | cons path pending => cases done
  | nil =>
      cases stack with
      | cons directory stack =>
          simp only [Walk.next] at done
          split at done <;> cases done
      | nil =>
          cases done
          simpa [Covered, Walk.ahead, storageBytes] using covered

end Volume

end Transcriber.Admission
