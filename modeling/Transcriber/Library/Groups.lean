import Mathlib.Data.List.Dedup
import Transcriber.Library.Table

/-! Grouping the rows of a table by a key: a table with one row for each group is looked up by the
key of the group, in whatever order its rows come.
-/

namespace Table

variable {α β : Type*} {κ : Type*} [DecidableEq κ]
variable {key : α → κ} {rows : List α} {k : κ}

/-- GROUP BY: the keys that occur, each with its rows. -/
def groups (key : α → κ) (rows : List α) : List (κ × List α) :=
  (rows.map key).dedup.map (fun k => (k, rows.filter (fun row => key row = k)))

theorem groups_keys : (groups key rows).map Prod.fst = (rows.map key).dedup := by
  rw [groups, List.map_map]
  exact List.map_id _

theorem mem_groups {group : κ × List α}
    : group ∈ groups key rows
      ↔ group.1 ∈ rows.map key ∧ group.2 = rows.filter (fun row => key row = group.1) := by
  obtain ⟨k, members⟩ := group
  simp only [groups, List.mem_map, List.mem_dedup, Prod.mk.injEq]
  constructor
  · rintro ⟨_, occurs, rfl, rfl⟩
    exact ⟨occurs, rfl⟩
  · rintro ⟨occurs, same⟩
    exact ⟨k, occurs, rfl, same.symm⟩

/-- The rows of a group have its key. -/
theorem groups_members {group : κ × List α} (member : group ∈ groups key rows)
    : group.2 ≠ [] ∧ ∀ row ∈ group.2, row ∈ rows ∧ key row = group.1 := by
  obtain ⟨occurs, same⟩ := mem_groups.mp member
  obtain ⟨row, stored, named⟩ := List.mem_map.mp occurs
  rw [same]
  refine ⟨List.ne_nil_of_mem (a := row) (by simp [stored, named]), fun row member => ?_⟩
  simpa using member

/-- A row for each group, looked up by the key: there is one if the key occurs. -/
theorem lookup_groups {summary : κ × List α → β} {keyOf : β → κ}
    (keyed : ∀ group, keyOf (summary group) = group.1) {table : List β}
    (listed : table.Perm ((groups key rows).map summary))
    : lookup keyOf k table
      = if k ∈ rows.map key then
          some (summary (k, rows.filter (fun row => key row = k)))
        else
          none := by
  have keys : (((groups key rows).map summary).map keyOf) = (rows.map key).dedup := by
    rw [List.map_map, ← groups_keys]
    exact List.map_congr_left (fun group _ => keyed group)
  have distinct : (table.map keyOf).Nodup := by
    rw [(listed.map keyOf).nodup_iff, keys]
    exact List.nodup_dedup _
  split
  · rename_i occurs
    have member : summary (k, rows.filter (fun row => key row = k)) ∈ table := by
      rw [listed.mem_iff]
      exact List.mem_map_of_mem (mem_groups.mpr ⟨occurs, rfl⟩)
    simpa only [keyed] using lookup_of_mem distinct member
  · rename_i missing
    cases found : lookup keyOf k table with
    | none => rfl
    | some row =>
        have member := (listed.map keyOf).mem_iff.mp (List.mem_map_of_mem (lookup_mem found))
        rw [keys, lookup_key found, List.mem_dedup] at member
        exact absurd member missing

/-- A count over the rows of a looked-up group, none without one. -/
theorem count_groups {summary : κ × List α → β} {keyOf : β → κ}
    (keyed : ∀ group, keyOf (summary group) = group.1) {table : List β}
    (listed : table.Perm ((groups key rows).map summary)) {count : β → Nat} {p : α → Bool}
    (counts : ∀ group, count (summary group) = group.2.countP p)
    : (lookup keyOf k table).elim 0 count = rows.countP (fun row => key row = k && p row) := by
  rw [lookup_groups keyed listed]
  split
  · simp [counts, List.countP_filter, Bool.and_comm]
  · rename_i missing
    symm
    rw [Option.elim_none, List.countP_eq_zero]
    intro row member
    have differs : key row ≠ k := fun same => missing (same ▸ List.mem_map_of_mem member)
    simp [differs]

end Table
