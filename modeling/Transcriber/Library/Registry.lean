import Mathlib.Logic.Function.Basic
import Transcriber.Library.Table

/-! Tables whose rows have two keys, such as an id and a name: what a change of one row does to
both lookups.
-/

namespace Table

variable {α κ ν : Type*} [DecidableEq κ] [DecidableEq ν] {key : α → κ} {other : α → ν}
variable {rows : List α} {row new : α} {k : κ} {f : α → α}

/-- With distinct keys a key finds the stored row that carries it. -/
theorem lookup_iff (distinct : (rows.map key).Nodup)
    : lookup key k rows = some row ↔ row ∈ rows ∧ key row = k := by
  constructor
  · intro found
    exact ⟨lookup_mem found, lookup_key found⟩
  · rintro ⟨member, rfl⟩
    exact lookup_of_mem distinct member

/-- Two lookups agree where they find the same rows. -/
theorem lookup_eq_of_iff {old : Option α} (distinct : (rows.map key).Nodup)
    (same : ∀ row, old = some row ↔ row ∈ rows ∧ key row = k)
    : lookup key k rows = old := by
  apply Option.ext
  intro row
  rw [lookup_iff distinct, same]

/-- The rows with the one under a key changed. -/
def change (key : α → κ) (k : κ) (f : α → α) (rows : List α) : List α :=
  rows.map (fun row => if key row = k then f row else row)

/-- A row of a changed table is the changed row or another row. -/
theorem mem_change (distinct : (rows.map key).Nodup) (found : lookup key k rows = some row)
    : new ∈ change key k f rows ↔ new = f row ∨ new ∈ rows ∧ key new ≠ k := by
  obtain ⟨member, rfl⟩ := (lookup_iff distinct).mp found
  simp only [change, List.mem_map]
  constructor
  · rintro ⟨old, stored, rfl⟩
    split
    · rename_i same
      have one := (lookup_iff distinct).mpr ⟨stored, same⟩
      cases found.symm.trans one
      exact .inl rfl
    · rename_i differs
      exact .inr ⟨stored, differs⟩
  · rintro (rfl | ⟨stored, differs⟩)
    · exact ⟨row, member, if_pos rfl⟩
    · exact ⟨new, stored, if_neg differs⟩

/-- A change that keeps the key keeps the keys. -/
theorem keys_change (keeps : ∀ row, key (f row) = key row)
    : (change key k f rows).map key = rows.map key := by
  simp only [change, List.map_map, List.map_inj_left, Function.comp]
  intro row _
  split
  · exact keeps row
  · rfl

/-- A change keeps the other keys distinct where the changed row's is its own or free. -/
theorem nodup_change (distinct : (rows.map key).Nodup) (others : (rows.map other).Nodup)
    (found : lookup key k rows = some row)
    (free : other (f row) = other row ∨ lookup other (other (f row)) rows = none)
    : ((change key k f rows).map other).Nodup := by
  obtain ⟨member, rfl⟩ := (lookup_iff distinct).mp found
  have apart : ∀ next ∈ rows, key next ≠ key row → other next ≠ other (f row) := by
    intro next stored differs same
    rcases free with own | unused
    · have one := lookup_of_mem others stored
      rw [same, own, lookup_of_mem others member] at one
      cases one
      exact differs rfl
    · exact lookup_none unused next stored same
  have changed : ∀ old ∈ rows, key old = key row → old = row := by
    intro old stored same
    have one := (lookup_iff distinct).mpr ⟨stored, same⟩
    exact (Option.some.inj (found.symm.trans one)).symm
  rw [change, List.map_map]
  rw [List.nodup_iff_pairwise_ne, List.pairwise_map] at distinct others ⊢
  refine (distinct.and others).imp_of_mem ?_
  intro first second storedFirst storedSecond differs
  simp only [Function.comp]
  split <;> split
  · rename_i same also
    exact absurd (same.trans also.symm) differs.1
  · rename_i same away
    rw [changed first storedFirst same]
    exact (apart second storedSecond away).symm
  · rename_i away same
    rw [changed second storedSecond same]
    exact apart first storedFirst away
  · exact differs.2

/-- The lookup by the key after a change that keeps it. -/
theorem lookup_change (distinct : (rows.map key).Nodup) (keeps : ∀ row, key (f row) = key row)
    (found : lookup key k rows = some row)
    : (lookup key · (change key k f rows)) = Function.update (lookup key · rows) k (some (f row))
    := by
  have own := lookup_key found
  funext at_
  refine lookup_eq_of_iff ((keys_change keeps).symm ▸ distinct) ?_
  intro next
  rw [mem_change distinct found, Function.update_apply]
  split
  · rename_i same
    subst same
    constructor
    · intro one
      cases one
      exact ⟨.inl rfl, (keeps row).trans own⟩
    · rintro ⟨rfl | ⟨_, differs⟩, same⟩
      · rfl
      · exact absurd same differs
  · rename_i away
    rw [lookup_iff distinct]
    constructor
    · rintro ⟨stored, rfl⟩
      exact ⟨.inr ⟨stored, away⟩, rfl⟩
    · rintro ⟨rfl | ⟨stored, _⟩, rfl⟩
      · exact absurd ((keeps row).trans own) away
      · exact ⟨stored, rfl⟩

/-- The lookup by the other key after a change: the row leaves its place and takes its new one. -/
theorem lookup_change_other (distinct : (rows.map key).Nodup) (others : (rows.map other).Nodup)
    (found : lookup key k rows = some row)
    (free : other (f row) = other row ∨ lookup other (other (f row)) rows = none)
    : (lookup other · (change key k f rows))
      = Function.update (Function.update (lookup other · rows) (other row) none) (other (f row))
          (some (f row)) := by
  obtain ⟨member, rfl⟩ := (lookup_iff distinct).mp found
  have one : ∀ next ∈ rows, other next = other row ↔ key next = key row := by
    intro next stored
    constructor
    · intro same
      have here := (lookup_iff others).mpr ⟨stored, same⟩
      rw [lookup_of_mem others member] at here
      cases here
      rfl
    · intro same
      have here := (lookup_iff distinct).mpr ⟨stored, same⟩
      rw [found] at here
      cases here
      rfl
  funext at_
  refine lookup_eq_of_iff (nodup_change distinct others found free) ?_
  intro next
  rw [mem_change distinct found, Function.update_apply]
  split
  · rename_i same
    subst same
    constructor
    · intro here
      cases here
      exact ⟨.inl rfl, rfl⟩
    · rintro ⟨rfl | ⟨stored, away⟩, same⟩
      · rfl
      · rcases free with own | unused
        · exact absurd ((one next stored).mp (same.trans own)) away
        · exact absurd same (lookup_none unused next stored)
  · rename_i elsewhere
    rw [Function.update_apply]
    split
    · rename_i left
      subst left
      constructor
      · intro here
        cases here
      · rintro ⟨rfl | ⟨stored, away⟩, same⟩
        · exact absurd same.symm elsewhere
        · exact absurd ((one next stored).mp same) away
    · rename_i untouched
      rw [lookup_iff others]
      constructor
      · rintro ⟨stored, rfl⟩
        exact ⟨.inr ⟨stored, fun same => untouched ((one next stored).mpr same)⟩, rfl⟩
      · rintro ⟨rfl | ⟨stored, _⟩, rfl⟩
        · exact absurd rfl elsewhere
        · exact ⟨stored, rfl⟩

/-- The lookup by a key after a row is added under a new one. -/
theorem lookup_add (unused : lookup key (key new) rows = none)
    : (lookup key · (rows ++ [new])) = Function.update (lookup key · rows) (key new) (some new)
    := by
  funext at_
  rw [lookup_append_singleton, Function.update_apply]
  split
  · rename_i same
    subst same
    simp [unused]
  · rename_i away
    rw [if_neg (Ne.symm away), Option.or_none]

/-- The lookup by the other key after the deletion of the row under a key. -/
theorem lookup_remove_other (distinct : (rows.map key).Nodup) (others : (rows.map other).Nodup)
    (found : lookup key k rows = some row)
    : (lookup other · (delete (fun row => key row = k) rows))
      = Function.update (lookup other · rows) (other row) none := by
  obtain ⟨member, rfl⟩ := (lookup_iff distinct).mp found
  funext at_
  rw [lookup_delete others, Function.update_apply]
  split
  · rename_i same
    subst same
    rw [lookup_of_mem others member]
    simp [Option.filter]
  · rename_i away
    cases here : lookup other at_ rows with
    | none => rfl
    | some next =>
        obtain ⟨stored, rfl⟩ := (lookup_iff others).mp here
        have differs : key next ≠ key row := by
          intro same
          have one := (lookup_iff distinct).mpr ⟨stored, same⟩
          rw [found] at one
          cases one
          exact away rfl
        simp [Option.filter, differs]

end Table
