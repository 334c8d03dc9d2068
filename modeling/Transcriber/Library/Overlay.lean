import Mathlib.Data.List.Nodup

/-! Lists of named entries laid over defaults, such as environments: the last entry of a name is
its setting, and the defaults are added for the names that a list lacks.
-/

namespace Overlay

-----------------------------------------------------------------------------------------
-- Settings
-----------------------------------------------------------------------------------------

section

variable {α κ : Type*} [DecidableEq κ] {name : α → κ} {key : κ} {entry : α}
variable {entries own defaults : List α}

/-- The setting of a name: its last entry. -/
def setting (name : α → κ) (key : κ) (entries : List α) : Option α :=
  (entries.filter (fun entry => name entry = key)).getLast?

/-- The own entries, and the defaults whose names they lack. -/
def overlay (name : α → κ) (own defaults : List α) : List α :=
  own ++ defaults.filter (fun entry => name entry ∉ own.map name)

/-- A setting is an entry under its name. -/
theorem setting_mem (found : setting name key entries = some entry)
    : entry ∈ entries ∧ name entry = key := by
  have member := List.mem_of_getLast? found
  simpa using member

theorem setting_none : setting name key entries = none ↔ ∀ entry ∈ entries, name entry ≠ key := by
  simp [setting]

/-- A name without a setting names no entry. -/
theorem setting_none_names : setting name key entries = none ↔ key ∉ entries.map name := by
  rw [setting_none, List.mem_map]
  constructor
  · rintro absent ⟨entry, member, rfl⟩
    exact absent entry member rfl
  · intro absent entry member same
    exact absent ⟨entry, member, same⟩

theorem setting_append {first second : List α}
    : setting name key (first ++ second)
      = (setting name key second).or (setting name key first) := by
  simp only [setting, List.filter_append, List.getLast?_append]

/-- A list without a name keeps the defaults of that name. -/
theorem setting_lacking (absent : key ∉ own.map name)
    : setting name key (defaults.filter (fun entry => name entry ∉ own.map name))
      = setting name key defaults := by
  unfold setting
  rw [List.filter_filter]
  congr 1
  apply List.filter_congr
  intro entry _
  by_cases same : name entry = key
  · subst same
    simpa using absent
  · simp [same]

/-- A laid-over list sets what it sets, and otherwise what the defaults set. -/
theorem setting_overlay
    : setting name key (overlay name own defaults)
      = (setting name key own).or (setting name key defaults) := by
  rw [overlay, setting_append]
  by_cases present : key ∈ own.map name
  · have unused :
        setting name key (defaults.filter (fun entry => name entry ∉ own.map name)) = none := by
      rw [setting_none]
      rintro entry member rfl
      exact absurd present (by simpa using (List.mem_filter.mp member).2)
    rw [unused, Option.none_or]
    cases own_setting : setting name key own with
    | none => exact absurd present (setting_none_names.mp own_setting)
    | some entry => rfl
  · rw [setting_lacking present, setting_none_names.mpr present, Option.or_none, Option.none_or]

/-- The last entry that a filter keeps is the setting of its name. -/
theorem setting_filter {keep : α → Bool} (found : setting name key entries = some entry)
    (kept : keep entry = true)
    : setting name key (entries.filter keep) = some entry := by
  unfold setting at found ⊢
  obtain ⟨front, split⟩ := List.getLast?_eq_some_iff.mp found
  rw [List.filter_filter, List.filter_congr (fun x _ => Bool.and_comm _ _), ← List.filter_filter,
    split, List.filter_append, List.filter_singleton, kept]
  simp

/-- With distinct names an entry is the setting of its name. -/
theorem setting_of_mem (distinct : (entries.map name).Nodup) (member : entry ∈ entries)
    : setting name (name entry) entries = some entry := by
  cases found : setting name (name entry) entries with
  | none => exact absurd rfl (setting_none.mp found entry member)
  | some last =>
      obtain ⟨stored, same⟩ := setting_mem found
      rw [List.inj_on_of_nodup_map distinct stored member same]

end

-----------------------------------------------------------------------------------------
-- Three-way merges
-----------------------------------------------------------------------------------------

section

variable {α κ : Type*} [DecidableEq α] [DecidableEq κ] {name : α → κ} {key : κ} {entry : α}
variable {own old new : List α}

/-- The own value where it differs from the old default, and the new default elsewhere. -/
def merged (own old new : Option α) : Option α :=
  if own = old then new else own

/-- What is left of an own value, filled in by the new default, is the merge where only a value
whose old default is absent is absent.
-/
theorem filled_eq_merged {own old new : Option α} (inherited : own = none → old = none)
    : (if own = old then none else own).or new = merged own old new := by
  unfold merged
  split
  · rfl
  · rename_i differs
    cases own with
    | none => exact absurd (inherited rfl).symm differs
    | some value => rfl

/-- The own entries that the old defaults lack. -/
def changes (own old : List α) : List α :=
  own.filter (fun entry => entry ∉ old)

/-- Where the own setting of a name is one of the old defaults, it is the old setting and no
other own entry of the name is a change; or the new setting happens to be the one that is left.
-/
def Settled (name : α → κ) (own old new : List α) (key : κ) : Prop :=
  ∀ entry ∈ old, setting name key own = some entry →
    if setting name key old = some entry then
      ∀ other, setting name key (changes own old) = some other →
        setting name key new = some other
    else
      setting name key (changes own old) = none ∧ setting name key new = some entry

/-- An own setting outside the old defaults is kept. -/
theorem setting_changes (found : setting name key own = some entry) (apart : entry ∉ old)
    : setting name key (changes own old) = some entry :=
  setting_filter found (by simpa using apart)

/-- A change is not one of the old defaults. -/
theorem setting_changes_apart (found : setting name key (changes own old) = some entry)
    : entry ∉ old := by
  have member := (setting_mem found).1
  simpa using (List.mem_filter.mp member).2

/-- The changes laid over the new defaults are the three-way merge of a name exactly where it is
settled; the old defaults have no name that the own entries lack.
-/
theorem merge_iff
    (inherited : setting name key own = none → setting name key old = none)
    : setting name key (overlay name (changes own old) new)
        = merged (setting name key own) (setting name key old) (setting name key new)
      ↔ Settled name own old new key := by
  rw [setting_overlay, merged]
  cases found : setting name key own with
  | none =>
      have unchanged : setting name key (changes own old) = none := by
        rw [setting_none] at found ⊢
        intro entry member
        exact found entry (List.mem_filter.mp member).1
      simp [Settled, found, inherited found, unchanged]
  | some entry =>
      by_cases apart : entry ∈ old
      · have only : Settled name own old new key ↔
            if setting name key old = some entry then
              ∀ other, setting name key (changes own old) = some other →
                setting name key new = some other
            else
              setting name key (changes own old) = none
              ∧ setting name key new = some entry := by
          constructor
          · intro settled
            exact settled entry apart found
          · intro settled entry' _ found'
            cases found.symm.trans found'
            exact settled
        rw [only]
        by_cases same : setting name key old = some entry
        · rw [if_pos same.symm, if_pos same]
          cases changed : setting name key (changes own old) with
          | none => simp
          | some other => simp [eq_comm]
        · rw [if_neg (Ne.symm same), if_neg same]
          cases changed : setting name key (changes own old) with
          | none => simp
          | some other =>
              have differs : other ≠ entry := by
                rintro rfl
                exact setting_changes_apart changed apart
              simp [differs]
      · have differs : some entry ≠ setting name key old := by
          intro same
          exact apart (setting_mem same.symm).1
        rw [setting_changes found apart, if_neg differs]
        constructor
        · intro _ entry' member found'
          cases found.symm.trans found'
          exact absurd member apart
        · intro _
          rfl

/-- Distinct names are settled. -/
theorem settled_of_nodup (own_distinct : (own.map name).Nodup) (old_distinct : (old.map name).Nodup)
    : Settled name own old new key := by
  intro entry member found
  obtain ⟨stored, rfl⟩ := setting_mem found
  rw [if_pos (setting_of_mem old_distinct member)]
  intro other changed
  obtain ⟨kept, same⟩ := setting_mem changed
  have one := List.inj_on_of_nodup_map own_distinct (List.mem_filter.mp kept).1 stored same
  subst one
  exact absurd member (setting_changes_apart changed)

end

end Overlay
