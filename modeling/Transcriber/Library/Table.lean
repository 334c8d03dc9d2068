import Mathlib.Algebra.GroupWithZero.Nat
import Mathlib.Algebra.Order.BigOperators.Group.List
import Mathlib.Algebra.Order.Group.Nat
import Mathlib.Data.List.Nodup

/-! Keyed tables as lists of rows: bulk rewriting, deletion, insertion and key lookup.
A rewriting keeps every key in place, so lookup commutes with it for any key.
-/

namespace Table

variable {α : Type*} {κ : Type*}

/-- The rows after a conditional deletion. -/
def delete (selects : α → Bool) (rows : List α) : List α :=
  rows.filter (fun row => !selects row)

section Lookup

variable [DecidableEq κ] (key : α → κ)

/-- The first row stored under a key. -/
def lookup (k : κ) (rows : List α) : Option α :=
  rows.find? (fun row => key row = k)

variable {key}

/-- A found row is stored in the table, by the specification of list search. -/
theorem lookup_mem {k : κ} {rows : List α} {row : α} (found : lookup key k rows = some row)
    : row ∈ rows :=
  List.mem_of_find?_eq_some found

/-- A found row carries the requested key. -/
theorem lookup_key {k : κ} {rows : List α} {row : α} (found : lookup key k rows = some row)
    : key row = k := by
  simpa using List.find?_some found

/-- A missing key is carried by no stored row. -/
theorem lookup_none {k : κ} {rows : List α} (missing : lookup key k rows = none)
    : ∀ row ∈ rows, key row ≠ k := by
  simpa [lookup] using missing

/-- With distinct keys every stored row is the one found under its own key, by list
induction.
-/
theorem lookup_of_mem {rows : List α} (distinct : (rows.map key).Nodup) {row : α}
    (member : row ∈ rows)
    : lookup key (key row) rows = some row := by
  induction rows with
  | nil => cases member
  | cons head tail ih =>
      obtain ⟨absent, rest⟩ := List.nodup_cons.mp distinct
      rcases List.mem_cons.mp member with rfl | later
      · simp [lookup]
      · have differs : key head ≠ key row := by
          intro same
          exact absent (same ▸ List.mem_map_of_mem later)
        simpa [lookup, differs] using ih rest later

/-- Lookup commutes with a rewriting that keeps keys, by list induction. -/
theorem lookup_map {f : α → α} (keeps : ∀ row, key (f row) = key row) (k : κ)
    (rows : List α)
    : lookup key k (rows.map f) = (lookup key k rows).map f := by
  induction rows with
  | nil => rfl
  | cons head tail ih =>
      by_cases same : key head = k
      · simp [lookup, keeps, same]
      · rw [List.map_cons, lookup, lookup, List.find?_cons_of_neg (by simpa [keeps] using same),
          List.find?_cons_of_neg (by simpa using same)]
        exact ih

/-- An appended row is found only when no earlier row carries its key. -/
theorem lookup_append_singleton (k : κ) (rows : List α) (row : α)
    : lookup key k (rows ++ [row])
      = (lookup key k rows).or (if key row = k then some row else none) := by
  by_cases same : key row = k <;> simp [lookup, List.find?_append, same]

/-- Appending a row under a new key keeps the keys distinct. -/
theorem nodup_append_singleton {rows : List α} (distinct : (rows.map key).Nodup) {row : α}
    (new : lookup key (key row) rows = none)
    : ((rows ++ [row]).map key).Nodup := by
  rw [List.map_append, List.nodup_append]
  refine ⟨distinct, by simp, ?_⟩
  intro k member other single
  obtain ⟨old, stored, rfl⟩ := List.mem_map.mp member
  simp only [List.map_cons, List.map_nil, List.mem_singleton] at single
  subst single
  exact lookup_none new old stored

/-- With distinct keys, deletion removes a found row exactly when it is selected. -/
theorem lookup_delete {rows : List α} (distinct : (rows.map key).Nodup)
    (selects : α → Bool) (k : κ)
    : lookup key k (delete selects rows)
      = (lookup key k rows).filter (fun row => !selects row) := by
  induction rows with
  | nil => rfl
  | cons head tail ih =>
      obtain ⟨absent, rest⟩ := List.nodup_cons.mp distinct
      have tailCase := ih rest
      simp only [delete, lookup] at tailCase ⊢
      by_cases same : key head = k
      · subst same
        have none : tail.find? (fun row => decide (key row = key head)) = none := by
          simp only [List.find?_eq_none, decide_eq_true_eq]
          intro row member equal
          exact absent (equal ▸ List.mem_map_of_mem member)
        by_cases chosen : selects head <;> simp [chosen, tailCase, none, Option.filter]
      · by_cases chosen : selects head <;> simp [chosen, same, tailCase]

omit [DecidableEq κ] in
/-- Deletion keeps the remaining keys distinct. -/
theorem nodup_delete {rows : List α} (distinct : (rows.map key).Nodup)
    (selects : α → Bool)
    : ((delete selects rows).map key).Nodup :=
  (List.filter_sublist.map key).nodup distinct

omit [DecidableEq κ] in
/-- A weight summed over the rows that a deletion leaves, by list induction. -/
theorem sum_delete (selects : α → Bool) (weight : α → Nat) (rows : List α)
    : ((delete selects rows).map weight).sum
      = (rows.map (fun row => if selects row then 0 else weight row)).sum := by
  induction rows with
  | nil => rfl
  | cons head tail ih =>
      simp only [delete] at ih ⊢
      by_cases chosen : selects head <;> simp [chosen, ih]

omit [DecidableEq κ] in
/-- A weight that is raised only under one key grows the sum by what that row is raised: distinct
keys leave one row under the key.
-/
theorem sum_raise {rows : List α} (distinct : (rows.map key).Nodup) (k : κ) {old new : α → Nat}
    {extra : Nat} (others : ∀ row ∈ rows, key row ≠ k → new row ≤ old row)
    (raised : ∀ row ∈ rows, key row = k → new row ≤ old row + extra)
    : (rows.map new).sum ≤ (rows.map old).sum + extra := by
  induction rows with
  | nil => simp
  | cons head tail ih =>
      obtain ⟨absent, rest⟩ := List.nodup_cons.mp distinct
      simp only [List.map_cons, List.sum_cons]
      by_cases same : key head = k
      · have tailCase : (tail.map new).sum ≤ (tail.map old).sum := by
          refine List.sum_le_sum (fun row member => others row (List.mem_cons_of_mem _ member) ?_)
          intro equal
          exact absent (same ▸ equal ▸ List.mem_map_of_mem member)
        have headCase := raised head List.mem_cons_self same
        omega
      · have tailCase := ih rest (fun row member => others row (List.mem_cons_of_mem _ member))
          (fun row member => raised row (List.mem_cons_of_mem _ member))
        have headCase := others head List.mem_cons_self same
        omega

-----------------------------------------------------------------------------------------
-- Insert or update
-----------------------------------------------------------------------------------------

/-- INSERT .. ON CONFLICT (key) DO UPDATE: the row under a key is updated, or a new one appended.
-/
def upsert (key : α → κ) (k : κ) (new : α) (update : α → α) (rows : List α) : List α :=
  if (lookup key k rows).isSome then
    rows.map (fun row => if key row = k then update row else row)
  else
    rows ++ [new]

/-- An upsert keeps the keys distinct. -/
theorem nodup_upsert {rows : List α} (distinct : (rows.map key).Nodup) {k : κ} {new : α}
    {update : α → α} (keeps : ∀ row, key (update row) = key row) (named : key new = k)
    : ((upsert key k new update rows).map key).Nodup := by
  unfold upsert
  split
  · rw [List.map_map]
    have same : rows.map (key ∘ fun row => if key row = k then update row else row)
        = rows.map key := by
      apply List.map_congr_left
      intro row _
      rw [Function.comp_apply]
      split
      · exact keeps row
      · rfl
    rwa [same]
  · rename_i missing
    refine nodup_append_singleton distinct ?_
    rw [named]
    simpa using missing

/-- An upsert seen through a map of the rows that tells the key apart. -/
theorem map_upsert {β κ' : Type*} [DecidableEq κ'] (key' : β → κ') {k : κ} (k' : κ')
    (f : α → β) {new : α} {update : α → α} (update' : β → β) (rows : List α)
    (same : ∀ row, key' (f row) = k' ↔ key row = k)
    (commutes : ∀ row, f (update row) = update' (f row))
    : (upsert key k new update rows).map f = upsert key' k' (f new) update' (rows.map f) := by
  have found : (lookup key' k' (rows.map f)).isSome = (lookup key k rows).isSome := by
    simp only [lookup, List.find?_map, Option.isSome_map, Function.comp_def, same]
  unfold upsert
  rw [found]
  split
  · simp only [List.map_map]
    refine List.map_congr_left (fun row _ => ?_)
    simp only [Function.comp_apply, same]
    split
    · exact commutes row
    · rfl
  · rw [List.map_append, List.map_singleton]

/-- A fact about rows that the update keeps, and that the new row has. -/
theorem forall_upsert {P : α → Prop} {rows : List α} {k : κ} {new : α} {update : α → α}
    (kept : ∀ row ∈ rows, P row) (updated : ∀ row, P row → P (update row)) (fresh : P new)
    : ∀ row ∈ upsert key k new update rows, P row := by
  unfold upsert
  split
  · rw [List.forall_mem_map]
    intro row member
    split
    · exact updated row (kept row member)
    · exact kept row member
  · rw [List.forall_mem_append, List.forall_mem_singleton]
    exact ⟨kept, fresh⟩

/-- A weight that the update raises, and that the new row has, is added once: distinct keys leave
one row to update.
-/
theorem sum_upsert {M : Type*} [AddCommMonoid M] {rows : List α}
    (distinct : (rows.map key).Nodup) {k : κ} {new : α} {update : α → α} {weight : α → M}
    {extra : M}
    (raised : ∀ row ∈ rows, key row = k → weight (update row) = weight row + extra)
    (fresh : weight new = extra)
    : ((upsert key k new update rows).map weight).sum = (rows.map weight).sum + extra := by
  unfold upsert
  split
  · rename_i found
    clear fresh
    induction rows with
    | nil => cases found
    | cons head tail ih =>
        obtain ⟨absent, rest⟩ := List.nodup_cons.mp distinct
        by_cases same : key head = k
        · have others : tail.map (fun row => if key row = k then update row else row) = tail := by
            refine (List.map_congr_left ?_).trans (List.map_id tail)
            intro other member
            rw [if_neg]
            · rfl
            · intro equal
              exact absent (same ▸ equal ▸ List.mem_map_of_mem member)
          rw [List.map_cons, others, if_pos same]
          simp only [List.map_cons, List.sum_cons, raised head List.mem_cons_self same]
          rw [add_assoc, add_comm extra, ← add_assoc]
        · have later : (lookup key k tail).isSome := by
            rwa [lookup, List.find?_cons_of_neg (by simpa using same)] at found
          have tailCase :=
            ih rest (fun row member => raised row (List.mem_cons_of_mem head member)) later
          rw [List.map_cons, if_neg same]
          simp only [List.map_cons, List.sum_cons]
          rw [tailCase, add_assoc]
  · simp [fresh]

/-- A measure that every step of a fold raises by the item's share, under an invariant of the fold.
-/
theorem foldl_adds {β γ M : Type*} [AddMonoid M] {P : γ → Prop} {f : γ → β → γ}
    (measure : γ → M) (share : β → M)
    (adds : ∀ state item, P state
      → P (f state item) ∧ measure (f state item) = measure state + share item)
    (items : List β) (state : γ) (kept : P state)
    : P (items.foldl f state)
      ∧ measure (items.foldl f state) = measure state + (items.map share).sum := by
  induction items generalizing state with
  | nil => exact ⟨kept, by simp⟩
  | cons head tail ih =>
      obtain ⟨keptHead, raised⟩ := adds state head kept
      obtain ⟨keptTail, total⟩ := ih (f state head) keptHead
      refine ⟨keptTail, ?_⟩
      rw [List.foldl_cons, total, raised, List.map_cons, List.sum_cons, add_assoc]

end Lookup

-----------------------------------------------------------------------------------------
-- Counting the rows that satisfy a predicate
-----------------------------------------------------------------------------------------

/-- A count as a sum, by list induction. -/
theorem countP_eq_sum (p : α → Bool) (rows : List α)
    : rows.countP p = (rows.map (fun row => if p row then 1 else 0)).sum := by
  induction rows with
  | nil => rfl
  | cons head tail ih =>
      rw [List.countP_cons, List.map_cons, List.sum_cons, ih, Nat.add_comm]

/-- A rewriting after which only rows of a kind satisfy a predicate counts no more than those.
-/
theorem countP_map_le {p q : α → Bool} {f : α → α} {rows : List α}
    (keeps : ∀ row ∈ rows, p (f row) → q row)
    : (rows.map f).countP p ≤ rows.countP q := by
  rw [List.countP_map]
  exact List.countP_mono_left (fun row member after => keeps row member after)

/-- A rewriting that touches the predicate only at one key raises its count by at most one.
Witness: the other rows keep their value, and distinct keys leave one row under the key.
-/
theorem countP_map_le_succ [DecidableEq κ] {key : α → κ} {p : α → Bool} {f : α → α}
    {rows : List α} (distinct : (rows.map key).Nodup) (k : κ)
    (keeps : ∀ row ∈ rows, key row ≠ k → p (f row) → p row)
    : (rows.map f).countP p ≤ rows.countP p + 1 := by
  induction rows with
  | nil => simp
  | cons head tail ih =>
      obtain ⟨absent, rest⟩ := List.nodup_cons.mp distinct
      by_cases same : key head = k
      · have others : (tail.map f).countP p ≤ tail.countP p := by
          refine countP_map_le (fun row member => keeps row (by simp [member]) ?_)
          intro equal
          exact absent ((same.trans equal.symm) ▸ List.mem_map_of_mem member)
        simp only [List.map_cons, List.countP_cons]
        split <;> split <;> omega
      · have tailCase := ih rest (fun row member => keeps row (by simp [member]))
        have headCase := keeps head (by simp) same
        simp only [List.map_cons, List.countP_cons]
        split
        · rename_i after
          simp only [headCase after, if_true]
          omega
        · split <;> omega

end Table
