import Mathlib.Data.List.Nodup
import Transcriber.Ingress.UploadSlots

/-! What the locks of the upload slots keep: the admission lock has one holder, a locked token
belongs to one thread, and no more uploads than the limit occupy a slot.
-/

namespace Transcriber.UploadSlots

open Execution

-----------------------------------------------------------------------------------------
-- Stages
-----------------------------------------------------------------------------------------

variable {limit : Nat} {process : Nat → Nat} {s t : Slots} {event : Event}
variable {i : Nat} {c : Call} {stage next : Stage} {name : String}

theorem Stage.occupying_of_owning (owning : stage.owning = true) : stage.occupying = true := by
  cases stage <;> simp_all [Stage.owning, Stage.occupying]

/-- An exit that has closed its token still holds the lock. -/
theorem Stage.owning_or_locked (occupying : stage.occupying = true)
    : stage.owning = true ∨ stage.locked = true := by
  cases stage <;> simp_all [Stage.occupying, Stage.owning, Stage.locked]

theorem Call.claim_of_owning (owning : c.stage.owning = true) : c.claim = some c.name := by
  obtain ⟨name, stage⟩ := c
  cases stage <;> simp_all [Stage.owning, Call.claim]

/-- Only under the lock does a thread rely on tokens. -/
theorem Call.locked_of_watched (watched : name ∈ c.watched) : c.stage.locked = true := by
  obtain ⟨_, stage⟩ := c
  cases stage <;> simp_all [Call.watched, Stage.locked]

theorem claim_next (follows : stage.next = some next)
    : Call.claim ⟨name, next⟩ = Call.claim ⟨name, stage⟩ := by
  cases stage <;> cases follows <;> rfl

theorem claim_acquired (acquired : stage.acquired = some next)
    : Call.claim ⟨name, next⟩ = Call.claim ⟨name, stage⟩ := by
  cases stage <;> cases acquired <;> rfl

theorem claim_released (released : stage.released = some next)
    : Call.claim ⟨name, next⟩ = Call.claim ⟨name, stage⟩ := by
  cases stage <;> cases released <;> rfl

/-- An exception keeps a locked token and no other. -/
theorem claim_raised (name : String) (raised : stage.raised = some next)
    : Call.claim ⟨name, next⟩ = if stage.owning then some name else none := by
  cases stage <;> cases raised <;> rfl

theorem locked_next (follows : stage.next = some next) : next.locked = stage.locked := by
  cases stage <;> cases follows <;> rfl

theorem locked_acquired (acquired : stage.acquired = some next)
    : stage.locked = false ∧ next.locked = true := by
  cases stage <;> cases acquired <;> exact ⟨rfl, rfl⟩

theorem locked_released (released : stage.released = some next)
    : stage.locked = true ∧ next.locked = false := by
  cases stage <;> cases released <;> exact ⟨rfl, rfl⟩

theorem locked_raised (raised : stage.raised = some next) : next.locked = false := by
  cases stage <;> cases raised <;> rfl

theorem watched_next (follows : stage.next = some next) : Call.watched ⟨name, next⟩ = [] := by
  cases stage <;> cases follows <;> rfl

theorem watched_acquired (acquired : stage.acquired = some next)
    : Call.watched ⟨name, next⟩ = [] := by
  cases stage <;> cases acquired <;> rfl

theorem watched_released (released : stage.released = some next)
    : Call.watched ⟨name, next⟩ = [] := by
  cases stage <;> cases released <;> rfl

theorem watched_raised (name : String) (raised : stage.raised = some next)
    : Call.watched ⟨name, next⟩ = [] := by
  cases stage <;> cases raised <;> rfl

-----------------------------------------------------------------------------------------
-- The locks
-----------------------------------------------------------------------------------------

/-- The lock has the holder that its thread says, and a token file that is there is locked by the
thread that claims it.
-/
structure Locks (s : Slots) : Prop where
  lock : ∀ i, s.lock = some i ↔ (s.calls i).stage.locked = true
  names : s.tokens.Nodup
  claims : ∀ i name, (s.calls i).claim = some name ↔ name ∈ s.tokens ∧ s.holder name = some i
  apart : ∀ i, (s.calls i).watched.Nodup
  stored : ∀ i, ∀ name ∈ (s.calls i).watched, name ∈ s.tokens

/-- A lock survives a death where its holder does. -/
theorem survives_iff {holder : Option Nat} {p : Nat}
    : (if holder.any (fun i => process i = p) then none else holder) = some i
      ↔ holder = some i ∧ process i ≠ p := by
  cases holder with
  | none => simp
  | some j =>
      by_cases dead : process j = p
      · simp only [Option.any_some, dead, decide_true, if_true, Option.some.injEq]
        constructor
        · intro absurd
          cases absurd
        · rintro ⟨rfl, living⟩
          exact absurd dead living
      · simp only [Option.any_some, dead, decide_false, Bool.false_eq_true, if_false,
          Option.some.injEq]
        constructor
        · rintro rfl
          exact ⟨rfl, dead⟩
        · exact And.left

namespace Locks

theorem initial : Locks .initial := by
  refine ⟨?_, List.nodup_nil, ?_, fun _ => List.nodup_nil, ?_⟩
  · intro i
    simp [Slots.initial, Stage.locked]
  · intro i name
    simp [Slots.initial, Call.claim, Stage.owning]
  · intro i name watched
    simp [Slots.initial, Call.watched] at watched

/-- Two threads in locked stages are one. -/
theorem exclusive (locks : Locks s) {j : Nat} (first : (s.calls i).stage.locked = true)
    (second : (s.calls j).stage.locked = true)
    : i = j :=
  Option.some.inj (((locks.lock i).mpr first).symm.trans ((locks.lock j).mpr second))

theorem held (locks : Locks s) (claimed : (s.calls i).claim = some name)
    : name ∈ s.tokens ∧ s.holder name = some i :=
  (locks.claims i name).mp claimed

/-- Two threads that claim one token are one. -/
theorem claim_exclusive (locks : Locks s) {j : Nat} (first : (s.calls i).claim = some name)
    (second : (s.calls j).claim = some name)
    : i = j :=
  Option.some.inj ((locks.held first).2.symm.trans (locks.held second).2)

theorem lock_kept (locks : Locks s) (same : c.stage.locked = (s.calls i).stage.locked) (j : Nat)
    : s.lock = some j ↔ (Function.update s.calls i c j).stage.locked = true := by
  rw [locks.lock, Function.update_apply]
  split
  · rename_i own
    rw [own, same]
  · rfl

theorem lock_taken (locks : Locks s) (free : s.lock = none) (taken : c.stage.locked = true)
    (j : Nat)
    : some i = some j ↔ (Function.update s.calls i c j).stage.locked = true := by
  rw [Function.update_apply]
  split
  · rename_i own
    simp [own, taken]
  · rename_i other
    rw [← locks.lock, free]
    simp [Ne.symm other]

theorem lock_freed (locks : Locks s) (holder : (s.calls i).stage.locked = true)
    (freed : c.stage.locked = false) (j : Nat)
    : none = some j ↔ (Function.update s.calls i c j).stage.locked = true := by
  rw [Function.update_apply]
  split
  · simp [freed]
  · rename_i other
    rw [← locks.lock, (locks.lock i).mpr holder]
    simp [Ne.symm other]

theorem claims_kept (locks : Locks s) (same : c.claim = (s.calls i).claim) (j : Nat)
    (name : String)
    : (Function.update s.calls i c j).claim = some name
      ↔ name ∈ s.tokens ∧ s.holder name = some j := by
  rw [← locks.claims, Function.update_apply]
  split
  · rename_i own
    rw [own, same]
  · rfl

/-- A thread without a token takes the lock of one that nobody has locked. -/
theorem claims_taken (locks : Locks s) (stored : name ∈ s.tokens)
    (unheld : s.holder name = none) (before : (s.calls i).claim = none)
    (after : c.claim = some name) (j : Nat) (other : String)
    : (Function.update s.calls i c j).claim = some other
      ↔ other ∈ s.tokens ∧ Function.update s.holder name (some i) other = some j := by
  have known := locks.claims j other
  rw [Function.update_apply, Function.update_apply]
  by_cases own : j = i <;> by_cases same : other = name
  · simp [own, same, after, stored]
  · have differs : name ≠ other := Ne.symm same
    subst own
    simpa [after, differs, same, before] using known
  · subst same
    simpa [own, unheld, Ne.symm own] using known
  · simpa [own, same] using known

/-- A thread closes the file of the token that it claims. -/
theorem claims_dropped (locks : Locks s) (before : (s.calls i).claim = some name)
    (after : c.claim = none) (j : Nat) (other : String)
    : (Function.update s.calls i c j).claim = some other
      ↔ other ∈ s.tokens ∧ Function.update s.holder name none other = some j := by
  have known := locks.claims j other
  have holder := (locks.held before).2
  rw [Function.update_apply, Function.update_apply]
  by_cases own : j = i <;> by_cases same : other = name
  · simp [own, same, after]
  · subst own
    have differs : name ≠ other := Ne.symm same
    simpa [after, same, before, differs] using known
  · subst same
    simpa [own, holder, Ne.symm own] using known
  · simpa [own, same] using known

/-- A thread removes the file of the token that it claims. -/
theorem claims_unlinked (locks : Locks s) (before : (s.calls i).claim = some name)
    (after : c.claim = none) (j : Nat) (other : String)
    : (Function.update s.calls i c j).claim = some other
      ↔ other ∈ s.tokens.erase name ∧ s.holder other = some j := by
  have known := locks.claims j other
  have holder := (locks.held before).2
  rw [Function.update_apply, locks.names.mem_erase_iff]
  by_cases own : j = i <;> by_cases same : other = name
  · simp [own, same, after]
  · subst own
    have differs : name ≠ other := Ne.symm same
    simpa [after, same, before, differs] using known
  · subst same
    simpa [own, holder, Ne.symm own] using known
  · simpa [own, same] using known

/-- A new token file is not locked. -/
theorem claims_created (locks : Locks s) (fresh : name ∉ s.tokens)
    (same : c.claim = (s.calls i).claim) (j : Nat) (other : String)
    : (Function.update s.calls i c j).claim = some other
      ↔ other ∈ s.tokens ++ [name] ∧ Function.update s.holder name none other = some j := by
  rw [locks.claims_kept same, Function.update_apply]
  by_cases own : other = name
  · simp [own, fresh]
  · simp [own]

theorem apart_kept (locks : Locks s) (apart : c.watched.Nodup) (j : Nat)
    : (Function.update s.calls i c j).watched.Nodup := by
  rw [Function.update_apply]
  split
  · exact apart
  · exact locks.apart j

/-- No token is removed, and the thread watches what is there. -/
theorem stored_kept {tokens : List String} (locks : Locks s)
    (more : ∀ name ∈ s.tokens, name ∈ tokens) (own : ∀ name ∈ c.watched, name ∈ tokens) (j : Nat)
    : ∀ name ∈ (Function.update s.calls i c j).watched, name ∈ tokens := by
  rw [Function.update_apply]
  split
  · exact own
  · intro name watched
    exact more name (locks.stored j name watched)

/-- Whoever watches a token has the lock, so that nobody else removes one. -/
theorem stored_locked {tokens : List String} (locks : Locks s)
    (holder : (s.calls i).stage.locked = true) (own : ∀ name ∈ c.watched, name ∈ tokens) (j : Nat)
    : ∀ name ∈ (Function.update s.calls i c j).watched, name ∈ tokens := by
  rw [Function.update_apply]
  split
  · exact own
  · rename_i other
    intro name watched
    exact absurd (locks.exclusive (Call.locked_of_watched watched) holder) other

/-- A thread that relies on no token leaves the others' tokens alone. -/
theorem unwatched (locks : Locks s) (none : c.watched = [])
    : (∀ j, (Function.update s.calls i c j).watched.Nodup)
      ∧ ∀ j, ∀ name ∈ (Function.update s.calls i c j).watched, name ∈ s.tokens := by
  refine ⟨locks.apart_kept (none ▸ List.nodup_nil), ?_⟩
  apply locks.stored_kept
  · intro _ stored
    exact stored
  · simp [none]

theorem stage_kept (locks : Locks s) (lock : c.stage.locked = (s.calls i).stage.locked)
    (claim : c.claim = (s.calls i).claim) (apart : c.watched.Nodup)
    (stored : ∀ name ∈ c.watched, name ∈ s.tokens)
    : Locks { s with calls := Function.update s.calls i c } where
  lock := locks.lock_kept lock
  names := locks.names
  claims := locks.claims_kept claim
  apart := locks.apart_kept apart
  stored := locks.stored_kept (fun _ stored => stored) stored

/-- An exception closes the admission lock, and the file of the token that a sweep has open. -/
theorem unwind (locks : Locks s) (raised : (s.calls i).stage.raised = some next)
    : Locks (s.unwind i next) := by
  obtain ⟨apart, stored⟩ :=
    locks.unwatched (i := i) (watched_raised (s.calls i).name raised)
  refine ⟨?_, locks.names, ?_, apart, stored⟩
  · intro j
    have lock : (s.unwind i next).lock = if (s.calls i).stage.locked then none else s.lock := rfl
    rw [lock]
    cases held : (s.calls i).stage.locked with
    | true => exact locks.lock_freed held (locked_raised raised) j
    | false => exact locks.lock_kept ((locked_raised raised).trans held.symm) j
  · have left := claim_raised (s.calls i).name raised
    intro j name
    cases stage : (s.calls i).stage with
    | removing stale names active =>
        have holder : (s.unwind i next).holder = Function.update s.holder stale none := by
          simp [Slots.unwind, stage]
        rw [holder]
        exact locks.claims_dropped (by simp [Call.claim, stage])
          (by simpa [stage, Stage.owning] using left) j name
    | _ =>
        have holder : (s.unwind i next).holder = s.holder := by simp [Slots.unwind, stage]
        rw [holder]
        exact locks.claims_kept (left.trans (by simp [Call.claim, stage])) j name

/-- A death closes the files of the process, and leaves those of the others. -/
theorem kill (locks : Locks s) (process : Nat → Nat) (p : Nat)
    : Locks (s.kill process p) where
  lock i := by
    rw [Slots.kill, survives_iff, locks.lock]
    by_cases dead : process i = p <;> simp [dead, Stage.locked]
  names := locks.names
  claims i name := by
    have known := locks.claims i name
    rw [Slots.kill, survives_iff, ← and_assoc, ← known]
    by_cases dead : process i = p
    · simp [dead, Call.claim, Stage.owning]
    · simp [dead]
  apart i := by
    by_cases dead : process i = p
    · simp [Slots.kill, dead, Call.watched]
    · simpa [Slots.kill, dead] using locks.apart i
  stored i := by
    by_cases dead : process i = p
    · simp [Slots.kill, dead, Call.watched]
    · simpa [Slots.kill, dead] using locks.stored i

end Locks

/-- The locks are kept by every step. -/
theorem Locks.step (locks : Locks s) (step : Step limit process s event t) : Locks t := by
  cases step with
  | @enter i name stage =>
      apply locks.stage_kept
      · simp [stage, Stage.locked]
      · simp [Call.claim, stage, Stage.owning]
      · exact List.nodup_nil
      · simp [Call.watched]
  | @acquire i next acquired free =>
      obtain ⟨apart, stored⟩ := locks.unwatched (watched_acquired acquired)
      exact ⟨locks.lock_taken free (locked_acquired acquired).2, locks.names,
        locks.claims_kept (claim_acquired acquired), apart, stored⟩
  | @release i next released =>
      have stages := locked_released released
      obtain ⟨apart, stored⟩ := locks.unwatched (watched_released released)
      exact ⟨locks.lock_freed stages.1 stages.2, locks.names,
        locks.claims_kept (claim_released released), apart, stored⟩
  | @go i next follows =>
      obtain ⟨apart, stored⟩ := locks.unwatched (watched_next follows)
      exact ⟨locks.lock_kept (locked_next follows), locks.names,
        locks.claims_kept (claim_next follows), apart, stored⟩
  | @list i names stage listed =>
      apply locks.stage_kept
      · simp [stage, Stage.locked]
      · simp [Call.claim, stage, Stage.owning]
      · exact listed.nodup_iff.mpr locks.names
      · intro name watched
        exact listed.subset watched
  | @count i name names active stage held =>
      have apart := locks.apart i
      have stored := locks.stored i
      simp only [Call.watched, stage] at apart stored
      apply locks.stage_kept
      · simp [stage, Stage.locked]
      · simp [Call.claim, stage, Stage.owning]
      · exact apart.of_cons
      · intro name watched
        exact stored name (List.mem_cons_of_mem _ watched)
  | @probe i name names active stage stale =>
      have apart := locks.apart i
      have stored := locks.stored i
      simp only [Call.watched, stage] at apart stored
      refine ⟨locks.lock_kept (by simp [stage, Stage.locked]), locks.names,
        locks.claims_taken (stored name List.mem_cons_self) stale ?_ rfl,
        locks.apart_kept apart, locks.stored_kept (fun _ stored => stored) stored⟩
      simp [Call.claim, stage, Stage.owning]
  | @sweep i name names active stage =>
      have apart := locks.apart i
      have stored := locks.stored i
      simp only [Call.watched, stage] at apart stored
      refine ⟨locks.lock_kept (by simp [stage, Stage.locked]), locks.names.erase _,
        locks.claims_unlinked (by simp [Call.claim, stage]) rfl, locks.apart_kept apart.of_cons,
        locks.stored_locked (by simp [stage, Stage.locked]) ?_⟩
      intro other watched
      apply locks.names.mem_erase_iff.mpr
      refine ⟨?_, stored other (List.mem_cons_of_mem _ watched)⟩
      rintro rfl
      exact (List.nodup_cons.mp apart).1 watched
  | @refuse i active stage full =>
      obtain ⟨apart, stored⟩ :=
        locks.unwatched (i := i) (c := ⟨(s.calls i).name, .idle⟩) rfl
      refine ⟨locks.lock_freed (by simp [stage, Stage.locked]) rfl, locks.names,
        locks.claims_kept ?_, apart, stored⟩
      simp [Call.claim, stage, Stage.owning]
  | @pass i active stage room =>
      apply locks.stage_kept
      · simp [stage, Stage.locked]
      · simp [Call.claim, stage, Stage.owning]
      · exact List.nodup_nil
      · simp [Call.watched]
  | @create i stage fresh =>
      refine ⟨locks.lock_kept (by simp [stage, Stage.locked]), ?_, locks.claims_created fresh ?_,
        locks.apart_kept (List.nodup_singleton _), locks.stored_kept ?_ ?_⟩
      · exact List.concat_eq_append ▸ locks.names.concat fresh
      · simp [Call.claim, stage, Stage.owning]
      · intro name stored
        exact List.mem_append_left _ stored
      · simp [Call.watched]
  | @register i stage unheld =>
      have stored := locks.stored i (s.calls i).name (by simp [Call.watched, stage])
      obtain ⟨apart, others⟩ :=
        locks.unwatched (i := i) (c := ⟨(s.calls i).name, .admitting⟩) rfl
      refine ⟨locks.lock_kept (by simp [stage, Stage.locked]), locks.names,
        locks.claims_taken stored unheld ?_ rfl, apart, others⟩
      simp [Call.claim, stage, Stage.owning]
  | @unlink i stage =>
      refine ⟨locks.lock_kept (by simp [stage, Stage.locked]), locks.names.erase _,
        locks.claims_unlinked ?_ rfl, locks.apart_kept List.nodup_nil,
        locks.stored_locked (by simp [stage, Stage.locked]) ?_⟩
      · simp [Call.claim, stage, Stage.owning]
      · simp [Call.watched]
  | @raise i next raised => exact locks.unwind raised
  | @collect i stage =>
      obtain ⟨apart, stored⟩ :=
        locks.unwatched (i := i) (c := ⟨(s.calls i).name, .idle⟩) rfl
      refine ⟨locks.lock_kept (by simp [stage, Stage.locked]), locks.names,
        locks.claims_dropped ?_ rfl, apart, stored⟩
      simp [Call.claim, stage, Stage.owning]
  | die p => exact locks.kill process p

-----------------------------------------------------------------------------------------
-- The count
-----------------------------------------------------------------------------------------

/-- Different threads that occupy slots. -/
def Slots.Occupied (s : Slots) (occupants : List Nat) : Prop :=
  occupants.Nodup ∧ ∀ j ∈ occupants, (s.calls j).stage.occupying = true

/-- What the lock holder knows: a sweep has counted the occupants whose tokens it has passed, and
after the sweep there is room for one more.
-/
def Slots.Room (limit : Nat) (s : Slots) : Stage → Prop
  | .sweeping names active | .removing _ names active =>
      ∀ occupants,
        s.Occupied occupants → (∀ j ∈ occupants, (s.calls j).name ∉ names)
        → occupants.length ≤ active
  | .reserving | .creating | .locking =>
      ∀ occupants, s.Occupied occupants → occupants.length < limit
  | _ => True

structure Counts (limit : Nat) (s : Slots) : Prop where
  room : ∀ i, s.Room limit (s.calls i).stage
  bounded : ∀ occupants, s.Occupied occupants → occupants.length ≤ limit

/-- No thread of the second state occupies a slot that it did not occupy in the first. -/
def Shrinks (s t : Slots) : Prop :=
  ∀ j, (t.calls j).stage.occupying = true
    → (s.calls j).stage.occupying = true ∧ (t.calls j).name = (s.calls j).name

theorem Shrinks.trans {u : Slots} (first : Shrinks s t) (second : Shrinks t u) : Shrinks s u := by
  intro j occupying
  obtain ⟨before, same⟩ := second j occupying
  obtain ⟨earlier, alike⟩ := first j before
  exact ⟨earlier, same.trans alike⟩

theorem Shrinks.occupied {occupants : List Nat} (shrinks : Shrinks s t)
    (occupied : t.Occupied occupants)
    : s.Occupied occupants := by
  refine ⟨occupied.1, ?_⟩
  intro j member
  exact (shrinks j (occupied.2 j member)).1

/-- What a lock holder knows stays true while occupants only leave. -/
theorem Shrinks.room (shrinks : Shrinks s t) (room : s.Room limit stage)
    : t.Room limit stage := by
  cases stage <;> simp only [Slots.Room] at room ⊢
  case sweeping names active | removing name names active =>
    intro occupants occupied passed
    apply room occupants (shrinks.occupied occupied)
    intro j member
    rw [← (shrinks j (occupied.2 j member)).2]
    exact passed j member
  all_goals
    intro occupants occupied
    exact room occupants (shrinks.occupied occupied)

/-- Only the lock holder knows anything. -/
theorem room_of_unlocked (unlocked : stage.locked = false) : s.Room limit stage := by
  cases stage <;> simp_all [Stage.locked, Slots.Room]

/-- A step of one thread keeps the counts where occupants only leave. -/
theorem Counts.update (counts : Counts limit s) (shrinks : Shrinks s t)
    (calls : t.calls = Function.update s.calls i c) (room : s.Room limit c.stage)
    : Counts limit t where
  room j := by
    apply shrinks.room
    rw [calls, Function.update_apply]
    split
    · exact room
    · exact counts.room j
  bounded occupants occupied := counts.bounded occupants (shrinks.occupied occupied)

/-- A thread that occupies no slot, or did so under the same name. -/
theorem shrinks_update
    (calls : t.calls = Function.update s.calls i c)
    (own
      : c.stage.occupying = true →
          (s.calls i).stage.occupying = true ∧ c.name = (s.calls i).name)
    : Shrinks s t := by
  intro j occupying
  rw [calls, Function.update_apply] at occupying ⊢
  split at occupying
  · rename_i same
    subst same
    simpa using own occupying
  · rename_i other
    simpa [other] using occupying

theorem occupying_next (follows : stage.next = some next)
    : next.occupying = stage.occupying := by
  cases stage <;> cases follows <;> rfl

theorem occupying_acquired (acquired : stage.acquired = some next)
    : next.occupying = stage.occupying := by
  cases stage <;> cases acquired <;> rfl

theorem occupying_released (released : stage.released = some next)
    (occupying : next.occupying = true)
    : stage.occupying = true := by
  cases stage <;> cases released <;> simp_all [Stage.occupying, Stage.owning]

theorem occupying_raised (raised : stage.raised = some next) (occupying : next.occupying = true)
    : stage.occupying = true := by
  cases stage <;> cases raised <;> simp_all [Stage.occupying, Stage.owning]

/-- Occupants only leave, except when a thread has locked its new token. -/
theorem shrinks_or_registered (step : Step limit process s event t)
    : Shrinks s t
      ∨ ∃ i,
          (s.calls i).stage = .locking
          ∧ t = (s.move i .admitting).hold (s.calls i).name (some i) := by
  cases step with
  | @register i stage unheld => exact .inr ⟨i, stage, rfl⟩
  | acquire acquired free =>
      refine .inl (shrinks_update rfl ?_)
      intro occupying
      exact ⟨(occupying_acquired acquired).symm.trans occupying, rfl⟩
  | release released =>
      refine .inl (shrinks_update rfl ?_)
      intro occupying
      exact ⟨occupying_released released occupying, rfl⟩
  | go follows =>
      refine .inl (shrinks_update rfl ?_)
      intro occupying
      exact ⟨(occupying_next follows).symm.trans occupying, rfl⟩
  | unlink stage =>
      refine .inl (shrinks_update rfl ?_)
      intro _
      exact ⟨by simp [stage, Stage.occupying, Stage.owning], rfl⟩
  | raise raised =>
      refine .inl (shrinks_update rfl ?_)
      intro occupying
      exact ⟨occupying_raised raised occupying, rfl⟩
  | die p =>
      left
      intro j occupying
      by_cases dead : process j = p
      · simp [Slots.kill, dead, Stage.occupying, Stage.owning] at occupying
      · simpa [Slots.kill, dead] using occupying
  | enter | list | count | probe | sweep | refuse | pass | create | collect =>
      exact .inl (shrinks_update rfl (by simp [Stage.occupying, Stage.owning]))

theorem room_next (follows : stage.next = some next) (room : s.Room limit stage)
    : s.Room limit next := by
  cases stage <;> cases follows
  · exact room
  · exact room_of_unlocked rfl
  · trivial

theorem room_acquired (acquired : stage.acquired = some next) : s.Room limit next := by
  cases stage <;> cases acquired <;> trivial

/-- A filter that drops one thread shortens a list by one. -/
theorem length_le_filter {occupants : List Nat} (keep : Nat → Bool) (distinct : occupants.Nodup)
    (one : ∀ j ∈ occupants, ∀ k ∈ occupants, keep j = false → keep k = false → j = k)
    : occupants.length ≤ (occupants.filter keep).length + 1 := by
  induction occupants with
  | nil => simp
  | cons j rest ih =>
      obtain ⟨fresh, distinct⟩ := List.nodup_cons.mp distinct
      cases kept : keep j with
      | true =>
          have shorter := ih distinct (fun j first k second =>
            one j (List.mem_cons_of_mem _ first) k (List.mem_cons_of_mem _ second))
          simp only [List.filter_cons, kept, if_true, List.length_cons]
          omega
      | false =>
          have all : ∀ k ∈ rest, keep k = true := by
            intro k member
            by_contra dropped
            have same := one j List.mem_cons_self k (List.mem_cons_of_mem _ member) kept
              (by simpa using dropped)
            exact fresh (same ▸ member)
          simp [kept, List.filter_eq_self.mpr all]

namespace Counts

theorem initial : Counts limit .initial := by
  have nobody : ∀ occupants, Slots.initial.Occupied occupants → occupants = [] := by
    intro occupants occupied
    rw [List.eq_nil_iff_forall_not_mem]
    intro j member
    exact absurd (occupied.2 j member) (by simp [Slots.initial, Stage.occupying, Stage.owning])
  refine ⟨?_, ?_⟩
  · intro i
    exact room_of_unlocked rfl
  · intro occupants occupied
    simp [nobody occupants occupied]

/-- While a sweep has the lock, the others' slots are locked tokens. -/
theorem claim_of_occupying (locks : Locks s) (holder : (s.calls i).stage.locked = true)
    (apart : (s.calls i).stage.occupying = false) {j : Nat}
    (occupying : (s.calls j).stage.occupying = true)
    : (s.calls j).claim = some (s.calls j).name := by
  rcases Stage.owning_or_locked occupying with owning | locked
  · exact Call.claim_of_owning owning
  · cases locks.exclusive locked holder
    exact absurd occupying (by simp [apart])

/-- The token of every occupant is listed. -/
theorem listed {names : List String} (locks : Locks s) (stage : (s.calls i).stage = .listing)
    (perm : names.Perm s.tokens)
    : s.Room limit (.sweeping names 0) := by
  intro occupants occupied passed
  have none : occupants = [] := by
    rw [List.eq_nil_iff_forall_not_mem]
    intro j member
    have claimed := claim_of_occupying (i := i) locks (by simp [stage, Stage.locked])
      (by simp [stage, Stage.occupying, Stage.owning]) (occupied.2 j member)
    exact passed j member (perm.symm.subset (locks.held claimed).1)
  simp [none]

/-- One occupant has the counted token. -/
theorem counted {names : List String} {active : Nat} (locks : Locks s)
    (counts : Counts limit s) (stage : (s.calls i).stage = .sweeping (name :: names) active)
    : s.Room limit (.sweeping names (active + 1)) := by
  have room := counts.room i
  rw [stage] at room
  intro occupants occupied passed
  have shorter :=
    room (occupants.filter (fun j => (s.calls j).name ≠ name))
      ⟨occupied.1.filter _, fun j member => occupied.2 j (List.mem_filter.mp member).1⟩ (by
        intro j member
        obtain ⟨member, differs⟩ := List.mem_filter.mp member
        rw [List.mem_cons, not_or]
        exact ⟨by simpa using differs, passed j member⟩)
  have claimed : ∀ j ∈ occupants, (s.calls j).name = name → (s.calls j).claim = some name := by
    intro j member same
    rw [← same]
    exact claim_of_occupying (i := i) locks (by simp [stage, Stage.locked])
      (by simp [stage, Stage.occupying, Stage.owning]) (occupied.2 j member)
  have longer :=
    length_le_filter (fun j => (s.calls j).name ≠ name) occupied.1 (by
      intro j first k second same alike
      exact locks.claim_exclusive (claimed j first (by simpa using same))
        (claimed k second (by simpa using alike)))
  omega

/-- No occupant has a stale token. -/
theorem probed {names : List String} {active : Nat} (locks : Locks s) (counts : Counts limit s)
    (stage : (s.calls i).stage = .sweeping (name :: names) active)
    (stale : s.holder name = none)
    : s.Room limit (.removing name names active) := by
  have room := counts.room i
  rw [stage] at room
  intro occupants occupied passed
  apply room occupants occupied
  intro j member
  rw [List.mem_cons, not_or]
  refine ⟨?_, passed j member⟩
  intro same
  have claimed := claim_of_occupying (i := i) locks (by simp [stage, Stage.locked])
    (by simp [stage, Stage.occupying, Stage.owning]) (occupied.2 j member)
  have held := (locks.held claimed).2
  rw [same, stale] at held
  cases held

/-- A thread with a newly locked token takes the room that its sweep has found. -/
theorem registered (locks : Locks s) (counts : Counts limit s)
    (stage : (s.calls i).stage = .locking)
    : Counts limit ((s.move i .admitting).hold (s.calls i).name (some i)) where
  room j := by
    by_cases own : j = i
    · subst own
      simp [Slots.move, Slots.hold, Slots.Room]
    · apply room_of_unlocked
      have unlocked : (s.calls j).stage.locked = false := by
        by_contra locked
        exact own (locks.exclusive (by simpa using locked) (by simp [stage, Stage.locked]))
      simpa [Slots.move, Slots.hold, own] using unlocked
  bounded occupants occupied := by
    have room := counts.room i
    rw [stage] at room
    have shorter :=
      room (occupants.filter (fun j => j ≠ i)) ⟨occupied.1.filter _, (by
        intro j member
        obtain ⟨member, other⟩ := List.mem_filter.mp member
        have occupying := occupied.2 j member
        simpa [Slots.move, Slots.hold, show j ≠ i by simpa using other] using occupying)⟩
    have longer :=
      length_le_filter (fun j => j ≠ i) occupied.1 (by
        intro j _ k _ first second
        exact (show j = i by simpa using first).trans (show k = i by simpa using second).symm)
    omega

end Counts

/-- The counts are kept by every step: occupants only leave, or one takes its room. -/
theorem Counts.step (locks : Locks s) (counts : Counts limit s)
    (step : Step limit process s event t)
    : Counts limit t := by
  rcases shrinks_or_registered step with shrinks | ⟨i, stage, rfl⟩
  · cases step with
    | enter => exact counts.update shrinks rfl (room_of_unlocked rfl)
    | acquire acquired free => exact counts.update shrinks rfl (room_acquired acquired)
    | release released =>
        exact counts.update shrinks rfl (room_of_unlocked (locked_released released).2)
    | go follows => exact counts.update shrinks rfl (room_next follows (counts.room _))
    | list stage listed => exact counts.update shrinks rfl (Counts.listed locks stage listed)
    | count stage held => exact counts.update shrinks rfl (counts.counted locks stage)
    | probe stage stale => exact counts.update shrinks rfl (counts.probed locks stage stale)
    | @sweep i name names active stage =>
        have room := counts.room i
        rw [stage] at room
        exact counts.update shrinks rfl room
    | refuse stage full => exact counts.update shrinks rfl (room_of_unlocked rfl)
    | @pass i active stage free =>
        have room := counts.room i
        rw [stage] at room
        refine counts.update shrinks rfl ?_
        intro occupants occupied
        exact Nat.lt_of_le_of_lt (room occupants occupied (by simp)) free
    | @create i stage fresh =>
        have room := counts.room i
        rw [stage] at room
        exact counts.update shrinks rfl room
    | register stage unheld => exact counts.registered locks stage
    | unlink stage => exact counts.update shrinks rfl trivial
    | raise raised => exact counts.update shrinks rfl (room_of_unlocked (locked_raised raised))
    | collect stage => exact counts.update shrinks rfl (room_of_unlocked rfl)
    | die p =>
        refine ⟨?_, fun occupants occupied => counts.bounded _ (shrinks.occupied occupied)⟩
        intro j
        apply shrinks.room
        by_cases dead : process j = p
        · exact room_of_unlocked (by simp [Slots.kill, dead, Stage.locked])
        · simpa [Slots.kill, dead] using counts.room j
  · exact counts.registered locks stage

/-- Every reachable state keeps its locks and its counts. -/
theorem kept {events : List Event} (run : Run (Step limit process) .initial events s)
    : Locks s ∧ Counts limit s := by
  refine run.invariant (I := fun s => Locks s ∧ Counts limit s) ?_
    ⟨Locks.initial, Counts.initial⟩
  rintro s event t ⟨locks, counts⟩ step
  exact ⟨locks.step step, counts.step locks step⟩

end Transcriber.UploadSlots
