import Transcriber.Ingress.SlotSafety

/-! Runs of the upload slots: where the count of a refusal comes from, what a death leaves behind,
and that a free slot can be had.
-/

namespace Transcriber.UploadSlots

open Execution

variable {limit : Nat} {process : Nat → Nat} {s t : Slots} {event : Event}
variable {i : Nat} {c : Call} {stage next : Stage} {name : String}

-----------------------------------------------------------------------------------------
-- Sweeps
-----------------------------------------------------------------------------------------

/-- What a sweep has still to pass, and its count. -/
def Stage.sweep : Stage → Option (List String × Nat)
  | .listing => some ([], 0)
  | .sweeping names active | .removing _ names active => some (names, active)
  | _ => none

/-- A step of a sweep leaves its count, at zero or without new names, or counts an occupant. -/
def Advances (s : Slots) (before after : List String × Nat) : Prop :=
  after.2 = before.2 ∧ (before.2 = 0 ∨ ∀ name ∈ after.1, name ∈ before.1)
  ∨ ∃ name,
      before.1 = name :: after.1 ∧ name ∉ after.1 ∧ after.2 = before.2 + 1
      ∧ ∃ j, (s.calls j).stage.occupying = true ∧ (s.calls j).name = name

theorem Stage.locked_of_sweep {state : List String × Nat} (sweep : stage.sweep = some state)
    : stage.locked = true ∧ stage.occupying = false := by
  cases stage <;> simp_all [Stage.sweep, Stage.locked, Stage.occupying, Stage.owning]

/-- A thread sweeps because it has just taken the lock, or it was sweeping before. -/
def Continues (s : Slots) (event : Event) (i : Nat) (after : List String × Nat) : Prop :=
  event = .locked i ∧ s.lock = none ∧ after = ([], 0)
  ∨ event ≠ .locked i
    ∧ ∃ before, (s.calls i).stage.sweep = some before ∧ Advances s before after

theorem Advances.refl (s : Slots) (state : List String × Nat) : Advances s state state :=
  .inl ⟨rfl, .inr fun _ member => member⟩

/-- A step of a thread that does not sweep after it. -/
theorem continues_other {k : Nat} {after : List String × Nat}
    (quiet : c.stage.sweep = none) (other : event = .locked i → k = i)
    (sweep : (Function.update s.calls k c i).stage.sweep = some after)
    : Continues s event i after := by
  rw [Function.update_apply] at sweep
  split at sweep
  · rw [quiet] at sweep
    cases sweep
  · rename_i apart
    refine .inr ⟨?_, after, sweep, .refl s after⟩
    intro locked
    exact apart (other locked).symm

/-- A step of a thread that sweeps before and after it. -/
theorem continues_sweep {k : Nat} {after : List String × Nat} (before own : List String × Nat)
    (sweeping : (s.calls k).stage.sweep = some before) (swept : c.stage.sweep = some own)
    (advances : Advances s before own) (other : event ≠ .locked i)
    (sweep : (Function.update s.calls k c i).stage.sweep = some after)
    : Continues s event i after := by
  rw [Function.update_apply] at sweep
  split at sweep
  · rename_i same
    subst same
    cases swept.symm.trans sweep
    exact .inr ⟨other, before, sweeping, advances⟩
  · exact .inr ⟨other, after, sweep, .refl s after⟩

/-- The thread whose token is found locked occupies a slot. -/
theorem holder_of_locked {names : List String} {active : Nat} (locks : Locks s)
    (stage : (s.calls i).stage = .sweeping (name :: names) active)
    (held : (s.holder name).isSome = true)
    : ∃ j, (s.calls j).stage.occupying = true ∧ (s.calls j).name = name := by
  have stored := locks.stored i name (by simp [Call.watched, stage])
  obtain ⟨j, held⟩ := Option.isSome_iff_exists.mp held
  have claimed := (locks.claims j name).mpr ⟨stored, held⟩
  refine ⟨j, ?_⟩
  cases owning : (s.calls j).stage.owning with
  | true =>
      rw [Call.claim_of_owning owning] at claimed
      exact ⟨Stage.occupying_of_owning owning, Option.some.inj claimed⟩
  | false =>
      have locked : (s.calls j).stage.locked = true := by
        cases other : (s.calls j).stage <;>
          simp_all [Call.claim, Stage.owning, Stage.locked]
      cases locks.exclusive (i := i) (by simp [stage, Stage.locked]) locked
      simp [Call.claim, stage, Stage.owning] at claimed

/-- Where a sweep comes from, by cases on the step. -/
theorem continues_step {after : List String × Nat} (locks : Locks s)
    (step : Step limit process s event t) (sweep : (t.calls i).stage.sweep = some after)
    : Continues s event i after := by
  cases step with
  | @acquire k next acquired free =>
      by_cases same : i = k
      · subst same
        have listing : next.sweep = some after := by simpa [Slots.move] using sweep
        refine .inl ⟨rfl, free, ?_⟩
        cases stage : (s.calls i).stage <;> rw [stage] at acquired <;> cases acquired
        all_goals cases listing
        rfl
      · refine .inr ⟨?_, after, ?_, .refl s after⟩
        · rintro ⟨rfl⟩
          exact same rfl
        · simpa [Slots.move, same] using sweep
  | @release k next released =>
      refine continues_other ?_ (by simp) sweep
      cases stage : (s.calls k).stage <;> rw [stage] at released <;> cases released <;> rfl
  | @go k next follows =>
      refine continues_other ?_ (by simp) sweep
      cases stage : (s.calls k).stage <;> rw [stage] at follows <;> cases follows <;> rfl
  | @list k names stage listed =>
      exact continues_sweep ([], 0) (names, 0) (by rw [stage]; rfl) rfl (.inl ⟨rfl, .inl rfl⟩)
        (by simp) sweep
  | @count k name names active stage held =>
      have apart := locks.apart k
      simp only [Call.watched, stage] at apart
      exact continues_sweep (name :: names, active) (names, active + 1) (by rw [stage]; rfl) rfl
        (.inr ⟨name, rfl, (List.nodup_cons.mp apart).1, rfl, holder_of_locked locks stage held⟩)
        (by simp) sweep
  | @probe k name names active stage stale =>
      exact continues_sweep (name :: names, active) (names, active) (by rw [stage]; rfl) rfl
        (.inl ⟨rfl, .inr fun _ member => List.mem_cons_of_mem _ member⟩) (by simp) sweep
  | @sweep k name names active stage =>
      exact continues_sweep (names, active) (names, active) (by rw [stage]; rfl) rfl (.refl s _)
        (by simp) sweep
  | @raise k next raised =>
      refine continues_other ?_ ?_ sweep
      · cases stage : (s.calls k).stage <;> rw [stage] at raised <;> cases raised <;> rfl
      · split <;> simp
  | die p =>
      by_cases dead : process i = p
      · simp [Slots.kill, dead, Stage.sweep] at sweep
      · refine .inr ⟨by simp, after, ?_, .refl s after⟩
        simpa [Slots.kill, dead] using sweep
  | enter | refuse | pass | create | register | unlink | collect =>
      exact continues_other rfl (by simp) sweep

-----------------------------------------------------------------------------------------
-- Lasting uploads
-----------------------------------------------------------------------------------------

theorem not_abandoned_update (before : ∀ j, (s.calls j).stage ≠ .abandoned)
    (own : c.stage ≠ .abandoned) (j : Nat)
    : (Function.update s.calls i c j).stage ≠ .abandoned := by
  rw [Function.update_apply]
  split
  · exact own
  · exact before j

/-- Only an exception abandons a token. -/
theorem not_abandoned_step (before : ∀ j, (s.calls j).stage ≠ .abandoned)
    (step : Step limit process s event t) (tidy : ∀ i, event ≠ .abandoned i) (j : Nat)
    : (t.calls j).stage ≠ .abandoned := by
  cases step with
  | @acquire i next acquired free =>
      apply not_abandoned_update before
      rintro rfl
      cases stage : (s.calls i).stage <;> rw [stage] at acquired <;> cases acquired
  | @release i next released =>
      apply not_abandoned_update before
      rintro rfl
      cases stage : (s.calls i).stage <;> rw [stage] at released <;> cases released
  | @go i next follows =>
      apply not_abandoned_update before
      rintro rfl
      cases stage : (s.calls i).stage <;> rw [stage] at follows <;> cases follows
  | @raise i next raised =>
      apply not_abandoned_update before
      rintro rfl
      exact tidy i (if_pos rfl)
  | die p =>
      by_cases dead : process j = p
      · simp [Slots.kill, dead]
      · simpa [Slots.kill, dead] using before j
  | enter | list | count | probe | sweep | refuse | pass | create | register | unlink
  | collect =>
      exact not_abandoned_update before (by simp) j

/-- Without exceptions from the exits no token is ever abandoned. -/
theorem not_abandoned {events : List Event} (run : Run (Step limit process) .initial events s)
    (tidy : ∀ i, .abandoned i ∉ events)
    : ∀ j, (s.calls j).stage ≠ .abandoned := by
  revert tidy
  refine run.history
    (I := fun events s =>
      (∀ i, .abandoned i ∉ events) → ∀ j, (s.calls j).stage ≠ .abandoned) ?_ ?_
  · intro past s event t known step tidy
    apply not_abandoned_step ?_ step
    · rintro i rfl
      exact tidy i (List.mem_append_right _ List.mem_cons_self)
    · apply known
      intro i member
      exact tidy i (List.mem_append_left _ member)
  · intro _ j
    simp [Slots.initial]

theorem stays_update (own : (s.calls i).stage.occupying = true → c.stage.occupying = true)
    {j : Nat} (occupying : (s.calls j).stage.occupying = true)
    : (Function.update s.calls i c j).stage.occupying = true := by
  rw [Function.update_apply]
  split
  · rename_i same
    subst same
    exact own occupying
  · exact occupying

/-- While a sweep has the lock no exit ends, and only a death takes a slot away. -/
theorem stays_step {state : List String × Nat} (locks : Locks s)
    (sweep : (s.calls i).stage.sweep = some state)
    (before : ∀ j, (s.calls j).stage ≠ .abandoned) (step : Step limit process s event t)
    (living : ∀ p, event ≠ .died p) {j : Nat} (occupying : (s.calls j).stage.occupying = true)
    : (t.calls j).stage.occupying = true := by
  have locked := Stage.locked_of_sweep sweep
  have outside : ∀ k, (s.calls k).stage.locked = true → (s.calls k).stage.occupying = false := by
    intro k held
    exact locks.exclusive locked.1 held ▸ locked.2
  cases step with
  | @enter k name stage =>
      exact stays_update (by simp [stage, Stage.occupying, Stage.owning]) occupying
  | acquire acquired free =>
      exact stays_update (fun own => (occupying_acquired acquired).trans own) occupying
  | release released =>
      refine stays_update ?_ occupying
      intro own
      rw [outside _ (locked_released released).1] at own
      cases own
  | go follows => exact stays_update (fun own => (occupying_next follows).trans own) occupying
  | @raise k next raised =>
      refine stays_update ?_ occupying
      intro own
      by_cases held : (s.calls k).stage.locked = true
      · rw [outside k held] at own
        cases own
      · cases stage : (s.calls k).stage <;> rw [stage] at raised own held <;> cases raised
        all_goals simp_all [Stage.occupying, Stage.owning, Stage.locked]
  | collect stage => exact absurd stage (before _)
  | die p => exact absurd rfl (living p)
  | register stage unheld =>
      exact stays_update (fun _ => by simp [Stage.occupying, Stage.owning]) occupying
  | unlink stage => exact stays_update (fun _ => by simp [Stage.occupying]) occupying
  | list stage | count stage | probe stage | sweep stage | refuse stage | pass stage
  | create stage =>
      exact stays_update (by simp [stage, Stage.occupying, Stage.owning]) occupying

/-- Taking the lock takes no slot away. -/
theorem stays_locked (step : Step limit process s event t) (locked : event = .locked i) {j : Nat}
    (occupying : (s.calls j).stage.occupying = true)
    : (t.calls j).stage.occupying = true := by
  cases step with
  | acquire acquired free =>
      exact stays_update (fun own => (occupying_acquired acquired).trans own) occupying
  | raise raised => split at locked <;> cases locked
  | _ => cases locked

-----------------------------------------------------------------------------------------
-- Where a count comes from
-----------------------------------------------------------------------------------------

/-- The start of a sweep in a run: the state when its thread took the lock, since when nobody has
got a slot, and the threads that it has counted, which had one then.
-/
structure Origin (limit : Nat) (process : Nat → Nat) (past : List Event) (s : Slots) (i : Nat)
    (names : List String) (active : Nat) (before : List Event) (start : Slots)
    (rest : List Event) (counted : List Nat) : Prop where
  split : past = before ++ .locked i :: rest
  earlier : Run (Step limit process) .initial before start
  later : Run (Step limit process) start (.locked i :: rest) s
  once : .locked i ∉ rest
  shrinks : Shrinks start s
  lasting
    : (∀ j, .abandoned j ∉ past) → (∀ p, .died p ∉ rest)
      → ∀ j, (start.calls j).stage.occupying = true → (s.calls j).stage.occupying = true
  distinct : counted.Nodup
  length : counted.length = active
  occupying : ∀ j ∈ counted, (start.calls j).stage.occupying = true
  passed : ∀ j ∈ counted, (start.calls j).name ∉ names

/-- A thread in a sweep has the lock, so that no thread gets a slot. -/
theorem shrinks_of_sweep {state : List String × Nat} (locks : Locks s)
    (sweep : (s.calls i).stage.sweep = some state) (step : Step limit process s event t)
    : Shrinks s t := by
  rcases shrinks_or_registered step with shrinks | ⟨k, locking, _⟩
  · exact shrinks
  · have same := locks.exclusive (Stage.locked_of_sweep sweep).1
      (show (s.calls k).stage.locked = true by simp [locking, Stage.locked])
    rw [same, locking] at sweep
    cases sweep

/-- The origin of a sweep after one more step. -/
theorem Origin.extend {past before rest : List Event} {start : Slots} {counted : List Nat}
    {names : List String} {active : Nat} {after : List String × Nat} (locks : Locks s)
    (run : Run (Step limit process) .initial past s)
    (origin : Origin limit process past s i names active before start rest counted)
    (sweep : (s.calls i).stage.sweep = some (names, active))
    (step : Step limit process s event t) (other : event ≠ .locked i)
    (advances : Advances s (names, active) after)
    : ∃ counted,
        Origin limit process (past ++ [event]) t i after.1 after.2 before start
          (rest ++ [event]) counted := by
  have shrinks := shrinks_of_sweep locks sweep step
  have lasting :
      (∀ j, .abandoned j ∉ past ++ [event]) → (∀ p, .died p ∉ rest ++ [event])
      → ∀ j, (start.calls j).stage.occupying = true
      → (t.calls j).stage.occupying = true := by
    intro tidy living j occupying
    have tidy : ∀ j, .abandoned j ∉ past := fun j member =>
      tidy j (List.mem_append_left _ member)
    apply stays_step locks sweep (not_abandoned run tidy) step
    · rintro p rfl
      exact living p (List.mem_append_right _ List.mem_cons_self)
    · exact origin.lasting tidy (fun p member => living p (List.mem_append_left _ member)) j
        occupying
  have later :
      Run (Step limit process) start (.locked i :: (rest ++ [event])) t := by
    simpa using origin.later.snoc step
  have once : .locked i ∉ rest ++ [event] := by
    rw [List.mem_append, List.mem_singleton, not_or]
    exact ⟨origin.once, other.symm⟩
  have split : past ++ [event] = before ++ .locked i :: (rest ++ [event]) := by
    simp [origin.split]
  rcases advances with ⟨same, kept⟩ | ⟨name, passed, fresh, more, j, occupying, named⟩
  · refine ⟨counted, split, origin.earlier, later, once, origin.shrinks.trans shrinks, lasting,
      origin.distinct, origin.length.trans same.symm, origin.occupying, ?_⟩
    intro j member
    rcases kept with zero | fewer
    · have none : counted = [] := List.eq_nil_of_length_eq_zero (origin.length.trans zero)
      simp [none] at member
    · intro listed
      exact origin.passed j member (fewer _ listed)
  · -- the occupant of the counted token had its slot when the sweep began
    obtain ⟨early, alike⟩ := origin.shrinks j occupying
    rw [named] at alike
    simp only at passed more
    refine ⟨j :: counted, split, origin.earlier, later, once, origin.shrinks.trans shrinks,
      lasting, List.nodup_cons.mpr ⟨?_, origin.distinct⟩, ?_, ?_, ?_⟩
    · intro member
      apply origin.passed j member
      rw [← alike, passed]
      exact List.mem_cons_self
    · rw [List.length_cons, origin.length, more]
    · simpa using ⟨early, origin.occupying⟩
    · intro k member
      rcases List.mem_cons.mp member with rfl | member
      · rw [← alike]
        exact fresh
      · intro listed
        apply origin.passed k member
        rw [passed]
        exact List.mem_cons_of_mem _ listed

/-- Every sweep has an origin, by induction on the run. -/
theorem origin {events : List Event} (run : Run (Step limit process) .initial events s)
    (state : List String × Nat) (sweep : (s.calls i).stage.sweep = some state)
    : ∃ before start rest counted,
        Origin limit process events s i state.1 state.2 before start rest counted := by
  induction run generalizing state with
  | nil => simp [Slots.initial, Stage.sweep] at sweep
  | @snoc s t past event run step ih =>
      have locks := (kept run).1
      rcases continues_step locks step sweep with ⟨rfl, free, rfl⟩ | ⟨other, before, was, advances⟩
      · have shrinks : Shrinks s t := by
          rcases shrinks_or_registered step with shrinks | ⟨k, locking, _⟩
          · exact shrinks
          · have held := (locks.lock k).mpr (by simp [locking, Stage.locked])
            rw [free] at held
            cases held
        refine ⟨past, s, [], [], rfl, run, .single step, by simp, shrinks, ?_, List.nodup_nil, rfl,
          by simp, by simp⟩
        intro _ _ j occupying
        exact stays_locked step rfl occupying
      · obtain ⟨earlier, start, rest, counted, origin⟩ := ih _ was
        obtain ⟨counted, origin⟩ := origin.extend locks run was step other advances
        exact ⟨earlier, start, rest ++ [event], counted, origin⟩

-----------------------------------------------------------------------------------------
-- Free slots
-----------------------------------------------------------------------------------------

/-- Different threads claim the locked tokens, by induction on their names. -/
theorem holders (locks : Locks s) {names : List String} (distinct : names.Nodup)
    (stored : ∀ name ∈ names, name ∈ s.tokens)
    : ∃ owners : List Nat,
        owners.Nodup
        ∧ owners.length = (names.filter (fun name => (s.holder name).isSome)).length
        ∧ ∀ j ∈ owners, ∃ name ∈ names, (s.calls j).claim = some name := by
  induction names with
  | nil => exact ⟨[], List.nodup_nil, rfl, by simp⟩
  | cons name rest ih =>
      obtain ⟨fresh, distinct⟩ := List.nodup_cons.mp distinct
      obtain ⟨owners, different, length, claims⟩ :=
        ih distinct (fun other member => stored other (List.mem_cons_of_mem _ member))
      have later : ∀ j ∈ owners, ∃ other ∈ name :: rest, (s.calls j).claim = some other := by
        intro j member
        obtain ⟨other, stored, claimed⟩ := claims j member
        exact ⟨other, List.mem_cons_of_mem _ stored, claimed⟩
      cases held : s.holder name with
      | none => exact ⟨owners, different, by simpa [held] using length, later⟩
      | some j =>
          have claimed := (locks.claims j name).mpr ⟨stored name List.mem_cons_self, held⟩
          refine ⟨j :: owners, List.nodup_cons.mpr ⟨?_, different⟩, by simp [held, length], ?_⟩
          · intro member
            obtain ⟨other, listed, alike⟩ := claims j member
            cases claimed.symm.trans alike
            exact fresh listed
          · intro k member
            rcases List.mem_cons.mp member with rfl | member
            · exact ⟨name, List.mem_cons_self, claimed⟩
            · exact later k member

/-- A sweep that finds fewer locked tokens than the limit goes on to the capacity check, by
induction on the names that it has still to pass.
-/
theorem sweep_through (process : Nat → Nat) (names : List String) (active : Nat)
    (stage : (s.calls i).stage = .sweeping names active) (distinct : names.Nodup)
    (room : active + (names.filter (fun name => (s.holder name).isSome)).length < limit)
    : ∃ events t,
        Run (Step limit process) s events t
        ∧ t.calls i = ⟨(s.calls i).name, .reserving⟩
        ∧ t.tokens ⊆ s.tokens
        ∧ ∀ j ≠ i, t.calls j = s.calls j := by
  induction names generalizing s active with
  | nil =>
      refine ⟨_, _, .single (.pass stage (by simpa using room)), ?_, fun _ member => member, ?_⟩
      · simp [Slots.move]
      · intro j other
        simp [Slots.move, other]
  | cons name rest ih =>
      obtain ⟨fresh, distinct⟩ := List.nodup_cons.mp distinct
      cases held : s.holder name with
      | some j =>
          have counted : Step limit process s .silent (s.move i (.sweeping rest (active + 1))) :=
            .count stage (by simp [held])
          obtain ⟨events, t, run, reached, fewer, others⟩ :=
            ih (s := s.move i (.sweeping rest (active + 1))) (active + 1)
              (by simp [Slots.move]) distinct (by
                simp only [List.filter_cons, held, Option.isSome_some, if_true,
                  List.length_cons] at room
                simp only [Slots.move]
                omega)
          refine ⟨_, t, .cons counted run, ?_, fewer, ?_⟩
          · simpa [Slots.move] using reached
          · intro k other
            simpa [Slots.move, other] using others k other
      | none =>
          let probed := (s.move i (.removing name rest active)).hold name (some i)
          let swept := (probed.move i (.sweeping rest active)).unlink name
          have first : Step limit process s .silent probed := .probe stage held
          have second : Step limit process probed (.swept i name) swept :=
            .sweep (by simp [probed, Slots.move, Slots.hold])
          have same : rest.filter (fun other => (swept.holder other).isSome)
              = rest.filter (fun other => (s.holder other).isSome) := by
            apply List.filter_congr
            intro other member
            have differs : other ≠ name := by
              rintro rfl
              exact fresh member
            simp [swept, probed, Slots.unlink, Slots.move, Slots.hold, differs]
          obtain ⟨events, t, run, reached, fewer, others⟩ :=
            ih (s := swept) active
              (by simp [swept, probed, Slots.unlink, Slots.move]) distinct (by
                rw [same]
                simpa [held] using room)
          refine ⟨_, t, .cons first (.cons second run), ?_, ?_, ?_⟩
          · simpa [swept, probed, Slots.unlink, Slots.move, Slots.hold] using reached
          · exact List.Subset.trans fewer List.erase_subset
          · intro k other
            simpa [swept, probed, Slots.unlink, Slots.move, Slots.hold, other]
              using others k other

/-- With a free lock and fewer locked tokens than the limit, an idle thread gets in by itself. -/
theorem enters (locks : Locks s) (free : s.lock = none) (idle : (s.calls i).stage = .idle)
    (fresh : name ∉ s.tokens)
    (room : (s.tokens.filter (fun name => (s.holder name).isSome)).length < limit)
    : ∃ events t,
        Run (Step limit process) s events t
        ∧ (t.calls i).stage = .inside
        ∧ ∀ j ≠ i, t.calls j = s.calls j := by
  let entered : Slots := { s with calls := Function.update s.calls i ⟨name, .entering⟩ }
  let locked : Slots := { entered.move i .listing with lock := some i }
  let listed := locked.move i (.sweeping s.tokens 0)
  have enter : Step limit process s .silent entered := .enter name idle
  have acquire : Step limit process entered (.locked i) locked :=
    .acquire (by simp [entered, Stage.acquired]) free
  have list : Step limit process locked .silent listed :=
    .list (by simp [locked, entered, Slots.move]) (List.Perm.refl _)
  obtain ⟨events, t, sweep, reached, fewer, others⟩ :=
    sweep_through (s := listed) (i := i) process s.tokens 0
      (by simp [listed, locked, entered, Slots.move]) locks.names
      (by simpa [listed, locked, entered, Slots.move] using room)
  have reserved : t.calls i = ⟨name, .reserving⟩ := by
    simpa [listed, locked, entered, Slots.move] using reached
  have unused : name ∉ t.tokens := fun stored => fresh (fewer stored)
  let checked := t.move i .creating
  let created : Slots :=
    { (checked.move i .locking).hold name none with tokens := t.tokens ++ [name] }
  let registered := (created.move i .admitting).hold name (some i)
  let inside : Slots := { registered.move i .inside with lock := none }
  have check : Step limit process t .silent checked := .go (by rw [reserved]; rfl)
  have create : Step limit process checked .silent created := by
    have step : Step limit process checked .silent _ :=
      .create (i := i) (by simp [checked, Slots.move])
        (by simpa [checked, Slots.move, reserved] using unused)
    simpa [created, checked, Slots.move, reserved] using step
  have register : Step limit process created .silent registered := by
    have step : Step limit process created .silent _ :=
      .register (i := i) (by simp [created, checked, Slots.move, Slots.hold])
        (by simp [created, checked, Slots.move, Slots.hold, reserved])
    simpa [registered, created, checked, Slots.move, Slots.hold, reserved] using step
  have release : Step limit process registered .silent inside :=
    .release (by simp [registered, Slots.move, Slots.hold, Stage.released])
  refine ⟨_, inside,
    .append (.cons enter (.cons acquire (.cons list sweep)))
      (.cons check (.cons create (.cons register (.single release)))), ?_, ?_⟩
  · simp [inside, Slots.move]
  · intro j other
    have same : t.calls j = s.calls j := by
      simpa [listed, locked, entered, Slots.move, other] using others j other
    simpa [inside, registered, created, checked, Slots.move, Slots.hold, other] using same

-----------------------------------------------------------------------------------------
-- The slots
-----------------------------------------------------------------------------------------

/-- Different uploads inside `upload()`. -/
def Slots.Uploading (s : Slots) (uploads : List Nat) : Prop :=
  uploads.Nodup ∧ ∀ j ∈ uploads, (s.calls j).stage.active = true

/-- What the slots promise after a run: no more uploads than the limit, no swept token of an
upload, no lock left by a death, a slot for the next admission while there are fewer uploads, and
a refusal only of a thread that found the limit reached when it took the lock, with the uploads
lasting to the refusal where no process died in between.
-/
structure Reliable (limit : Nat) (process : Nat → Nat) (events : List Event) (s : Slots)
    : Prop where
  bounded : ∀ uploads, s.Uploading uploads → uploads.length ≤ limit
  swept
    : ∀ i name t,
        Step limit process s (.swept i name) t
        → ∀ j, (s.calls j).stage.active = true → (s.calls j).name ≠ name
  released
    : ∀ p t,
        Step limit process s (.died p) t
        → ∀ i, process i = p
        → t.lock ≠ some i ∧ ∀ name ∈ t.tokens, t.holder name ≠ some i
  available
    : ∀ i name,
        s.lock = none → (s.calls i).stage = .idle → name ∉ s.tokens
        → (∀ uploads, s.Uploading uploads → uploads.length < limit)
        → ∃ more t,
            Run (Step limit process) s more t
            ∧ (t.calls i).stage = .inside
            ∧ ∀ j ≠ i, t.calls j = s.calls j
  refused
    : ∀ i past,
        events = past ++ [.refused i]
        → ∃ before start rest counted,
            past = before ++ .locked i :: rest
            ∧ Run (Step limit process) .initial before start
            ∧ Run (Step limit process) start (.locked i :: rest ++ [.refused i]) s
            ∧ .locked i ∉ rest
            ∧ start.Uploading counted
            ∧ limit ≤ counted.length
            ∧ ((∀ p, .died p ∉ rest) → s.Uploading counted)

theorem active_iff : stage.active = true ↔ stage.occupying = true ∧ stage ≠ .abandoned := by
  simp [Stage.active]

/-- No token of an upload is swept: the sweep has the lock of the token that it removes. -/
theorem swept_apart (locks : Locks s) (step : Step limit process s event t)
    (swept : event = .swept i name) {j : Nat} (active : (s.calls j).stage.active = true)
    : (s.calls j).name ≠ name := by
  cases step with
  | @sweep k stale names count stage =>
      cases swept
      have claimed :=
        Counts.claim_of_occupying (i := i) locks (by simp [stage, Stage.locked])
          (by simp [stage, Stage.occupying, Stage.owning]) (active_iff.mp active).1
      rintro rfl
      have same := locks.claim_exclusive (j := i) claimed (by simp [Call.claim, stage])
      rw [same, stage] at active
      cases active
  | raise raised => split at swept <;> cases swept
  | _ => cases swept

/-- A death leaves no lock to a thread of its process. -/
theorem released_by_death (step : Step limit process s event t) {p : Nat} (died : event = .died p)
    (dead : process i = p)
    : t.lock ≠ some i ∧ ∀ name, t.holder name ≠ some i := by
  cases step with
  | die q =>
      cases died
      constructor
      · intro held
        exact (survives_iff.mp held).2 dead
      · intro name held
        exact (survives_iff.mp held).2 dead
  | raise raised => split at died <;> cases died
  | _ => cases died

/-- A refusal is the end of a sweep that has counted the limit. -/
theorem refusal (step : Step limit process s event t) (refused : event = .refused i)
    : ∃ active,
        (s.calls i).stage = .sweeping [] active
        ∧ limit ≤ active
        ∧ t = { s.move i .idle with lock := none } := by
  cases step with
  | @refuse k active stage full =>
      cases refused
      exact ⟨active, stage, full, rfl⟩
  | raise raised => split at refused <;> cases refused
  | _ => cases refused

/-- The slots keep what they promise in every run without an exception that abandons a token. -/
theorem reliable_of_tidy {events : List Event}
    (run : Run (Step limit process) .initial events s) (tidy : ∀ i, .abandoned i ∉ events)
    : Reliable limit process events s where
  bounded := by
    rintro uploads ⟨distinct, active⟩
    exact (kept run).2.bounded uploads
      ⟨distinct, fun j member => (active_iff.mp (active j member)).1⟩
  swept := by
    intro i name t step j active
    exact swept_apart (kept run).1 step rfl active
  released := by
    intro p t step i dead
    obtain ⟨lock, tokens⟩ := released_by_death step rfl dead
    exact ⟨lock, fun name _ => tokens name⟩
  available := by
    intro i name free idle fresh room
    have locks := (kept run).1
    obtain ⟨owners, distinct, length, claims⟩ :=
      holders locks locks.names (fun _ stored => stored)
    apply enters locks free idle fresh
    rw [← length]
    refine room owners ⟨distinct, ?_⟩
    intro j member
    obtain ⟨name, _, claimed⟩ := claims j member
    -- nobody sweeps while the lock is free
    have unlocked : (s.calls j).stage.locked = false := by
      by_contra locked
      have held := (locks.lock j).mpr (by simpa using locked)
      rw [free] at held
      cases held
    refine active_iff.mpr ⟨?_, not_abandoned run tidy j⟩
    cases stage : (s.calls j).stage <;>
      simp_all [Call.claim, Stage.owning, Stage.occupying, Stage.locked]
  refused := by
    rintro i past rfl
    obtain ⟨u, earlier, step⟩ := run.last
    obtain ⟨active, stage, full, rfl⟩ := refusal step rfl
    obtain ⟨before, start, rest, counted, origin⟩ :=
      origin (i := i) earlier ([], active) (by rw [stage]; rfl)
    have tidy_past : ∀ j, .abandoned j ∉ past := fun j member =>
      tidy j (List.mem_append_left _ member)
    have tidy_before : ∀ j, .abandoned j ∉ before := by
      intro j member
      exact tidy_past j (origin.split ▸ List.mem_append_left _ member)
    refine ⟨before, start, rest, counted, origin.split, origin.earlier,
      origin.later.snoc step, origin.once, ⟨origin.distinct, ?_⟩, ?_, ?_⟩
    · intro j member
      exact active_iff.mpr
        ⟨origin.occupying j member, not_abandoned origin.earlier tidy_before j⟩
    · rw [origin.length]
      exact full
    · intro living
      refine ⟨origin.distinct, ?_⟩
      intro j member
      refine active_iff.mpr ⟨?_, not_abandoned run tidy j⟩
      apply stays_update
      · simp [stage, Stage.occupying, Stage.owning]
      · exact origin.lasting tidy_past living j (origin.occupying j member)

/-- The steps by which thread 0 gets in and leaves with an exception from its exit, and thread 1
is then refused, with a limit of one.
-/
theorem abandoned_run
    : ∃ past s,
        Run (Step 1 id) .initial (past ++ [.refused 1]) s
        ∧ (∀ p, .died p ∉ past)
        ∧ ∀ j, (s.calls j).stage.active = false := by
  have r : Run (Step 1 id) .initial [] .initial := .nil _
  have r := r.snoc (.enter (i := 0) "a" rfl)
  have r := r.snoc (.acquire (i := 0) rfl rfl)
  have r := r.snoc (.list (i := 0) rfl (List.Perm.refl _))
  have r := r.snoc (.pass (i := 0) rfl Nat.zero_lt_one)
  have r := r.snoc (.go (i := 0) rfl)
  have r := r.snoc (.create (i := 0) rfl (by decide))
  have r := r.snoc (.register (i := 0) rfl rfl)
  have r := r.snoc (.release (i := 0) rfl)
  have r := r.snoc (.go (i := 0) rfl)
  have r := r.snoc (.raise (i := 0) rfl)
  have r := r.snoc (.enter (i := 1) "b" rfl)
  have r := r.snoc (.acquire (i := 1) rfl rfl)
  have r := r.snoc (.list (i := 1) rfl (List.Perm.refl _))
  have r := r.snoc (.count (i := 1) rfl rfl)
  have r := r.snoc (.refuse (i := 1) rfl (Nat.le_refl _))
  refine ⟨_, _, r, ?_, ?_⟩
  · intro p
    simp
  · intro j
    rcases j with _ | _ | j <;> rfl

/-- An upload that is gone still keeps another from its slot. -/
theorem reliable_abandoned
    : ∃ past s,
        Run (Step 1 id) .initial (past ++ [.refused 1]) s
        ∧ (∀ j, (s.calls j).stage.active = false)
        ∧ ¬Reliable 1 id (past ++ [.refused 1]) s := by
  obtain ⟨past, s, run, living, nobody⟩ := abandoned_run
  refine ⟨past, s, run, nobody, ?_⟩
  intro reliable
  obtain ⟨before, start, rest, counted, split, _, _, _, _, full, lasting⟩ :=
    reliable.refused 1 past rfl
  have uploading : s.Uploading counted := by
    apply lasting
    intro p member
    apply living p
    rw [split]
    exact List.mem_append_right _ (List.mem_cons_of_mem _ member)
  obtain ⟨j, member⟩ := List.exists_mem_of_length_pos full
  have active := uploading.2 j member
  rw [nobody j] at active
  cases active

/-- An upload that has taken the only slot of an empty directory. -/
theorem reliable_of_tidy_sample
    : ∃ events s,
        Run (Step 1 id) .initial events s
        ∧ (s.calls 0).stage = .inside
        ∧ Reliable 1 id events s := by
  have r : Run (Step 1 id) .initial [] .initial := .nil _
  have r := r.snoc (.enter (i := 0) "a" rfl)
  have r := r.snoc (.acquire (i := 0) rfl rfl)
  have r := r.snoc (.list (i := 0) rfl (List.Perm.refl _))
  have r := r.snoc (.pass (i := 0) rfl Nat.zero_lt_one)
  have r := r.snoc (.go (i := 0) rfl)
  have r := r.snoc (.create (i := 0) rfl (by decide))
  have r := r.snoc (.register (i := 0) rfl rfl)
  have r := r.snoc (.release (i := 0) rfl)
  exact ⟨_, _, r, rfl, reliable_of_tidy r (by simp)⟩

end Transcriber.UploadSlots
