import Transcriber.Worker.Slots

/-! The marker file exists only while every slot is in its drain section, where it has no job.
A slot is in the set of the pool from the update that `mark_drained` makes on its way in to the
one on its way out, so a full set that is seen under the lock stays full until the lock is free.
-/

namespace Transcriber

open Execution

-----------------------------------------------------------------------------------------
-- The drain section
-----------------------------------------------------------------------------------------

namespace Main

/-- From the call `mark_drained(True)` to the end of `mark_drained(False)`. -/
def inSection : Main → Bool
  | .marking _ _ | .waiting => true
  | _ => false

/-- From the update of the set in `mark_drained(True)` to the one in `mark_drained(False)`. -/
def inSet : Main → Bool
  | .marking drained .locking => !drained
  | .marking drained _ => drained
  | .waiting => true
  | _ => false

/-- Between the update of the set and the end of `mark_drained`. -/
def holdsLock : Main → Bool
  | .marking _ .updated | .marking _ (.decided _) => true
  | _ => false

/-- Where a slot can be after it left a delivery behind because of the stop event. -/
def leaving : Main → Bool
  | .consuming .closing | .pausing | .top | .ending | .joining | .finishing _ | .ended => true
  | _ => false

/-- Neither in the set nor with the lock: outside the section, or just before it. -/
def Outside (main : Main) : Prop :=
  main.inSet = false ∧ main.holdsLock = false

theorem inSection_of_inSet {main : Main} (member : main.inSet = true)
    : main.inSection = true := by
  unfold inSet at member
  split at member <;> first | rfl | cases member

theorem outside_of_not_inSection {main : Main} (away : main.inSection = false)
    : main.Outside := by
  cases main with
  | marking | waiting => cases away
  | _ => exact ⟨rfl, rfl⟩

theorem not_leaving_of_inSection {main : Main} (inside : main.inSection = true)
    : main.leaving = false := by
  unfold inSection at inside
  split at inside <;> first | rfl | cases inside

end Main

/-- `Claim` and `BeginAttempt` are sent. -/
def SlotEvent.starts : SlotEvent → Bool
  | .claim | .beginAttempt => true
  | _ => false

namespace Slot

/-- The slot runs no job: `process` has returned in its thread and in that of its delivery. -/
def Idle (slot : Slot) : Prop :=
  (∀ at_, slot.main ≠ .processing at_) ∧ slot.delivery = .none

/-- A delivery has a slot that waits for it, or one that left it behind on stop. -/
def Attended (stop : Bool) (slot : Slot) : Prop :=
  slot.delivery = .none
  ∨ slot.main = .consuming .working
  ∨ stop = true ∧ slot.main.leaving = true

theorem Attended.mono {stop stop' : Bool} {slot : Slot} (attended : slot.Attended stop)
    (stopped : stop = true → stop' = true)
    : slot.Attended stop' := by
  rcases attended with none | working | ⟨stop, leaving⟩
  · exact .inl none
  · exact .inr (.inl working)
  · exact .inr (.inr ⟨stopped stop, leaving⟩)

theorem Attended.idle {stop : Bool} {slot : Slot} (attended : slot.Attended stop)
    (inside : slot.main.inSection = true)
    : slot.Idle := by
  constructor
  · intro at_ processing
    rw [processing] at inside
    cases inside
  · rcases attended with none | working | ⟨_, leaving⟩
    · exact none
    · rw [working] at inside
      cases inside
    · rw [Main.not_leaving_of_inSection inside] at leaving
      cases leaving

-----------------------------------------------------------------------------------------
-- What a step of a thread leaves alone
-----------------------------------------------------------------------------------------

variable {broker stop drain : Bool} {slot after : Slot} {choice : Choice} {event : SlotEvent}

/-- A report is neither a claim nor a delivery. -/
theorem report_frame {at_ : Report} {progress : Progress Report}
    (done : slot.report broker stop choice at_ = some (event, after, progress))
    : after.delivery = slot.delivery ∧ after.main = slot.main ∧ event.starts = false := by
  cases at_ with
  | locking ready =>
      simp only [report] at done
      split at done <;> cases done
      exact ⟨rfl, rfl, rfl⟩
  | asking ready =>
      simp only [report] at done
      split at done
      · cases done
        exact ⟨rfl, rfl, rfl⟩
      · split at done <;> cases done
        exact ⟨rfl, rfl, rfl⟩
  | registering =>
      simp only [report] at done
      split at done <;> cases done <;> exact ⟨rfl, rfl, rfl⟩
  | informing =>
      cases done
      exact ⟨rfl, rfl, rfl⟩

theorem reporting_frame {at_ : Report} {going : Report → Main} {returned raised : Main}
    (done : slot.reporting broker stop choice at_ going returned raised = some (event, after))
    : after.delivery = slot.delivery
      ∧ (∃ progress : Progress Report, after.main = progress.lead going returned raised)
      ∧ event.starts = false := by
  obtain ⟨⟨event, middle, progress⟩, report, same⟩ := Option.map_eq_some_iff.mp done
  cases same
  obtain ⟨delivery, _, quiet⟩ := report_frame report
  exact ⟨delivery, ⟨progress, rfl⟩, quiet⟩

theorem watching_frame {at_ : Report} {going : Report → Reporter} {returned : Reporter}
    (done : slot.watching broker stop choice at_ going returned = some (event, after))
    : after.delivery = slot.delivery ∧ after.main = slot.main ∧ event.starts = false := by
  obtain ⟨⟨event, middle, progress⟩, report, same⟩ := Option.map_eq_some_iff.mp done
  cases same
  obtain ⟨delivery, main, quiet⟩ := report_frame report
  exact ⟨delivery, main, quiet⟩

theorem watch_frame (done : slot.watch broker stop choice = some (event, after))
    : after.delivery = slot.delivery ∧ after.main = slot.main ∧ event.starts = false := by
  unfold watch at done
  split at done
  case h_5 | h_7 => exact watching_frame done
  all_goals
    try split at done
    all_goals
      cases done
      try exact ⟨rfl, rfl, rfl⟩

/-- Only the thread of a delivery sends BeginAttempt. -/
theorem deliver_frame (done : slot.deliver stop choice = some (event, after))
    : slot.delivery ≠ .none ∧ after.main = slot.main := by
  unfold deliver at done
  split at done
  all_goals cases done
  all_goals
    rename_i delivery
    rw [delivery]
    exact ⟨nofun, rfl⟩

theorem execute_frame (done : slot.execute = some (event, after))
    : after.delivery = slot.delivery ∧ after.main = slot.main ∧ event.starts = false := by
  unfold execute at done
  split at done
  · cases done
    exact ⟨rfl, rfl, rfl⟩
  · cases done

theorem executeLate_frame {index : Nat}
    (done : slot.executeLate index = some (event, after))
    : after.delivery = slot.delivery ∧ after.main = slot.main ∧ event.starts = false := by
  obtain ⟨ready, _, same⟩ := Option.map_eq_some_iff.mp done
  cases same
  exact ⟨rfl, rfl, rfl⟩

theorem lapse_frame (done : slot.lapse = some (event, after))
    : after.delivery = slot.delivery ∧ after.main = slot.main ∧ event.starts = false := by
  unfold lapse at done
  split at done
  · cases done
    exact ⟨rfl, rfl, rfl⟩
  · cases done

-----------------------------------------------------------------------------------------
-- The main thread
-----------------------------------------------------------------------------------------

/-- What a step of the main thread outside `mark_drained` does to its part in the drain. -/
structure Moved (stop : Bool) (slot after : Slot) (event : SlotEvent) : Prop where
  inSet : after.main.inSet = slot.main.inSet
  free : slot.main.holdsLock = false ∧ after.main.holdsLock = false
  inside : slot.main.inSection = true → after.main.inSection = true
  attended : slot.Attended stop → after.Attended (stop || slot.main = .ending)
  starts : event.starts = true → slot.main.inSection = false

/-- A step from outside the section that does not enter the set. -/
theorem Moved.outside (before : slot.main.inSection = false) (ahead : after.main.Outside)
    (attended : slot.Attended stop → after.Attended (stop || slot.main = .ending))
    : Moved stop slot after event where
  inSet := ahead.1.trans (Main.outside_of_not_inSection before).1.symm
  free := ⟨(Main.outside_of_not_inSection before).2, ahead.2⟩
  inside := fun inside => by rw [before] at inside; cases inside
  attended := attended
  starts := fun _ => before

/-- A step that leaves the delivery alone, and goes on leaving after stop. -/
theorem Moved.passing (before : slot.main.inSection = false)
    (idle : slot.main ≠ .consuming .working) (ahead : after.main.Outside)
    (delivery : after.delivery = slot.delivery)
    (left : slot.main.leaving = true → stop = true → after.main.leaving = true)
    : Moved stop slot after event := by
  refine .outside before ahead ?_
  rintro (none | working | ⟨stopped, leaving⟩)
  · exact .inl (delivery.trans none)
  · exact absurd working idle
  · exact .inr (.inr ⟨by simp [stopped], left leaving stopped⟩)

/-- A step of a report made outside the section. -/
theorem Moved.reporting {at_ : Report} {going : Report → Main} {returned raised : Main}
    (done : slot.reporting broker stop choice at_ going returned raised = some (event, after))
    (before : slot.main.inSection = false) (idle : slot.main ≠ .consuming .working)
    (ahead : ∀ progress : Progress Report, (progress.lead going returned raised).Outside)
    (left : slot.main.leaving = true
      → ∀ progress : Progress Report,
          (progress.lead going returned raised).leaving = true)
    : Moved stop slot after event := by
  obtain ⟨delivery, ⟨progress, main⟩, _⟩ := reporting_frame done
  refine .passing before idle (main ▸ ahead progress) delivery (fun leaving _ => ?_)
  rw [main]
  exact left leaving progress

theorem consume_moved {at_ : Consuming} (main : slot.main = .consuming at_)
    (done : slot.consume stop drain choice at_ = some (event, after))
    : Moved stop slot after event := by
  have before : slot.main.inSection = false := by rw [main]; rfl
  cases at_ with
  | connecting | receiving | settling =>
      cases done
      refine .passing before (by simp [main]) ?_ rfl (by simp [main, Main.leaving])
      simp only
      split_ifs <;> exact ⟨rfl, rfl⟩
  | delivered =>
      simp only [consume] at done
      split at done
      · cases done
        exact .passing before (by simp [main]) ⟨rfl, rfl⟩ rfl (fun _ _ => rfl)
      · split at done
        -- the delivery begins
        · cases done
          exact .outside before ⟨rfl, rfl⟩ (fun _ => .inr (.inl rfl))
        · split at done <;> cases done
          all_goals
            exact .passing before (by simp [main]) ⟨rfl, rfl⟩ rfl (by simp [main, Main.leaving])
  | working =>
      simp only [consume] at done
      split at done
      -- the delivery is left behind
      · rename_i stopped
        cases done
        exact .outside before ⟨rfl, rfl⟩ (fun _ => .inr (.inr ⟨by simp [stopped], rfl⟩))
      · split at done <;> cases done
        exact .outside before ⟨rfl, rfl⟩ (fun _ => .inl rfl)
  | closing =>
      cases done
      exact .passing before (by simp [main]) ⟨rfl, rfl⟩ rfl (fun _ _ => rfl)

/-- One step of `run_forever`, by cases on where it is. -/
theorem run_moved (done : slot.run broker stop drain choice = some (event, after))
    : Moved stop slot after event := by
  cases main : slot.main with
  | marking drained at_ => simp [run, main] at done
  | ended => simp [run, main] at done
  | waiting =>
      simp only [run, main] at done
      split at done <;> cases done
      exact {
        inSet := by simp [main, Main.inSet]
        free := by simp [main, Main.holdsLock]
        inside := fun _ => rfl
        attended := by
          rintro (none | working | ⟨_, leaving⟩)
          · exact .inl none
          · simp [main] at working
          · simp [main, Main.leaving] at leaving
        starts := fun starts => by cases starts
      }
  | withdrawing report | returning report | registering report | finishing report =>
      simp only [run, main] at done
      refine .reporting done (by rw [main]; rfl) (by simp [main]) ?_ ?_
      · rintro (next | _ | _) <;> exact ⟨rfl, rfl⟩
      · rw [main]
        rintro leaving (next | _ | _) <;> first | rfl | cases leaving
  | consuming at_ =>
      simp only [run, main] at done
      exact consume_moved main done
  | processing at_ =>
      simp only [run, main] at done
      cases done
      refine .passing (by rw [main]; rfl) (by simp [main]) ?_ rfl
        (by simp [main, Main.leaving])
      cases (process stop choice at_).2 <;> exact ⟨rfl, rfl⟩
  | _ =>
      simp only [run, main] at done
      try split at done
      try split at done
      all_goals
        cases done
        refine .passing (by rw [main]; rfl) (by simp [main])
          ⟨rfl, rfl⟩ rfl ?_
        simp_all [Main.leaving]

end Slot

-----------------------------------------------------------------------------------------
-- The invariant of the pool
-----------------------------------------------------------------------------------------

namespace Pool

variable {n : Nat} {s t : Pool n} {i : Fin n} {broker : Bool}

/-- What the set, the lock, the marker and the stop event say about one slot. -/
structure Agrees (s : Pool n) (i : Fin n) (slot : Slot) : Prop where
  set : i ∈ s.drained ↔ slot.main.inSet = true
  lock : s.lock = some i ↔ slot.main.holdsLock = true
  full : ∀ drained, slot.main = .marking drained (.decided true) → ∀ j, j ∈ s.drained
  marker : s.marker = true → slot.main.inSection = true
  attended : slot.Attended s.stop

/-- The pool agrees with each of its slots. -/
def Drains (s : Pool n) : Prop := ∀ i, s.Agrees i (s.slots i)

/-- No slot has begun. -/
theorem Drains.start (n : Nat) : (start n).Drains := fun _ => {
  set := by simp [Pool.start, Slot.start, Main.inSet]
  lock := by simp [Pool.start, Slot.start, Main.holdsLock]
  full := by simp [Pool.start, Slot.start]
  marker := by simp [Pool.start]
  attended := .inl rfl
}

/-- A pool whose slots are those of another but for one. -/
theorem Drains.of_update {after : Slot} (slots : t.slots = Function.update s.slots i after)
    (changed : t.Agrees i after) (others : ∀ j, j ≠ i → t.Agrees j (s.slots j))
    : t.Drains := by
  unfold Drains
  rw [slots]
  exact (Function.forall_update_iff s.slots (fun j slot => t.Agrees j slot)).mpr
    ⟨changed, others⟩

/-- A slot that changes outside `mark_drained`. -/
theorem Drains.replace (kept : s.Drains) {after : Slot} {stop : Bool}
    (inSet : after.main.inSet = (s.slots i).main.inSet)
    (holdsLock : after.main.holdsLock = (s.slots i).main.holdsLock)
    (inside : (s.slots i).main.inSection = true → after.main.inSection = true)
    (decided : ∀ drained, after.main = .marking drained (.decided true)
      → (s.slots i).main = .marking drained (.decided true))
    (attended : after.Attended stop) (stopped : s.stop = true → stop = true)
    : Drains { s.set i after with stop } := by
  refine .of_update rfl ?_ (fun j _ => { kept j with attended := (kept j).attended.mono stopped })
  exact {
    set := inSet ▸ (kept i).set
    lock := holdsLock ▸ (kept i).lock
    full := fun drained main => (kept i).full drained (decided drained main)
    marker := fun exists_ => inside ((kept i).marker exists_)
    attended
  }

/-- A thread that leaves the main thread where it is. -/
theorem Drains.beside (kept : s.Drains) {after : Slot} (main : after.main = (s.slots i).main)
    (attended : after.Attended s.stop)
    : (s.set i after).Drains :=
  kept.replace (by rw [main]) (by rw [main]) (by rw [main]; exact id) (by rw [main]; simp)
    attended id

-----------------------------------------------------------------------------------------
-- mark_drained
-----------------------------------------------------------------------------------------

/-- A slot in `mark_drained` has no delivery. -/
theorem Agrees.marking {slot : Slot} (agrees : s.Agrees i slot) {drained : Bool}
    {at_ : Marking} (main : slot.main = .marking drained at_) (next : Main)
    : Slot.Attended s.stop { slot with main := next } :=
  .inl (agrees.attended.idle (by rw [main]; rfl)).2

/-- The slot takes the lock and changes the set by itself. -/
theorem Drains.locking (kept : s.Drains) {drained : Bool}
    (main : (s.slots i).main = .marking drained .locking) (free : s.lock = none)
    : Drains
        { s.set i { s.slots i with main := .marking drained .updated } with
          lock := some i
          drained := if drained then insert i s.drained else s.drained.erase i } := by
  refine .of_update rfl ?_ (fun j other => ?_)
  · exact {
      set := by cases drained <;> simp [Main.inSet]
      lock := by simp [Main.holdsLock]
      full := by simp
      marker := fun _ => rfl
      attended := (kept i).marking main _
    }
  · have idle : (s.slots j).main.holdsLock = false := by
      simpa [free] using (kept j).lock
    refine {
      set := ?_
      lock := by simp [idle, Ne.symm other]
      full := fun _ decided => by rw [decided] at idle; cases idle
      marker := (kept j).marker
      attended := (kept j).attended
    }
    have same := (kept j).set
    cases drained <;> simpa [other] using same

/-- The slot tests the set and the drain event. -/
theorem Drains.testing (kept : s.Drains) {drained : Bool}
    (main : (s.slots i).main = .marking drained .updated)
    : (s.set i
        { s.slots i with
          main := .marking drained (.decided (s.drained.card = n && s.drain)) }).Drains := by
  refine .of_update rfl ?_ (fun j _ => { kept j with })
  refine {
    set := by simpa [Pool.set, main, Main.inSet] using (kept i).set
    lock := by simpa [Pool.set, main, Main.holdsLock] using (kept i).lock
    full := fun _ decided => ?_
    marker := fun _ => rfl
    attended := (kept i).marking main _
  }
  simp only [Main.marking.injEq, Marking.decided.injEq, Bool.and_eq_true,
    decide_eq_true_eq] at decided
  have all : s.drained = Finset.univ :=
    Finset.eq_univ_of_card _ (by rw [Fintype.card_fin]; exact decided.2.1)
  exact fun j => all ▸ Finset.mem_univ j

/-- The slot touches or unlinks the marker and frees the lock. -/
theorem Drains.touching (kept : s.Drains) {drained touch : Bool}
    (main : (s.slots i).main = .marking drained (.decided touch))
    : Drains
        { s.set i { s.slots i with main := if drained then .waiting else .unmarked } with
          lock := none
          marker := touch } := by
  have held : s.lock = some i := (kept i).lock.mpr (by rw [main]; rfl)
  -- a full set has this slot in it, so the slot is on its way in
  have inside : touch = true → drained = true := by
    rintro rfl
    have member := (kept i).set.mp ((kept i).full drained main i)
    rwa [main] at member
  refine .of_update rfl ?_ (fun j other => ?_)
  · exact {
      set := by cases drained <;> simpa [Pool.set, main, Main.inSet] using (kept i).set
      lock := by cases drained <;> simp [Main.holdsLock]
      full := fun _ decided => by split at decided <;> cases decided
      marker := fun touched => by rw [if_pos (inside touched)]; rfl
      attended := (kept i).marking main _
    }
  · exact {
      set := (kept j).set
      lock := by simpa [held, Ne.symm other] using (kept j).lock
      full := (kept j).full
      marker := by
        rintro rfl
        exact Main.inSection_of_inSet ((kept j).set.mp ((kept i).full drained main j))
      attended := (kept j).attended
    }

-----------------------------------------------------------------------------------------
-- Steps and runs
-----------------------------------------------------------------------------------------

/-- What a step of the pool is to the drain. -/
inductive Moves (s : Pool n) : PoolLabel n → Pool n → Prop
  | signal (drain : Bool) : Moves s none { s with drain }
  | stop : Moves s none { s with stop := true }
  | unlink : Moves s none { s with marker := false }
  | mark {i : Fin n} {drained : Bool} {at_ : Marking} {t : Pool n}
    (main : (s.slots i).main = .marking drained at_) (marked : s.mark i drained at_ = some t)
    : Moves s (some (i, .silent)) t
  | run {i : Fin n} {event : SlotEvent} {after : Slot}
    (moved : Slot.Moved s.stop (s.slots i) after event)
    : Moves s (some (i, event)) { s.set i after with stop := s.stop || (s.slots i).main = .ending }
  | deliver {i : Fin n} {event : SlotEvent} {after : Slot}
    (going : (s.slots i).delivery ≠ .none) (main : after.main = (s.slots i).main)
    : Moves s (some (i, event)) (s.set i after)
  | beside {i : Fin n} {event : SlotEvent} {after : Slot}
    (frame : after.delivery = (s.slots i).delivery ∧ after.main = (s.slots i).main
      ∧ event.starts = false)
    : Moves s (some (i, event)) (s.set i after)

/-- Every step is one of these, by cases on what happens. -/
theorem Step.moves {label : PoolLabel n} (step : Step broker s label t) : s.Moves label t := by
  obtain ⟨action, done⟩ := step
  cases action with
  | signal drain =>
      cases done
      exact .signal drain
  | stop =>
      cases done
      exact .stop
  | unlink =>
      simp only [exec] at done
      split at done <;> cases done
      exact .unlink
  | run i choice =>
      simp only [exec] at done
      split at done
      · rename_i drained at_ main
        obtain ⟨t, marked, same⟩ := Option.map_eq_some_iff.mp done
        cases same
        exact .mark main marked
      · obtain ⟨_, ran, same⟩ := Option.map_eq_some_iff.mp done
        cases same
        exact .run (Slot.run_moved ran)
  | watch i choice =>
      obtain ⟨_, watched, same⟩ := Option.map_eq_some_iff.mp done
      cases same
      exact .beside (Slot.watch_frame watched)
  | deliver i choice =>
      obtain ⟨_, delivered, same⟩ := Option.map_eq_some_iff.mp done
      cases same
      obtain ⟨going, main⟩ := Slot.deliver_frame delivered
      exact .deliver going main
  | execute i =>
      obtain ⟨_, executed, same⟩ := Option.map_eq_some_iff.mp done
      cases same
      exact .beside (Slot.execute_frame executed)
  | executeLate i index =>
      obtain ⟨_, executed, same⟩ := Option.map_eq_some_iff.mp done
      cases same
      exact .beside (Slot.executeLate_frame executed)
  | lapse i =>
      obtain ⟨_, lapsed, same⟩ := Option.map_eq_some_iff.mp done
      cases same
      exact .beside (Slot.lapse_frame lapsed)

/-- A step of `mark_drained` keeps the invariant, by cases on where it is. -/
theorem Drains.mark (kept : s.Drains) {drained : Bool} {at_ : Marking}
    (main : (s.slots i).main = .marking drained at_) (done : s.mark i drained at_ = some t)
    : t.Drains := by
  cases at_ with
  | locking =>
      simp only [Pool.mark] at done
      split at done
      · cases done
      · rename_i free
        cases done
        exact kept.locking main (by simpa using free)
  | updated =>
      cases done
      exact kept.testing main
  | decided touch =>
      cases done
      exact kept.touching main

/-- Every step keeps the invariant. -/
theorem Drains.step (kept : s.Drains) {label : PoolLabel n} (step : Step broker s label t)
    : t.Drains := by
  cases step.moves with
  | signal => exact fun j => { kept j with }
  | stop => exact fun j => { kept j with attended := (kept j).attended.mono (fun _ => rfl) }
  | unlink => exact fun j => { kept j with marker := nofun }
  | mark main marked => exact kept.mark main marked
  | @run i _ _ moved =>
      refine kept.replace moved.inSet (moved.free.2.trans moved.free.1.symm) moved.inside
        (fun drained main => ?_) (moved.attended (kept i).attended) (fun stop => by simp [stop])
      have free := moved.free.2
      rw [main] at free
      cases free
  | @deliver i _ _ going main =>
      refine kept.beside main ?_
      rw [Slot.Attended, main]
      exact .inr ((kept i).attended.resolve_left going)
  | @beside i _ _ frame =>
      obtain ⟨delivery, main, _⟩ := frame
      refine kept.beside main ?_
      rw [Slot.Attended, delivery, main]
      exact (kept i).attended

/-- A slot that sends Claim or BeginAttempt is outside its drain section. -/
theorem Drains.starts (kept : s.Drains) {event : SlotEvent}
    (step : Step broker s (some (i, event)) t) (starts : event.starts = true)
    : (s.slots i).main.inSection = false := by
  cases step.moves with
  | mark => cases starts
  | run moved => exact moved.starts starts
  | deliver going =>
      by_contra inside
      exact going ((kept i).attended.idle (by simpa using inside)).2
  | beside frame =>
      rw [frame.2.2] at starts
      cases starts

/-- While the marker file exists, every slot is in its drain section and runs no job, and no
slot starts one from within the section.
-/
theorem marker_idle {past : List (PoolLabel n)} (run : Run (Step broker) (start n) past s)
    : (s.marker = true → ∀ i, (s.slots i).main.inSection = true ∧ (s.slots i).Idle)
      ∧ ∀ i event t, Step broker s (some (i, event)) t → event.starts = true
        → (s.slots i).main.inSection = false := by
  have kept : s.Drains := run.invariant (fun _ _ _ kept step => kept.step step) (.start n)
  refine ⟨fun exists_ i => ?_, fun i event t step starts => kept.starts step starts⟩
  have inside := (kept i).marker exists_
  exact ⟨inside, (kept i).attended.idle inside⟩

-----------------------------------------------------------------------------------------
-- A concrete run
-----------------------------------------------------------------------------------------

/-- A slot goes from the top of its loop through its drain section up to the wait. -/
def drainSlot (i : Fin n) : List (PoolAction n) :=
  [
    .run i .go, .run i .go, .run i .go,
    .run i .go, .execute i, .run i .go, .run i .go,
    .run i .go, .run i .go, .run i .go
  ]

/-- Two slots drain one after the other. -/
def playDrain : List (PoolLabel 2) × Pool 2 :=
  Execution.play (exec false) (fun _ _ _ => true) [] (start 2)
    (.signal true :: drainSlot 0 ++ drainSlot 1)

theorem playDrain_run : Run (Step false) (start 2) playDrain.1 playDrain.2 :=
  (Execution.play_run (Step.of_exec false) (.nil _) _).run (fun _ _ _ _ _ step => step)

/-- The marker file exists when both slots have drained. -/
theorem marker_idle_drained
    : playDrain.2.marker = true
      ∧ ∀ i, (playDrain.2.slots i).main.inSection = true ∧ (playDrain.2.slots i).Idle := by
  have touched : playDrain.2.marker = true := by decide +kernel
  exact ⟨touched, (marker_idle playDrain_run).1 touched⟩

end Pool

end Transcriber
