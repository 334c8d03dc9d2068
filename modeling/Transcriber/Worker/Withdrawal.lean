import Transcriber.Worker.DrainMarker

/-! A slot whose withdrawal the coordinator has acknowledged stays withdrawn until it resumes, in
every run that executes no ready report of an ended call over a withdrawal.
A ready report of a drained slot is never sent, so that after the acknowledgement the only ready
reports on their way are those whose call has ended.
-/

namespace Transcriber

open Execution

-----------------------------------------------------------------------------------------
-- The standing of a slot
-----------------------------------------------------------------------------------------

/-- What decides over the row of a slot: the request that waits for its reply, the row, and the
drained event.
-/
structure Standing where
  live : Option LiveRequest
  row : Readiness
  drained : Bool
  deriving DecidableEq, Repr

/-- The standing of a slot. -/
def Slot.standing (slot : Slot) : Standing := ⟨slot.live, slot.row, slot.drained⟩

/-- Neither a report nor its execution. -/
def SlotEvent.quiet : SlotEvent → Bool
  | .silent | .claim | .beginAttempt | .complete | .fail => true
  | _ => false

/-- What a step can do to the standing of its slot. -/
inductive Standing.Step (stop : Bool) : Standing → SlotEvent → Standing → Prop
  | quiet {event : SlotEvent} (standing : Standing) (quiet : event.quiet = true)
    : Step stop standing event standing
  | drain (live : Option LiveRequest) (row : Readiness) (drained : Bool)
    : Step stop ⟨live, row, drained⟩ .silent ⟨live, row, true⟩
  | clear (live : Option LiveRequest) (row : Readiness) (drained : Bool)
    : Step stop ⟨live, row, drained⟩ .cleared ⟨live, row, false⟩
  | lapse (live : Option LiveRequest) (drained : Bool)
    : Step stop ⟨live, .ready, drained⟩ .silent ⟨live, .unready, drained⟩
  | send (live : Option LiveRequest) (row : Readiness) (drained ready : Bool)
    (admitted : ready = true → (drained || stop) = false)
    : Step stop ⟨live, row, drained⟩ (.sent ready (drained || stop))
        ⟨some ⟨ready, false⟩, row, drained⟩
  | acknowledge (row : Readiness) (drained ready : Bool)
    : Step stop ⟨some ⟨ready, true⟩, row, drained⟩ (.acknowledged ready) ⟨none, row, drained⟩
  | abandon (live : Option LiveRequest) (row : Readiness) (drained ready : Bool)
    : Step stop ⟨live, row, drained⟩ (.abandoned ready) ⟨none, row, drained⟩
  | execute (row : Readiness) (drained ready : Bool)
    : Step stop ⟨some ⟨ready, false⟩, row, drained⟩ (.executed ready)
        ⟨some ⟨ready, true⟩, Readiness.reported ready, drained⟩
  | executeLate (live : Option LiveRequest) (row : Readiness) (drained ready : Bool)
    : Step stop ⟨live, row, drained⟩ (.executedLate ready)
        ⟨live, Readiness.reported ready, drained⟩

namespace Standing.Step

variable {stop : Bool} {before after : Standing} {event : SlotEvent}

/-- A ready report is sent by a slot that is neither drained nor stopped. -/
theorem of_sent {ready withdrawing : Bool}
    (step : Step stop before (.sent ready withdrawing) after)
    : withdrawing = (before.drained || stop)
      ∧ (ready = true → withdrawing = false)
      ∧ after.drained = before.drained := by
  cases step with
  | quiet _ quiet => cases quiet
  | send _ _ _ _ admitted => exact ⟨rfl, admitted, rfl⟩

theorem of_acknowledged {ready : Bool} (step : Step stop before (.acknowledged ready) after)
    : before.live = some ⟨ready, true⟩ ∧ after.live = none ∧ after.row = before.row := by
  cases step with
  | quiet _ quiet => cases quiet
  | acknowledge => exact ⟨rfl, rfl, rfl⟩

/-- The drained event stays set but for the end of the drain section. -/
theorem drained_stays (step : Step stop before event after) (other : event ≠ .cleared)
    (drained : before.drained = true)
    : after.drained = true := by
  cases step with
  | drain => rfl
  | clear => exact absurd rfl other
  | _ => exact drained

/-- Where the last execution was that of the withdrawal on its way, the row is withdrawn. -/
theorem executed_stays (step : Step stop before event after)
    (punctual : event = .executedLate true → before.row ≠ .withdrawn)
    (executed : before.live = some ⟨false, true⟩ → before.row = .withdrawn)
    : after.live = some ⟨false, true⟩ → after.row = .withdrawn := by
  cases step with
  | lapse => exact fun live => by cases executed live
  | send | acknowledge | abandon => nofun
  | execute _ _ ready =>
      intro live
      cases live
      rfl
  | executeLate _ _ _ ready =>
      intro live
      cases ready with
      | true => exact absurd (executed live) (punctual rfl)
      | false => rfl
  | _ => exact executed

/-- A withdrawn row stays so while the slot does not report ready. -/
theorem withdrawn_stays (step : Step stop before event after)
    (punctual : event = .executedLate true → before.row ≠ .withdrawn)
    (silent : ∀ withdrawing, event ≠ .sent true withdrawing)
    (withdrawn : before.row = .withdrawn ∧ ∀ executed, before.live ≠ some ⟨true, executed⟩)
    : after.row = .withdrawn ∧ ∀ executed, after.live ≠ some ⟨true, executed⟩ := by
  obtain ⟨row, live⟩ := withdrawn
  cases step with
  | lapse => cases row
  | send _ _ _ ready =>
      cases ready with
      | true => exact absurd rfl (silent _)
      | false => exact ⟨row, nofun⟩
  | acknowledge | abandon => exact ⟨row, nofun⟩
  | execute _ _ ready =>
      cases ready with
      | true => exact absurd rfl (live false)
      | false => exact ⟨rfl, nofun⟩
  | executeLate _ _ _ ready =>
      cases ready with
      | true => exact absurd row (punctual rfl)
      | false => exact ⟨rfl, live⟩
  | _ => exact ⟨row, live⟩

end Standing.Step

namespace Slot

variable {broker stop drain : Bool} {slot after : Slot} {choice : Choice} {event : SlotEvent}

/-- A report changes the standing as its event says. -/
theorem report_standing {at_ : Report} {progress : Progress Report}
    (done : slot.report broker stop choice at_ = some (event, after, progress))
    : Standing.Step stop slot.standing event after.standing := by
  cases at_ with
  | locking ready =>
      simp only [report] at done
      split at done <;> cases done
      exact .send _ _ _ _ (by cases ready <;> cases slot.drained <;> cases stop <;> simp)
  | asking ready =>
      simp only [report] at done
      split at done
      · cases done
        exact .abandon _ _ _ _
      · split at done <;> cases done
        rename_i replied
        simp only [standing, replied]
        exact .acknowledge _ _ _
  | registering =>
      simp only [report] at done
      split at done <;> cases done <;> exact .quiet _ rfl
  | informing =>
      cases done
      exact .quiet _ rfl

theorem reporting_standing {at_ : Report} {going : Report → Main} {returned raised : Main}
    (done : slot.reporting broker stop choice at_ going returned raised = some (event, after))
    : Standing.Step stop slot.standing event after.standing := by
  obtain ⟨⟨event, middle, progress⟩, report, same⟩ := Option.map_eq_some_iff.mp done
  cases same
  have moved := report_standing report
  exact moved

theorem watching_standing {at_ : Report} {going : Report → Reporter} {returned : Reporter}
    (done : slot.watching broker stop choice at_ going returned = some (event, after))
    : Standing.Step stop slot.standing event after.standing := by
  obtain ⟨⟨event, middle, progress⟩, report, same⟩ := Option.map_eq_some_iff.mp done
  cases same
  have moved := report_standing report
  exact moved

/-- `process` neither reports nor clears. -/
theorem process_quiet (stop : Bool) (choice : Choice) (at_ : Processing)
    : (process stop choice at_).1.quiet = true := by
  cases at_ with
  | entered | failing =>
      unfold process
      simp only
      split <;> rfl
  | downloading | transcribing | completing => cases choice <;> rfl
  | reporting => rfl

theorem consume_standing {at_ : Consuming}
    (done : slot.consume stop drain choice at_ = some (event, after))
    : Standing.Step stop slot.standing event after.standing := by
  cases at_ with
  | connecting | receiving | settling | closing =>
      cases done
      exact .quiet _ rfl
  | delivered =>
      simp only [consume] at done
      split at done
      · cases done
        exact .quiet _ rfl
      · split at done
        · cases done
          exact .quiet _ rfl
        · split at done <;> cases done <;> exact .quiet _ rfl
  | working =>
      simp only [consume] at done
      split at done
      · cases done
        exact .quiet _ rfl
      · split at done <;> cases done
        exact .quiet _ rfl

/-- One step of `run_forever`, by cases on where it is. -/
theorem run_standing (done : slot.run broker stop drain choice = some (event, after))
    : Standing.Step stop slot.standing event after.standing := by
  cases main : slot.main with
  | marking drained at_ => simp [run, main] at done
  | ended => simp [run, main] at done
  | withdrawing report | returning report | registering report | finishing report =>
      simp only [run, main] at done
      exact reporting_standing done
  | consuming at_ =>
      simp only [run, main] at done
      exact consume_standing done
  | processing at_ =>
      simp only [run, main] at done
      cases done
      exact .quiet _ (process_quiet _ _ _)
  | entry =>
      simp only [run, main] at done
      split at done <;> cases done
      · exact .drain _ _ _
      · exact .quiet _ rfl
  | unmarked =>
      simp only [run, main] at done
      cases done
      exact .clear _ _ _
  | _ =>
      simp only [run, main] at done
      try split at done
      try split at done
      all_goals
        cases done
        try exact .quiet _ rfl

theorem watch_standing (done : slot.watch broker stop choice = some (event, after))
    : Standing.Step stop slot.standing event after.standing := by
  cases reporter : slot.reporter with
  | reporting report | withdrawing report =>
      simp only [watch, reporter] at done
      exact watching_standing done
  | _ =>
      simp only [watch, reporter] at done
      try split at done
      all_goals
        cases done
        try exact .quiet _ rfl

theorem deliver_standing (done : slot.deliver stop choice = some (event, after))
    : Standing.Step stop slot.standing event after.standing := by
  cases delivery : slot.delivery with
  | processing at_ =>
      simp only [deliver, delivery] at done
      cases done
      exact .quiet _ (process_quiet _ _ _)
  | _ =>
      simp only [deliver, delivery] at done
      cases done
      try exact .quiet _ rfl

theorem execute_standing (done : slot.execute = some (event, after))
    : Standing.Step stop slot.standing event after.standing := by
  unfold execute at done
  split at done
  · rename_i waiting
    cases done
    simp only [standing, waiting]
    exact .execute _ _ _
  · cases done

theorem executeLate_standing {index : Nat}
    (done : slot.executeLate index = some (event, after))
    : Standing.Step stop slot.standing event after.standing := by
  obtain ⟨ready, _, same⟩ := Option.map_eq_some_iff.mp done
  cases same
  exact .executeLate _ _ _ _

theorem lapse_standing (done : slot.lapse = some (event, after))
    : Standing.Step stop slot.standing event after.standing := by
  unfold lapse at done
  split at done
  · rename_i ready
    cases done
    simp only [standing, ready]
    exact .lapse _ _
  · cases done

end Slot

namespace Pool

variable {n : Nat} {s t : Pool n} {i : Fin n} {broker : Bool}

theorem mark_standing {drained : Bool} {at_ : Marking} (done : s.mark i drained at_ = some t)
    : ∃ main, t.slots = Function.update s.slots i { s.slots i with main } ∧ t.stop = s.stop := by
  cases at_ with
  | locking =>
      simp only [Pool.mark] at done
      split at done <;> cases done
      exact ⟨_, rfl, rfl⟩
  | updated | decided touch =>
      cases done
      exact ⟨_, rfl, rfl⟩

/-- What a step of the pool does to the standings: the change that its event says for the slot of
its label, nothing for the others. The stop event stays set.
-/
structure Restands (s : Pool n) (label : PoolLabel n) (t : Pool n) : Prop where
  others
    : ∀ i, (∀ event, label ≠ some (i, event)) → (t.slots i).standing = (s.slots i).standing
  own
    : ∀ i event,
        label = some (i, event)
        → Standing.Step s.stop (s.slots i).standing event (t.slots i).standing
  stop : s.stop = true → t.stop = true

/-- A step of one slot. -/
theorem Restands.slot {event : SlotEvent} {after : Slot}
    (slots : t.slots = Function.update s.slots i after) (stop : s.stop = true → t.stop = true)
    (change : Standing.Step s.stop (s.slots i).standing event after.standing)
    : s.Restands (some (i, event)) t where
  others j other := by
    have away : j ≠ i := by
      rintro rfl
      exact other event rfl
    rw [slots, Function.update_of_ne away]
  own j event' same := by
    cases same
    rw [slots, Function.update_self]
    exact change
  stop := stop

/-- A step of the process. -/
theorem Restands.process (slots : t.slots = s.slots) (stop : s.stop = true → t.stop = true)
    : s.Restands none t where
  others j _ := by rw [slots]
  own _ _ := nofun
  stop := stop

theorem Step.restands {label : PoolLabel n} (step : Step broker s label t)
    : s.Restands label t := by
  obtain ⟨action, done⟩ := step
  cases action with
  | signal drain =>
      cases done
      exact .process rfl id
  | stop =>
      cases done
      exact .process rfl (fun _ => rfl)
  | unlink =>
      simp only [exec] at done
      split at done <;> cases done
      exact .process rfl id
  | run i choice =>
      simp only [exec] at done
      split at done
      · obtain ⟨u, marked, same⟩ := Option.map_eq_some_iff.mp done
        cases same
        obtain ⟨main, slots, stop⟩ := mark_standing marked
        exact .slot slots (fun stopped => stop ▸ stopped) (.quiet _ rfl)
      · obtain ⟨_, ran, same⟩ := Option.map_eq_some_iff.mp done
        cases same
        exact .slot rfl (fun stopped => by simp [stopped]) (Slot.run_standing ran)
  | watch i choice =>
      obtain ⟨_, watched, same⟩ := Option.map_eq_some_iff.mp done
      cases same
      exact .slot rfl id (Slot.watch_standing watched)
  | deliver i choice =>
      obtain ⟨_, delivered, same⟩ := Option.map_eq_some_iff.mp done
      cases same
      exact .slot rfl id (Slot.deliver_standing delivered)
  | execute i =>
      obtain ⟨_, executed, same⟩ := Option.map_eq_some_iff.mp done
      cases same
      exact .slot rfl id (Slot.execute_standing executed)
  | executeLate i index =>
      obtain ⟨_, executed, same⟩ := Option.map_eq_some_iff.mp done
      cases same
      exact .slot rfl id (Slot.executeLate_standing executed)
  | lapse i =>
      obtain ⟨_, lapsed, same⟩ := Option.map_eq_some_iff.mp done
      cases same
      exact .slot rfl id (Slot.lapse_standing lapsed)

-----------------------------------------------------------------------------------------
-- Withdrawn slots
-----------------------------------------------------------------------------------------

/-- The slot has left its drain section and then reported ready. -/
def Resumed (events : List (PoolLabel n)) (i : Fin n) : Prop :=
  [some (i, SlotEvent.cleared), some (i, .sent true false)].Sublist events

/-- A withdrawal that the slot sent while drained or stopped has been acknowledged, and it has not
resumed since it sent it.
-/
def Withdrawn (past : List (PoolLabel n)) (i : Fin n) : Prop :=
  ∃ before sending after,
    past = before ++ some (i, .sent false true) :: sending
      ++ some (i, .acknowledged false) :: after
    ∧ (∀ ready withdrawing, some (i, .sent ready withdrawing) ∉ sending)
    ∧ ¬ Resumed (sending ++ some (i, .acknowledged false) :: after) i

/-- No ready report of an ended call is executed over a withdrawal. -/
def punctual (_past : List (PoolLabel n)) (s : Pool n) : PoolLabel n → Bool
  | some (i, .executedLate true) => (s.slots i).row ≠ .withdrawn
  | _ => true

/-- What holds of a slot after a run. -/
structure Keeps (i : Fin n) (past : List (PoolLabel n)) (s : Pool n) : Prop where
  executed : (s.slots i).live = some ⟨false, true⟩ → (s.slots i).row = .withdrawn
  sent
    : ∀ before rest,
        past = before ++ some (i, .sent false true) :: rest
        → (s.slots i).drained = true ∨ s.stop = true ∨ some (i, .cleared) ∈ rest
  withdrawn
    : Withdrawn past i
      → (s.slots i).row = .withdrawn ∧ ∀ executed, (s.slots i).live ≠ some ⟨true, executed⟩

variable {past : List (PoolLabel n)} {label : PoolLabel n}

/-- A slot that is withdrawn after a step has just been acknowledged, or was so before and has
not resumed by this step.
-/
theorem Withdrawn.last (withdrawn : Withdrawn (past ++ [label]) i)
    : label = some (i, .acknowledged false)
      ∨ Withdrawn past i
        ∧ ∃ before rest,
            past = before ++ some (i, .sent false true) :: rest
            ∧ ¬ Resumed (rest ++ [label]) i := by
  obtain ⟨before, sending, after, split, alone, resumed⟩ := withdrawn
  rcases snoc_split split with ⟨_, acknowledged, _⟩ | ⟨earlier, rfl, past_eq⟩
  · exact .inl acknowledged
  · have still : ¬ Resumed (sending ++ some (i, .acknowledged false) :: earlier) i := by
      intro earlier
      refine resumed (earlier.trans ?_)
      simp
    refine .inr ⟨⟨before, sending, earlier, past_eq, alone, still⟩,
      before, sending ++ some (i, .acknowledged false) :: earlier, by simpa using past_eq, ?_⟩
    simpa using resumed

theorem Keeps.start (n : Nat) (i : Fin n) : Keeps i [] (start n) where
  executed := nofun
  sent before rest split := by simp at split
  withdrawn := by
    rintro ⟨before, sending, after, split, _⟩
    simp at split

/-- A step of another slot or of the process. -/
theorem Keeps.other (kept : Keeps i past s) (step : s.Restands label t)
    (other : ∀ event, label ≠ some (i, event))
    : Keeps i (past ++ [label]) t := by
  have same := step.others i other
  simp only [Slot.standing, Standing.mk.injEq] at same
  obtain ⟨live, row, drained⟩ := same
  refine {
    executed := by rw [live, row]; exact kept.executed
    sent := fun before rest split => ?_
    withdrawn := fun withdrawn => ?_
  }
  · rcases snoc_split split with ⟨_, mine, _⟩ | ⟨earlier, rfl, past_eq⟩
    · exact absurd mine (other _)
    · rw [drained]
      rcases kept.sent before earlier past_eq with still | stopped | cleared
      · exact .inl still
      · exact .inr (.inl (step.stop stopped))
      · exact .inr (.inr (List.mem_append_left _ cleared))
  · rcases withdrawn.last with mine | ⟨before, _⟩
    · exact absurd mine (other _)
    · rw [live, row]
      exact kept.withdrawn before

/-- A step of the slot itself, by what its event does to the standing. -/
theorem Keeps.own {event : SlotEvent} (kept : Keeps i past s)
    (step : s.Restands (some (i, event)) t) (guarded : punctual past s (some (i, event)) = true)
    : Keeps i (past ++ [some (i, event)]) t := by
  have change := step.own i event rfl
  have on_time : event = .executedLate true → (s.slots i).standing.row ≠ .withdrawn := by
    rintro rfl
    exact of_decide_eq_true guarded
  refine {
    executed := change.executed_stays on_time kept.executed
    sent := fun before rest split => ?_
    withdrawn := fun withdrawn => ?_
  }
  · rcases snoc_split split with ⟨_, sent, _⟩ | ⟨earlier, rfl, past_eq⟩
    · cases sent
      obtain ⟨withdrawing, _, drained⟩ := change.of_sent
      rcases Bool.or_eq_true_iff.mp withdrawing.symm with still | stopped
      · exact .inl (drained.trans still)
      · exact .inr (.inl (step.stop stopped))
    · rcases kept.sent before earlier past_eq with still | stopped | cleared
      · by_cases clears : event = .cleared
        · exact .inr (.inr (by simp [clears]))
        · exact .inl (change.drained_stays clears still)
      · exact .inr (.inl (step.stop stopped))
      · exact .inr (.inr (List.mem_append_left _ cleared))
  · rcases withdrawn.last with acknowledged | ⟨earlier, before, rest, past_eq, unresumed⟩
    · cases acknowledged
      obtain ⟨live, live', row⟩ := change.of_acknowledged
      refine ⟨row.trans (kept.executed live), fun executed ready => ?_⟩
      cases live'.symm.trans ready
    · refine change.withdrawn_stays on_time ?_ (kept.withdrawn earlier)
      rintro withdrawing rfl
      obtain ⟨said, open_, _⟩ := change.of_sent
      cases open_ rfl
      rcases kept.sent before rest past_eq with still | stopped | cleared
      · rw [show (s.slots i).standing.drained = true from still] at said
        cases said
      · rw [stopped, Bool.or_true] at said
        cases said
      -- the slot has left its drain section, so this report resumes it
      · exact unresumed (List.Sublist.append (List.singleton_sublist.mpr cleared) (.refl _))

/-- A run that executes no ready report of an ended call over a withdrawal leaves the row of a
withdrawn slot not ready, by induction on the run.
-/
theorem withdrawn_not_ready
    (run : GuardedRun (Step broker) (fun past s label => punctual past s label) (start n) past s)
    (withdrawn : Withdrawn past i)
    : (s.slots i).row ≠ .ready := by
  have kept : Keeps i past s := by
    refine run.history ?_ (.start n i)
    intro past s label t kept guarded step
    by_cases own : ∃ event, label = some (i, event)
    · obtain ⟨event, rfl⟩ := own
      exact kept.own step.restands guarded
    · exact kept.other step.restands (not_exists.mp own)
  rw [(kept.withdrawn withdrawn).1]
  nofun

-----------------------------------------------------------------------------------------
-- A late report
-----------------------------------------------------------------------------------------

/-- The first report of a slot ends at its deadline; the slot then drains and its withdrawal is
acknowledged.
-/
def withdrawSlot : List (PoolAction 1) :=
  [
    .run 0 .go, .run 0 .go, .run 0 .go,
    .run 0 .go, .run 0 .fail, .run 0 .go,
    .signal true,
    .run 0 .go, .run 0 .go, .run 0 .go,
    .run 0 .go, .execute 0, .run 0 .go
  ]

/-- The steps of one slot in a pool without a broker. -/
def playSlot (guard : List (PoolLabel 1) → Pool 1 → PoolLabel 1 → Bool)
    (actions : List (PoolAction 1))
    : List (PoolLabel 1) × Pool 1 :=
  Execution.play (exec false) guard [] (start 1) actions

theorem playSlot_run (guard : List (PoolLabel 1) → Pool 1 → PoolLabel 1 → Bool)
    (actions : List (PoolAction 1))
    : GuardedRun (Step false) (fun past s label => guard past s label) (start 1)
        (playSlot guard actions).1 (playSlot guard actions).2 :=
  Execution.play_run (fun _ action _ _ done => ⟨action, done⟩) (.nil _) actions

/-- What happens from the withdrawal on does not resume the slot. -/
theorem withdrawn_of_split {past before after : List (PoolLabel 1)}
    (split : past = before ++ some (0, .sent false true) :: [some (0, .executed false)]
      ++ some (0, .acknowledged false) :: after)
    (kept : some (0, .cleared) ∉ after)
    : Withdrawn past 0 := by
  refine ⟨before, [some (0, .executed false)], after, split, by simp, fun resumed => ?_⟩
  have cleared := resumed.subset List.mem_cons_self
  simp [kept] at cleared

/-- The row of the drained slot is not ready. -/
theorem withdrawn_not_ready_acknowledged
    : ((playSlot punctual withdrawSlot).2.slots 0).row ≠ .ready := by
  have split : (playSlot punctual withdrawSlot).1
      = (playSlot punctual withdrawSlot).1.take 10
        ++ some (0, .sent false true) :: [some (0, .executed false)]
        ++ some (0, .acknowledged false) :: [] := by
    decide +kernel
  exact withdrawn_not_ready (playSlot_run punctual withdrawSlot)
    (withdrawn_of_split split List.not_mem_nil)

/-- The coordinator executes the first report after the acknowledgement, and the row is ready. -/
theorem late_report_overwrites
    : ¬ ∀ (n : Nat) (broker : Bool) (past : List (PoolLabel n)) (s : Pool n) (i : Fin n),
        Run (Step broker) (start n) past s → Withdrawn past i → (s.slots i).row ≠ .ready := by
  intro always
  let late := playSlot (fun _ _ _ => true) (withdrawSlot ++ [.executeLate 0 0])
  have run : Run (Step false) (start 1) late.1 late.2 :=
    (playSlot_run (fun _ _ _ => true) _).run (fun _ _ _ _ _ step => step)
  have split : late.1
      = late.1.take 10 ++ some (0, .sent false true) :: [some (0, .executed false)]
        ++ some (0, .acknowledged false) :: [some (0, .executedLate true)] := by
    decide +kernel
  have ready : (late.2.slots 0).row = .ready := by decide +kernel
  exact always 1 false late.1 late.2 0 run (withdrawn_of_split split (by simp)) ready

end Pool

end Transcriber
