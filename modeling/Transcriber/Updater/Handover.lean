import Transcriber.Updater.Undrained
import Transcriber.Worker.DrainMarker

/-! The updater beside the worker processes that its requests reach: a container's process answers
signals with its drain event, and its marker file is what the updater reads before it asks for the
stop. A container that the updater stops has no job and no claim.
-/

namespace Transcriber

open Execution

-----------------------------------------------------------------------------------------
-- A pool that stays drained
-----------------------------------------------------------------------------------------

/-- Neither about to ask for a job nor with one. -/
def Main.calm : Main → Bool
  | .choosing | .claiming | .claimed | .processing _ | .consuming _ => false
  | _ => true

theorem Main.calm_of_inSection {main : Main} (inside : main.inSection = true)
    : main.calm = true := by
  unfold inSection at inside
  split at inside <;> first | rfl | cases inside

namespace Slot

/-- The slot has no job, no delivery and no claim that is still to be answered. -/
def Calm (slot : Slot) : Prop := slot.main.calm = true ∧ slot.delivery = .none

variable {broker stop : Bool} {slot after : Slot} {choice : Choice} {event : SlotEvent}

theorem Calm.beside (calm : slot.Calm)
    (frame : after.delivery = slot.delivery ∧ after.main = slot.main ∧ event.starts = false)
    : after.Calm ∧ event.starts = false :=
  ⟨⟨frame.2.1 ▸ calm.1, frame.1.trans calm.2⟩, frame.2.2⟩

/-- While the drain event is set a calm slot stays calm and asks for nothing, by cases on where its
main thread is.
-/
theorem Calm.run (calm : slot.Calm) (done : slot.run broker stop true choice = some (event, after))
    : after.Calm ∧ event.starts = false := by
  obtain ⟨outside, idle⟩ := calm
  cases main : slot.main with
  | choosing | claiming | claimed | processing _ | consuming _ =>
      rw [main] at outside
      cases outside
  | withdrawing report | returning report | registering report | finishing report =>
      simp only [Slot.run, main] at done
      obtain ⟨delivery, ⟨progress, lead⟩, quiet⟩ := reporting_frame done
      refine ⟨⟨?_, delivery.trans idle⟩, quiet⟩
      rw [lead]
      cases progress <;> rfl
  | marking | ended => simp [Slot.run, main] at done
  | checking =>
      simp only [Slot.run, main, if_true] at done
      cases done
      exact ⟨⟨rfl, idle⟩, rfl⟩
  | _ =>
      simp only [Slot.run, main] at done
      try split at done
      all_goals
        cases done
        first | exact ⟨⟨rfl, idle⟩, rfl⟩ | skip

end Slot

namespace Pool

variable {n : Nat} {s t : Pool n} {broker : Bool} {action : PoolAction n} {label : PoolLabel n}

/-- No slot of the pool has a job or asks for one. -/
def Calm (s : Pool n) : Prop := ∀ i, (s.slots i).Calm

/-- The marker file is there in calm pools only. -/
theorem Drains.calm (kept : s.Drains) (marker : s.marker = true) : s.Calm := by
  intro i
  have inside := (kept i).marker marker
  exact ⟨Main.calm_of_inSection inside, ((kept i).attended.idle inside).2⟩

theorem Calm.set (calm : s.Calm) {i : Fin n} {after : Slot} (own : after.Calm)
    : (s.set i after).Calm := by
  intro j
  rcases eq_or_ne j i with rfl | other
  · simpa [Pool.set] using own
  · simpa [Pool.set, other] using calm j

/-- `mark_drained` moves its own slot within the section or out of it. -/
theorem Calm.mark (calm : s.Calm) {i : Fin n} {drained : Bool} {at_ : Marking}
    (done : s.mark i drained at_ = some t)
    : t.Calm := by
  have slots (main : Main) (quiet : main.calm = true)
      : (s.set i { s.slots i with main }).Calm :=
    calm.set ⟨quiet, (calm i).2⟩
  cases at_ with
  | locking =>
      simp only [Pool.mark] at done
      split at done <;> cases done
      exact slots (.marking drained .updated) rfl
  | updated =>
      cases done
      exact slots (.marking drained (.decided _)) rfl
  | decided touch =>
      cases done
      exact slots (if drained then .waiting else .unmarked) (by cases drained <;> rfl)

theorem mark_drain {i : Fin n} {drained : Bool} {at_ : Marking}
    (done : s.mark i drained at_ = some t)
    : t.drain = s.drain := by
  cases at_ with
  | locking =>
      simp only [Pool.mark] at done
      split at done <;> cases done
      rfl
  | updated | decided =>
      cases done
      rfl

/-- Only a signal changes the drain event. -/
theorem exec_drain (own : ∀ signal, action ≠ .signal signal)
    (done : exec broker s action = some (label, t))
    : t.drain = s.drain := by
  cases action with
  | signal signal => exact absurd rfl (own signal)
  | stop =>
      cases done
      rfl
  | unlink =>
      simp only [Pool.exec] at done
      split at done <;> cases done
      rfl
  | run i choice =>
      simp only [Pool.exec] at done
      split at done
      · obtain ⟨u, marked, same⟩ := Option.map_eq_some_iff.mp done
        cases same
        exact mark_drain marked
      · obtain ⟨_, _, same⟩ := Option.map_eq_some_iff.mp done
        cases same
        rfl
  | watch | deliver | execute | executeLate | lapse =>
      obtain ⟨_, _, same⟩ := Option.map_eq_some_iff.mp done
      cases same
      rfl

/-- A calm pool stays calm under every step but a signal while its drain event is set. -/
theorem Calm.exec (calm : s.Calm) (drain : s.drain = true)
    (own : ∀ signal, action ≠ .signal signal) (done : exec broker s action = some (label, t))
    : t.Calm ∧ ∀ event, label.map Prod.snd = some event → event.starts = false := by
  have one {i : Fin n} {result : Option (SlotEvent × Slot)}
      (keeps
        : ∀ event after,
            result = some (event, after) → after.Calm ∧ event.starts = false)
      (done : s.update i result = some (label, t))
      : t.Calm ∧ ∀ event, label.map Prod.snd = some event → event.starts = false := by
    obtain ⟨⟨event, after⟩, taken, same⟩ := Option.map_eq_some_iff.mp done
    cases same
    obtain ⟨own, quiet⟩ := keeps event after taken
    refine ⟨calm.set own, fun _ same => ?_⟩
    cases same
    exact quiet
  cases action with
  | signal signal => exact absurd rfl (own signal)
  | stop =>
      cases done
      exact ⟨calm, by simp⟩
  | unlink =>
      simp only [Pool.exec] at done
      split at done <;> cases done
      exact ⟨calm, by simp⟩
  | run i choice =>
      simp only [Pool.exec] at done
      split at done
      · obtain ⟨u, marked, same⟩ := Option.map_eq_some_iff.mp done
        cases same
        refine ⟨calm.mark marked, fun _ same => ?_⟩
        cases same
        rfl
      · obtain ⟨⟨event, after⟩, ran, same⟩ := Option.map_eq_some_iff.mp done
        cases same
        rw [drain] at ran
        obtain ⟨own, quiet⟩ := (calm i).run ran
        refine ⟨calm.set own, fun _ same => ?_⟩
        cases same
        exact quiet
  | watch i choice => exact one (fun _ _ ran => (calm i).beside (Slot.watch_frame ran)) done
  | deliver i choice =>
      exact one (fun _ _ ran => absurd (calm i).2 (Slot.deliver_frame ran).1) done
  | execute i => exact one (fun _ _ ran => (calm i).beside (Slot.execute_frame ran)) done
  | executeLate i index =>
      exact one (fun _ _ ran => (calm i).beside (Slot.executeLate_frame ran)) done
  | lapse i => exact one (fun _ _ ran => (calm i).beside (Slot.lapse_frame ran)) done

end Pool

namespace Updater

-----------------------------------------------------------------------------------------
-- The updater and the processes
-----------------------------------------------------------------------------------------

/-- The updater and, for each container, the pool of its latest process with the marker file, which
the container keeps. A process is booted once `main` has unlinked the marker and installed its
handlers.
-/
structure Host (slots : String → Nat) where
  updater : State
  pools : (id : String) → Pool (slots id)
  booted : String → Bool

/-- A step of the updater and its surroundings, one of a process, or the start of its pool. -/
inductive HostAction (slots : String → Nat)
  | updater (action : Action)
  | process (id : String) (action : PoolAction (slots id))
  | boot (id : String)

/-- What a step shows; one of a process, what its slot did. -/
inductive HostLabel
  | updater (label : Label)
  | process (id : String) (event : Option SlotEvent)
  | booted (id : String)
  deriving DecidableEq, Repr

/-- The container whose process a request ends or signals. -/
def Request.process : Request → Option String
  | .kill id _ | .stop id | .start id | .remove id => some id
  | .rename .. | .create .. => none

/-- The request that takes effect in a step; a container that restarts is started anew. -/
def Label.effect (docker : Docker) : Label → Option Request
  | .call _ request .answered | .call _ request .unanswered => some request
  | .took request _ => if (docker.perform request).isSome then some request else none
  | .restarted id => some (.start id)
  | _ => none

/-- The container that `update` has signalled and has not asked to stop yet. -/
def Pc.drains : Pc → Option String
  | .updating update _ .draining | .updating update _ .rerecording
  | .updating update _ .stopping => some update.old.id
  | _ => none

namespace Host

variable {slots : String → Nat}

/-- No process has booted. -/
def start (slots : String → Nat) (updater : State) : Host slots :=
  ⟨updater, fun id => .start (slots id), fun _ => false⟩

def setPool (s : Host slots) (id : String) (pool : Pool (slots id)) : Host slots :=
  { s with pools := Function.update s.pools id pool }

/-- What a request does to a process: the handlers of `main` change its drain event; a stop, a start
and a removal end it. One that has not booted has no handlers yet and dies of a signal.
-/
def reach (s : Host slots) : Request → Host slots
  | .kill id signal =>
      if s.booted id then s.setPool id { s.pools id with drain := signal = .usr1 } else s
  | .stop id | .start id | .remove id =>
      { s with booted := Function.update s.booted id false }
  | .rename .. | .create .. => s

/-- `drained` is true only if it has seen the marker file. -/
def shows (s : Host slots) : Label → Bool
  | .drained id true => (s.pools id).marker
  | _ => true

def exec (project : String) (broker : String → Bool) (s : Host slots)
    : HostAction slots → Option (HostLabel × Host slots)
  | .updater action =>
      (s.updater.exec project action).bind (fun done =>
        if s.shows done.1 then
          some
            (.updater done.1,
              { ((done.1.effect s.updater.docker).elim s s.reach) with updater := done.2 })
        else
          none)
  | .process _ (.signal _) => none
  | .process id action =>
      if s.booted id then
        ((s.pools id).exec (broker id) action).map (fun done =>
          (.process id (done.1.map Prod.snd), s.setPool id done.2))
      else
        none
  | .boot id =>
      if (s.updater.docker.byId id).any Container.running && !s.booted id then
        some
          (.booted id,
            { s.setPool id (.start (slots id)) with booted := Function.update s.booted id true })
      else
        none

/-- A step of the updater of a project or of a worker process in its mode. -/
def Step (project : String) (broker : String → Bool) (s : Host slots) (label : HostLabel)
    (t : Host slots)
    : Prop :=
  ∃ action, s.exec project broker action = some (label, t)

theorem Step.of_exec (project : String) (broker : String → Bool) (s : Host slots)
    (action : HostAction slots) (label : HostLabel) (t : Host slots)
    (done : s.exec project broker action = some (label, t))
    : s.Step project broker label t :=
  ⟨action, done⟩

/-- The process that is asked to drain has booted, and until it is asked to stop its container does
not restart by itself and no late request reaches it.
-/
def orderly (s : Host slots) : HostLabel → Bool
  | .updater (.call _ (.kill id .usr1) _) => s.booted id
  | .updater (.restarted id) => s.updater.pc.drains ≠ some id
  | .updater (.took request _) => s.updater.pc.drains.all (fun id => request.process ≠ some id)
  | _ => true

-----------------------------------------------------------------------------------------
-- The invariant
-----------------------------------------------------------------------------------------

/-- The process of the container has booted and its drain event is set. -/
def Signalled (s : Host slots) (id : String) : Prop :=
  s.booted id = true ∧ (s.pools id).drain = true

/-- What holds of the container that is being drained. -/
def Window (s : Host slots) : Pc → Prop
  | .updating update _ .draining => s.Signalled update.old.id
  | .updating update _ .rerecording | .updating update _ .stopping =>
      s.Signalled update.old.id ∧ (s.pools update.old.id).Calm
  | _ => True

structure Sound (s : Host slots) : Prop where
  drains : ∀ id, s.booted id = true → (s.pools id).Drains
  window : s.Window s.updater.pc

variable {project : String} {broker : String → Bool} {s t : Host slots}

theorem Window.of_resting {pc : Pc} (resting : pc.resting = true) : s.Window pc := by
  cases pc with
  | updating => cases resting
  | _ => trivial

/-- Processes other than the drained one may change. -/
theorem Window.apart {pc : Pc} (window : s.Window pc)
    (same
      : ∀ id, pc.drains = some id → s.Signalled id
        → t.booted id = s.booted id ∧ t.pools id = s.pools id)
    : t.Window pc := by
  cases pc with
  | updating update target stage =>
      cases stage with
      | draining =>
          obtain ⟨booted, pools⟩ := same update.old.id rfl window
          simpa [Window, Signalled, booted, pools] using window
      | rerecording | stopping =>
          obtain ⟨booted, pools⟩ := same update.old.id rfl window.1
          simpa [Window, Signalled, booted, pools] using window
      | _ => trivial
  | _ => trivial

/-- A request leaves the other processes alone. -/
theorem reach_apart {request : Request} {id : String} (apart : request.process ≠ some id)
    : (s.reach request).booted id = s.booted id ∧ (s.reach request).pools id = s.pools id := by
  cases request with
  | kill other signal =>
      have differs : id ≠ other := by
        rintro rfl
        exact apart rfl
      simp only [reach]
      split <;> simp [setPool, differs]
  | stop other | start other | remove other =>
      have differs : id ≠ other := by
        rintro rfl
        exact apart rfl
      simp [reach, differs]
  | rename | create => exact ⟨rfl, rfl⟩

theorem setPool_drains {id : String} {pool : Pool (slots id)}
    (drains : ∀ id, s.booted id = true → (s.pools id).Drains) (own : pool.Drains)
    : ∀ other, s.booted other = true → ((s.setPool id pool).pools other).Drains := by
  intro other booted
  rcases eq_or_ne other id with rfl | differs
  · simpa [setPool] using own
  · simpa [setPool, differs] using drains other booted

/-- A request keeps the invariant of each pool that still runs. -/
theorem reach_drains (drains : ∀ id, s.booted id = true → (s.pools id).Drains)
    (request : Request)
    : ∀ id, (s.reach request).booted id = true → ((s.reach request).pools id).Drains := by
  cases request with
  | kill id signal =>
      simp only [reach]
      split
      · rename_i booted
        exact setPool_drains drains (fun j => { drains id booted j with })
      · exact drains
  | stop id | start id | remove id =>
      intro other booted
      rcases eq_or_ne other id with rfl | differs
      · simp [reach] at booted
      · exact drains other (by simpa [reach, differs] using booted)
  | rename | create => exact drains

-----------------------------------------------------------------------------------------
-- Steps
-----------------------------------------------------------------------------------------

/-- The host after a step of the updater. -/
def after (s : Host slots) (label : Label) (updater : State) : Host slots :=
  { ((label.effect s.updater.docker).elim s s.reach) with updater }

theorem after_apart {label : Label} {updater : State} {id : String}
    (apart
      : ∀ request, label.effect s.updater.docker = some request → request.process ≠ some id)
    : (s.after label updater).booted id = s.booted id
      ∧ (s.after label updater).pools id = s.pools id := by
  unfold after
  cases effect : label.effect s.updater.docker with
  | none => exact ⟨rfl, rfl⟩
  | some request => exact reach_apart (apart request effect)

theorem after_drains (drains : ∀ id, s.booted id = true → (s.pools id).Drains) (label : Label)
    (updater : State)
    : ∀ id, (s.after label updater).booted id = true
      → ((s.after label updater).pools id).Drains := by
  unfold after
  cases label.effect s.updater.docker with
  | none => exact drains
  | some request => exact reach_drains drains request

/-- A step of `update` that does not come from the drained window leads out of it or stays out. -/
theorem issue_window {entry : Pending} {request : Request} {reply : Reply} {u : State}
    {label : Label} {update : Update} {target : Image} {next : UpdateStage} {host : Host slots}
    (done
      : s.updater.issue entry request reply
          (fun s => s.at_ (.updating update target next)) (fun s => s.recover .handler)
        = (label, u))
    (free : Window host (.updating update target next))
    : Window host u.pc := by
  obtain ⟨middle, _, rfl | rfl⟩ := State.issue_next done
  · exact free
  · obtain ⟨pc, moved, resting⟩ := middle.recover_at .handler
    rw [moved]
    exact .of_resting resting

/-- A step of `update`, by cases on its stage: SIGUSR1 sets the drain event, the marker shows a calm
pool, and nothing touches the process before the stop.
-/
theorem Sound.updating (sound : s.Sound) {c : Choice} {update : Update} {target : Image}
    {stage : UpdateStage} {label : Label} {u : State}
    (at_ : s.updater.pc = .updating update target stage)
    (done : s.updater.updating c update target stage = (label, u))
    (shows : s.shows label = true) (orderly : s.orderly (.updater label) = true)
    : (s.after label u).Window u.pc := by
  have window := sound.window
  rw [at_] at window
  have rests {caller : Caller} : (s.after label (s.updater.recover caller)).Window
      (s.updater.recover caller).pc := by
    obtain ⟨pc, moved, resting⟩ := s.updater.recover_at caller
    rw [moved]
    exact .of_resting resting
  cases stage with
  | recording =>
      cases done
      trivial
  | signalling =>
      simp only [State.updating, State.issue] at done
      split at done
      · cases done
        have booted : s.booted update.old.id = true := orderly
        simp [Window, Signalled, after, Label.effect, reach, setPool, booted, Update.pending]
      all_goals
        cases done
        obtain ⟨pc, moved, resting⟩ := State.recover_at _ .handler
        rw [moved]
        exact .of_resting resting
  | draining =>
      simp only [State.updating] at done
      split at done
      · cases done
        exact rests
      · split at done
        · cases done
          exact ⟨window, (sound.drains _ window.1).calm shows⟩
        · split at done <;> cases done
          · exact rests
          · exact window
  | rerecording =>
      cases done
      exact window
  | reading =>
      simp only [State.updating] at done
      split at done <;> cases done
      · trivial
      · exact rests
  | watching created =>
      simp only [State.updating] at done
      split at done
      · cases done
        exact rests
      · split at done
        · cases done
          exact rests
        · split at done
          · split at done <;> cases done
            · exact rests
            · trivial
          · cases done
            exact rests
  | stopping | backingUp | creating _ | starting _ => exact issue_window done trivial

/-- A step of the updater or of its surroundings. -/
theorem Sound.updater (sound : s.Sound) {label : Label} {u : State}
    (step : s.updater.Step project label u) (shows : s.shows label = true)
    (orderly : s.orderly (.updater label) = true)
    : (s.after label u).Sound := by
  refine ⟨after_drains sound.drains label u, ?_⟩
  show (s.after label u).Window u.pc
  cases step.moves with
  | crash | list | skip | choose | stop | proceed => trivial
  | start =>
      obtain ⟨pc, moved, resting⟩ := s.updater.recover_at .reconcile
      rw [moved]
      exact .of_resting resting
  | restart id running =>
      refine Window.apart sound.window (fun drained same _ => after_apart ?_)
      intro request started
      cases started
      simp only [Host.orderly, same, ne_eq, decide_eq_true_eq] at orderly
      exact fun own => orderly own.symm
  | @take index request found =>
      refine Window.apart sound.window (fun drained same _ => after_apart ?_)
      intro effect performed
      simp only [Label.effect] at performed
      split at performed <;> cases performed
      simpa [Host.orderly, same] using orderly
  | updating at_ done => exact sound.updating at_ done shows orderly
  | recovering at_ done =>
      obtain ⟨_, ⟨next, moved⟩ | resting⟩ := State.recovering_next done
      · rw [moved]
        trivial
      · exact .of_resting resting

/-- A step of a booted process. -/
theorem Sound.process (sound : s.Sound) {id : String} {action : PoolAction (slots id)}
    {label : PoolLabel (slots id)} {pool : Pool (slots id)} (booted : s.booted id = true)
    (own : ∀ signal, action ≠ .signal signal)
    (done : (s.pools id).exec (broker id) action = some (label, pool))
    : (s.setPool id pool).Sound := by
  have drains := sound.drains id booted
  refine ⟨setPool_drains sound.drains (drains.step ⟨action, done⟩), ?_⟩
  have kept {other : String} (signalled : s.Signalled other)
      : (s.setPool id pool).Signalled other := by
    rcases eq_or_ne other id with rfl | differs
    · refine ⟨signalled.1, ?_⟩
      have drain : pool.drain = (s.pools other).drain := Pool.exec_drain own done
      simpa [setPool, drain] using signalled.2
    · simpa [Signalled, setPool, differs] using signalled
  have calm {other : String} (signalled : s.Signalled other) (calm : (s.pools other).Calm)
      : ((s.setPool id pool).pools other).Calm := by
    rcases eq_or_ne other id with rfl | differs
    · simpa [setPool] using (calm.exec signalled.2 own done).1
    · simpa [setPool, differs] using calm
  have window := sound.window
  show (s.setPool id pool).Window s.updater.pc
  generalize s.updater.pc = pc at window
  cases pc with
  | updating update target stage =>
      cases stage with
      | draining => exact kept window
      | rerecording | stopping => exact ⟨kept window.1, calm window.1 window.2⟩
      | _ => trivial
  | _ => trivial

/-- What a step can do. -/
inductive Moves (project : String) (broker : String → Bool) (s : Host slots)
    : HostLabel → Host slots → Prop
  | updater {label : Label} {u : State} (step : s.updater.Step project label u)
    (shows : s.shows label = true)
    : Moves project broker s (.updater label) (s.after label u)
  | process {id : String} {action : PoolAction (slots id)} {label : PoolLabel (slots id)}
    {pool : Pool (slots id)} (booted : s.booted id = true)
    (own : ∀ signal, action ≠ .signal signal)
    (done : (s.pools id).exec (broker id) action = some (label, pool))
    : Moves project broker s (.process id (label.map Prod.snd)) (s.setPool id pool)
  | boot {id : String} (away : s.booted id = false)
    : Moves project broker s (.booted id)
        { s.setPool id (.start (slots id)) with booted := Function.update s.booted id true }

theorem Step.moves {label : HostLabel} (step : s.Step project broker label t)
    : s.Moves project broker label t := by
  obtain ⟨action, done⟩ := step
  cases action with
  | updater action =>
      obtain ⟨_, taken, done⟩ := Option.bind_eq_some_iff.mp done
      split at done <;> cases done
      rename_i shows
      exact .updater ⟨action, taken⟩ shows
  | process id action =>
      cases action with
      | signal => cases done
      | _ =>
          simp only [exec] at done
          split at done
          · rename_i booted
            obtain ⟨_, taken, same⟩ := Option.map_eq_some_iff.mp done
            cases same
            exact .process booted (by simp) taken
          · cases done
  | boot id =>
      simp only [exec] at done
      split at done <;> cases done
      rename_i boots
      exact .boot (by simpa using (Bool.and_eq_true_iff.mp boots).2)

/-- The start of a pool leaves the drained one alone, which has booted. -/
theorem Sound.boot (sound : s.Sound) {id : String} (away : s.booted id = false)
    : Sound
        { s.setPool id (.start (slots id)) with booted := Function.update s.booted id true } := by
  constructor
  · intro other booted
    rcases eq_or_ne other id with rfl | differs
    · simpa [setPool] using Pool.Drains.start (slots other)
    · exact setPool_drains sound.drains (.start _) other (by simpa [differs] using booted)
  · refine Window.apart sound.window (fun drained _ signalled => ?_)
    have differs : drained ≠ id := by
      rintro rfl
      cases away.symm.trans signalled.1
    simp [setPool, differs]

/-- Every orderly step keeps the invariant. -/
theorem Sound.step (sound : s.Sound) {label : HostLabel} (step : s.Step project broker label t)
    (orderly : s.orderly label = true)
    : t.Sound := by
  cases step.moves with
  | updater taken shows => exact sound.updater taken shows orderly
  | process booted own done => exact sound.process booted own done
  | boot away => exact sound.boot away

-----------------------------------------------------------------------------------------
-- Runs
-----------------------------------------------------------------------------------------

theorem Sound.start {updater : State} (idle : updater.pc = .idle)
    : (start slots updater).Sound :=
  ⟨by simp [Host.start], by simp [Host.start, idle, Window]⟩

/-- The updater stops idle workers only. -/
theorem Sound.stop (sound : s.Sound) {entry : Pending} {id : String} {reply : Reply}
    (step : s.Step project broker (.updater (.call entry (.stop id) reply)) t)
    : s.booted id = true ∧ (s.pools id).Calm := by
  have window := sound.window
  cases step.moves with
  | updater taken =>
      obtain ⟨update, target, at_, rfl, rfl⟩ := taken.stop
      rw [at_] at window
      exact ⟨window.1.1, window.2⟩

/-- A worker that the updater has seen drained asks for no job. -/
theorem Signalled.quiet {id : String} {event : SlotEvent}
    (signalled : s.Signalled id) (calm : (s.pools id).Calm)
    (step : s.Step project broker (.process id (some event)) t)
    : event.starts = false := by
  generalize shown : some event = last at step
  cases step.moves with
  | process _ own done => exact (calm.exec signalled.2 own done).2 event shown.symm

/-- In every orderly run each container that the updater asks to stop has a process whose slots
are idle, and from the marker that the updater saw to this request none of them asks for a job.
-/
theorem stops_idle {updater : State} {past : List HostLabel} (idle : updater.pc = .idle)
    (run
      : GuardedRun (Step project broker) (fun _ s label => s.orderly label = true)
          (start slots updater) past s)
    : (∀ entry id reply t,
        s.Step project broker (.updater (.call entry (.stop id) reply)) t
        → s.booted id = true ∧ (s.pools id).Calm)
      ∧ ∀ update target stage event t,
          s.updater.pc = .updating update target stage
          → stage = .rerecording ∨ stage = .stopping
          → s.Step project broker (.process update.old.id (some event)) t
          → event.starts = false := by
  have sound : s.Sound :=
    run.history (I := fun _ s => s.Sound)
      (fun _ _ _ _ sound orderly step => sound.step step orderly) (.start idle)
  refine ⟨fun entry id reply t step => sound.stop step, ?_⟩
  intro update target stage event t at_ drained step
  have window := sound.window
  rw [at_] at window
  rcases drained with rfl | rfl <;> exact window.1.quiet window.2 step

-----------------------------------------------------------------------------------------
-- A concrete run
-----------------------------------------------------------------------------------------

/-- The one slot of the worker drains. -/
def drainProcess : List (HostAction (fun _ => 1)) :=
  let actions : List (PoolAction 1) := Pool.drainSlot (Fin.last 0)
  actions.map (fun action => .process "a1" action)

/-- A worker of one slot drains for an update up to the request that stops it. -/
def playHandover : List HostLabel × Host (fun _ => 1) :=
  Execution.play (exec "workers" (fun _ => true)) (fun _ s label => s.orderly label) []
    (start (fun _ => 1) device)
    ([.boot "a1"] ++ chooseWorker.map .updater ++ signalWorker.map .updater
      ++ [.updater (.run { drained := false })]
      ++ drainProcess ++ [.updater (.run {}), .updater (.run {})])

theorem playHandover_run
    : GuardedRun (Step "workers" (fun _ => true)) (fun _ s label => s.orderly label = true)
        (start (fun _ => 1) device) playHandover.1 playHandover.2 :=
  Execution.play_run (Step.of_exec "workers" (fun _ => true)) (.nil _) _

/-- The worker is drained and asked to stop. -/
theorem stops_idle_drained
    : .updater (.drained "a1" true) ∈ playHandover.1
      ∧ (playHandover.2.exec "workers" (fun _ => true) (.updater (.run {}))).map Prod.fst
          = some (.updater (.call sampleEntry (.stop "a1") .answered))
      ∧ (playHandover.2.pools "a1").Calm := by
  have stops
      : (playHandover.2.exec "workers" (fun _ => true) (.updater (.run {}))).map Prod.fst
        = some (.updater (.call sampleEntry (.stop "a1") .answered)) := by
    decide +kernel
  refine ⟨by decide +kernel, stops, ?_⟩
  obtain ⟨⟨label, t⟩, taken, same⟩ := Option.map_eq_some_iff.mp stops
  cases same
  exact ((stops_idle rfl playHandover_run).1 _ _ _ t ⟨_, taken⟩).2

end Host

end Updater

end Transcriber
