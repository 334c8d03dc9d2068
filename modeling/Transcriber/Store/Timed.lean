import Transcriber.Store.Invariants
import Transcriber.Store.LockMoves

/-! Steps whose clock readings are those of one wall clock.
`NOW()` is the start of the transaction and may lie before its statements; a statement reads
`clock_timestamp()` after its transaction got the scheduler lock, and before it takes effect.
-/

namespace Transcriber

open Execution

/-- A reading of the lock holder's statement. -/
def Db.reads (s : Db) (clock : Int) : Bool :=
  s.scheduler.all (fun transaction => transaction.since ≤ clock) && clock ≤ s.clock

/-- The readings of an event lie where the wall clock allows them. -/
def Event.timely (s : Db) (event : Event) : Bool :=
  match event.op with
  | .tick clock => s.clock ≤ clock
  | .initSchema _ | .rollback => true
  | .createJob _ _ now | .markDownloading _ now | .markUploadInterrupted _ now
  | .cancelJob _ now | .acknowledgeJob _ now | .claimLegacy _ _ _ _ _ now
  | .completeJob _ _ _ _ _ now | .reap _ now | .cleanup _ _ now
  | .reportAvailability _ _ _ now | .outboxPublished _ now | .lockScheduler _ now =>
      now ≤ s.clock
  | .markQueued _ _ now clock | .heartbeatLegacy _ _ _ now clock
  | .failJob _ _ _ _ _ now clock =>
      now ≤ clock && clock ≤ s.clock
  | .heartbeat _ _ _ clock | .selectWorker _ _ clock | .claimSlot _ _ _ _ clock
  | .brokerJob _ clock | .brokerCapacity _ clock | .brokerStart _ _ clock
  | .brokerAdmit _ _ clock | .registerConsumer _ _ clock | .reconcile _ clock => s.reads clock

/-- A step under one wall clock. -/
def Db.TimedStep (s : Db) (event : Event) (t : Db) : Prop := s.Step event t ∧ event.timely s

/-- Time only advances. -/
theorem Db.TimedStep.clock_le {s t : Db} {event : Event} (step : s.TimedStep event t)
    : s.clock ≤ t.clock := by
  obtain ⟨step, timely⟩ := step
  rcases step.moves.2 with tick | same
  · simpa [Event.timely, tick] using timely
  · exact Int.le_of_eq same.symm

/-- Timely operations one after another, without those that would have to wait. -/
def Db.playTimed (s : Db) (calls : List (Config × Op)) : List Event × Db :=
  Execution.play Db.perform (fun _ s event => event.timely s) [] s calls

/-- Played timely operations are a timed run. -/
theorem Db.playTimed_run (s : Db) (calls : List (Config × Op))
    : Run Db.TimedStep s (s.playTimed calls).1 (s.playTimed calls).2 :=
  (Execution.play_run perform_step (.nil s) calls).run (fun _ _ _ _ met step => ⟨step, met⟩)

end Transcriber
