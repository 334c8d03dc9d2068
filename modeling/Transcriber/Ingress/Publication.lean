import Transcriber.Ingress.Streams
import Transcriber.Ingress.UploadSteps

/-! Published audio: what a queued, running or done job has under its path, and when a
cancelled upload is queued.
-/

namespace Transcriber

open Execution

/-- After a passed poll, up to the accepted reply. -/
def SubmitPhase.pastPoll : SubmitPhase → Bool
  | .received | .published | .leaving (.accepted _) | .finished (.accepted _) => true
  | _ => false

/-- How a stream's end and its cancellation fit together. -/
structure Stream.Settled (stream : Stream) : Prop where
  exclusive : stream.cancelled → stream.closed = false
  ended : stream.phase = .ended → stream.cancelled ∨ stream.complete
  passed : stream.phase.pastPoll → stream.closed

namespace Service

-----------------------------------------------------------------------------------------
-- Streams that end when their client closes them
-----------------------------------------------------------------------------------------

/-- A stream ends only when its client closed it and everything was read. -/
def endsClosed (s : Service) : Label → Bool
  | .eof i =>
      (s.streams i).all (fun stream =>
        stream.closed && stream.position = stream.chunks.length)
  | _ => true

/-- An ended stream is complete. -/
def EndsComplete (s : Service) : Prop :=
  ∀ i stream, s.streams i = some stream → stream.phase = .ended → stream.complete

theorem StreamMove.endsComplete {s t : Service} {label : Label} (move : s.StreamMove label t)
    (kept : s.EndsComplete) (guarded : s.endsClosed label)
    : t.EndsComplete := by
  refine move.forall kept (by simp [Stream.new]) ?_
  intro i stream next own found step complete ended
  cases step with
  | ended phase =>
      cases own
      simpa [endsClosed, found, Stream.complete] using guarded
  | cancelled | deactivated => exact complete ended
  | closed => exact ⟨rfl, (complete ended).2⟩
  | read phase => simp [phase] at ended
  | _ => cases ended

theorem EndsComplete.passesWhole {s : Service} (ends : s.EndsComplete) (label : Label)
    : s.PassesWhole label :=
  fun i stream _ found ended _ => ends i stream found ended

/-- The upload invariant of such runs, by induction on the run. -/
theorem sound_run {storageRoot : String} {maxAudioBytes : Nat} {hashtext : String → Int}
    {clock : Int} {s : Service} {labels : List Label}
    (run
      : GuardedRun Step (fun _ s label => s.endsClosed label)
          (Service.empty storageRoot maxAudioBytes hashtext clock) labels s)
    : s.Sound ∧ s.maxAudioBytes = maxAudioBytes := by
  have invariant : s.Sound ∧ s.EndsComplete ∧ s.maxAudioBytes = maxAudioBytes := by
    refine run.history (I := fun _ s => s.Sound ∧ s.EndsComplete ∧ s.maxAudioBytes = maxAudioBytes)
      ?_ ⟨.empty storageRoot maxAudioBytes hashtext clock, ?_, rfl⟩
    · intro past s label t ⟨sound, ends, limit⟩ guarded step
      exact ⟨sound.step (ends.passesWhole label) step, step.streamMove.endsComplete ends guarded,
        step.frame.limit.trans limit⟩
    · simp [EndsComplete, Service.empty]
  exact ⟨invariant.1, invariant.2.2⟩

/-- The file of the row is everything that one completed stream of its job sent. -/
def HasAudio (s : Service) (row : JobRecord) (limit : Nat) : Prop :=
  ∃ i stream job bytes,
    s.streams i = some stream
    ∧ stream.reservation = some job
    ∧ job.jobId = row.jobId
    ∧ stream.complete
    ∧ s.volume.inputs row.inputPath = some bytes
    ∧ bytes = stream.chunks.flatten
    ∧ bytes.length ≤ limit

/-- Over every interleaving, with crashes and lost locks anywhere, each queued, running or done
job has the whole audio of one stream.
-/
theorem published_audio {storageRoot : String} {maxAudioBytes : Nat} {hashtext : String → Int}
    {clock : Int} {s : Service} {labels : List Label}
    (run
      : GuardedRun Step (fun _ s label => s.endsClosed label)
          (Service.empty storageRoot maxAudioBytes hashtext clock) labels s)
    : ∀ row ∈ s.db.jobs,
        row.status = .queued ∨ row.status = .running ∨ row.status = .done
        → s.HasAudio row maxAudioBytes := by
  intro row member uploaded
  obtain ⟨sound, rfl⟩ := sound_run run
  have ready : row.status.ready := by
    rcases uploaded with status | status | status <;> simp [status, Status.ready]
  obtain ⟨bytes, present⟩ := Option.isSome_iff_exists.mp (sound.ready row member ready)
  obtain ⟨i, stream, job, found, reserved, path, complete, content, size⟩ :=
    sound.inputs row.inputPath bytes present
  have placed := ((sound.streams i stream found).reserved job reserved).placed
  exact ⟨i, stream, job, bytes, found, reserved,
    placed.jobId_eq (sound.rows row member).1 path, complete, present, content, size⟩

/-- A closed upload is queued with its audio. -/
theorem published_audio_closed
    : let s := (sample.play endsClosed
        (uploadOnce [.chunk 0, .close 0, .eof 0] ++ [queueOnce])).2
      s.db.jobs.map JobRecord.status = [.queued]
        ∧ ∀ row ∈ s.db.jobs,
            row.status = .queued ∨ row.status = .running ∨ row.status = .done
            → s.HasAudio row 3 :=
  ⟨by decide +kernel, published_audio (play_run endsClosed _ _)⟩

-----------------------------------------------------------------------------------------
-- Cancelled streams
-----------------------------------------------------------------------------------------

/-- The poll of `is_active()` comes after the cancellation is visible to it. -/
def seesCancellation (s : Service) : Label → Bool
  | .poll i => (s.streams i).all (fun stream => !(stream.cancelled && stream.active))
  | _ => true

theorem StreamMove.settled {s t : Service} {label : Label} (move : s.StreamMove label t)
    (kept : ∀ i stream, s.streams i = some stream → stream.Settled)
    (guarded : s.seesCancellation label)
    : ∀ i stream, t.streams i = some stream → stream.Settled := by
  refine move.forall kept (fun _ _ => by constructor <;> simp [Stream.new, SubmitPhase.pastPoll]) ?_
  intro i stream next own found step settled
  obtain ⟨exclusive, ended, passed⟩ := settled
  cases step with
  | ended phase ends => exact ⟨exclusive, fun _ => ends, by simp [SubmitPhase.pastPoll]⟩
  | received phase active =>
      refine ⟨exclusive, by simp, fun _ => ?_⟩
      cases own
      have uncancelled : stream.cancelled = false := by
        simpa [seesCancellation, found, active] using guarded
      rcases ended phase with cancelled | complete
      · simp [uncancelled] at cancelled
      · exact complete.1
  | renamed phase => exact ⟨exclusive, by simp, fun _ => passed (by simp [phase, SubmitPhase.pastPoll])⟩
  | accepted phase =>
      exact ⟨exclusive, by simp, fun _ => passed (by simp [phase, SubmitPhase.pastPoll])⟩
  | @left _ _ outcome phase =>
      refine ⟨exclusive, by simp, fun past => passed ?_⟩
      cases outcome <;> simp_all [SubmitPhase.pastPoll]
  | cancelled unclosed =>
      refine ⟨fun _ => unclosed, fun _ => .inl rfl, passed⟩
  | closed uncancelled =>
      refine ⟨by simp [uncancelled], fun now => ?_, fun _ => rfl⟩
      rcases ended now with cancelled | complete
      · simp [uncancelled] at cancelled
      · exact .inr ⟨rfl, complete.2⟩
  | deactivated => exact ⟨exclusive, ended, passed⟩
  | read phase => exact ⟨exclusive, by simp [phase], by simp [phase, SubmitPhase.pastPoll]⟩
  | _ => exact ⟨exclusive, by simp, by simp [SubmitPhase.pastPoll]⟩

theorem passesWhole_of_settled {s : Service} {label : Label}
    (settled : ∀ i stream, s.streams i = some stream → stream.Settled)
    (guarded : s.seesCancellation label)
    : s.PassesWhole label := by
  rintro i stream rfl found ended active
  have uncancelled : stream.cancelled = false := by
    simpa [seesCancellation, found, active] using guarded
  rcases (settled i stream found).ended ended with cancelled | complete
  · simp [uncancelled] at cancelled
  · exact complete

/-- No cancelled upload comes to `mark_queued`, and every published file is a whole one. -/
structure QueuesNoCancelled (s : Service) : Prop where
  queues
    : ∀ i stream config messageId now clock t,
        s.streams i = some stream
        → s.Step (.queue i config messageId now clock) t
        → stream.cancelled = false
  files : ∀ path bytes, s.volume.inputs path = some bytes → s.Whole path bytes

/-- No cancelled upload is queued in any run whose polls see the cancellations before them. -/
theorem cancelled_unqueued {storageRoot : String} {maxAudioBytes : Nat}
    {hashtext : String → Int} {clock : Int} {s : Service} {labels : List Label}
    (run
      : GuardedRun Step (fun _ s label => s.seesCancellation label)
          (Service.empty storageRoot maxAudioBytes hashtext clock) labels s)
    : s.QueuesNoCancelled := by
  have invariant : s.Sound ∧ ∀ i stream, s.streams i = some stream → stream.Settled := by
    refine run.history
      (I := fun _ s => s.Sound ∧ ∀ i stream, s.streams i = some stream → stream.Settled)
      ?_ ⟨.empty storageRoot maxAudioBytes hashtext clock, by simp [Service.empty]⟩
    intro past s label t kept guarded step
    obtain ⟨sound, settled⟩ := kept
    exact ⟨sound.step (passesWhole_of_settled settled guarded) step,
      step.streamMove.settled settled guarded⟩
  refine ⟨?_, invariant.1.inputs⟩
  intro i stream config messageId now clock t found step
  obtain ⟨other, _, foundOther, phase, _⟩ := onJob_spec step
  obtain rfl := Option.some.inj (found.symm.trans foundOther)
  have settled := invariant.2 i stream found
  have closed := settled.passed (by simp [phase, SubmitPhase.pastPoll])
  cases cancelled : stream.cancelled with
  | false => rfl
  | true => simp [settled.exclusive cancelled] at closed

/-- A cancellation that is visible before the poll. -/
theorem cancelled_unqueued_inactive
    : let run := sample.play seesCancellation
        (uploadOnce [.cancel 0, .deactivate 0, .eof 0] ++ [queueOnce])
      run.2.db.jobs.map JobRecord.status = [.downloading] ∧ run.2.QueuesNoCancelled :=
  ⟨by decide +kernel, cancelled_unqueued (play_run seesCancellation _ _)⟩

/-- A cancellation that ends the iterator but is not yet visible to `is_active()`: two of three
bytes are queued as the whole input.
-/
theorem cancelled_queued
    : let s := (sample.play (fun _ _ => true)
        (uploadOnce [.cancel 0, .eof 0] ++ [queueOnce])).2
      ((s.streams 0).map (fun stream => (stream.cancelled, stream.chunks.flatten))
          = some (true, [1, 2, 3])
        ∧ s.db.jobs.map (fun row => (row.status, s.volume.inputs row.inputPath))
          = [(.queued, some [1, 2])])
      ∧ ¬∀ labels s, Run Step sample labels s → s.QueuesNoCancelled := by
  refine ⟨by decide +kernel, fun claim => ?_⟩
  let before := sample.play (fun _ _ => true) (uploadOnce [.cancel 0, .eof 0])
  have queued : (before.2.next queueOnce).isSome := by decide +kernel
  have cancelled : (before.2.streams 0).map Stream.cancelled = some true := by decide +kernel
  obtain ⟨after, step⟩ := Option.isSome_iff_exists.mp queued
  obtain ⟨stream, found, cancelled⟩ := Option.map_eq_some_iff.mp cancelled
  have run : Run Step sample before.1 before.2 :=
    (play_run (fun _ _ => true) sample _).run (fun _ _ _ _ _ step => step)
  have uncancelled := (claim before.1 before.2 run).queues 0 stream _ _ _ _ after found step
  simp [cancelled] at uncancelled

end Service

end Transcriber
