import Transcriber.Ingress.Refinement

/-! What one step does to the streams: at most one of them moves, from one phase of its Submit
call to the next.
-/

namespace Transcriber

open Execution

/-- Before its reservation. -/
def SubmitPhase.fresh : SubmitPhase → Bool
  | .opened | .locked | .absent => true
  | _ => false

/-- The stream whose call, client or connection takes the step. -/
def Label.stream? : Label → Option Nat
  | .submit i .. | .lock i | .lookup i | .create i .. | .reserve i .. | .unlink i _
  | .openPart i | .chunk i | .eof i | .poll i | .rename i | .queue i .. | .raise i _
  | .discard i | .reject i .. | .abort i | .leave i | .crash i | .cancel i | .close i
  | .deactivate i | .loseLock i => some i
  | .store .. | .removeInput _ | .removePart .. => none

/-- A Submit call before and after one of its steps. -/
inductive StreamStep : Label → Stream → Stream → Prop
  | locked {i stream} (phase : stream.phase = .opened)
    : StreamStep (.lock i) stream { stream with phase := .locked }
  | busy {i stream} (phase : stream.phase = .opened)
    : StreamStep (.lock i) stream { stream with phase := .finished .busy }
  | absent {i stream} (phase : stream.phase = .locked)
    : StreamStep (.lookup i) stream { stream with phase := .absent }
  | found {i stream job} (phase : stream.phase = .locked) (same : stream.options.sameUpload job)
    : StreamStep (.lookup i) stream
        { stream with reservation := some job, phase := .reserved }
  | conflicting {i stream} (phase : stream.phase = .locked)
    : StreamStep (.lookup i) stream { stream with phase := .leaving .conflict }
  | created {i stream config jobId now} (phase : stream.phase = .absent)
    : StreamStep (.create i config jobId now) stream
        { stream with
          reservation := some (JobRecord.created config stream.options jobId now)
          phase := .reserved }
  | taken {i stream config jobId now} (phase : stream.phase = .absent)
    : StreamStep (.create i config jobId now) stream
        { stream with phase := .leaving .aborted }
  | replayed {i stream config now job} (phase : stream.phase = .reserved)
    (reserved : stream.reservation = some job) (uploaded : job.status.uploading = false)
    : StreamStep (.reserve i config now) stream
        { stream with phase := .leaving (.replayed job.jobId) }
  | started {i stream config now job} (phase : stream.phase = .reserved)
    (reserved : stream.reservation = some job) (uploading : job.status.uploading)
    : StreamStep (.reserve i config now) stream { stream with phase := .sweeping }
  | opened {i stream} (phase : stream.phase = .sweeping)
    : StreamStep (.openPart i) stream { stream with phase := .writing }
  | tooLarge {i stream} (phase : stream.phase = .writing)
    : StreamStep (.chunk i) stream { stream with phase := .failing .tooLarge }
  | read {i stream position total} (phase : stream.phase = .writing)
    : StreamStep (.chunk i) stream { stream with position, total }
  | ended {i stream} (phase : stream.phase = .writing)
    (ends : stream.cancelled ∨ stream.complete)
    : StreamStep (.eof i) stream { stream with phase := .ended }
  | received {i stream} (phase : stream.phase = .ended) (active : stream.active)
    : StreamStep (.poll i) stream { stream with phase := .received }
  | interrupted {i stream} (phase : stream.phase = .ended)
    : StreamStep (.poll i) stream { stream with phase := .failing .failed }
  | renamed {i stream} (phase : stream.phase = .received)
    : StreamStep (.rename i) stream { stream with phase := .published }
  | lost {i stream} (phase : stream.phase = .received)
    : StreamStep (.rename i) stream { stream with phase := .failing .failed }
  | accepted {i stream config messageId now clock job} (phase : stream.phase = .published)
    (reserved : stream.reservation = some job)
    : StreamStep (.queue i config messageId now clock) stream
        { stream with phase := .leaving (.accepted job.jobId) }
  | unqueued {i stream config messageId now clock} (phase : stream.phase = .published)
    : StreamStep (.queue i config messageId now clock) stream
        { stream with phase := .leaving .aborted }
  | raised {i stream reason}
    (inside
      : stream.phase = .sweeping
        ∨ stream.phase = .writing
        ∨ stream.phase = .ended
        ∨ stream.phase = .received
        ∨ stream.phase = .published)
    : StreamStep (.raise i reason) stream { stream with phase := .failing reason }
  | discarded {i stream reason} (phase : stream.phase = .failing reason)
    : StreamStep (.discard i) stream { stream with phase := .rejecting reason }
  | rejected {i stream config messageId now clock reason}
    (phase : stream.phase = .rejecting reason)
    : StreamStep (.reject i config messageId now clock) stream
        { stream with phase := .leaving .aborted }
  | aborted {i stream} : StreamStep (.abort i) stream { stream with phase := .leaving .aborted }
  | left {i stream outcome} (phase : stream.phase = .leaving outcome)
    : StreamStep (.leave i) stream { stream with phase := .finished outcome }
  | unlocked {i stream} : StreamStep (.leave i) stream { stream with phase := .finished .aborted }
  | crashed {i stream} : StreamStep (.crash i) stream { stream with phase := .finished .aborted }
  | cancelled {i stream} (unclosed : stream.closed = false)
    : StreamStep (.cancel i) stream { stream with cancelled := true }
  | closed {i stream} (uncancelled : stream.cancelled = false)
    : StreamStep (.close i) stream { stream with closed := true }
  | deactivated {i stream} : StreamStep (.deactivate i) stream { stream with active := false }

/-- A step without lock and reservation keeps the options and the reservation of its stream. -/
theorem StreamStep.frame {label : Label} {stream next : Stream}
    (step : StreamStep label stream next) (plain : label.reserves = false)
    : next.options = stream.options
      ∧ next.reservation = stream.reservation
      ∧ (next.phase.fresh → next.phase = stream.phase) := by
  cases step with
  | locked | busy | absent | found | conflicting | created | taken => cases plain
  | read | cancelled | closed | deactivated => exact ⟨rfl, rfl, fun _ => rfl⟩
  | _ => exact ⟨rfl, rfl, by simp [SubmitPhase.fresh]⟩

namespace Service

/-- What a step does to the table of streams. -/
inductive StreamMove (s : Service) (label : Label) (t : Service) : Prop
  | kept (streams : t.streams = s.streams)
    (own : ∀ i, label.stream? = some i → (s.streams i).isSome)
  | opened (i : Nat) (options : SubmitOptions) (chunks : List Bytes)
    (called : label = .submit i options chunks) (unused : s.streams i = none)
    (streams : t.streams = Function.update s.streams i (some (.new options chunks)))
  | moved (i : Nat) (stream next : Stream) (own : label.stream? = some i)
    (found : s.streams i = some stream) (step : StreamStep label stream next)
    (streams : t.streams = Function.update s.streams i (some next))

theorem release_streams (s : Service) (i : Nat) (stream : Stream)
    : (s.release i stream).streams = s.streams := by
  unfold release
  split <;> rfl

/-- Every step moves at most one stream, by cases on the label. -/
theorem Step.streamMove {s t : Service} {label : Label} (step : s.Step label t)
    : s.StreamMove label t := by
  cases label with
  | submit i options chunks =>
      simp only [Step, next, submit] at step
      split at step <;> cases step
      rename_i unused
      simp only [Bool.or_eq_true, not_or, Bool.not_eq_true, Option.isSome_eq_false_iff,
        Option.isNone_iff_eq_none] at unused
      exact .opened i options chunks rfl unused.1 rfl
  | lock i =>
      obtain ⟨stream, found, phase, done⟩ := on_spec step
      repeat' split at done
      all_goals cases done
      · exact .moved i stream _ rfl found (.locked phase) rfl
      · exact .moved i stream _ rfl found (.busy phase) rfl
      · exact .moved i stream _ rfl found (.locked phase) rfl
  | lookup i =>
      obtain ⟨stream, found, phase, done⟩ := on_spec step
      repeat' split at done
      all_goals cases done
      · exact .moved i stream _ rfl found (.absent phase) rfl
      · exact .moved i stream _ rfl found (.absent phase) rfl
      · rename_i same
        exact .moved i stream _ rfl found (.found phase same) rfl
      · exact .moved i stream _ rfl found (.conflicting phase) rfl
  | create i config jobId now =>
      obtain ⟨stream, found, phase, done⟩ := on_spec step
      repeat' split at done
      all_goals cases done
      · exact .moved i stream _ rfl found (.created phase) rfl
      · exact .moved i stream _ rfl found (.taken phase) rfl
  | reserve i config now =>
      obtain ⟨stream, job, found, phase, reserved, done⟩ := onJob_spec step
      split at done
      · rename_i uploaded
        cases done
        exact .moved i stream _ rfl found (.replayed phase reserved (by simpa using uploaded)) rfl
      · rename_i uploading
        obtain ⟨_, _, rfl⟩ := Option.map_eq_some_iff.mp done
        exact .moved i stream _ rfl found (.started phase reserved (by simpa using uploading)) rfl
  | unlink i other =>
      obtain ⟨stream, job, found, _, _, done⟩ := onJob_spec step
      repeat' split at done
      all_goals cases done
      exact .kept rfl (by simp [Label.stream?, found])
  | openPart i =>
      obtain ⟨stream, job, found, phase, _, done⟩ := onJob_spec step
      cases done
      exact .moved i stream _ rfl found (.opened phase) rfl
  | chunk i =>
      obtain ⟨stream, job, found, phase, _, done⟩ := onJob_spec step
      repeat' split at done
      all_goals cases done
      · exact .moved i stream _ rfl found (.tooLarge phase) rfl
      · exact .moved i stream _ rfl found (.read phase) rfl
  | eof i =>
      obtain ⟨stream, job, found, phase, _, done⟩ := onJob_spec step
      split at done <;> cases done
      rename_i ends
      refine .moved i stream _ rfl found (.ended phase ?_) rfl
      simpa [Stream.complete] using ends
  | poll i =>
      obtain ⟨stream, job, found, phase, _, done⟩ := onJob_spec step
      by_cases active : stream.active
      · rw [if_pos active] at done
        cases done
        exact .moved i stream _ rfl found (.received phase active) rfl
      · rw [if_neg active] at done
        cases done
        exact .moved i stream _ rfl found (.interrupted phase) rfl
  | rename i =>
      obtain ⟨stream, job, found, phase, _, done⟩ := onJob_spec step
      split at done <;> cases done
      · exact .moved i stream _ rfl found (.lost phase) rfl
      · exact .moved i stream _ rfl found (.renamed phase) rfl
  | queue i config messageId now clock =>
      obtain ⟨stream, job, found, phase, reserved, done⟩ := onJob_spec step
      split at done <;> cases done
      · exact .moved i stream _ rfl found (.accepted phase reserved) rfl
      · exact .moved i stream _ rfl found (.unqueued phase) rfl
  | raise i reason =>
      obtain ⟨stream, found, done⟩ := Option.bind_eq_some_iff.mp step
      repeat' split at done
      all_goals cases done
      all_goals
        rename_i phase _
        exact .moved i stream _ rfl found (.raised (by simp [phase])) rfl
  | discard i =>
      obtain ⟨stream, job, found, phase, _, done⟩ := onJob_spec step
      cases done
      exact .moved i stream _ rfl found (.discarded phase) rfl
  | reject i config messageId now clock =>
      obtain ⟨stream, job, found, phase, _, done⟩ := onJob_spec step
      obtain ⟨_, _, rfl⟩ := Option.map_eq_some_iff.mp done
      exact .moved i stream _ rfl found (.rejected phase) rfl
  | abort i =>
      obtain ⟨stream, found, done⟩ := Option.bind_eq_some_iff.mp step
      split at done <;> cases done
      all_goals exact .moved i stream _ rfl found .aborted rfl
  | leave i =>
      obtain ⟨stream, found, done⟩ := Option.bind_eq_some_iff.mp step
      split at done
      · rename_i outcome phase
        split at done
        · cases done
          exact .moved i stream _ rfl found (.left phase) rfl
        split at done <;> cases done
        · exact .moved i stream _ rfl found (.left phase) rfl
        · exact .moved i stream _ rfl found .unlocked rfl
      · cases done
  | crash i =>
      obtain ⟨stream, found, done⟩ := Option.bind_eq_some_iff.mp step
      split at done <;> cases done
      refine .moved i stream _ rfl found .crashed ?_
      rw [setStream, release_streams]
  | cancel i =>
      obtain ⟨stream, found, done⟩ := Option.bind_eq_some_iff.mp step
      split at done <;> cases done
      rename_i unclosed
      exact .moved i stream _ rfl found (.cancelled (by simpa using unclosed)) rfl
  | close i =>
      obtain ⟨stream, found, done⟩ := Option.bind_eq_some_iff.mp step
      split at done <;> cases done
      rename_i uncancelled
      exact .moved i stream _ rfl found (.closed (by simpa using uncancelled)) rfl
  | deactivate i =>
      obtain ⟨stream, found, rfl⟩ := Option.map_eq_some_iff.mp step
      exact .moved i stream _ rfl found .deactivated rfl
  | loseLock i =>
      obtain ⟨stream, found, rfl⟩ := Option.map_eq_some_iff.mp step
      exact .kept (s.release_streams i stream) (by simp [Label.stream?, found])
  | store config op =>
      simp only [Step, next, store] at step
      split at step
      · cases step
      · obtain ⟨_, _, rfl⟩ := Option.map_eq_some_iff.mp step
        exact .kept rfl (by simp [Label.stream?])
  | removeInput path =>
      simp only [Step, next] at step
      split at step <;> cases step
      exact .kept rfl (by simp [Label.stream?])
  | removePart path i =>
      simp only [Step, next] at step
      repeat' split at step
      all_goals cases step
      exact .kept rfl (by simp [Label.stream?])

/-- A fact about single streams that new streams have and their steps keep. -/
theorem StreamMove.forall {s t : Service} {label : Label} {P : Stream → Prop}
    (move : s.StreamMove label t) (kept : ∀ i stream, s.streams i = some stream → P stream)
    (new : ∀ options chunks, P (.new options chunks))
    (keeps
      : ∀ i stream next,
          label.stream? = some i
          → s.streams i = some stream
          → StreamStep label stream next
          → P stream
          → P next)
    : ∀ i stream, t.streams i = some stream → P stream := by
  intro j other foundOther
  cases move with
  | kept streams _ => exact kept j other (streams ▸ foundOther)
  | opened i options chunks _ _ streams =>
      rcases eq_or_ne j i with rfl | differs
      · simp only [streams, Function.update_self, Option.some.injEq] at foundOther
        exact foundOther ▸ new options chunks
      · simp only [streams, Function.update_of_ne differs] at foundOther
        exact kept j other foundOther
  | moved i stream next own found step streams =>
      rcases eq_or_ne j i with rfl | differs
      · simp only [streams, Function.update_self, Option.some.injEq] at foundOther
        exact foundOther ▸ keeps j stream next own found step (kept j stream found)
      · simp only [streams, Function.update_of_ne differs] at foundOther
        exact kept j other foundOther

/-- It keeps those of every stream. -/
theorem Step.stream_frame {s t : Service} {label : Label} {i : Nat} {next : Stream}
    (step : s.Step label t) (plain : label.reserves = false) (found : t.streams i = some next)
    : (∃ options chunks, label = .submit i options chunks ∧ next = .new options chunks)
      ∨ ∃ stream,
          s.streams i = some stream
          ∧ next.options = stream.options
          ∧ next.reservation = stream.reservation
          ∧ (next.phase.fresh → next.phase = stream.phase) := by
  cases step.streamMove with
  | kept streams _ => exact .inr ⟨next, streams ▸ found, rfl, rfl, fun _ => rfl⟩
  | opened j options chunks called _ streams =>
      rcases eq_or_ne i j with rfl | differs
      · simp only [streams, Function.update_self, Option.some.injEq] at found
        exact .inl ⟨options, chunks, called, found.symm⟩
      · simp only [streams, Function.update_of_ne differs] at found
        exact .inr ⟨next, found, rfl, rfl, fun _ => rfl⟩
  | moved j stream other _ before step streams =>
      rcases eq_or_ne i j with rfl | differs
      · simp only [streams, Function.update_self, Option.some.injEq] at found
        exact .inr ⟨stream, before, found ▸ step.frame plain⟩
      · simp only [streams, Function.update_of_ne differs] at found
        exact .inr ⟨next, found, rfl, rfl, fun _ => rfl⟩

/-- A stream is there after each of its steps, and stays. -/
theorem StreamMove.found {s t : Service} {label : Label} (move : s.StreamMove label t) {i : Nat}
    (own : label.stream? = some i ∨ (s.streams i).isSome)
    : (t.streams i).isSome := by
  cases move with
  | kept streams found =>
      rw [streams]
      exact own.elim (found i) id
  | opened j options chunks called _ streams =>
      rcases eq_or_ne i j with rfl | differs
      · simp [streams]
      · rw [streams, Function.update_of_ne differs]
        refine own.resolve_left ?_
        rw [called]
        exact fun same => differs (Option.some.inj same).symm
  | moved j stream next mine found step streams =>
      rcases eq_or_ne i j with rfl | differs
      · simp [streams]
      · rw [streams, Function.update_of_ne differs]
        exact own.resolve_left (fun same => differs (Option.some.inj (same.symm.trans mine)))

/-- The label and the state after it. -/
def perform (s : Service) (label : Label) : Option (Label × Service) :=
  (s.next label).map (Prod.mk label)

theorem perform_step (s : Service) (call label : Label) (t : Service)
    (done : s.perform call = some (label, t))
    : s.Step label t := by
  obtain ⟨next, taken, same⟩ := Option.map_eq_some_iff.mp done
  cases same
  exact taken

/-- Labels one after another under a guard. -/
def play (guard : Service → Label → Bool) (s : Service) (labels : List Label)
    : List Label × Service :=
  Execution.play perform (fun _ => guard) [] s labels

theorem play_run (guard : Service → Label → Bool) (s : Service) (labels : List Label)
    : GuardedRun Step (fun _ s label => guard s label) s (s.play guard labels).1
        (s.play guard labels).2 :=
  Execution.play_run perform_step (.nil s) labels

/-- The ingress of concrete runs. -/
def sample : Service := .empty "/data/jobs" 3 (fun _ => 0) 0

/-- One stream uploads two chunks and renames its file; how it ends is left open. -/
def uploadOnce (ends : List Label) : List Label :=
  let config := Config.onePool .rabbitmq
  [.submit 0 (.wav "request") [[1, 2], [3]], .lock 0, .lookup 0, .create 0 config (.nth 0) 0,
    .reserve 0 config 0, .openPart 0, .chunk 0]
  ++ ends
  ++ [.poll 0, .rename 0]

/-- Then the stream queues its job. -/
def queueOnce : Label := .queue 0 (.onePool .rabbitmq) (.nth 1) 0 0

end Service

end Transcriber
