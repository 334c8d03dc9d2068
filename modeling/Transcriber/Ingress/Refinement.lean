import Transcriber.Ingress.Submit

/-! Every step of the ingress is at most one step of the store: the streams, the files and the
locks over the store refine the store alone.
-/

namespace Transcriber

open Execution

/-- The label names no operation of the store. -/
def Label.silent : Label → Bool
  | .create .. | .reserve .. | .queue .. | .reject .. | .store .. => false
  | _ => true

/-- The label touches no file. -/
def Label.fileless : Label → Bool
  | .unlink .. | .openPart _ | .chunk _ | .rename _ | .discard _ | .removeInput _
  | .removePart .. => false
  | _ => true

/-- The label takes or releases no lock. -/
def Label.lockless : Label → Bool
  | .lock _ | .leave _ | .crash _ | .loseLock _ => false
  | _ => true

/-- The label may give a stream its lock or its reservation. -/
def Label.reserves : Label → Bool
  | .lock _ | .lookup _ | .create .. => true
  | _ => false

/-- `create_job` inserts its row or meets the unique index. -/
theorem Db.createJob_spec {s t : Db} {config : Config} {options : SubmitOptions} {jobId : Uuid}
    {now : Int} {reply : Reply}
    (done : s.exec config (.createJob options jobId now) = some (t, reply))
    : t.outbox = s.outbox
      ∧ ((reply = .created jobId.text
          ∧ t.jobs = s.jobs ++ [JobRecord.created config options jobId now])
        ∨ (reply = .uniqueViolation ∧ t.jobs = s.jobs)) := by
  simp only [exec, createJob] at done
  split at done
  · cases done
  split at done <;> cases done
  · exact ⟨rfl, .inr ⟨rfl, rfl⟩⟩
  · exact ⟨rfl, .inl ⟨rfl, rfl⟩⟩

namespace Service

-----------------------------------------------------------------------------------------
-- Inversion
-----------------------------------------------------------------------------------------

theorem on_spec {s t : Service} {i : Nat} {phase : SubmitPhase}
    {step : Stream → Option Service} (done : s.on i phase step = some t)
    : ∃ stream, s.streams i = some stream ∧ stream.phase = phase ∧ step stream = some t := by
  obtain ⟨stream, found, done⟩ := Option.bind_eq_some_iff.mp done
  split at done
  · rename_i reached
    exact ⟨stream, found, reached, done⟩
  · cases done

theorem onJob_spec {s t : Service} {i : Nat} {phase : SubmitPhase}
    {step : Stream → JobRecord → Option Service} (done : s.onJob i phase step = some t)
    : ∃ stream job,
        s.streams i = some stream
        ∧ stream.phase = phase
        ∧ stream.reservation = some job
        ∧ step stream job = some t := by
  obtain ⟨stream, found, reached, done⟩ := on_spec done
  obtain ⟨job, reserved, done⟩ := Option.bind_eq_some_iff.mp done
  exact ⟨stream, job, found, reached, reserved, done⟩

-----------------------------------------------------------------------------------------
-- What a step leaves alone
-----------------------------------------------------------------------------------------

/-- The settings are the same. -/
structure SameSettings (s t : Service) : Prop where
  root : t.storageRoot = s.storageRoot
  limit : t.maxAudioBytes = s.maxAudioBytes
  hash : t.hashtext = s.hashtext

/-- The store, the pending removals and the settings are the same. -/
structure SameStore (s t : Service) : Prop extends s.SameSettings t where
  db : t.db = s.db
  removing : t.removing = s.removing

/-- Every label leaves the settings alone, and the parts of the state that it does not name. -/
structure Frame (s : Service) (label : Label) (t : Service) : Prop extends
    s.SameSettings t where
  store : label.silent → t.db = s.db ∧ t.removing = s.removing
  volume : label.fileless → t.volume = s.volume
  locks : label.lockless → t.locks = s.locks

theorem Frame.all (s : Service) (label : Label) : s.Frame label s :=
  ⟨⟨rfl, rfl, rfl⟩, fun _ => ⟨rfl, rfl⟩, fun _ => rfl, fun _ => rfl⟩

/-- Streams are in no frame. -/
theorem Frame.setStream {s t : Service} {label : Label} (frame : s.Frame label t) (i : Nat)
    (stream : Stream)
    : s.Frame label (t.setStream i stream) :=
  ⟨⟨frame.root, frame.limit, frame.hash⟩, frame.store, frame.volume, frame.locks⟩

theorem Frame.setPart {s t : Service} {label : Label} (frame : s.Frame label t)
    (files : label.fileless = false) (i : Nat) (part : Option Partial)
    : s.Frame label (t.setPart i part) :=
  ⟨⟨frame.root, frame.limit, frame.hash⟩, frame.store, by simp [files], frame.locks⟩

theorem Frame.setInput {s t : Service} {label : Label} (frame : s.Frame label t)
    (files : label.fileless = false) (path : String) (data : Option Bytes)
    : s.Frame label (t.setInput path data) :=
  ⟨⟨frame.root, frame.limit, frame.hash⟩, frame.store, by simp [files], frame.locks⟩

theorem Frame.setLock {s t : Service} {label : Label} (frame : s.Frame label t)
    (lock : label.lockless = false) (key : Int) (holder : Option Nat)
    : s.Frame label (t.setLock key holder) :=
  ⟨⟨frame.root, frame.limit, frame.hash⟩, frame.store, frame.volume, by simp [lock]⟩

theorem Frame.release {s t : Service} {label : Label} (frame : s.Frame label t)
    (lock : label.lockless = false) (i : Nat) (stream : Stream)
    : s.Frame label (t.release i stream) := by
  unfold Service.release
  split
  · exact frame.setLock lock _ _
  · exact frame

theorem Frame.setStore {s : Service} {label : Label} (loud : label.silent = false) (db : Db)
    (removing : List String)
    : s.Frame label { s with db, removing } :=
  ⟨⟨rfl, rfl, rfl⟩, by simp [loud], fun _ => rfl, fun _ => rfl⟩

/-- Every step has its frame, by cases on the label. -/
theorem Step.frame {s t : Service} {label : Label} (step : s.Step label t)
    : s.Frame label t := by
  have all := Frame.all s label
  cases label with
  | submit i options chunks =>
      simp only [Step, next, submit] at step
      split at step <;> cases step
      exact all.setStream _ _
  | lock i =>
      obtain ⟨stream, _, _, done⟩ := on_spec step
      repeat' split at done
      all_goals cases done
      · exact all.setStream _ _
      · exact all.setStream _ _
      · exact (all.setStream _ _).setLock rfl _ _
  | lookup i =>
      obtain ⟨stream, _, _, done⟩ := on_spec step
      repeat' split at done
      all_goals cases done
      all_goals exact all.setStream _ _
  | create i config jobId now =>
      obtain ⟨stream, _, _, done⟩ := on_spec step
      repeat' split at done
      all_goals cases done
      all_goals exact (Frame.setStore rfl _ _).setStream _ _
  | reserve i config now =>
      obtain ⟨stream, job, _, _, _, done⟩ := onJob_spec step
      split at done
      · cases done
        exact all.setStream _ _
      · obtain ⟨_, _, rfl⟩ := Option.map_eq_some_iff.mp done
        exact (Frame.setStore rfl _ _).setStream _ _
  | unlink i other =>
      obtain ⟨stream, job, _, _, _, done⟩ := onJob_spec step
      repeat' split at done
      all_goals cases done
      exact all.setPart rfl _ _
  | openPart i | discard i =>
      obtain ⟨stream, job, _, _, _, done⟩ := onJob_spec step
      cases done
      exact (all.setPart rfl _ _).setStream _ _
  | chunk i =>
      obtain ⟨stream, job, _, _, _, done⟩ := onJob_spec step
      repeat' split at done
      all_goals cases done
      · exact all.setStream _ _
      · exact (all.setPart rfl _ _).setStream _ _
  | eof i =>
      obtain ⟨stream, job, _, _, _, done⟩ := onJob_spec step
      split at done <;> cases done
      exact all.setStream _ _
  | poll i =>
      obtain ⟨stream, job, _, _, _, done⟩ := onJob_spec step
      cases done
      exact all.setStream _ _
  | rename i =>
      obtain ⟨stream, job, _, _, _, done⟩ := onJob_spec step
      split at done <;> cases done
      · exact all.setStream _ _
      · exact ((all.setInput rfl _ _).setPart rfl _ _).setStream _ _
  | queue i config messageId now clock =>
      obtain ⟨stream, job, _, _, _, done⟩ := onJob_spec step
      split at done <;> cases done
      all_goals exact (Frame.setStore rfl _ _).setStream _ _
  | reject i config messageId now clock =>
      obtain ⟨stream, job, _, _, _, done⟩ := onJob_spec step
      obtain ⟨_, _, rfl⟩ := Option.map_eq_some_iff.mp done
      exact (Frame.setStore rfl _ _).setStream _ _
  | raise i reason | abort i =>
      obtain ⟨stream, _, done⟩ := Option.bind_eq_some_iff.mp step
      repeat' split at done
      all_goals cases done
      all_goals exact all.setStream _ _
  | leave i =>
      obtain ⟨stream, _, done⟩ := Option.bind_eq_some_iff.mp step
      repeat' split at done
      all_goals cases done
      · exact all.setStream _ _
      · exact (all.setStream _ _).setLock rfl _ _
      · exact all.setStream _ _
  | crash i =>
      obtain ⟨stream, _, done⟩ := Option.bind_eq_some_iff.mp step
      split at done <;> cases done
      exact (all.release rfl _ _).setStream _ _
  | cancel i | close i =>
      obtain ⟨stream, _, done⟩ := Option.bind_eq_some_iff.mp step
      split at done <;> cases done
      exact all.setStream _ _
  | deactivate i =>
      obtain ⟨stream, _, rfl⟩ := Option.map_eq_some_iff.mp step
      exact all.setStream _ _
  | loseLock i =>
      obtain ⟨stream, _, rfl⟩ := Option.map_eq_some_iff.mp step
      exact all.release rfl _ _
  | store config op =>
      simp only [Step, next, store] at step
      split at step
      · cases step
      · obtain ⟨_, _, rfl⟩ := Option.map_eq_some_iff.mp step
        exact Frame.setStore rfl _ _
  | removeInput path =>
      simp only [Step, next] at step
      split at step <;> cases step
      exact all.setInput rfl _ _
  | removePart path i =>
      simp only [Step, next] at step
      repeat' split at step
      all_goals cases step
      exact all.setPart rfl _ _

theorem Step.sameStore {s t : Service} {label : Label} (step : s.Step label t)
    (silent : label.silent)
    : s.SameStore t :=
  ⟨step.frame.toSameSettings, (step.frame.store silent).1, (step.frame.store silent).2⟩

/-- Only file cleanup removes an input file. -/
theorem Step.removed {s t : Service} {label : Label} {path : String} (step : s.Step label t)
    (present : (s.volume.inputs path).isSome) (gone : t.volume.inputs path = none)
    : label = .removeInput path ∧ path ∈ s.removing := by
  have kept (same : t.volume.inputs path = s.volume.inputs path) : False := by
    simp [← same, gone] at present
  cases label with
  | unlink i other | openPart i | chunk i | discard i =>
      obtain ⟨stream, job, _, _, _, done⟩ := onJob_spec step
      repeat' split at done
      all_goals cases done
      all_goals exact (kept rfl).elim
  | rename i =>
      obtain ⟨stream, job, _, _, _, done⟩ := onJob_spec step
      split at done <;> cases done
      · exact (kept rfl).elim
      · by_cases same : path = job.inputPath
        · simp [setStream, setPart, setInput, same] at gone
        · exact (kept (by simp [setStream, setPart, setInput, same])).elim
  | removeInput other =>
      simp only [Step, next] at step
      split at step <;> cases step
      rename_i listed
      by_cases same : path = other
      · exact ⟨congrArg Label.removeInput same.symm, same ▸ listed⟩
      · exact (kept (by simp [setInput, same])).elim
  | removePart other i =>
      simp only [Step, next] at step
      repeat' split at step
      all_goals cases step
      exact (kept rfl).elim
  | _ => exact (kept (by rw [step.frame.volume rfl])).elim

-----------------------------------------------------------------------------------------
-- Steps of the store
-----------------------------------------------------------------------------------------

/-- How the ingress and everybody else call the store: jobs are created under the storage root
and complete without a result path.
-/
structure Called (s : Service) (config : Config) (op : Op) : Prop where
  root : ∀ options jobId now, op = .createJob options jobId now → config.storageRoot = s.storageRoot
  plain
    : ∀ jobId token text segments resultPath now,
        op = .completeJob jobId token text segments resultPath now → resultPath = ""

/-- One step of the store, as the ingress sees it. -/
structure Stored (s : Service) (config : Config) (op : Op) (reply : Reply) (t : Service) : Prop
    extends s.SameSettings t where
  done : s.db.exec config op = some (t.db, reply)
  called : s.Called config op
  removing : t.removing = removedFiles op reply ++ s.removing

/-- Every step leaves the store alone or is one step of it. -/
theorem Step.stored {s t : Service} {label : Label} (step : s.Step label t)
    : s.SameStore t
      ∨ ∃ config op reply,
          s.Stored config op reply t
          ∧ (label.reserves = false → ∀ options jobId now, op ≠ .createJob options jobId now) := by
  cases label with
  | create i config jobId now =>
      obtain ⟨stream, _, _, done⟩ := on_spec step
      split at done
      · cases done
      rename_i sameRoot
      have called : s.Called config (.createJob stream.options jobId now) :=
        ⟨fun _ _ _ _ => by simpa using sameRoot, by simp⟩
      split at done
      · cases done
      · rename_i executed
        cases done
        exact .inr ⟨config, _, _, ⟨⟨rfl, rfl, rfl⟩, executed, called, rfl⟩, nofun⟩
      · rename_i executed
        cases done
        exact .inr ⟨config, _, _, ⟨⟨rfl, rfl, rfl⟩, executed, called, rfl⟩, nofun⟩
  | reserve i config now =>
      obtain ⟨stream, job, _, _, _, done⟩ := onJob_spec step
      split at done
      · cases done
        exact .inl ⟨⟨rfl, rfl, rfl⟩, rfl, rfl⟩
      · obtain ⟨⟨db, reply⟩, executed, rfl⟩ := Option.map_eq_some_iff.mp done
        exact .inr ⟨config, _, _, ⟨⟨rfl, rfl, rfl⟩, executed, ⟨by simp, by simp⟩, rfl⟩, by simp⟩
  | queue i config messageId now clock =>
      obtain ⟨stream, job, _, _, _, done⟩ := onJob_spec step
      split at done
      · cases done
      · rename_i executed
        cases done
        exact .inr ⟨config, _, _, ⟨⟨rfl, rfl, rfl⟩, executed, ⟨by simp, by simp⟩, rfl⟩, by simp⟩
      · rename_i executed
        cases done
        exact .inr ⟨config, _, _, ⟨⟨rfl, rfl, rfl⟩, executed, ⟨by simp, by simp⟩, rfl⟩, by simp⟩
  | reject i config messageId now clock =>
      obtain ⟨stream, job, _, _, _, done⟩ := onJob_spec step
      obtain ⟨⟨db, reply⟩, executed, rfl⟩ := Option.map_eq_some_iff.mp done
      refine .inr ⟨config, _, reply, ⟨⟨rfl, rfl, rfl⟩, executed, ?_, ?_⟩, ?_⟩
      · constructor <;> split <;> simp
      · split <;> rfl
      · split <;> simp
  | store config op =>
      simp only [Step, next, store] at step
      split at step
      · cases step
      rename_i free
      obtain ⟨⟨db, reply⟩, executed, rfl⟩ := Option.map_eq_some_iff.mp step
      refine .inr ⟨config, op, reply, ⟨⟨rfl, rfl, rfl⟩, executed, ⟨?_, ?_⟩, rfl⟩, ?_⟩
      · rintro options jobId now rfl
        simp [reservedOp] at free
      · rintro jobId token text segments resultPath now rfl
        simpa [reservedOp] using free
      · rintro _ options jobId now rfl
        simp [reservedOp] at free
  | _ => exact .inl (step.sameStore rfl)

/-- A run of the ingress is a run of its store. -/
theorem run_db {s t : Service} {labels : List Label} (run : Run Step s labels t)
    : ∃ events, Run Db.Step s.db events t.db := by
  induction run with
  | nil => exact ⟨[], .nil _⟩
  | snoc _ last ih =>
      obtain ⟨events, run⟩ := ih
      rcases last.stored with same | ⟨config, op, reply, stored, _⟩
      · exact ⟨events, same.db ▸ run⟩
      · have step : Db.Step _ ⟨config, op, reply⟩ _ := stored.done
        exact ⟨_, run.snoc step⟩

end Service

end Transcriber
