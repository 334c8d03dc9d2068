import Transcriber.Ingress.Streams
import Transcriber.Ingress.Retention

/-! Submit is idempotent per request id: one row, one job id for all its calls, and no effect of
a rejected or replayed call.
-/

namespace Transcriber

open Execution

-----------------------------------------------------------------------------------------
-- Reservations and outcomes
-----------------------------------------------------------------------------------------

/-- Rejected without a reservation. -/
def SubmitPhase.rejected : SubmitPhase → Bool
  | .leaving .busy | .leaving .conflict | .finished .busy | .finished .conflict => true
  | _ => false

/-- Inside the upload. -/
def SubmitPhase.transfers : SubmitPhase → Bool
  | .sweeping | .writing | .ended | .received | .published | .failing _ | .rejecting _ => true
  | _ => false

/-- The job id of a successful call. -/
def SubmitPhase.result? : SubmitPhase → Option String
  | .leaving (.accepted jobId) | .leaving (.replayed jobId)
  | .finished (.accepted jobId) | .finished (.replayed jobId) => some jobId
  | _ => none

/-- The snapshot of the row asks for no upload. -/
def Stream.harmless (stream : Stream) : Bool :=
  stream.reservation.all (fun job => !job.status.uploading)

/-- The reservation of a stream fits its phase. -/
structure Stream.Coherent (stream : Stream) : Prop where
  unreserved
    : stream.phase.fresh ∨ stream.phase.rejected → stream.reservation = none
  transfers : stream.phase.transfers → stream.harmless = false
  result
    : ∀ jobId,
        stream.phase.result? = some jobId
        → ∃ job, stream.reservation = some job ∧ job.jobId = jobId

/-- Every step of a stream keeps that, by cases on the step. -/
theorem StreamStep.coherent {label : Label} {stream next : Stream}
    (step : StreamStep label stream next) (coherent : stream.Coherent)
    : next.Coherent := by
  obtain ⟨unreserved, transfers, result⟩ := coherent
  cases step with
  | locked phase | absent phase | conflicting phase | busy phase =>
      have none := unreserved (by simp [phase, SubmitPhase.fresh])
      exact ⟨fun _ => none, by simp [SubmitPhase.transfers], by simp [SubmitPhase.result?]⟩
  | started phase reserved uploading =>
      exact ⟨by simp [SubmitPhase.fresh, SubmitPhase.rejected],
        fun _ => by simp [Stream.harmless, reserved, uploading], by simp [SubmitPhase.result?]⟩
  | replayed phase reserved | accepted phase reserved =>
      refine ⟨by simp [SubmitPhase.fresh, SubmitPhase.rejected],
        by simp [SubmitPhase.transfers], ?_⟩
      intro jobId same
      exact ⟨_, reserved, by simpa [SubmitPhase.result?] using same⟩
  | opened phase | tooLarge phase | ended phase | received phase | interrupted phase
  | renamed phase | lost phase | discarded phase =>
      have busy := transfers (by simp [phase, SubmitPhase.transfers])
      exact ⟨by simp [SubmitPhase.fresh, SubmitPhase.rejected], fun _ => busy,
        by simp [SubmitPhase.result?]⟩
  | raised inside =>
      have busy := transfers (by rcases inside with p | p | p | p | p <;> rw [p] <;> rfl)
      exact ⟨by simp [SubmitPhase.fresh, SubmitPhase.rejected], fun _ => busy,
        by simp [SubmitPhase.result?]⟩
  | @left _ _ outcome phase =>
      refine ⟨?_, by simp [SubmitPhase.transfers], ?_⟩
      · intro early
        refine unreserved ?_
        cases outcome <;> simp_all [SubmitPhase.fresh, SubmitPhase.rejected]
      · intro jobId same
        refine result jobId ?_
        cases outcome <;> simp_all [SubmitPhase.result?]
  | read | cancelled | closed | deactivated => exact ⟨unreserved, transfers, result⟩
  | found | created | taken | unqueued | rejected | aborted | unlocked | crashed =>
      exact ⟨by simp [SubmitPhase.fresh, SubmitPhase.rejected],
        by simp [SubmitPhase.transfers], by simp [SubmitPhase.result?]⟩

/-- The label ends the session of the stream. -/
def Label.endsSession (label : Label) (i : Nat) : Prop :=
  label = .leave i ∨ label = .crash i ∨ label = .loseLock i

namespace Service

theorem coherent_run {s t : Service} {labels : List Label} (run : Run Step s labels t)
    (kept : ∀ i stream, s.streams i = some stream → stream.Coherent)
    : ∀ i stream, t.streams i = some stream → stream.Coherent := by
  refine run.invariant
    (I := fun s => ∀ i stream, s.streams i = some stream → stream.Coherent) ?_ kept
  intro s label t kept step
  refine step.streamMove.forall kept ?_ (fun _ _ _ _ _ step => step.coherent)
  intro options chunks
  constructor <;> simp [Stream.new, SubmitPhase.transfers, SubmitPhase.result?]

-----------------------------------------------------------------------------------------
-- Calls without an effect
-----------------------------------------------------------------------------------------

/-- The same rows and the same files. -/
def Unchanged (s t : Service) : Prop :=
  t.db.jobs = s.db.jobs ∧ t.db.outbox = s.db.outbox ∧ t.volume = s.volume

/-- A step of a stream that stays harmless changes no row and no file. -/
theorem Step.unchanged {s t : Service} {label : Label} {i : Nat} {next : Stream}
    (step : s.Step label t) (own : label.stream? = some i)
    (coherent : ∀ i stream, s.streams i = some stream → stream.Coherent)
    (found : t.streams i = some next) (harmless : next.harmless)
    : s.Unchanged t := by
  have quiet (silent : label.silent) (fileless : label.fileless) : s.Unchanged t := by
    have same := step.sameStore silent
    exact ⟨by rw [same.db], by rw [same.db], step.frame.volume fileless⟩
  -- Inside an upload the stream is not harmless.
  have outside {stream : Stream} (before : s.streams i = some stream)
      (transfers : stream.phase.transfers) (plain : label.reserves = false)
      (called : ∀ options chunks, label ≠ .submit i options chunks)
      : s.Unchanged t := by
    have busy := (coherent i stream before).transfers transfers
    rcases step.stream_frame plain found with ⟨options, chunks, same, _⟩ | ⟨other, old, _, same, _⟩
    · exact absurd same (called options chunks)
    · obtain rfl := Option.some.inj (before.symm.trans old)
      rw [Stream.harmless, same, ← Stream.harmless, busy] at harmless
      cases harmless
  cases label with
  | store | removeInput | removePart => cases own
  | unlink | openPart | chunk | rename | discard | queue | reject =>
      cases own
      obtain ⟨stream, job, before, phase, _, _⟩ := onJob_spec step
      exact outside before (by simp [phase, SubmitPhase.transfers]) rfl (by simp)
  | create j config jobId now =>
      cases own
      obtain ⟨stream, before, phase, done⟩ := on_spec step
      split at done
      · cases done
      split at done
      · cases done
      · cases done
        simp only [setStream, Function.update_self, Option.some.injEq] at found
        rw [← found] at harmless
        simp [Stream.harmless, JobRecord.created, Status.uploading] at harmless
      · rename_i db reply refused created
        cases done
        obtain ⟨outbox, ⟨same, _⟩ | ⟨_, jobs⟩⟩ := Db.createJob_spec created
        · exact (refused _ same).elim
        · exact ⟨jobs, outbox, rfl⟩
  | reserve j config now =>
      cases own
      obtain ⟨stream, job, before, phase, reserved, done⟩ := onJob_spec step
      split at done
      · cases done
        exact ⟨rfl, rfl, rfl⟩
      · rename_i uploading
        obtain ⟨_, _, rfl⟩ := Option.map_eq_some_iff.mp done
        simp only [setStream, Function.update_self, Option.some.injEq] at found
        rw [← found] at harmless
        simp [Stream.harmless, reserved] at harmless
        simp [harmless] at uploading
  | _ => exact quiet rfl rfl

/-- A harmless stream was harmless before. -/
theorem Step.harmless_before {s t : Service} {label : Label} {i : Nat} {stream next : Stream}
    (step : s.Step label t) (before : s.streams i = some stream) (coherent : stream.Coherent)
    (found : t.streams i = some next) (harmless : next.harmless)
    : stream.harmless := by
  have unreserved (fresh : stream.phase.fresh) : stream.harmless := by
    simp [Stream.harmless, coherent.unreserved (.inl fresh)]
  cases step.streamMove with
  | kept streams _ =>
      obtain rfl : stream = next := by simpa [streams, before] using found
      exact harmless
  | opened j options chunks _ unused streams =>
      have differs : i ≠ j := by
        rintro rfl
        simp [unused] at before
      obtain rfl : stream = next := by simpa [streams, differs, before] using found
      exact harmless
  | moved j old new own stored moves streams =>
      rcases eq_or_ne i j with rfl | differs
      · simp only [streams, Function.update_self, Option.some.injEq] at found
        obtain rfl := Option.some.inj (before.symm.trans stored)
        subst found
        cases moves with
        | locked phase | busy phase | absent phase | found phase | conflicting phase
        | created phase | taken phase =>
            exact unreserved (by simp [phase, SubmitPhase.fresh])
        | _ => exact harmless
      · obtain rfl : stream = next := by simpa [streams, differs, before] using found
        exact harmless

/-- No step of the stream changed a row or a file. -/
def Effectless (start : Service) (labels : List Label) (i : Nat) : Prop :=
  ∀ before label after u v,
    labels = before ++ label :: after
    → Run Step start before u
    → u.Step label v
    → label.stream? = some i
    → u.Unchanged v

/-- A call without an upload has no effect, by induction on the run. -/
theorem effectless_run {start s : Service} {labels : List Label}
    (run : Run Step start labels s)
    (initial : ∀ i stream, start.streams i = some stream → stream.Coherent)
    : ∀ i, (s.streams i).all Stream.harmless → start.Effectless labels i := by
  induction run with
  | nil =>
      intro i _ before label after u v same
      simp at same
  | @snoc s t labels last run step ih =>
      intro i harmless before label after u v same past taken own
      have functional : ∀ s label t t', Step s label t → Step s label t' → t = t' :=
        fun _ _ _ _ first second => Option.some.inj (first.symm.trans second)
      have coherent := coherent_run run initial
      rcases List.eq_nil_or_concat after with rfl | ⟨after, final, rfl⟩
      · obtain ⟨rfl, one⟩ := List.append_inj' same rfl
        cases one
        obtain rfl := past.deterministic functional run
        obtain rfl := functional _ _ _ _ taken step
        obtain ⟨next, found⟩ := Option.isSome_iff_exists.mp (step.streamMove.found (.inl own))
        exact step.unchanged own coherent found (by simpa [found] using harmless)
      · have parts : labels ++ [last] = (before ++ label :: after) ++ [final] := by
          simpa using same
        obtain ⟨rfl, _⟩ := List.append_inj' parts rfl
        refine ih i ?_ before label after u v rfl past taken own
        cases before' : s.streams i with
        | none => rfl
        | some stream =>
            have stays : (s.streams i).isSome := by simp [before']
            obtain ⟨next, found⟩ :=
              Option.isSome_iff_exists.mp (step.streamMove.found (.inr stays))
            exact step.harmless_before before' (coherent i stream before') found
              (by simpa [found] using harmless)

-----------------------------------------------------------------------------------------
-- Locks
-----------------------------------------------------------------------------------------

/-- Only a lock step gives a lock, and only the end of its session takes it away. -/
theorem Step.lockChange {s t : Service} {label : Label} (step : s.Step label t)
    (unlocked : ∀ i, label ≠ .lock i) (key : Int) (holder : Nat)
    : (t.locks key = some holder → s.locks key = some holder)
      ∧ (s.locks key = some holder
        → t.locks key = some holder ∨ label.endsSession holder) := by
  -- A released lock is the stream's own.
  have freed {i : Nat} {locks : Int → Option Nat} {own : Int} (held : s.locks own = some i)
      (ends : label.endsSession i) (after : locks = Function.update s.locks own none)
      : (locks key = some holder → s.locks key = some holder)
        ∧ (s.locks key = some holder → locks key = some holder ∨ label.endsSession holder) := by
    subst after
    rcases eq_or_ne key own with rfl | differs
    · refine ⟨by simp, fun holds => .inr ?_⟩
      obtain rfl := Option.some.inj (holds.symm.trans held)
      exact ends
    · exact ⟨by simp [differs], fun holds => .inl (by simpa [differs] using holds)⟩
  have kept (same : t.locks = s.locks)
      : (t.locks key = some holder → s.locks key = some holder)
        ∧ (s.locks key = some holder
          → t.locks key = some holder ∨ label.endsSession holder) := by
    rw [same]
    exact ⟨id, .inl⟩
  have released (i : Nat) (stream : Stream) (same : t.locks = (s.release i stream).locks)
      (ends : label.endsSession i)
      : (t.locks key = some holder → s.locks key = some holder)
        ∧ (s.locks key = some holder
          → t.locks key = some holder ∨ label.endsSession holder) := by
    unfold release at same
    split at same
    · rename_i held
      exact freed held ends same
    · exact kept same
  cases label with
  | lock i => exact absurd rfl (unlocked i)
  | leave i =>
      obtain ⟨stream, _, done⟩ := Option.bind_eq_some_iff.mp step
      split at done
      · split at done
        · cases done
          exact kept rfl
        · rename_i named
          split at done
          · rename_i holds
            cases done
            simp only [Service.holds, named, decide_false, Bool.false_or,
              decide_eq_true_eq] at holds
            exact freed holds (.inl rfl) rfl
          · cases done
            exact kept rfl
      · cases done
  | crash i =>
      obtain ⟨stream, _, done⟩ := Option.bind_eq_some_iff.mp step
      split at done <;> cases done
      exact released i stream rfl (.inr (.inl rfl))
  | loseLock i =>
      obtain ⟨stream, _, same⟩ := Option.map_eq_some_iff.mp step
      exact released i stream (by rw [same]) (.inr (.inr rfl))
  | _ => exact kept (step.frame.locks rfl)

/-- No session is lost between its lock and the insertion of its job. -/
def keepsSessions (s : Service) : Label → Bool
  | .loseLock i =>
      (s.streams i).all (fun stream => stream.phase ≠ .locked && stream.phase ≠ .absent)
  | _ => true

/-- What the request locks protect. -/
structure Locked (s : Service) : Prop where
  holds
    : ∀ i stream,
        s.streams i = some stream
        → stream.options.requestId ≠ ""
        → stream.phase = .locked ∨ stream.phase = .absent
        → s.locks (s.hashtext stream.options.requestId) = some i
  absent
    : ∀ i stream,
        s.streams i = some stream
        → stream.options.requestId ≠ ""
        → stream.phase = .absent
        → ∀ row ∈ s.db.jobs, row.requestId ≠ stream.options.requestId
  agrees
    : ∀ i stream job,
        s.streams i = some stream
        → stream.options.requestId ≠ ""
        → s.locks (s.hashtext stream.options.requestId) = some i
        → stream.reservation = some job
        → ∀ row ∈ s.db.jobs, row.requestId = stream.options.requestId → row.jobId = job.jobId

/-- A step that neither locks, looks up nor creates. -/
theorem Locked.frame {s t : Service} {label : Label} (kept : s.Locked)
    (step : s.Step label t) (plain : label.reserves = false)
    (guarded : s.keepsSessions label)
    (rows
      : ∀ row ∈ t.db.jobs, ∃ old ∈ s.db.jobs,
          row.requestId = old.requestId ∧ row.jobId = old.jobId)
    : t.Locked := by
  have hash := step.frame.hash
  have unlocked (i : Nat) : label ≠ .lock i := by
    rintro rfl
    cases plain
  refine ⟨?_, ?_, ?_⟩
  · intro i next found named early
    rcases step.stream_frame plain found
      with ⟨options, chunks, _, rfl⟩ | ⟨stream, before, options, _, phase⟩
    · rcases early with early | early <;> cases early
    · have same : next.phase = stream.phase := by
        apply phase
        rcases early with early | early <;> simp [early, SubmitPhase.fresh]
      rw [same] at early
      rw [options] at named
      have held := kept.holds i stream before named early
      rw [hash, options]
      -- A session that ends here is that of a call past its insertion.
      rcases (step.lockChange unlocked _ i).2 held with holds | rfl | rfl | rfl
      · exact holds
      · rcases early with early | early <;>
          simp [Step, Service.next, leave, before, early] at step
      · have ended : next.phase = .finished .aborted := by
          rcases early with early | early
          all_goals
            simp only [Step, Service.next, crash, before, Option.bind_some, early,
              Option.some.injEq] at step
            subst step
            simp only [setStream, Function.update_self, Option.some.injEq] at found
            rw [← found]
        rw [← same, ended] at early
        simp at early
      · simp only [keepsSessions, before, Option.all_some, Bool.and_eq_true,
          decide_eq_true_eq] at guarded
        exact (early.elim guarded.1 guarded.2).elim
  · intro i next found named absent row member
    rcases step.stream_frame plain found
      with ⟨options, chunks, _, rfl⟩ | ⟨stream, before, options, _, phase⟩
    · cases absent
    · have same : next.phase = stream.phase := phase (by simp [absent, SubmitPhase.fresh])
      obtain ⟨old, stored, request, _⟩ := rows row member
      rw [options, request]
      exact kept.absent i stream before (options ▸ named) (same.symm.trans absent) old stored
  · intro i next job found named held reserved row member request
    rcases step.stream_frame plain found
      with ⟨options, chunks, _, rfl⟩ | ⟨stream, before, options, reservation, _⟩
    · cases reserved
    · obtain ⟨old, stored, oldRequest, sameId⟩ := rows row member
      rw [sameId]
      rw [hash, options] at held
      exact kept.agrees i stream job before (options ▸ named)
        ((step.lockChange unlocked _ i).1 held) (reservation.symm.trans reserved) old stored
        (oldRequest.symm.trans (request.trans (by rw [options])))

/-- Without a creation every row is the version of a stored one. -/
theorem Step.rows {s t : Service} {label : Label} (step : s.Step label t)
    (consistent : s.db.Consistent) (plain : label.reserves = false)
    : ∀ row ∈ t.db.jobs, ∃ old ∈ s.db.jobs,
        row.requestId = old.requestId ∧ row.jobId = old.jobId := by
  intro row member
  rcases step.stored with same | ⟨config, op, reply, stored, creates⟩
  · exact ⟨row, same.db ▸ member, rfl, rfl⟩
  · have dbStep : s.db.Step ⟨config, op, reply⟩ t.db := stored.done
    have outcome := dbStep.outcome consistent.distinct consistent.held
    rcases outcome.change.origin consistent
        (Db.job?_of_mem (dbStep.consistent consistent).distinct member)
      with ⟨old, found, rowStep⟩ | ⟨_, _, options, newId, now, called, _⟩
    · exact ⟨old, (Db.job?_mem found).1,
        congrArg SubmitOptions.requestId rowStep.fixed.2.1, rowStep.jobId⟩
    · exact absurd called (creates plain options newId now)

/-- A step of one stream, which adds rows only under the lock that it holds. -/
theorem Locked.move {s t : Service} {i : Nat} {next : Stream} (kept : s.Locked)
    (hash : t.hashtext = s.hashtext)
    (streams : t.streams = Function.update s.streams i (some next))
    (others : ∀ j, j ≠ i → ∀ key, t.locks key = some j ↔ s.locks key = some j)
    (rows
      : ∀ row ∈ t.db.jobs,
          row.requestId = "" ∨ row ∈ s.db.jobs ∨ s.locks (s.hashtext row.requestId) = some i)
    (holds
      : next.options.requestId ≠ ""
        → next.phase = .locked ∨ next.phase = .absent
        → t.locks (s.hashtext next.options.requestId) = some i)
    (absent
      : next.options.requestId ≠ ""
        → next.phase = .absent
        → ∀ row ∈ t.db.jobs, row.requestId ≠ next.options.requestId)
    (agrees
      : ∀ job,
          next.options.requestId ≠ ""
          → next.reservation = some job
          → ∀ row ∈ t.db.jobs,
              row.requestId = next.options.requestId → row.jobId = job.jobId)
    : t.Locked := by
  have split (j : Nat) (other : Stream) (found : t.streams j = some other)
      : (j = i ∧ other = next) ∨ (j ≠ i ∧ s.streams j = some other) := by
    rcases eq_or_ne j i with rfl | differs
    · simp only [streams, Function.update_self, Option.some.injEq] at found
      exact .inl ⟨rfl, found.symm⟩
    · simp only [streams, Function.update_of_ne differs] at found
      exact .inr ⟨differs, found⟩
  -- No row of a request whose lock another stream holds is new.
  have old {j : Nat} (differs : j ≠ i) {requestId : String} (named : requestId ≠ "")
      (held : s.locks (s.hashtext requestId) = some j) {row : JobRecord}
      (member : row ∈ t.db.jobs) (request : row.requestId = requestId)
      : row ∈ s.db.jobs := by
    rcases rows row member with empty | stored | mine
    · exact absurd (request.symm.trans empty) named
    · exact stored
    · rw [request] at mine
      exact absurd (Option.some.inj (held.symm.trans mine)) differs
  refine ⟨?_, ?_, ?_⟩
  · intro j other found named early
    rw [hash]
    rcases split j other found with ⟨rfl, rfl⟩ | ⟨differs, before⟩
    · exact holds named early
    · exact (others j differs _).mpr (kept.holds j other before named early)
  · intro j other found named empty row member request
    rcases split j other found with ⟨rfl, rfl⟩ | ⟨differs, before⟩
    · exact absent named empty row member request
    · have held := kept.holds j other before named (.inr empty)
      exact kept.absent j other before named empty row (old differs named held member request)
        request
  · intro j other job found named held reserved row member request
    rw [hash] at held
    rcases split j other found with ⟨rfl, rfl⟩ | ⟨differs, before⟩
    · exact agrees job named reserved row member request
    · have held := (others j differs _).mp held
      exact kept.agrees j other job before named held reserved row
        (old differs named held member request) request

theorem Locked.lock {s t : Service} {i : Nat} (kept : s.Locked)
    (coherent : ∀ i stream, s.streams i = some stream → stream.Coherent)
    (done : s.lock i = some t)
    : t.Locked := by
  obtain ⟨stream, found, phase, done⟩ := on_spec done
  have none := (coherent i stream found).unreserved (.inl (by simp [phase, SubmitPhase.fresh]))
  split at done
  · rename_i empty
    cases done
    exact kept.move rfl rfl (fun _ _ _ => .rfl) (fun _ member => .inr (.inl member))
      (fun named => absurd empty named) (by simp) (by simp [none])
  split at done
  · cases done
    exact kept.move rfl rfl (fun _ _ _ => .rfl) (fun _ member => .inr (.inl member))
      (by simp) (by simp) (by simp [none])
  · rename_i free
    cases done
    have free : s.locks (s.hashtext stream.options.requestId) = Option.none := by
      simpa using free
    refine kept.move rfl rfl ?_ (fun _ member => .inr (.inl member))
      (fun _ _ => by simp [setLock, setStream]) (by simp) (by simp [none])
    intro j differs key
    rcases eq_or_ne key (s.hashtext stream.options.requestId) with rfl | other
    · simp [setLock, setStream, free, differs.symm]
    · simp [setLock, setStream, other]

theorem Locked.lookup {s t : Service} {i : Nat} (kept : s.Locked)
    (coherent : ∀ i stream, s.streams i = some stream → stream.Coherent)
    (consistent : s.db.Consistent) (done : s.lookup i = some t)
    : t.Locked := by
  obtain ⟨stream, found, phase, done⟩ := on_spec done
  have none := (coherent i stream found).unreserved (.inl (by simp [phase, SubmitPhase.fresh]))
  split at done
  · rename_i empty
    cases done
    exact kept.move rfl rfl (fun _ _ _ => .rfl) (fun _ member => .inr (.inl member))
      (fun named => absurd empty named) (fun named => absurd empty named) (by simp [none])
  rename_i named
  split at done
  · cases done
  split at done
  · rename_i missing
    cases done
    refine kept.move rfl rfl (fun _ _ _ => .rfl) (fun _ member => .inr (.inl member))
      (fun _ _ => kept.holds i stream found named (.inl phase)) (fun _ _ row member => ?_)
      (by simp [none])
    exact Table.lookup_none missing row member
  · rename_i job stored
    split at done
    · cases done
      refine kept.move rfl rfl (fun _ _ _ => .rfl) (fun _ member => .inr (.inl member))
        (by simp) (by simp) ?_
      intro other named reserved row member request
      obtain rfl := Option.some.inj reserved
      have same : row.requestId = job.requestId := request.trans (Table.lookup_key stored).symm
      rw [consistent.requests row member job (Table.lookup_mem stored) same
        (request ▸ named)]
    · cases done
      exact kept.move rfl rfl (fun _ _ _ => .rfl) (fun _ member => .inr (.inl member))
        (by simp) (by simp) (by simp [none])

theorem Locked.create {s t : Service} {i : Nat} {config : Config} {jobId : Uuid} {now : Int}
    (kept : s.Locked) (coherent : ∀ i stream, s.streams i = some stream → stream.Coherent)
    (done : s.create i config jobId now = some t)
    : t.Locked := by
  obtain ⟨stream, found, phase, done⟩ := on_spec done
  have none := (coherent i stream found).unreserved (.inl (by simp [phase, SubmitPhase.fresh]))
  split at done
  · cases done
  split at done
  · cases done
  · rename_i db id created
    cases done
    rcases (Db.createJob_spec created).2 with ⟨_, jobs⟩ | ⟨violated, _⟩
    · have rows (row : JobRecord) (member : row ∈ db.jobs)
          : row ∈ s.db.jobs ∨ row = JobRecord.created config stream.options jobId now := by
        simpa [jobs] using member
      refine kept.move rfl rfl (fun _ _ _ => .rfl) ?_ (by simp) (by simp) ?_
      · intro row member
        rcases rows row member with old | rfl
        · exact .inr (.inl old)
        · by_cases named : stream.options.requestId = ""
          · exact .inl named
          · exact .inr (.inr (kept.holds i stream found named (.inr phase)))
      · intro job named reserved row member request
        obtain rfl := Option.some.inj reserved
        rcases rows row member with old | rfl
        · exact absurd request (kept.absent i stream found named phase row old)
        · rfl
    · cases violated
  · rename_i refused created
    cases done
    rcases (Db.createJob_spec created).2 with ⟨same, _⟩ | ⟨_, jobs⟩
    · exact (refused _ same).elim
    · exact kept.move rfl rfl (fun _ _ _ => .rfl) (fun _ member => .inr (.inl (jobs ▸ member)))
        (by simp) (by simp) (by simp [none])

/-- The invariant of the request locks with what it rests on. -/
structure Guarded (s : Service) : Prop where
  consistent : s.db.Consistent
  coherent : ∀ i stream, s.streams i = some stream → stream.Coherent
  locked : s.Locked

theorem Guarded.step {s t : Service} {label : Label} (kept : s.Guarded)
    (guarded : s.keepsSessions label) (step : s.Step label t)
    : t.Guarded := by
  obtain ⟨consistent, coherent, locked⟩ := kept
  refine ⟨?_, coherent_run (.single step) coherent, ?_⟩
  · obtain ⟨events, run⟩ := run_db (.single step)
    exact Db.consistent_run consistent run
  · cases label with
    | lock => exact locked.lock coherent step
    | lookup => exact locked.lookup coherent consistent step
    | create => exact locked.create coherent step
    | _ => exact locked.frame step rfl guarded (step.rows consistent rfl)

-----------------------------------------------------------------------------------------
-- Idempotence
-----------------------------------------------------------------------------------------

/-- A successful call under a request id holds its lock when it leaves. -/
theorem Step.leave_result {s t : Service} {i : Nat} {next : Stream} {jobId : String}
    (kept : s.Guarded) (step : s.Step (.leave i) t) (found : t.streams i = some next)
    (named : next.options.requestId ≠ "") (result : next.phase.result? = some jobId)
    : ∀ row ∈ t.db.jobs, row.requestId = next.options.requestId → row.jobId = jobId := by
  obtain ⟨stream, before, done⟩ := Option.bind_eq_some_iff.mp step
  split at done
  · rename_i outcome phase
    split at done
    · rename_i empty
      cases done
      simp only [setStream, Function.update_self, Option.some.injEq] at found
      subst found
      exact absurd empty named
    split at done
    · rename_i holds
      cases done
      simp only [setLock, setStream, Function.update_self, Option.some.injEq] at found
      subst found
      have same : stream.phase.result? = some jobId := by
        rw [phase]
        cases outcome <;> simp_all [SubmitPhase.result?]
      obtain ⟨job, reserved, rfl⟩ := (kept.coherent i stream before).result jobId same
      simp only [Service.holds, named, decide_false, Bool.false_or, decide_eq_true_eq] at holds
      exact kept.locked.agrees i stream job before named holds reserved
    · cases done
      simp only [setStream, Function.update_self, Option.some.injEq] at found
      subst found
      cases result
  · cases done

/-- The comparison of options rejects a call whose options differ from the stored row. -/
theorem Step.lookup_conflict {s t : Service} {i : Nat} {stream : Stream} {row : JobRecord}
    (consistent : s.db.Consistent) (step : s.Step (.lookup i) t)
    (found : s.streams i = some stream) (named : stream.options.requestId ≠ "")
    (member : row ∈ s.db.jobs) (request : row.requestId = stream.options.requestId)
    (differs : stream.options.sameUpload row = false)
    : (t.streams i).map Stream.phase = some (.leaving .conflict) := by
  obtain ⟨other, before, _, done⟩ := on_spec step
  obtain rfl := Option.some.inj (found.symm.trans before)
  rw [if_neg named] at done
  split at done
  · cases done
  split at done
  · rename_i missing
    exact absurd request (Table.lookup_none missing row member)
  · rename_i job stored
    have same : row.requestId = job.requestId := request.trans (Table.lookup_key stored).symm
    obtain rfl := consistent.requests row member job (Table.lookup_mem stored) same
      (request ▸ named)
    rw [if_neg (by simp [differs])] at done
    cases done
    simp [setStream]

/-- The replay needs no storage: nothing can refuse it. -/
theorem reserve_replay {s : Service} {i : Nat} {stream : Stream} {job : JobRecord}
    (found : s.streams i = some stream) (reserved : stream.reservation = some job)
    (phase : stream.phase = .reserved) (uploaded : job.status.uploading = false)
    (config : Config) (now : Int)
    : ∃ t,
        s.Step (.reserve i config now) t
        ∧ (t.streams i).map Stream.phase = some (.leaving (.replayed job.jobId)) := by
  refine ⟨s.setStream i { stream with phase := .leaving (.replayed job.jobId) }, ?_, ?_⟩
  · simp [Step, Service.next, reserve, onJob, on, found, phase, reserved, uploaded]
  · simp [setStream]

/-- What holds of the Submit calls of every request id after a run. -/
structure Idempotent (start : Service) (labels : List Label) (s : Service) : Prop where
  unique
    : ∀ row ∈ s.db.jobs, ∀ other ∈ s.db.jobs,
        row.requestId ≠ "" → row.requestId = other.requestId → row = other
  results
    : ∀ i t stream jobId,
        s.Step (.leave i) t
        → t.streams i = some stream
        → stream.options.requestId ≠ ""
        → stream.phase.result? = some jobId
        → ∀ row ∈ t.db.jobs, row.requestId = stream.options.requestId → row.jobId = jobId
  conflicts
    : ∀ i t stream,
        s.Step (.lookup i) t
        → s.streams i = some stream
        → stream.options.requestId ≠ ""
        → ∀ row ∈ s.db.jobs,
            row.requestId = stream.options.requestId
            → stream.options.sameUpload row = false
            → (t.streams i).map Stream.phase = some (.leaving .conflict)
  rejected
    : ∀ i stream,
        s.streams i = some stream
        → stream.phase.rejected ∨ stream.reservation = none
        → start.Effectless labels i
  replayed
    : ∀ i stream job,
        s.streams i = some stream
        → stream.reservation = some job
        → job.status.uploading = false
        → start.Effectless labels i
          ∧ (stream.phase = .reserved
            → ∀ config now,
                ∃ t,
                  s.Step (.reserve i config now) t
                  ∧ (t.streams i).map Stream.phase
                    = some (.leaving (.replayed job.jobId)))

/-- Submit is idempotent per request id in every run that keeps its sessions until their
insertions.
-/
theorem submit_idempotent {storageRoot : String} {maxAudioBytes : Nat}
    {hashtext : String → Int} {clock : Int} {s : Service} {labels : List Label}
    (run
      : GuardedRun Step (fun _ s label => s.keepsSessions label)
          (Service.empty storageRoot maxAudioBytes hashtext clock) labels s)
    : Idempotent (Service.empty storageRoot maxAudioBytes hashtext clock) labels s := by
  have initial
      : ∀ i stream,
          (Service.empty storageRoot maxAudioBytes hashtext clock).streams i = some stream
          → stream.Coherent := by
    simp [Service.empty]
  have kept : s.Guarded := by
    refine run.history (I := fun _ s => s.Guarded)
      (fun _ _ _ _ kept guarded step => kept.step guarded step) ⟨.empty clock, initial, ?_⟩
    constructor <;> simp [Service.empty]
  have plain := run.run (fun _ _ _ _ _ step => step)
  have effectless (i : Nat) (stream : Stream) (found : s.streams i = some stream)
      (harmless : stream.harmless)
      : Effectless (Service.empty storageRoot maxAudioBytes hashtext clock) labels i :=
    effectless_run plain initial i (by simp [found, harmless])
  refine ⟨?_, ?_, ?_, ?_, ?_⟩
  · exact fun row member other member' named same =>
      kept.consistent.requests row member other member' same named
  · exact fun i t stream jobId step found named result => step.leave_result kept found named result
  · exact fun i t stream step found named row => step.lookup_conflict kept.consistent found named
  · intro i stream found none
    have unreserved : stream.reservation = Option.none :=
      none.elim (fun rejected => (kept.coherent i stream found).unreserved (.inr rejected)) id
    exact effectless i stream found (by simp [Stream.harmless, unreserved])
  · intro i stream job found reserved uploaded
    exact ⟨effectless i stream found (by simp [Stream.harmless, reserved, uploaded]),
      fun phase => reserve_replay found reserved phase uploaded⟩

/-- One call is accepted; of three later ones under its id one is replayed, one meets its lock
and one conflicts.
-/
theorem submit_idempotent_replayed
    : let config := Config.onePool .rabbitmq
      let other := { SubmitOptions.wav "request" with format := "mp3" }
      let run := sample.play keepsSessions
        (uploadOnce [.chunk 0, .close 0, .eof 0]
          ++ [queueOnce, .leave 0, .submit 1 (.wav "request") [[9]], .lock 1,
            .submit 2 (.wav "request") [[9]], .lock 2, .lookup 1, .reserve 1 config 5, .leave 1,
            .submit 3 other [[9]], .lock 3, .lookup 3, .leave 3])
      [0, 1, 2, 3].map (fun i => (run.2.streams i).map Stream.phase)
          = [.accepted (Uuid.nth 0).text, .replayed (Uuid.nth 0).text, .busy, .conflict].map
            (fun outcome => some (.finished outcome))
        ∧ Idempotent sample run.1 run.2 :=
  ⟨by decide +kernel, submit_idempotent (play_run keepsSessions _ _)⟩

end Service

end Transcriber
