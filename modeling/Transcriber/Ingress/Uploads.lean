import Transcriber.Ingress.Retention

/-! The upload invariant: a queued, running or done job has its complete input file.
A stream reaches the rename with everything its client sent; the queued transition follows the
rename of the same job.
-/

namespace Transcriber

open Execution

/-- The job needs its input file. -/
def Status.ready : Status → Bool
  | .queued | .running | .done => true
  | .accepted | .downloading | .failed => false

/-- A row becomes ready only by its queueing. -/
theorem RowStep.ready {act : Option Act} {row next : JobRecord} (step : RowStep act row next)
    (ready : next.status.ready)
    : row.status.ready ∨ act = some .queue := by
  cases step with
  | queued => exact .inr rfl
  | keep | interrupted | acknowledged | redispatched => exact .inl ready
  | downloading | cancelled | exhausted =>
      simp [Sql.updateStatus, Sql.cancelJob, Sql.reap, Status.ready] at ready
  | claimed startable =>
      simp only [JobRecord.startable, Bool.and_eq_true] at startable
      have active := startable.1.1
      cases status : row.status <;> simp_all [Status.active, Status.ready]
  | delivered active =>
      cases status : row.status <;> simp_all [Status.active, Status.ready]
  | renewed selected =>
      simp only [Sql.heartbeat, Bool.and_eq_true] at selected
      simp [JobRecord.holdsLease_running selected.2, Status.ready]
  | completed selected =>
      simp only [Sql.complete, Bool.and_eq_true] at selected
      simp [JobRecord.holdsLease_running selected.2, Status.ready]
  | @failed row jobId token error retryable now dispatchId selected caller =>
      simp only [Sql.fail, Bool.and_eq_true, Bool.or_eq_true, decide_eq_true_eq] at selected
      obtain ⟨_, holds | ⟨anonymous, _⟩⟩ := selected
      · simp [JobRecord.holdsLease_running holds, Status.ready]
      · simp [Sql.fail, Sql.retries, caller anonymous, Status.ready] at ready

-----------------------------------------------------------------------------------------
-- The invariant
-----------------------------------------------------------------------------------------

/-- Before its partial file exists. -/
def SubmitPhase.early : SubmitPhase → Bool
  | .opened | .locked | .absent | .reserved | .sweeping => true
  | _ => false

/-- While its partial file grows towards the rename. -/
def SubmitPhase.uploads : SubmitPhase → Bool
  | .writing | .ended | .received => true
  | _ => false

/-- After the poll of `is_active()`. -/
def SubmitPhase.passed : SubmitPhase → Bool
  | .received | .published => true
  | _ => false

/-- After its upload, well or badly ended. -/
def SubmitPhase.over : SubmitPhase → Bool
  | .failing _ | .rejecting _ | .leaving _ | .finished _ => true
  | _ => false

/-- What a stream has read so far. -/
def Stream.data (stream : Stream) : Bytes := (stream.chunks.take stream.position).flatten

theorem Stream.data_read (stream : Stream) {data : Bytes}
    (available : stream.chunks[stream.position]? = some data) (total : Nat)
    : Stream.data { stream with position := stream.position + 1, total } = stream.data ++ data := by
  simp [Stream.data, List.take_add_one, available]

/-- A reservation is a placed job, and the stored row of that job has its path. -/
structure Service.Reserves (s : Service) (job : JobRecord) : Prop where
  placed : job.PlacedUnder s.storageRoot s.db
  agrees : ∀ row ∈ s.db.jobs, row.jobId = job.jobId → row.inputPath = job.inputPath

/-- One stream against the store and the volume. -/
structure Stream.Sound (s : Service) (i : Nat) (stream : Stream) : Prop where
  reserved : ∀ job, stream.reservation = some job → s.Reserves job
  unreserved : stream.phase.fresh → stream.reservation = none
  counted : stream.total = stream.data.length ∧ stream.total ≤ s.maxAudioBytes
  unread : stream.phase.early → stream.position = 0
  written
    : stream.phase.uploads
      → ∀ part, s.volume.partials i = some part → part.data = stream.data
  complete : stream.phase.passed → stream.complete
  published
    : stream.phase = .published
      → ∀ job,
          stream.reservation = some job
          → ∀ row ∈ s.db.jobs,
              row.jobId = job.jobId → (s.volume.inputs job.inputPath).isSome

/-- The bytes are everything that one completed stream of this job sent. -/
def Service.Whole (s : Service) (path : String) (bytes : Bytes) : Prop :=
  ∃ i stream job,
    s.streams i = some stream
    ∧ stream.reservation = some job
    ∧ job.inputPath = path
    ∧ stream.complete
    ∧ bytes = stream.chunks.flatten
    ∧ bytes.length ≤ s.maxAudioBytes

/-- The upload invariant. -/
structure Service.Sound (s : Service) : Prop extends s.Placed where
  streams : ∀ i stream, s.streams i = some stream → stream.Sound s i
  inputs : ∀ path bytes, s.volume.inputs path = some bytes → s.Whole path bytes
  ready : ∀ row ∈ s.db.jobs, row.status.ready → (s.volume.inputs row.inputPath).isSome

/-- A stream that takes no step stays sound when reservations stay good, its partial file is
not written, and published files stay.
-/
theorem Stream.Sound.transfer {s t : Service} {i : Nat} {stream : Stream}
    (sound : stream.Sound s i) (limit : t.maxAudioBytes = s.maxAudioBytes)
    (reserved : ∀ job, s.Reserves job → t.Reserves job)
    (parts
      : ∀ part, t.volume.partials i = some part → s.volume.partials i = some part)
    (rows
      : ∀ job,
          s.Reserves job
          → ∀ row ∈ t.db.jobs, row.jobId = job.jobId → ∃ old ∈ s.db.jobs, old.jobId = job.jobId)
    (files
      : ∀ job,
          s.Reserves job
          → ∀ row ∈ t.db.jobs,
              row.jobId = job.jobId
              → (s.volume.inputs job.inputPath).isSome
              → (t.volume.inputs job.inputPath).isSome)
    : stream.Sound t i where
  reserved job held := reserved job (sound.reserved job held)
  unreserved := sound.unreserved
  counted := limit ▸ sound.counted
  unread := sound.unread
  written uploads part found := sound.written uploads part (parts part found)
  complete := sound.complete
  published phase job held row member same := by
    have kept := sound.reserved job held
    obtain ⟨old, oldMember, oldSame⟩ := rows job kept row member same
    exact files job kept row member same (sound.published phase job held old oldMember oldSame)

namespace Service

theorem Sound.empty (storageRoot : String) (maxAudioBytes : Nat) (hashtext : String → Int)
    (clock : Int)
    : (Service.empty storageRoot maxAudioBytes hashtext clock).Sound where
  toPlaced := .empty storageRoot maxAudioBytes hashtext clock
  streams := by simp [Service.empty]
  inputs := by simp [Service.empty]
  ready := by simp [Service.empty, Db.empty]

/-- What a later state of a stream keeps for the files that it published. -/
structure Continues (stream next : Stream) : Prop where
  chunks : next.chunks = stream.chunks
  reservation : ∀ job, stream.reservation = some job → next.reservation = some job
  complete : stream.complete → next.complete

theorem Continues.of_found {s : Service} {i : Nat} {stream next : Stream}
    (found : s.streams i = some stream) (continues : Continues stream next)
    : ∀ other, s.streams i = some other → Continues other next := by
  intro other same
  exact Option.some.inj (found.symm.trans same) ▸ continues

theorem Continues.refl (stream : Stream) : Continues stream stream :=
  ⟨rfl, fun _ reserved => reserved, id⟩

/-- A whole file stays whole when its stream goes on. -/
theorem Whole.mono {s t : Service} {path : String} {bytes : Bytes} (whole : s.Whole path bytes)
    (limit : t.maxAudioBytes = s.maxAudioBytes)
    (streams
      : ∀ i stream,
          s.streams i = some stream
          → ∃ next, t.streams i = some next ∧ Continues stream next)
    : t.Whole path bytes := by
  obtain ⟨i, stream, job, found, reserved, same, complete, content, size⟩ := whole
  obtain ⟨next, foundNext, continues⟩ := streams i stream found
  refine ⟨i, next, job, foundNext, continues.reservation job reserved, same,
    continues.complete complete, ?_, limit ▸ size⟩
  rw [continues.chunks]
  exact content

-----------------------------------------------------------------------------------------
-- Steps that leave the files alone
-----------------------------------------------------------------------------------------

/-- A step of one stream, which may write its partial file and publish it. -/
theorem Sound.move {s t : Service} {i : Nat} {next : Stream} (kept : s.Sound)
    (continues : ∀ stream, s.streams i = some stream → Continues stream next)
    (same : s.SameStore t)
    (streams : t.streams = Function.update s.streams i (some next))
    (parts : ∀ j, j ≠ i → t.volume.partials j = s.volume.partials j)
    (stays : ∀ path, (s.volume.inputs path).isSome → (t.volume.inputs path).isSome)
    (whole
      : ∀ path bytes,
          t.volume.inputs path = some bytes
          → s.volume.inputs path = some bytes ∨ t.Whole path bytes)
    (sound : next.Sound t i)
    : t.Sound := by
  refine ⟨kept.toPlaced.sameStore same, ?_, ?_, ?_⟩
  · intro j other foundOther
    rcases eq_or_ne j i with rfl | differs
    · simp only [streams, Function.update_self, Option.some.injEq] at foundOther
      exact foundOther ▸ sound
    · simp only [streams, Function.update_of_ne differs] at foundOther
      refine (kept.streams j other foundOther).transfer same.limit ?_ ?_ ?_ ?_
      · exact fun job reserves =>
          ⟨same.db ▸ same.root ▸ reserves.placed, same.db ▸ reserves.agrees⟩
      · exact fun part linked => parts j differs ▸ linked
      · exact fun _ _ row member named => ⟨row, same.db ▸ member, named⟩
      · exact fun job _ _ _ _ => stays job.inputPath
  · intro path bytes stored
    rcases whole path bytes stored with old | new
    · refine (kept.inputs path bytes old).mono same.limit ?_
      intro j other foundOther
      rcases eq_or_ne j i with rfl | differs
      · exact ⟨next, by simp [streams], continues other foundOther⟩
      · exact ⟨other, by simpa [streams, differs] using foundOther, .refl other⟩
    · exact new
  · intro row member ready
    exact stays row.inputPath (kept.ready row (same.db ▸ member) ready)

/-- A step of one stream alone. -/
theorem Sound.setStream {s : Service} {i : Nat} {next : Stream} (kept : s.Sound)
    (continues : ∀ stream, s.streams i = some stream → Continues stream next)
    (sound : next.Sound s i)
    : (s.setStream i next).Sound := by
  refine kept.move continues ⟨⟨rfl, rfl, rfl⟩, rfl, rfl⟩ rfl (fun _ _ => rfl) (fun _ file => file)
    (fun _ _ stored => .inl stored) ?_
  exact sound.transfer rfl (fun _ reserves => ⟨reserves.placed, reserves.agrees⟩)
    (fun _ part => part) (fun _ _ row member same => ⟨row, member, same⟩)
    (fun _ _ _ _ _ file => file)

/-- Locks are no part of the invariant. -/
theorem Sound.setLock {s : Service} (kept : s.Sound) (key : Int) (holder : Option Nat)
    : (s.setLock key holder).Sound := by
  refine ⟨kept.toPlaced.sameStore ⟨⟨rfl, rfl, rfl⟩, rfl, rfl⟩, ?_, kept.inputs, kept.ready⟩
  intro i stream found
  exact (kept.streams i stream found).transfer rfl
    (fun _ reserves => ⟨reserves.placed, reserves.agrees⟩) (fun _ part => part)
    (fun _ _ row member same => ⟨row, member, same⟩) (fun _ _ _ _ _ file => file)

/-- A reservation outlives every step of the store. -/
theorem Reserves.store {s t : Service} {event : Event} {job : JobRecord}
    (reserves : s.Reserves job) (consistent : s.db.Consistent) (step : s.db.Step event t.db)
    (root : t.storageRoot = s.storageRoot)
    : t.Reserves job
      ∧ ∀ row ∈ t.db.jobs,
          row.jobId = job.jobId → ∃ old ∈ s.db.jobs, old.jobId = job.jobId := by
  have outcome := step.outcome consistent.distinct consistent.held
  obtain ⟨⟨uuid, known, id, path⟩, agrees⟩ := reserves
  have origin (row : JobRecord) (member : row ∈ t.db.jobs) (same : row.jobId = job.jobId)
      : ∃ old ∈ s.db.jobs, old.jobId = job.jobId ∧ row.inputPath = old.inputPath := by
    obtain ⟨old, oldMember, rowStep⟩ := outcome.change.known_origin consistent
      (step.consistent consistent) known member (same.trans id)
    exact ⟨old, oldMember, rowStep.jobId.symm.trans same, rowStep.fixed.2.2.1⟩
  refine ⟨⟨⟨uuid, outcome.drawn uuid known, id, root ▸ path⟩, ?_⟩, ?_⟩
  · intro row member same
    obtain ⟨old, oldMember, oldSame, samePath⟩ := origin row member same
    exact samePath.trans (agrees old oldMember oldSame)
  · intro row member same
    obtain ⟨old, oldMember, oldSame, _⟩ := origin row member same
    exact ⟨old, oldMember, oldSame⟩

/-- A step of the store alone, which queues a job only with its file in place. -/
theorem Sound.stored {s t : Service} {config : Config} {op : Op} {reply : Reply}
    (kept : s.Sound) (stored : s.Stored config op reply t) (volume : t.volume = s.volume)
    (streams : t.streams = s.streams)
    (queued
      : ∀ row ∈ s.db.jobs,
          Event.act? ⟨config, op, reply⟩ row.jobId = some .queue
          → (s.volume.inputs row.inputPath).isSome)
    : t.Sound := by
  have step : s.db.Step ⟨config, op, reply⟩ t.db := stored.done
  have consistent := step.consistent kept.consistent
  have outcome := step.outcome kept.consistent.distinct kept.consistent.held
  refine ⟨kept.toPlaced.stored stored, ?_, ?_, ?_⟩
  · intro i stream found
    rw [streams] at found
    refine (kept.streams i stream found).transfer stored.limit ?_ ?_ ?_ ?_
    · exact fun job reserves => (reserves.store kept.consistent step stored.root).1
    · exact fun part linked => volume ▸ linked
    · exact fun job reserves => (reserves.store kept.consistent step stored.root).2
    · exact fun job _ _ _ _ file => volume ▸ file
  · intro path bytes present
    refine (kept.inputs path bytes (volume ▸ present)).mono stored.limit ?_
    exact fun i stream found => ⟨stream, streams ▸ found, .refl stream⟩
  · intro row member ready
    rw [volume]
    rcases outcome.change.origin kept.consistent (Db.job?_of_mem consistent.distinct member)
      with ⟨old, found, rowStep⟩ | ⟨_, _, options, newId, now, called, fresh, rfl⟩
    · obtain ⟨oldMember, same⟩ := Db.job?_mem found
      rw [rowStep.fixed.2.2.1]
      rcases rowStep.ready ready with wasReady | queue
      · exact kept.ready old oldMember wasReady
      · exact queued old oldMember (same ▸ queue)
    · simp [JobRecord.created, Status.ready] at ready

end Service

end Transcriber
