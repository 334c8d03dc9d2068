import Transcriber.Ingress.Publication
import Transcriber.Worker.Process

/-! Where audio and options come from. What a reservation, a claim or an open file says about its
job stays true in every later state of the service, also once the job is deleted.
-/

namespace Transcriber

open Execution

-----------------------------------------------------------------------------------------
-- Options of the engine
-----------------------------------------------------------------------------------------

structure EngineOptions where
  preset : String
  language : String
  initialPrompt : String
  deriving DecidableEq, Repr

def SubmitOptions.engineOptions (options : SubmitOptions) : EngineOptions :=
  ⟨options.preset, options.languageOverride, options.initialPromptOverride⟩

def JobRecord.engineOptions (row : JobRecord) : EngineOptions :=
  ⟨row.preset, row.languageOverride, row.initialPromptOverride⟩

def ClaimResponse.engineOptions (claim : ClaimResponse) : EngineOptions :=
  ⟨claim.preset, claim.language, claim.initialPrompt⟩

def EngineCall.engineOptions (call : EngineCall) : EngineOptions :=
  ⟨call.preset, call.language, call.initialPrompt⟩

/-- The engine call for everything that a stream sent, with the options that its client asked for.
-/
def Stream.engineCall (stream : Stream) : EngineCall :=
  ⟨stream.chunks.flatten, stream.options.preset, stream.options.languageOverride,
    stream.options.initialPromptOverride⟩

theorem JobRecord.engineOptions_identity (row : JobRecord)
    : row.engineOptions = row.identity.engineOptions :=
  rfl

/-- The comparison of `reserve_upload` covers the options of the engine. -/
theorem SubmitOptions.engineOptions_of_sameUpload {options : SubmitOptions} {job : JobRecord}
    (same : options.sameUpload job)
    : job.engineOptions = options.engineOptions := by
  simp only [sameUpload, Bool.and_eq_true, decide_eq_true_eq] at same
  simp [JobRecord.engineOptions, SubmitOptions.engineOptions, same]

theorem EngineCall.ext_options {call : EngineCall} {stream : Stream}
    (audio : call.audio = stream.chunks.flatten)
    (options : call.engineOptions = stream.options.engineOptions)
    : call = stream.engineCall := by
  obtain ⟨bytes, preset, language, initialPrompt⟩ := call
  cases options
  cases audio
  rfl

-----------------------------------------------------------------------------------------
-- Later states of the service
-----------------------------------------------------------------------------------------

/-- A stream goes on with what it sent and reserved; no complete stream reads on. -/
theorem StreamStep.continues {label : Label} {stream next : Stream}
    (step : StreamStep label stream next)
    (unreserved : stream.phase.fresh → stream.reservation = none)
    (unread : ∀ i, label = .chunk i → ¬stream.complete)
    : Service.Continues stream next ∧ next.options = stream.options := by
  cases step with
  | found phase | created phase =>
      have none := unreserved (by simp [phase, SubmitPhase.fresh])
      exact ⟨⟨rfl, by simp [none], id⟩, rfl⟩
  | @read i => exact ⟨⟨rfl, fun _ reserved => reserved, fun whole => absurd whole (unread i rfl)⟩, rfl⟩
  | closed => exact ⟨⟨rfl, fun _ reserved => reserved, fun whole => ⟨rfl, whole.2⟩⟩, rfl⟩
  | _ => exact ⟨⟨rfl, fun _ reserved => reserved, id⟩, rfl⟩

namespace Service

/-- What a later state keeps: drawn ids, the submission in every row of such an id, and what
streams have sent and reserved.
-/
structure Follows (s t : Service) : Prop where
  root : t.storageRoot = s.storageRoot
  limit : t.maxAudioBytes = s.maxAudioBytes
  drawn : ∀ uuid ∈ s.db.drawn, uuid ∈ t.db.drawn
  rows
    : ∀ uuid ∈ s.db.drawn,
        ∀ next ∈ t.db.jobs,
          next.jobId = uuid.text
          → ∃ row ∈ s.db.jobs, row.jobId = uuid.text ∧ next.identity = row.identity
  streams
    : ∀ i stream,
        s.streams i = some stream
        → ∃ next,
            t.streams i = some next ∧ Continues stream next ∧ next.options = stream.options

theorem Follows.refl (s : Service) : s.Follows s where
  root := rfl
  limit := rfl
  drawn := fun _ known => known
  rows := fun _ _ next member named => ⟨next, member, named, rfl⟩
  streams := fun _ stream found => ⟨stream, found, .refl stream, rfl⟩

/-- A step of the store alone. -/
theorem Follows.of_db {s t : Service} {event : Event} (consistent : s.db.Consistent)
    (step : s.db.Step event t.db) (same : s.SameSettings t)
    (streams
      : ∀ i stream,
          s.streams i = some stream
          → ∃ next,
              t.streams i = some next ∧ Continues stream next ∧ next.options = stream.options)
    : s.Follows t := by
  have outcome := step.outcome consistent.distinct consistent.held
  refine ⟨same.root, same.limit, outcome.drawn, ?_, streams⟩
  intro uuid known next member named
  obtain ⟨row, stored, rowStep⟩ :=
    outcome.change.known_origin consistent (step.consistent consistent) known member named
  exact ⟨row, stored, rowStep.jobId.symm.trans named, rowStep.fixed.2.1⟩

/-- Every step of the ingress, by what it does to the store and to the streams. -/
theorem Sound.follows {s t : Service} {label : Label} (kept : s.Sound) (step : s.Step label t)
    : s.Follows t := by
  have streams : ∀ i stream,
      s.streams i = some stream
      → ∃ next,
          t.streams i = some next ∧ Continues stream next ∧ next.options = stream.options := by
    intro i stream found
    cases step.streamMove with
    | kept streams => exact ⟨stream, by rw [streams, found], .refl stream, rfl⟩
    | opened j options chunks _ unused streams =>
        have differs : i ≠ j := by
          rintro rfl
          simp [unused] at found
        exact ⟨stream, by simp [streams, differs, found], .refl stream, rfl⟩
    | moved j own next mine before move streams =>
        rcases eq_or_ne i j with rfl | differs
        · obtain rfl := Option.some.inj (found.symm.trans before)
          refine ⟨next, by simp [streams], move.continues (kept.streams i stream found).unreserved ?_⟩
          rintro j rfl complete
          obtain ⟨other, _, reading, _, _, done⟩ := onJob_spec step
          obtain rfl := Option.some.inj mine
          obtain rfl := Option.some.inj (found.symm.trans reading)
          split at done
          · cases done
          · rename_i data available
            have unread := (List.getElem?_eq_some_iff.mp available).1
            exact absurd complete.2 (Nat.ne_of_lt unread)
        · exact ⟨stream, by simp [streams, differs, found], .refl stream, rfl⟩
  rcases step.stored with same | ⟨config, op, reply, stored, _⟩
  · refine ⟨same.root, same.limit, fun uuid known => same.db ▸ known, ?_, streams⟩
    intro uuid known next member named
    exact ⟨next, same.db ▸ member, named, rfl⟩
  · have called : s.db.Step ⟨config, op, reply⟩ t.db := stored.done
    exact .of_db kept.consistent called stored.toSameSettings streams

-----------------------------------------------------------------------------------------
-- What is known of a job
-----------------------------------------------------------------------------------------

/-- Whatever row the job has was submitted with these options. -/
structure Knows (s : Service) (jobId : String) (options : EngineOptions) : Prop where
  drawn : ∃ uuid ∈ s.db.drawn, jobId = uuid.text
  agrees : ∀ row ∈ s.db.jobs, row.jobId = jobId → row.engineOptions = options

theorem Knows.follows {s t : Service} {jobId : String} {options : EngineOptions}
    (knows : s.Knows jobId options) (follows : s.Follows t)
    : t.Knows jobId options := by
  obtain ⟨⟨uuid, known, rfl⟩, agrees⟩ := knows
  refine ⟨⟨uuid, follows.drawn uuid known, rfl⟩, ?_⟩
  intro next member named
  obtain ⟨row, stored, same, identity⟩ := follows.rows uuid known next member named
  rw [← agrees row stored same, next.engineOptions_identity, identity]
  rfl

theorem Knows.of_row {s : Service} {row : JobRecord} (consistent : s.db.Consistent)
    (member : row ∈ s.db.jobs)
    : s.Knows row.jobId row.engineOptions := by
  refine ⟨consistent.known row member, ?_⟩
  intro other stored same
  rw [consistent.distinct.eq stored member same]

/-- The audio is everything that one complete stream of the job sent. -/
def Sent (s : Service) (jobId : String) (audio : Bytes) : Prop :=
  ∃ i stream job,
    s.streams i = some stream
    ∧ stream.reservation = some job
    ∧ job.jobId = jobId
    ∧ stream.complete
    ∧ audio = stream.chunks.flatten
    ∧ audio.length ≤ s.maxAudioBytes

theorem Sent.follows {s t : Service} {jobId : String} {audio : Bytes} (sent : s.Sent jobId audio)
    (follows : s.Follows t)
    : t.Sent jobId audio := by
  obtain ⟨i, stream, job, found, reserved, same, complete, content, size⟩ := sent
  obtain ⟨next, foundNext, continues, _⟩ := follows.streams i stream found
  refine ⟨i, next, job, foundNext, continues.reservation job reserved, same,
    continues.complete complete, ?_, follows.limit ▸ size⟩
  rw [continues.chunks]
  exact content

/-- The path of a stored row, or of one that was stored, under its job. -/
def PathOf (s : Service) (jobId inputPath : String) : Prop :=
  ∃ uuid ∈ s.db.drawn,
    jobId = uuid.text ∧ ∃ format, inputPath = audioPath s.storageRoot uuid.text format

theorem PathOf.follows {s t : Service} {jobId inputPath : String} (path : s.PathOf jobId inputPath)
    (follows : s.Follows t)
    : t.PathOf jobId inputPath := by
  obtain ⟨uuid, known, named, format, same⟩ := path
  exact ⟨uuid, follows.drawn uuid known, named, format, follows.root ▸ same⟩

theorem PathOf.of_placed {s : Service} {job : JobRecord}
    (placed : job.PlacedUnder s.storageRoot s.db)
    : s.PathOf job.jobId job.inputPath := by
  obtain ⟨uuid, known, named, path⟩ := placed
  exact ⟨uuid, known, named, job.format, path⟩

/-- A published file is whole, and of the job in its path. -/
theorem Sound.sent {s : Service} {jobId inputPath : String} {audio : Bytes} (kept : s.Sound)
    (path : s.PathOf jobId inputPath) (file : s.volume.inputs inputPath = some audio)
    : s.Sent jobId audio := by
  obtain ⟨i, stream, job, found, reserved, same, complete, content, size⟩ :=
    kept.inputs inputPath audio file
  obtain ⟨uuid, _, rfl, format, rfl⟩ := path
  obtain ⟨own, _, named, placed⟩ := ((kept.streams i stream found).reserved job reserved).placed
  refine ⟨i, stream, job, found, reserved, ?_, complete, content, size⟩
  rw [named, audioPath_uuid (placed.symm.trans same)]

-----------------------------------------------------------------------------------------
-- Reservations
-----------------------------------------------------------------------------------------

/-- Every reservation is of a job with the options that the client of the stream asked for. -/
def Asked (s : Service) : Prop :=
  ∀ i stream job,
    s.streams i = some stream
    → stream.reservation = some job
    → s.Knows job.jobId stream.options.engineOptions

theorem setStream_found {s : Service} {i j : Nat} {stream next : Stream}
    (found : (s.setStream j next).streams i = some stream)
    : i = j ∧ stream = next ∨ s.streams i = some stream := by
  rcases eq_or_ne i j with rfl | differs
  · simp only [setStream, Function.update_self, Option.some.injEq] at found
    exact .inl ⟨rfl, found.symm⟩
  · simp only [setStream, Function.update_of_ne differs] at found
    exact .inr found

/-- A reservation is old, or of a stored row that was compared with the options or made of them. -/
theorem Step.reserved {s t : Service} {label : Label} {i : Nat} {next : Stream} {job : JobRecord}
    (step : s.Step label t) (found : t.streams i = some next)
    (reserved : next.reservation = some job)
    : (∃ stream,
        s.streams i = some stream
        ∧ stream.reservation = some job
        ∧ next.options = stream.options)
      ∨ (job ∈ t.db.jobs ∧ job.engineOptions = next.options.engineOptions) := by
  cases reserves : label.reserves with
  | false =>
      rcases step.stream_frame reserves found with ⟨options, chunks, _, rfl⟩ | old
      · cases reserved
      · obtain ⟨stream, before, options, same, _⟩ := old
        exact .inl ⟨stream, before, same.symm.trans reserved, options⟩
  | true =>
      cases label with
      | lock j =>
          obtain ⟨stream, before, _, done⟩ := on_spec step
          repeat' split at done
          all_goals
            cases done
            rcases setStream_found found with ⟨rfl, rfl⟩ | old
            · exact .inl ⟨stream, before, reserved, rfl⟩
            · exact .inl ⟨next, old, reserved, rfl⟩
      | lookup j =>
          obtain ⟨stream, before, _, done⟩ := on_spec step
          repeat' split at done
          all_goals cases done
          all_goals rcases setStream_found found with ⟨rfl, rfl⟩ | old
          all_goals try exact .inl ⟨next, old, reserved, rfl⟩
          · exact .inl ⟨stream, before, reserved, rfl⟩
          · exact .inl ⟨stream, before, reserved, rfl⟩
          · cases reserved
            have stored : s.db.upload? stream.options.requestId = some job := by assumption
            have same : stream.options.sameUpload job := by assumption
            exact .inr ⟨Table.lookup_mem stored, SubmitOptions.engineOptions_of_sameUpload same⟩
          · exact .inl ⟨stream, before, reserved, rfl⟩
      | create j config jobId now =>
          obtain ⟨stream, before, _, done⟩ := on_spec step
          repeat' split at done
          all_goals cases done
          all_goals rcases setStream_found found with ⟨rfl, rfl⟩ | old
          all_goals try exact .inl ⟨next, old, reserved, rfl⟩
          · rename_i created
            cases reserved
            refine .inr ⟨?_, rfl⟩
            rcases (Db.createJob_spec created).2 with ⟨_, jobs⟩ | ⟨violated, _⟩
            · simp [setStream, jobs]
            · cases violated
          · exact .inl ⟨stream, before, reserved, rfl⟩
      | _ => cases reserves

/-- A new reservation is of a stored row, which the later state knows. -/
theorem Asked.step {s t : Service} {label : Label} (asked : s.Asked) (kept : s.Sound)
    (consistent : t.db.Consistent) (step : s.Step label t)
    : t.Asked := by
  intro i next job found reserved
  rcases step.reserved found reserved with ⟨stream, before, held, options⟩ | ⟨member, options⟩
  · rw [options]
    exact (asked i stream job before held).follows (kept.follows step)
  · rw [← options]
    exact .of_row consistent member

/-- A step of the store alone keeps what streams asked for. -/
theorem Asked.follows {s t : Service} (asked : s.Asked) (follows : s.Follows t)
    (streams : t.streams = s.streams)
    : t.Asked := by
  intro i stream job found reserved
  exact (asked i stream job (streams ▸ found) reserved).follows follows

/-- The engine call on what was sent for a stored row is the call that its client asked for. -/
theorem Asked.engineCall {s : Service} (asked : s.Asked) {row : JobRecord} {call : EngineCall}
    (member : row ∈ s.db.jobs) (sent : s.Sent row.jobId call.audio)
    (knows : s.Knows row.jobId call.engineOptions)
    : ∃ i stream job,
        s.streams i = some stream
        ∧ stream.reservation = some job
        ∧ job.jobId = row.jobId
        ∧ stream.complete
        ∧ call = stream.engineCall
        ∧ stream.chunks.flatten.length ≤ s.maxAudioBytes := by
  obtain ⟨i, stream, job, found, reserved, same, complete, content, size⟩ := sent
  have options := (asked i stream job found reserved).agrees row member same.symm
  rw [knows.agrees row member rfl] at options
  exact ⟨i, stream, job, found, reserved, same, complete,
    EngineCall.ext_options content options, content ▸ size⟩

end Service

end Transcriber
