import Transcriber.Ingress.Uploads

/-! Every step of the ingress keeps the upload invariant, provided that the poll of
`is_active()` passes complete streams only.
-/

namespace Transcriber

open Execution

namespace Service

-----------------------------------------------------------------------------------------
-- Steps of one stream
-----------------------------------------------------------------------------------------

/-- A stream that only goes on to another phase. -/
theorem Sound.setPhase {s : Service} {i : Nat} {stream : Stream} (kept : s.Sound)
    (found : s.streams i = some stream) (phase : SubmitPhase)
    (fresh : phase.fresh → stream.phase.fresh) (unread : phase.early → stream.phase.early)
    (written : phase.uploads → stream.phase.uploads)
    (complete : phase.passed → stream.complete) (published : phase ≠ .published)
    : (s.setStream i { stream with phase }).Sound := by
  have sound := kept.streams i stream found
  refine kept.setStream (.of_found found ⟨rfl, fun _ reserved => reserved, id⟩) ?_
  exact ⟨sound.reserved, fun early => sound.unreserved (fresh early), sound.counted,
    fun early => sound.unread (unread early), fun uploads => sound.written (written uploads),
    complete, fun now => absurd now published⟩

/-- A stream whose upload ends, well or badly. -/
theorem Sound.endPhase {s : Service} {i : Nat} {stream : Stream} (kept : s.Sound)
    (found : s.streams i = some stream) (phase : SubmitPhase) (ended : phase.over)
    : (s.setStream i { stream with phase }).Sound := by
  cases phase with
  | failing | rejecting | leaving | finished =>
      exact kept.setPhase found _ (by simp [SubmitPhase.fresh]) (by simp [SubmitPhase.early])
        (by simp [SubmitPhase.uploads]) (by simp [SubmitPhase.passed]) (by simp)
  | _ => cases ended

theorem Sound.submit {s t : Service} {i : Nat} {options : SubmitOptions}
    {chunks : List Bytes} (kept : s.Sound) (done : s.submit i options chunks = some t)
    : t.Sound := by
  unfold Service.submit at done
  split at done
  · cases done
  rename_i unused
  simp only [Bool.or_eq_true, not_or, Bool.not_eq_true, Option.isSome_eq_false_iff,
    Option.isNone_iff_eq_none] at unused
  cases done
  refine kept.setStream ?_ ?_
  · intro stream found
    simp [unused.1] at found
  · constructor <;> simp [Stream.new, Stream.data, SubmitPhase.uploads, SubmitPhase.passed]

theorem Sound.lock {s t : Service} {i : Nat} (kept : s.Sound) (done : s.lock i = some t)
    : t.Sound := by
  obtain ⟨stream, found, phase, done⟩ := on_spec done
  have goes := kept.setPhase found .locked (by simp [phase, SubmitPhase.fresh])
    (by simp [phase, SubmitPhase.early]) (by simp [SubmitPhase.uploads])
    (by simp [SubmitPhase.passed]) (by simp)
  split at done
  · cases done
    exact goes
  split at done
  · cases done
    exact kept.endPhase found _ rfl
  · cases done
    exact goes.setLock _ _

/-- A stored row may be reserved. -/
theorem Sound.reserves {s : Service} (kept : s.Sound) {row : JobRecord}
    (member : row ∈ s.db.jobs)
    : s.Reserves row := by
  refine ⟨(kept.rows row member).1, ?_⟩
  intro other stored same
  rw [kept.consistent.distinct.eq stored member same]

/-- A stream that gets its reservation. -/
theorem Sound.setReservation {s : Service} {i : Nat} {stream : Stream} {job : JobRecord}
    (kept : s.Sound) (found : s.streams i = some stream) (fresh : stream.phase.fresh)
    (member : job ∈ s.db.jobs)
    : (s.setStream i { stream with reservation := some job, phase := .reserved }).Sound := by
  have sound := kept.streams i stream found
  have early : stream.phase.early := by
    cases phase : stream.phase <;> simp_all [SubmitPhase.fresh, SubmitPhase.early]
  refine kept.setStream (.of_found found ⟨rfl, ?_, id⟩) ?_
  · intro other reserved
    simp [sound.unreserved fresh] at reserved
  · refine ⟨?_, by simp [SubmitPhase.fresh], sound.counted, fun _ => sound.unread early,
      by simp [SubmitPhase.uploads], by simp [SubmitPhase.passed], by simp⟩
    intro other same
    obtain rfl := Option.some.inj same
    exact kept.reserves member

theorem Sound.lookup {s t : Service} {i : Nat} (kept : s.Sound) (done : s.lookup i = some t)
    : t.Sound := by
  obtain ⟨stream, found, phase, done⟩ := on_spec done
  have absent := kept.setPhase found .absent (by simp [phase, SubmitPhase.fresh])
    (by simp [phase, SubmitPhase.early]) (by simp [SubmitPhase.uploads])
    (by simp [SubmitPhase.passed]) (by simp)
  split at done
  · cases done
    exact absent
  split at done
  · cases done
  split at done
  · cases done
    exact absent
  · rename_i job stored
    split at done
    · cases done
      exact kept.setReservation found (by simp [phase, SubmitPhase.fresh])
        (Table.lookup_mem stored)
    · cases done
      exact kept.endPhase found _ rfl

/-- An operation of a stream on the store, which queues a job only with its file in place. -/
theorem Sound.exec {s : Service} {config : Config} {op : Op} {reply : Reply} {db : Db}
    (kept : s.Sound) (done : s.db.exec config op = some (db, reply))
    (called : s.Called config op) (nothing : removedFiles op reply = [])
    (queued
      : ∀ row ∈ s.db.jobs,
          Event.act? ⟨config, op, reply⟩ row.jobId = some .queue
          → (s.volume.inputs row.inputPath).isSome)
    : ({ s with db } : Service).Sound := by
  have stored : s.Stored config op reply { s with db } :=
    ⟨⟨rfl, rfl, rfl⟩, done, called, by rw [nothing]; rfl⟩
  exact kept.stored stored rfl rfl queued

theorem Sound.create {s t : Service} {i : Nat} {config : Config} {jobId : Uuid} {now : Int}
    (kept : s.Sound) (done : s.create i config jobId now = some t)
    : t.Sound := by
  obtain ⟨stream, found, phase, done⟩ := on_spec done
  split at done
  · cases done
  rename_i sameRoot
  have called : s.Called config (.createJob stream.options jobId now) :=
    ⟨fun _ _ _ _ => by simpa using sameRoot, by simp⟩
  split at done
  · cases done
  · rename_i created
    cases done
    refine (kept.exec created called rfl (by simp [Event.act?])).setReservation found
      (by simp [phase, SubmitPhase.fresh]) ?_
    rcases (Db.createJob_spec created).2 with ⟨_, jobs⟩ | ⟨violated, _⟩
    · simp [jobs]
    · cases violated
  · rename_i created
    cases done
    exact (kept.exec created called rfl (by simp [Event.act?])).endPhase found _ rfl

theorem Sound.reserve {s t : Service} {i : Nat} {config : Config} {now : Int}
    (kept : s.Sound) (done : s.reserve i config now = some t)
    : t.Sound := by
  obtain ⟨stream, job, found, phase, _, done⟩ := onJob_spec done
  split at done
  · cases done
    exact kept.endPhase found _ rfl
  · obtain ⟨⟨db, reply⟩, executed, rfl⟩ := Option.map_eq_some_iff.mp done
    have stored := kept.exec executed ⟨by simp, by simp⟩ rfl (by simp [Event.act?])
    exact stored.setPhase found .sweeping (by simp [SubmitPhase.fresh])
      (by simp [phase, SubmitPhase.early]) (by simp [SubmitPhase.uploads])
      (by simp [SubmitPhase.passed]) (by simp)

/-- A partial file is unlinked. -/
theorem Sound.dropPart {s : Service} (kept : s.Sound) (i : Nat) : (s.setPart i none).Sound := by
  refine ⟨kept.toPlaced.sameStore ⟨⟨rfl, rfl, rfl⟩, rfl, rfl⟩, ?_, kept.inputs, kept.ready⟩
  intro j stream found
  refine (kept.streams j stream found).transfer rfl
    (fun _ reserves => ⟨reserves.placed, reserves.agrees⟩) ?_
    (fun _ _ row member same => ⟨row, member, same⟩) (fun _ _ _ _ _ file => file)
  intro part linked
  rcases eq_or_ne j i with rfl | differs
  · simp [Service.setPart] at linked
  · simpa [Service.setPart, differs] using linked

theorem Sound.unlink {s t : Service} {i other : Nat} (kept : s.Sound)
    (done : s.unlink i other = some t)
    : t.Sound := by
  obtain ⟨stream, job, _, _, _, done⟩ := onJob_spec done
  split at done
  · cases done
  split at done
  · cases done
    exact kept.dropPart other
  · cases done

/-- A stream writes its own partial file. -/
theorem Sound.setPart {s : Service} {i : Nat} {stream : Stream} (kept : s.Sound)
    (found : s.streams i = some stream) (next : Stream) (part : Option Partial)
    (continues : Continues stream next) (phase : next.phase.uploads && !next.phase.passed)
    (reserved : next.reservation = stream.reservation)
    (counted : next.total = next.data.length ∧ next.total ≤ s.maxAudioBytes)
    (written : ∀ linked, part = some linked → linked.data = next.data)
    : ((s.setPart i part).setStream i next).Sound := by
  have sound := kept.streams i stream found
  refine kept.move (.of_found found continues) ⟨⟨rfl, rfl, rfl⟩, rfl, rfl⟩ rfl ?_ (fun _ file => file)
    (fun _ _ stored => .inl stored) ?_
  · intro j differs
    simp [Service.setPart, Service.setStream, differs]
  have named (job : JobRecord) (held : next.reservation = some job)
      : ((s.setPart i part).setStream i next).Reserves job := by
    have reserves := sound.reserved job (reserved ▸ held)
    exact ⟨reserves.placed, reserves.agrees⟩
  have linked (own : Partial)
      (stored : ((s.setPart i part).setStream i next).volume.partials i = some own)
      : part = some own := by
    simpa [Service.setPart, Service.setStream] using stored
  refine ⟨named, ?_, counted, ?_, fun _ own stored => written own (linked own stored), ?_, ?_⟩
  all_goals
    cases now : next.phase <;>
      simp_all [SubmitPhase.fresh, SubmitPhase.early, SubmitPhase.uploads, SubmitPhase.passed]

theorem Sound.openPart {s t : Service} {i : Nat} (kept : s.Sound)
    (done : s.openPart i = some t)
    : t.Sound := by
  obtain ⟨stream, job, found, phase, _, done⟩ := onJob_spec done
  have sound := kept.streams i stream found
  have unread : stream.position = 0 := sound.unread (by simp [phase, SubmitPhase.early])
  cases done
  refine kept.setPart found { stream with phase := .writing } (some ⟨job.inputPath, []⟩)
    ⟨rfl, fun _ reserved => reserved, id⟩ rfl rfl sound.counted ?_
  rintro linked same
  cases same
  simp [Stream.data, unread]

theorem Sound.chunk {s t : Service} {i : Nat} (kept : s.Sound) (done : s.chunk i = some t)
    : t.Sound := by
  obtain ⟨stream, job, found, phase, _, done⟩ := onJob_spec done
  have sound := kept.streams i stream found
  split at done
  · cases done
  rename_i data available
  split at done
  · cases done
    exact kept.endPhase found _ rfl
  · rename_i fits
    cases done
    refine kept.setPart found
      { stream with position := stream.position + 1, total := stream.total + data.length } _
      ⟨rfl, fun _ reserved => reserved, ?_⟩ ?_ rfl ?_ ?_
    · intro complete
      have last : stream.position < stream.chunks.length :=
        (List.getElem?_eq_some_iff.mp available).1
      exact absurd complete.2 (by omega)
    · simp [phase, SubmitPhase.uploads, SubmitPhase.passed]
    · refine ⟨?_, Nat.not_lt.mp fits⟩
      rw [Stream.data_read stream available, List.length_append, ← sound.counted.1]
    · intro linked same
      obtain ⟨part, stored, rfl⟩ := Option.map_eq_some_iff.mp same
      rw [Stream.data_read stream available,
        sound.written (by simp [phase, SubmitPhase.uploads]) part stored]

theorem Sound.eof {s t : Service} {i : Nat} (kept : s.Sound) (done : s.eof i = some t)
    : t.Sound := by
  obtain ⟨stream, job, found, phase, _, done⟩ := onJob_spec done
  split at done
  · cases done
    exact kept.setPhase found .ended (by simp [SubmitPhase.fresh]) (by simp [SubmitPhase.early])
      (by simp [phase, SubmitPhase.uploads]) (by simp [SubmitPhase.passed]) (by simp)
  · cases done

/-- The poll keeps the invariant if it passes complete streams only. -/
theorem Sound.poll {s t : Service} {i : Nat} (kept : s.Sound)
    (whole
      : ∀ stream,
          s.streams i = some stream → stream.phase = .ended → stream.active → stream.complete)
    (done : s.poll i = some t)
    : t.Sound := by
  obtain ⟨stream, job, found, phase, _, done⟩ := onJob_spec done
  by_cases active : stream.active
  · simp only [if_pos active, Option.some.injEq] at done
    exact done ▸ kept.setPhase found .received (by simp [SubmitPhase.fresh])
      (by simp [SubmitPhase.early]) (by simp [phase, SubmitPhase.uploads])
      (fun _ => whole stream found phase active) (by simp)
  · simp only [if_neg active, Option.some.injEq] at done
    exact done ▸ kept.endPhase found _ rfl

/-- The rename publishes everything that the stream sent. -/
theorem Sound.rename {s t : Service} {i : Nat} (kept : s.Sound) (done : s.rename i = some t)
    : t.Sound := by
  obtain ⟨stream, job, found, phase, reserved, done⟩ := onJob_spec done
  have sound := kept.streams i stream found
  split at done
  · cases done
    exact kept.endPhase found _ rfl
  rename_i part linked
  cases done
  have complete := sound.complete (by simp [phase, SubmitPhase.passed])
  have data : part.data = stream.chunks.flatten := by
    rw [sound.written (by simp [phase, SubmitPhase.uploads]) part linked, Stream.data,
      complete.2, List.take_length]
  have size : part.data.length ≤ s.maxAudioBytes := by
    rw [sound.written (by simp [phase, SubmitPhase.uploads]) part linked, ← sound.counted.1]
    exact sound.counted.2
  have goes : Continues stream { stream with phase := .published } :=
    ⟨rfl, fun _ reserved => reserved, id⟩
  refine kept.move (.of_found found goes) ⟨⟨rfl, rfl, rfl⟩, rfl, rfl⟩ rfl ?_ ?_ ?_ ?_
  · intro j differs
    simp [Service.setPart, Service.setInput, Service.setStream, differs]
  · intro path stored
    by_cases same : path = job.inputPath
    · simp [Service.setPart, Service.setInput, Service.setStream, same]
    · simpa [Service.setPart, Service.setInput, Service.setStream, same] using stored
  · intro path bytes stored
    by_cases same : path = job.inputPath
    · refine .inr ⟨i, _, job, Function.update_self .., reserved, same.symm, complete, ?_, ?_⟩
      all_goals
        obtain rfl : part.data = bytes := by
          simpa [Service.setPart, Service.setInput, Service.setStream, same] using stored
      · exact data
      · exact size
    · exact .inl
        (by simpa [Service.setPart, Service.setInput, Service.setStream, same] using stored)
  · refine ⟨?_, by simp [SubmitPhase.fresh], sound.counted, by simp [SubmitPhase.early],
      by simp [SubmitPhase.uploads], fun _ => complete, ?_⟩
    · intro other held
      have reserves := sound.reserved other held
      exact ⟨reserves.placed, reserves.agrees⟩
    · intro _ other held _ _ _
      obtain rfl := Option.some.inj (reserved.symm.trans held)
      simp [Service.setPart, Service.setInput, Service.setStream]

theorem Sound.queue {s t : Service} {i : Nat} {config : Config} {messageId : Uuid}
    {now clock : Int} (kept : s.Sound) (done : s.queue i config messageId now clock = some t)
    : t.Sound := by
  obtain ⟨stream, job, found, phase, reserved, done⟩ := onJob_spec done
  have sound := kept.streams i stream found
  -- The file is in place: the stream renamed it, and nobody removes it under a stored row.
  have present : ∀ row ∈ s.db.jobs,
      row.jobId = job.jobId → (s.volume.inputs row.inputPath).isSome := by
    intro row member same
    rw [(sound.reserved job reserved).agrees row member same]
    exact sound.published phase job reserved row member same
  have queued (reply : Reply)
      : ∀ row ∈ s.db.jobs,
          Event.act? ⟨config, .markQueued job.jobId messageId now clock, reply⟩ row.jobId
              = some .queue
          → (s.volume.inputs row.inputPath).isSome := by
    intro row member act
    obtain ⟨_, _, _, _, called, _⟩ := Event.act?_queue act
    exact present row member (Op.markQueued.inj called).1.symm
  split at done
  · cases done
  · rename_i executed
    cases done
    exact (kept.exec executed ⟨by simp, by simp⟩ rfl (queued _)).endPhase found _ rfl
  · rename_i executed
    cases done
    exact (kept.exec executed ⟨by simp, by simp⟩ rfl (queued _)).endPhase found _ rfl

-----------------------------------------------------------------------------------------
-- Errors and ends
-----------------------------------------------------------------------------------------

theorem Sound.raise {s t : Service} {i : Nat} {reason : Rejection} (kept : s.Sound)
    (done : s.raise i reason = some t)
    : t.Sound := by
  obtain ⟨stream, found, done⟩ := Option.bind_eq_some_iff.mp done
  repeat' split at done
  all_goals cases done
  all_goals exact kept.endPhase found _ rfl

theorem Sound.discard {s t : Service} {i : Nat} {reason : Rejection} (kept : s.Sound)
    (done : s.discard i reason = some t)
    : t.Sound := by
  obtain ⟨stream, job, found, _, _, done⟩ := onJob_spec done
  cases done
  exact (kept.dropPart i).endPhase found _ rfl

theorem Sound.reject {s t : Service} {i : Nat} {reason : Rejection} {config : Config}
    {messageId : Uuid} {now clock : Int} (kept : s.Sound)
    (done : s.reject i reason config messageId now clock = some t)
    : t.Sound := by
  obtain ⟨stream, job, found, _, _, done⟩ := onJob_spec done
  obtain ⟨⟨db, reply⟩, executed, rfl⟩ := Option.map_eq_some_iff.mp done
  have stored : ({ s with db } : Service).Sound := by
    split at executed
    · exact kept.exec executed ⟨by simp, by simp⟩ rfl (by simp [Event.act?])
    · refine kept.exec executed ⟨by simp, by simp⟩ rfl ?_
      intro row _ act
      obtain ⟨_, _, _, _, called, _⟩ := Event.act?_queue act
      cases called
  exact stored.endPhase found _ rfl

theorem Sound.abort {s t : Service} {i : Nat} (kept : s.Sound) (done : s.abort i = some t)
    : t.Sound := by
  obtain ⟨stream, found, done⟩ := Option.bind_eq_some_iff.mp done
  split at done <;> cases done
  all_goals exact kept.endPhase found _ rfl

theorem Sound.leave {s t : Service} {i : Nat} (kept : s.Sound) (done : s.leave i = some t)
    : t.Sound := by
  obtain ⟨stream, found, done⟩ := Option.bind_eq_some_iff.mp done
  repeat' split at done
  all_goals cases done
  · exact kept.endPhase found _ rfl
  · exact (kept.endPhase found _ rfl).setLock _ _
  · exact kept.endPhase found _ rfl

theorem Sound.release {s : Service} (kept : s.Sound) (i : Nat) (stream : Stream)
    : (s.release i stream).Sound := by
  unfold Service.release
  split
  · exact kept.setLock _ _
  · exact kept

theorem Sound.crash {s t : Service} {i : Nat} (kept : s.Sound) (done : s.crash i = some t)
    : t.Sound := by
  obtain ⟨stream, found, done⟩ := Option.bind_eq_some_iff.mp done
  split at done
  · cases done
  · cases done
    refine (kept.release i stream).endPhase ?_ _ rfl
    unfold Service.release
    split <;> exact found

-----------------------------------------------------------------------------------------
-- Clients, other operations on the store, file cleanup
-----------------------------------------------------------------------------------------

theorem Sound.store {s t : Service} {config : Config} {op : Op} (kept : s.Sound)
    (done : s.store config op = some t)
    : t.Sound := by
  unfold Service.store at done
  split at done
  · cases done
  rename_i free
  obtain ⟨⟨db, reply⟩, executed, rfl⟩ := Option.map_eq_some_iff.mp done
  have called : s.Called config op := by
    constructor
    · rintro options jobId now rfl
      simp [reservedOp] at free
    · rintro jobId token text segments resultPath now rfl
      simpa [reservedOp] using free
  refine kept.stored ⟨⟨rfl, rfl, rfl⟩, executed, called, rfl⟩ rfl rfl ?_
  intro row _ act
  obtain ⟨_, _, _, _, queues, _⟩ := Event.act?_queue act
  obtain rfl : op = _ := queues
  simp [reservedOp] at free

/-- What the client or its connection does to a stream. -/
theorem Sound.client {s : Service} {i : Nat} {stream next : Stream} (kept : s.Sound)
    (found : s.streams i = some stream) (chunks : next.chunks = stream.chunks)
    (position : next.position = stream.position) (total : next.total = stream.total)
    (reservation : next.reservation = stream.reservation) (phase : next.phase = stream.phase)
    (closed : stream.closed → next.closed)
    : (s.setStream i next).Sound := by
  have sound := kept.streams i stream found
  have data : next.data = stream.data := by rw [Stream.data, Stream.data, chunks, position]
  have complete : stream.complete → next.complete := by
    rintro ⟨ended, last⟩
    exact ⟨closed ended, by rw [position, chunks, last]⟩
  have continues : Continues stream next :=
    ⟨chunks, fun job reserved => reservation.trans reserved, complete⟩
  refine kept.setStream (.of_found found continues) ⟨?_, ?_, ?_, ?_, ?_, ?_, ?_⟩
  · rw [reservation]
    exact sound.reserved
  · rw [phase, reservation]
    exact sound.unreserved
  · rw [total, data]
    exact sound.counted
  · rw [phase, position]
    exact sound.unread
  · rw [phase, data]
    exact sound.written
  · rw [phase]
    exact fun passed => complete (sound.complete passed)
  · rw [phase, reservation]
    exact sound.published

/-- File cleanup removes the path of a deleted job, which no stored row has. -/
theorem Sound.removeInput {s : Service} {path : String} (kept : s.Sound)
    (listed : path ∈ s.removing)
    : (s.setInput path none).Sound := by
  have retired := kept.removing path listed
  have stays (job : JobRecord) (placed : job.PlacedUnder s.storageRoot s.db)
      (stored : ∃ row ∈ s.db.jobs, row.jobId = job.jobId)
      (file : (s.volume.inputs job.inputPath).isSome)
      : ((s.setInput path none).volume.inputs job.inputPath).isSome := by
    simpa [Service.setInput, retired.unused placed stored] using file
  refine ⟨kept.toPlaced.sameStore ⟨⟨rfl, rfl, rfl⟩, rfl, rfl⟩, ?_, ?_, ?_⟩
  · intro i stream found
    refine (kept.streams i stream found).transfer rfl
      (fun _ reserves => ⟨reserves.placed, reserves.agrees⟩) (fun _ part => part)
      (fun _ _ row member same => ⟨row, member, same⟩) ?_
    exact fun job reserves row member same => stays job reserves.placed ⟨row, member, same⟩
  · intro other bytes stored
    by_cases same : other = path
    · simp [Service.setInput, same] at stored
    · refine (kept.inputs other bytes ?_).mono rfl
        (fun i stream found => ⟨stream, found, .refl stream⟩)
      simpa [Service.setInput, same] using stored
  · intro row member ready
    exact stays row (kept.rows row member).1 ⟨row, member, rfl⟩ (kept.ready row member ready)

-----------------------------------------------------------------------------------------
-- The step function
-----------------------------------------------------------------------------------------

/-- A poll of `is_active()` passes complete streams only. -/
def PassesWhole (s : Service) (label : Label) : Prop :=
  ∀ i stream,
    label = .poll i
    → s.streams i = some stream
    → stream.phase = .ended
    → stream.active
    → stream.complete

/-- Every step keeps the upload invariant, by cases on the label. -/
theorem Sound.step {s t : Service} {label : Label} (kept : s.Sound)
    (whole : s.PassesWhole label) (step : s.Step label t)
    : t.Sound := by
  cases label with
  | submit => exact kept.submit step
  | lock => exact kept.lock step
  | lookup => exact kept.lookup step
  | create => exact kept.create step
  | reserve => exact kept.reserve step
  | unlink => exact kept.unlink step
  | openPart => exact kept.openPart step
  | chunk => exact kept.chunk step
  | eof => exact kept.eof step
  | poll i => exact kept.poll (fun stream => whole i stream rfl) step
  | rename => exact kept.rename step
  | queue => exact kept.queue step
  | raise => exact kept.raise step
  | discard => exact kept.discard step
  | reject => exact kept.reject step
  | abort => exact kept.abort step
  | leave => exact kept.leave step
  | crash => exact kept.crash step
  | cancel i | close i =>
      obtain ⟨stream, found, done⟩ := Option.bind_eq_some_iff.mp step
      split at done <;> cases done
      exact kept.client found rfl rfl rfl rfl rfl (by simp)
  | deactivate i =>
      obtain ⟨stream, found, rfl⟩ := Option.map_eq_some_iff.mp step
      exact kept.client found rfl rfl rfl rfl rfl id
  | loseLock i =>
      obtain ⟨stream, _, rfl⟩ := Option.map_eq_some_iff.mp step
      exact kept.release i stream
  | store => exact kept.store step
  | removeInput path =>
      simp only [Service.Step, next] at step
      split at step <;> cases step
      rename_i listed
      exact kept.removeInput listed
  | removePart path i =>
      simp only [Service.Step, next] at step
      repeat' split at step
      all_goals cases step
      exact kept.dropPart i

end Service

end Transcriber
