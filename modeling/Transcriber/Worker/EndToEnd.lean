import Transcriber.Worker.Provenance

/-! From the upload to the result: every stored result is what an engine returned for everything
that one client sent, with the options that this client asked for.
-/

namespace Transcriber

open Execution

-----------------------------------------------------------------------------------------
-- Attempts
-----------------------------------------------------------------------------------------

/-- What the audio of an attempt is, by the place of its main thread. -/
def Process.Stands (settings : WorkerSettings) (past : List FleetLabel) (s : Service)
    (transfers : Bytes → Prop) (p : Process)
    : ProcessStage → Prop
  | .entered | .admitting => p.audio = []
  | .receiving => transfers p.audio
  | .received | .transcribing => s.Sent p.claim.jobId p.audio
  | .transcribed result | .posting result =>
      s.Sent p.claim.jobId p.audio ∧ Inferred settings past p.engineCall (result.sent settings)
  | _ => True

theorem Inferred.later {settings : WorkerSettings} {past : List FleetLabel}
    {call : EngineCall} {result : TranscriptionResult}
    (inferred : Inferred settings past call result) (label : FleetLabel)
    : Inferred settings (past ++ [label]) call result := by
  obtain ⟨old, member, same⟩ := inferred
  exact ⟨old, List.mem_append_left _ member, same⟩

theorem Process.Stands.later {settings : WorkerSettings} {past : List FleetLabel} {s t : Service}
    {transfers transfers' : Bytes → Prop} {p : Process} {stage : ProcessStage}
    (stands : p.Stands settings past s transfers stage) (follows : s.Follows t)
    (keeps : transfers p.audio → transfers' p.audio) (label : FleetLabel)
    : p.Stands settings (past ++ [label]) t transfers' stage := by
  cases stage with
  | entered | admitting => exact stands
  | receiving => exact keeps stands
  | received | transcribing => exact Service.Sent.follows stands follows
  | transcribed | posting => exact ⟨stands.1.follows follows, stands.2.later label⟩
  | completing | leaving | failing | warning | reporting | returned => trivial

/-- The step of an attempt reads no chunk and starts no call of its main thread. -/
def Process.Quiet (signal : Signal) (request : Option WorkerRequest) : Prop :=
  (∀ data, signal ≠ .chunk data)
  ∧ ∀ sent,
      request = some sent → ∃ jobId leaseToken progress, sent = .heartbeat jobId leaseToken progress

namespace Process

variable {settings : WorkerSettings} {past : List FleetLabel} {s : Service}
  {transfers transfers' : Bytes → Prop} {p q : Process} {signal : Signal}

/-- A step of an attempt takes the audio further, by cases on the step. -/
theorem Move.stands {request : Option WorkerRequest} (move : Move settings p signal request q)
    (stands : p.Stands settings past s transfers p.stage) (label : FleetLabel)
    (keeps : Quiet signal request → transfers p.audio → transfers' p.audio)
    (reads
      : ∀ data,
          signal = .chunk data
          → request = none
          → transfers p.audio
          → transfers' (p.audio ++ data))
    (admits : ∀ token, request = some (.download p.claim.jobId token) → transfers' [])
    (ends : signal = .eof → request = none → transfers p.audio → s.Sent p.claim.jobId p.audio)
    (infers
      : ∀ call result,
          signal = .infer call result
          → request = none
          → label.inference? settings = some (call, result.sent settings))
    : q.Stands settings (past ++ [label]) s transfers' q.stage := by
  have quiet (plain : Quiet signal request)
      : p.Stands settings (past ++ [label]) s transfers' p.stage :=
    stands.later (.refl s) (keeps plain) label
  cases move with
  | halt | woken | renewed | rest | progressed =>
      exact quiet ⟨by simp, by simp⟩
  | beat => exact quiet ⟨by simp, by simp⟩
  | lost losing => rcases losing with rfl | rfl | rfl <;> exact quiet ⟨by simp, by simp⟩
  | entered stage =>
      rw [stage] at stands
      exact stands
  | admitted stage =>
      rw [stage] at stands
      have empty : p.audio = [] := stands
      simp only [Stands, empty]
      exact admits _ rfl
  | written stage =>
      rw [stage] at stands
      simp only [stage]
      exact reads _ rfl rfl stands
  | received stage =>
      rw [stage] at stands
      exact ends rfl rfl stands
  | prepared stage =>
      rw [stage] at stands
      exact stands
  | inferred stage =>
      rw [stage] at stands
      exact ⟨stands, label, by simp, infers _ _ rfl rfl⟩
  | checked stage =>
      rw [stage] at stands
      exact ⟨stands.1, stands.2.later label⟩
  | @cleaned exit => cases exit <;> trivial
  | _ => trivial

/-- A completion carries what the engine returned for the audio of the attempt. -/
theorem Move.backed {request : WorkerRequest} (move : Move settings p signal (some request) q)
    (stands : p.Stands settings past s transfers p.stage)
    (knows : s.Knows p.claim.jobId p.claim.engineOptions)
    : ∀ jobId token text segments byteSize,
        request = .complete jobId token text segments byteSize
        → Backed settings past s jobId text (WorkerRequest.storedSegments segments) := by
  intro jobId token text segments byteSize completes
  cases move with
  | posted stage =>
      rw [stage] at stands
      cases completes
      exact ⟨p.engineCall, _, stands.2, stands.1, knows, rfl, rfl⟩
  | _ => cases completes

/-- Attempts send reports, heartbeats and downloads. -/
theorem Move.issues {request : WorkerRequest} (move : Move settings p signal (some request) q)
    : request.issues = false := by
  cases move <;> rfl

end Process

/-- The call that the main thread of an attempt waits for hands it the audio. -/
def Fleet.Transfers (s : Fleet) (attempt : Attempt) (audio : Bytes) : Prop :=
  ∃ c call,
    attempt.main = some c
    ∧ s.calls c = some call
    ∧ call.Transfers s.service attempt.process.claim.jobId audio

/-- A remote attempt against the fleet. -/
structure Attempt.Traced (settings : WorkerSettings) (past : List FleetLabel) (s : Fleet) (i : Nat)
    (attempt : Attempt)
    : Prop where
  knows : s.service.Knows attempt.process.claim.jobId attempt.process.claim.engineOptions
  owns : ∀ c, attempt.main = some c → ∃ call, s.calls c = some call ∧ call.sender = some i
  stands
    : attempt.process.Stands settings past s.service (s.Transfers attempt) attempt.process.stage

/-- A local attempt against the service. -/
structure LocalTask.Traced (settings : WorkerSettings) (past : List FleetLabel) (s : Service)
    (task : LocalTask)
    : Prop where
  knows : s.Knows task.claimed.job.jobId task.claimed.job.engineOptions
  path : s.PathOf task.claimed.job.jobId task.claimed.job.inputPath
  backed
    : ∀ result,
        task.stage = .transcribed result
        → Backed settings past s task.claimed.job.jobId result.text
            (WorkerRequest.storedSegments result.segments)

theorem LocalTask.Traced.later {settings : WorkerSettings} {past : List FleetLabel}
    {s t : Service} {task : LocalTask} (traced : task.Traced settings past s)
    (follows : s.Follows t) (label : FleetLabel)
    : task.Traced settings (past ++ [label]) t where
  knows := traced.knows.follows follows
  path := traced.path.follows follows
  backed result stage := (traced.backed result stage).later follows label

/-- A local attempt that goes on without a result. -/
theorem LocalTask.Traced.goes {settings : WorkerSettings} {past : List FleetLabel}
    {service : Service} {task : LocalTask} (traced : task.Traced settings past service)
    {stopped : Bool} {stage : LocalStage}
    (plain : ∀ result, stage = .transcribed result → task.stage = .transcribed result)
    : LocalTask.Traced settings past service { task with stopped, stage } :=
  ⟨traced.knows, traced.path, fun result same => traced.backed result (plain result same)⟩

/-- The calls of one attempt go on from one state to another. -/
structure Fleet.Carries (s t : Fleet) (i : Nat) : Prop where
  follows : s.service.Follows t.service
  calls
    : ∀ c call,
        s.calls c = some call
        → call.sender = some i
        → ∃ next,
            t.calls c = some next
            ∧ next.sender = some i
            ∧ ∀ jobId audio,
                call.Transfers s.service jobId audio → next.Transfers t.service jobId audio

theorem Attempt.Traced.carries {settings : WorkerSettings} {past : List FleetLabel} {s t : Fleet}
    {i : Nat} {attempt : Attempt} (traced : attempt.Traced settings past s i)
    (carries : s.Carries t i) (label : FleetLabel)
    : attempt.Traced settings (past ++ [label]) t i := by
  refine ⟨traced.knows.follows carries.follows, ?_, ?_⟩
  · intro c main
    obtain ⟨call, found, sender⟩ := traced.owns c main
    obtain ⟨next, kept, same, _⟩ := carries.calls c call found sender
    exact ⟨next, kept, same⟩
  · refine traced.stands.later carries.follows ?_ label
    rintro ⟨c, call, main, found, transfers⟩
    obtain ⟨other, stored, sender⟩ := traced.owns c main
    obtain rfl := Option.some.inj (found.symm.trans stored)
    obtain ⟨next, kept, _, hands⟩ := carries.calls c call found sender
    exact ⟨c, next, main, kept, hands _ _ transfers⟩

-----------------------------------------------------------------------------------------
-- The fleet
-----------------------------------------------------------------------------------------

namespace Fleet

/-- What holds of the whole service after a history. -/
structure Traced (settings : WorkerSettings) (past : List FleetLabel) (s : Fleet) : Prop where
  service : s.service.Traced settings past
  calls : ∀ c call, s.calls c = some call → call.Traced settings past s.service
  attempts : ∀ i attempt, s.attempts i = some attempt → attempt.Traced settings past s i
  locals : ∀ i task, s.locals i = some task → task.Traced settings past s.service

variable {coordinator : WorkerService} {settings : WorkerSettings} {past : List FleetLabel}
  {s t : Fleet} {label : FleetLabel}

/-- A step of the service alone. -/
theorem Traced.serviced (kept : s.Traced settings past) {service : Service}
    (traced : service.Traced settings (past ++ [label])) (follows : s.service.Follows service)
    : ({ s with service } : Fleet).Traced settings (past ++ [label]) := by
  have carries (i : Nat) : s.Carries { s with service } i :=
    ⟨follows, fun _ call stored sender =>
      ⟨call, stored, sender, fun _ _ transfers => transfers.follows follows⟩⟩
  exact ⟨traced, fun c call found => (kept.calls c call found).later follows label,
    fun i attempt found => (kept.attempts i attempt found).carries (carries i) label,
    fun i task found => (kept.locals i task found).later follows label⟩

/-- A step that leaves the state alone. -/
theorem Traced.later (kept : s.Traced settings past) (label : FleetLabel)
    : s.Traced settings (past ++ [label]) :=
  kept.serviced
    ⟨kept.service.sound, kept.service.ends, kept.service.asked, fun row member done =>
      (kept.service.results row member done).later (.refl _) label⟩
    (.refl _)

theorem Traced.setLocal (kept : s.Traced settings past) {i : Nat} {task : LocalTask}
    (traced : task.Traced settings past s.service)
    : (s.setLocal i task).Traced settings past := by
  refine ⟨kept.service, kept.calls, ?_, ?_⟩
  · intro j attempt found
    exact ⟨(kept.attempts j attempt found).knows, (kept.attempts j attempt found).owns,
      (kept.attempts j attempt found).stands⟩
  · intro j other found
    rcases eq_or_ne j i with rfl | differs
    · simp only [Fleet.setLocal, Function.update_self, Option.some.injEq] at found
      exact found ▸ traced
    · simp only [Fleet.setLocal, Function.update_of_ne differs] at found
      exact kept.locals j other found

/-- A step of a call. -/
theorem Traced.moved (kept : s.Traced settings past) {c : Nat} {call next : WorkerCall}
    (move : CallMove settings (past ++ [label]) s c t call next)
    : t.Traced settings (past ++ [label]) := by
  obtain ⟨found, same, service, follows, goes⟩ := move
  have after : ({ s with service := t.service } : Fleet).Traced settings (past ++ [label]) :=
    kept.serviced service follows
  rw [same] at *
  refine ⟨service, ?_, ?_, after.locals⟩
  · intro d other stored
    rcases eq_or_ne d c with rfl | differs
    · simp only [setCall, Function.update_self, Option.some.injEq] at stored
      exact stored ▸ goes.traced
    · simp only [setCall, Function.update_of_ne differs] at stored
      exact after.calls d other stored
  · intro i attempt stored
    refine (kept.attempts i attempt stored).carries ⟨follows, ?_⟩ label
    intro d other present sender
    rcases eq_or_ne d c with rfl | differs
    · obtain rfl := Option.some.inj (found.symm.trans present)
      exact ⟨next, by simp [setCall], goes.sender.trans sender, goes.transfers⟩
    · exact ⟨other, by simp [setCall, differs, present], sender,
        fun _ _ transfers => transfers.follows follows⟩

/-- A step of one attempt, when what surrounds it holds. -/
theorem Traced.setAttempt {i : Nat} {attempt : Attempt} (service : s.service.Traced settings past)
    (calls : ∀ c call, s.calls c = some call → call.Traced settings past s.service)
    (others : ∀ j other, j ≠ i → s.attempts j = some other → other.Traced settings past s j)
    (locals : ∀ j task, s.locals j = some task → task.Traced settings past s.service)
    (own : attempt.Traced settings past s i)
    : (s.setAttempt i attempt).Traced settings past := by
  refine ⟨service, calls, ?_, locals⟩
  intro j other found
  rcases eq_or_ne j i with rfl | differs
  · simp only [Fleet.setAttempt, Function.update_self, Option.some.injEq] at found
    subst found
    exact ⟨own.knows, own.owns, own.stands⟩
  · simp only [Fleet.setAttempt, Function.update_of_ne differs] at found
    have traced := others j other differs found
    exact ⟨traced.knows, traced.owns, traced.stands⟩

/-- A new call. -/
theorem Traced.opened (kept : s.Traced settings past) {c : Nat} {call : WorkerCall}
    (unused : s.calls c = none) (traced : call.Traced settings past s.service) (label : FleetLabel)
    : (s.setCall c call).Traced settings (past ++ [label])
      ∧ ∀ i, s.Carries (s.setCall c call) i := by
  have carries (i : Nat) : s.Carries (s.setCall c call) i := by
    refine ⟨.refl _, fun d other present sender => ?_⟩
    have differs : d ≠ c := by
      rintro rfl
      simp [unused] at present
    exact ⟨other, by simp [setCall, differs, present], sender, fun _ _ transfers => transfers⟩
  have later := kept.later label
  refine ⟨⟨later.service, ?_, ?_, later.locals⟩, carries⟩
  · intro d other stored
    rcases eq_or_ne d c with rfl | differs
    · simp only [setCall, Function.update_self, Option.some.injEq] at stored
      exact stored ▸ traced.later (.refl _) label
    · simp only [setCall, Function.update_of_ne differs] at stored
      exact later.calls d other stored
  · exact fun i attempt found => (kept.attempts i attempt found).carries (carries i) label

/-- A request that has just arrived. -/
theorem receive_traced (coordinator : WorkerService) (metadata : List (String × String))
    {request : WorkerRequest} {sender : Option Nat}
    (completes
      : ∀ jobId leaseToken text segments byteSize,
          request = .complete jobId leaseToken text segments byteSize
          → Backed settings past s.service jobId text (WorkerRequest.storedSegments segments))
    (sent : sender.isSome → request.issues = false)
    : (WorkerCall.mk sender (coordinator.receive metadata request) none []).Traced settings past
        s.service := by
  unfold WorkerService.receive
  split <;> exact ⟨trivial, completes, sent, fun _ => rfl, by simp⟩

theorem receive_request (coordinator : WorkerService) (metadata : List (String × String))
    (request : WorkerRequest)
    : (coordinator.receive metadata request).request = request := by
  unfold WorkerService.receive
  split <;> rfl

/-- A slot asks for work. -/
theorem Traced.ask (kept : s.Traced settings past) {c : Nat} {metadata : List (String × String)}
    {request : WorkerRequest} (done : s.ask coordinator c metadata request = some t)
    (label : FleetLabel)
    : t.Traced settings (past ++ [label]) := by
  unfold Fleet.ask at done
  split at done
  · cases done
  rename_i free
  simp only [Bool.or_eq_true, not_or, Bool.not_eq_true, Option.isSome_eq_false_iff,
    Option.isNone_iff_eq_none] at free
  cases done
  refine (kept.opened free.1 (receive_traced coordinator metadata ?_ (by simp)) label).1
  rintro jobId leaseToken text segments byteSize rfl
  cases free.2

/-- An attempt starts with the claim that a call answered. -/
theorem Traced.begin (kept : s.Traced settings past) {i c : Nat} (done : s.begin i c = some t)
    (label : FleetLabel)
    : t.Traced settings (past ++ [label]) := by
  unfold Fleet.begin at done
  split at done
  · cases done
  obtain ⟨call, found, done⟩ := Option.bind_eq_some_iff.mp done
  split at done
  case h_2 => cases done
  rename_i response stage
  obtain ⟨claim, handed, rfl⟩ := Option.map_eq_some_iff.mp done
  have traced := kept.calls c call found
  have stands := traced.stage
  rw [stage] at stands
  obtain ⟨issues, knows⟩ := stands claim handed
  have later := kept.later label
  -- Nobody waits for the answered call, which carries no lease.
  have unsent : call.sender = none := by
    by_contra sender
    have plain := traced.sent (Option.isSome_iff_ne_none.mpr sender)
    rw [issues] at plain
    cases plain
  refine .setAttempt later.service ?_ ?_ later.locals ⟨knows, by simp, rfl⟩
  · intro d other stored
    rcases eq_or_ne d c with rfl | differs
    · simp at stored
    · simp only [Function.update_of_ne differs] at stored
      exact later.calls d other stored
  · intro j other _ stored
    have carries : s.Carries { s with calls := Function.update s.calls c none } j := by
      refine ⟨.refl _, fun d waiting present sender => ?_⟩
      have differs : d ≠ c := by
        rintro rfl
        obtain rfl := Option.some.inj (found.symm.trans present)
        simp [unsent] at sender
      exact ⟨waiting, by simp [differs, present], sender, fun _ _ transfers => transfers⟩
    exact (kept.attempts j other stored).carries carries label

/-- A chunk that leaves the wire. -/
theorem Traced.popped (kept : s.Traced settings past) {i c : Nat} {call : WorkerCall}
    {data : Bytes} {rest : List Bytes} (found : s.calls c = some call)
    (transit : call.transit = data :: rest) (sender : call.sender = some i) (label : FleetLabel)
    : (∀ d other,
        (s.setCall c { call with transit := rest }).calls d = some other
        → other.Traced settings (past ++ [label]) s.service)
      ∧ ∀ j, j ≠ i → s.Carries (s.setCall c { call with transit := rest }) j := by
  constructor
  · intro d other stored
    rcases eq_or_ne d c with rfl | differs
    · simp only [setCall, Function.update_self, Option.some.injEq] at stored
      obtain ⟨stage, completes, sent, closed, through⟩ :=
        (kept.calls d call found).later (.refl _) label
      subst stored
      refine ⟨stage, completes, sent, fun none => ?_, through⟩
      simp [closed none] at transit
    · simp only [setCall, Function.update_of_ne differs] at stored
      exact (kept.calls d other stored).later (.refl _) label
  · refine fun j differs => ⟨.refl _, fun d other present owner => ?_⟩
    have apart : d ≠ c := by
      rintro rfl
      obtain rfl := Option.some.inj (found.symm.trans present)
      exact differs (Option.some.inj (owner.symm.trans sender))
    exact ⟨other, by simp [setCall, apart, present], owner, fun _ _ transfers => transfers⟩

/-- The end of a stream comes after everything that it had to give. -/
theorem Traced.ended (kept : s.Traced settings past) {attempt : Attempt} {audio : Bytes}
    (delivers : s.delivers attempt .eof) (transfers : s.Transfers attempt audio)
    : s.service.Sent attempt.process.claim.jobId audio := by
  obtain ⟨c, call, main, found, transfers⟩ := transfers
  simp only [Fleet.delivers, main, Option.bind_some, found, Option.any_some, Bool.and_eq_true,
    decide_eq_true_eq] at delivers
  have sent := transfers.opened [] ((kept.calls c call found).through delivers.2)
  simpa [delivers.1] using sent

/-- A chunk that the worker reads. -/
theorem Traced.reads (kept : s.Traced settings past) {i : Nat} {attempt : Attempt}
    {process : Process} {data : Bytes} (found : s.attempts i = some attempt)
    (delivers : s.delivers attempt (.chunk data))
    (step : Process.Step settings attempt.process (.chunk data, none) process)
    (label : FleetLabel)
    : ((s.deliver attempt (.chunk data)).setAttempt i { attempt with process }).Traced settings
        (past ++ [label]) := by
  have traced := kept.attempts i attempt found
  have later := kept.later label
  cases main : attempt.main with
  | none => simp [Fleet.delivers, main] at delivers
  | some c =>
      obtain ⟨call, present, sender⟩ := traced.owns c main
      simp only [Fleet.delivers, main, Option.bind_some, present, Option.any_some,
        decide_eq_true_eq] at delivers
      obtain ⟨rest, transit⟩ := List.head?_eq_some_iff.mp delivers
      have delivered
          : s.deliver attempt (.chunk data) = s.setCall c { call with transit := rest } := by
        simp [Fleet.deliver, main, present, setCall, transit]
      obtain ⟨calls, carries⟩ := kept.popped present transit sender label
      rw [delivered]
      refine .setAttempt later.service calls ?_ later.locals ?_
      · exact fun j other differs stored =>
          (kept.attempts j other stored).carries (carries j differs) label
      have move := step.move
      refine ⟨?_, ?_, ?_⟩
      · rw [move.frame.1]
        exact traced.knows
      · intro d same
        obtain rfl := Option.some.inj same
        exact ⟨_, Function.update_self .., sender⟩
      · refine move.stands traced.stands label ?_ ?_ (by simp) (by simp) (by simp)
        · exact fun quiet => absurd rfl (quiet.1 data)
        · rintro _ ⟨⟩ _ ⟨d, other, same, stored, transfers⟩
          obtain rfl := Option.some.inj (main.symm.trans same)
          obtain rfl := Option.some.inj (present.symm.trans stored)
          refine ⟨c, _, rfl, Function.update_self .., ?_⟩
          rw [move.frame.1]
          refine ⟨transfers.download, fun none => ?_, fun left file => ?_⟩
          · simp [(kept.calls c call present).closed none] at transit
          · simpa [transit, setCall] using transfers.opened left file

/-- The worker starts a call. -/
theorem Traced.send (kept : s.Traced settings past) {i c : Nat} {metadata : List (String × String)}
    {attempt : Attempt} {process : Process} {signal : Signal} {request : WorkerRequest}
    (found : s.attempts i = some attempt)
    (step : Process.Step settings attempt.process (signal, some request) process)
    (done : s.send coordinator i c metadata { attempt with process } request = some t)
    (label : FleetLabel)
    : t.Traced settings (past ++ [label]) := by
  have traced := kept.attempts i attempt found
  have move := step.move
  unfold Fleet.send at done
  split at done
  · cases done
  rename_i used
  have unused : s.calls c = none := by simpa using used
  cases done
  have started
      : (WorkerCall.mk (some i) (coordinator.receive metadata request) none []).Traced settings past
          s.service :=
    receive_traced coordinator metadata (move.backed traced.stands traced.knows)
      (fun _ => move.issues)
  obtain ⟨opened, carries⟩ := kept.opened unused started label
  refine .setAttempt opened.service opened.calls (fun j other _ => opened.attempts j other)
    opened.locals ?_
  have knows := move.frame.1 ▸ traced.knows
  have own (d : Nat) (same : some c = some d)
      : ∃ call,
          (s.setCall c ⟨some i, coordinator.receive metadata request, none, []⟩).calls d = some call
          ∧ call.sender = some i := by
    obtain rfl := Option.some.inj same
    exact ⟨_, Function.update_self .., rfl⟩
  cases request with
  | heartbeat jobId leaseToken progress =>
      refine ⟨knows, (traced.carries (carries i) label).owns,
        move.stands traced.stands label (fun _ => ?_) (by simp) (by simp) (by simp) (by simp)⟩
      rintro ⟨d, call, main, stored, transfers⟩
      obtain ⟨other, same, sender⟩ := traced.owns d main
      obtain rfl := Option.some.inj (stored.symm.trans same)
      obtain ⟨next, present, _, hands⟩ := (carries i).calls d call stored sender
      exact ⟨d, next, main, present, move.frame.1 ▸ hands _ _ transfers⟩
  | download jobId leaseToken =>
      refine ⟨knows, own,
        move.stands traced.stands label ?_ (by simp) ?_ (by simp) (by simp)⟩
      · rintro ⟨_, plain⟩
        obtain ⟨_, _, _, same⟩ := plain _ rfl
        cases same
      · rintro token same
        cases same
        refine ⟨c, _, rfl, Function.update_self .., ?_, fun _ => rfl, by simp⟩
        exact ⟨leaseToken, by rw [move.frame.1]; exact receive_request coordinator metadata _⟩
  | _ =>
      refine ⟨knows, own,
        move.stands traced.stands label ?_ (by simp) (by simp) (by simp) (by simp)⟩
      rintro ⟨_, plain⟩
      obtain ⟨_, _, _, same⟩ := plain _ rfl
      cases same

/-- Every step of an attempt. -/
theorem Traced.work (kept : s.Traced settings past) {i c : Nat} {metadata : List (String × String)}
    {signal : Signal} (done : s.work coordinator settings i c metadata signal = some t)
    : t.Traced settings (past ++ [.work i c metadata signal]) := by
  obtain ⟨attempt, found, done⟩ := Option.bind_eq_some_iff.mp done
  split at done
  · cases done
  rename_i delivers
  simp only [Bool.not_eq_true, Bool.not_eq_false'] at delivers
  obtain ⟨⟨request, process⟩, taken, done⟩ := Option.bind_eq_some_iff.mp done
  have step : Process.Step settings attempt.process (signal, request) process := taken
  have traced := kept.attempts i attempt found
  have later := kept.later (.work i c metadata signal)
  cases request with
  | some request => exact kept.send found step done _
  | none =>
      obtain rfl := Option.some.inj done
      by_cases chunk : ∃ data, signal = .chunk data
      · obtain ⟨data, rfl⟩ := chunk
        exact kept.reads found delivers step _
      · have stays : s.deliver attempt signal = s := by
          cases signal <;> first | rfl | exact absurd ⟨_, rfl⟩ chunk
        have move := step.move
        rw [stays]
        refine .setAttempt later.service later.calls (fun j other _ => later.attempts j other)
          later.locals ⟨move.frame.1 ▸ traced.knows, traced.owns, ?_⟩
        refine move.stands traced.stands _ (fun _ => ?_) ?_ (by simp) ?_ ?_
        · rintro ⟨d, call, main, stored, transfers⟩
          exact ⟨d, call, main, stored, move.frame.1 ▸ transfers⟩
        · exact fun data same => absurd ⟨data, same⟩ chunk
        · rintro rfl _ transfers
          exact kept.ended delivers transfers
        · rintro call result rfl _
          rfl

-----------------------------------------------------------------------------------------
-- Local attempts
-----------------------------------------------------------------------------------------

/-- A local worker calls the store, and completes a job only with a backed result. -/
theorem Traced.perform (kept : s.Traced settings past) {config : Config} {op : Op}
    (done : s.perform config op = some t)
    (completes
      : ∀ jobId token text segments resultPath now,
          op = .completeJob jobId token text segments resultPath now
          → Backed settings past s.service jobId text segments)
    (label : FleetLabel)
    : t.Traced settings (past ++ [label])
      ∧ s.service.Follows t.service
      ∧ s.service.next (.store config op) = some t.service := by
  obtain ⟨service, taken, rfl⟩ := Option.map_eq_some_iff.mp done
  have step : s.service.Step (.store config op) service := taken
  obtain ⟨traced, follows⟩ := kept.service.step step rfl label (by
    rintro _ jobId token text segments resultPath now ⟨⟩
    exact completes jobId token text segments resultPath now rfl)
  exact ⟨kept.serviced traced follows, follows, taken⟩

/-- A local worker claims a stored job. -/
theorem Traced.take (kept : s.Traced settings past) {i : Nat} {config : Config} {op : Op}
    (done : s.take i config op = some t) (label : FleetLabel)
    : t.Traced settings (past ++ [label]) := by
  unfold Fleet.take at done
  split at done
  · cases done
  rename_i free
  have takes : op.takes := by
    by_contra other
    exact free (by simp [other])
  split at done
  case h_2 => cases done
  rename_i db claimed executed
  obtain ⟨u, performed, rfl⟩ := Option.map_eq_some_iff.mp done
  obtain ⟨traced, follows, stored⟩ := kept.perform performed
    (by rintro _ _ _ _ _ _ rfl; cases takes) label
  have same : u.service.db = db := by
    simp only [Service.next, Service.store] at stored
    split at stored
    · cases stored
    · rw [executed] at stored
      exact (congrArg Service.db (Option.some.inj stored)).symm
  have member : claimed.job ∈ u.service.db.jobs := same ▸ Db.exec_taken takes executed
  have sound := traced.service.sound
  exact traced.setLocal ⟨.of_row sound.consistent member,
    .of_placed (sound.rows claimed.job member).1, by simp⟩

/-- The file that the engine reads is whole, and of the claimed job. -/
theorem localCall_spec {job : JobRecord} {call : EngineCall} (sound : s.service.Sound)
    (path : s.service.PathOf job.jobId job.inputPath)
    (found : s.localCall job = some call)
    : s.service.Sent job.jobId call.audio ∧ call.engineOptions = job.engineOptions := by
  obtain ⟨audio, file, rfl⟩ := Option.map_eq_some_iff.mp found
  exact ⟨sound.sent path file, rfl⟩

/-- Every step of a local attempt, by cases on the step. -/
theorem Traced.locally (kept : s.Traced settings past) {i : Nat} {step : LocalStep}
    (done : s.locally i step = some t)
    : t.Traced settings (past ++ [.locally i step]) := by
  obtain ⟨task, found, done⟩ := Option.bind_eq_some_iff.mp done
  have traced := kept.locals i task found
  have later := kept.later (.locally i step)
  have own := traced.later (.refl _) (.locally i step)
  have goes {stopped : Bool} {stage : LocalStage}
      (plain : ∀ result, stage = .transcribed result → task.stage = .transcribed result)
      : (s.setLocal i { task with stopped, stage }).Traced settings (past ++ [.locally i step]) :=
    later.setLocal (own.goes plain)
  split at done
  · cases done
    exact goes (fun _ => id)
  · rename_i call result stage _
    split at done
    · rename_i called
      cases done
      obtain ⟨sent, options⟩ := localCall_spec kept.service.sound traced.path called
      refine later.setLocal ⟨own.knows, own.path, ?_⟩
      rintro result' same
      cases same
      exact ⟨call, result, ⟨_, List.mem_append_right _ (List.mem_singleton.mpr rfl), rfl⟩, sent,
        options ▸ traced.knows, rfl, rfl⟩
    · cases done
  · split at done
    · cases done
      exact goes (by simp)
    · cases done
  · cases done
    exact goes (by simp)
  · cases done
    exact goes (by simp)
  · rename_i result config now stage _
    split at done
    · cases done
      exact goes (by simp)
    split at done
    · cases done
      exact goes (by simp)
    obtain ⟨u, performed, rfl⟩ := Option.map_eq_some_iff.mp done
    obtain ⟨after, follows, _⟩ := kept.perform performed (by
      rintro _ _ _ _ _ _ ⟨⟩
      exact traced.backed result stage) (.locally i (.complete config now))
    exact after.setLocal ((traced.later follows _).goes (by simp))
  · rename_i config messageId now clock stage _
    obtain ⟨u, performed, rfl⟩ := Option.map_eq_some_iff.mp done
    obtain ⟨after, follows, _⟩ := kept.perform performed (by simp)
      (.locally i (.fail config messageId now clock))
    exact after.setLocal ((traced.later follows _).goes (by simp))
  · cases done
    exact goes (by simp)
  · cases done

-----------------------------------------------------------------------------------------
-- Runs
-----------------------------------------------------------------------------------------

/-- An upload stream ends only when its client closed it and everything was read. -/
def endsClosed (s : Fleet) : FleetLabel → Bool
  | .ingress label => s.service.endsClosed label
  | _ => true

/-- Every step, by cases on who takes it. -/
theorem Traced.step (kept : s.Traced settings past) (guarded : s.endsClosed label)
    (step : s.Step coordinator settings label t)
    : t.Traced settings (past ++ [label]) := by
  cases label with
  | ingress own =>
      simp only [Fleet.Step, next] at step
      split at step
      · cases step
      rename_i plain
      obtain ⟨service, taken, rfl⟩ := Option.map_eq_some_iff.mp step
      obtain ⟨traced, follows⟩ := kept.service.step taken guarded (.ingress own) (by
        rintro config jobId token text segments resultPath now rfl
        exact absurd rfl plain)
      exact kept.serviced traced follows
  | ask => exact kept.ask step _
  | serve c action =>
      obtain ⟨call, next, move⟩ := serve_spec kept.service kept.calls step _
      exact kept.moved move
  | begin => exact kept.begin step _
  | work => exact kept.work step
  | take => exact kept.take step _
  | locally => exact kept.locally step

theorem Traced.empty (storageRoot : String) (maxAudioBytes : Nat) (hashtext : String → Int)
    (clock : Int)
    : (Fleet.empty storageRoot maxAudioBytes hashtext clock).Traced settings [] where
  service :=
    ⟨.empty storageRoot maxAudioBytes hashtext clock, by simp [Service.EndsComplete, Fleet.empty,
      Service.empty], by simp [Service.Asked, Fleet.empty, Service.empty],
      by simp [Fleet.empty, Service.empty, Db.empty]⟩
  calls := by simp [Fleet.empty]
  attempts := by simp [Fleet.empty]
  locals := by simp [Fleet.empty]

/-- The result of the row is what an engine returned, as the coordinator got it, for everything that
the client of one stream of its job sent, with the options that this client asked for.
-/
def Faithful (settings : WorkerSettings) (past : List FleetLabel) (s : Fleet) (row : JobRecord)
    : Prop :=
  ∃ i stream job result,
    s.service.streams i = some stream
    ∧ stream.reservation = some job
    ∧ job.jobId = row.jobId
    ∧ stream.complete
    ∧ stream.chunks.flatten.length ≤ s.service.maxAudioBytes
    ∧ Inferred settings past stream.engineCall result
    ∧ row.text = result.text
    ∧ row.segments = WorkerRequest.storedSegments result.segments

/-- In every interleaving of uploads, claims, downloads, inferences, retries, crashes and
cleanups, each done job has such a result.
-/
theorem results_faithful {storageRoot : String} {maxAudioBytes : Nat} {hashtext : String → Int}
    {clock : Int}
    (run
      : GuardedRun (Step coordinator settings) (fun _ s label => s.endsClosed label)
          (Fleet.empty storageRoot maxAudioBytes hashtext clock) past s)
    : ∀ row ∈ s.service.db.jobs, row.status = .done → s.Faithful settings past row := by
  have traced : s.Traced settings past :=
    run.history (I := fun past s => s.Traced settings past)
      (fun _ _ _ _ kept guarded step => kept.step guarded step)
      (.empty storageRoot maxAudioBytes hashtext clock)
  intro row member done
  obtain ⟨call, result, inferred, sent, knows, text, segments⟩ :=
    traced.service.results row member done
  obtain ⟨i, stream, job, found, reserved, same, complete, rfl, size⟩ :=
    traced.service.asked.engineCall member sent knows
  exact ⟨i, stream, job, result, found, reserved, same, complete, size, inferred, text, segments⟩

/-- The label and the state after it. -/
def advance (coordinator : WorkerService) (settings : WorkerSettings) (s : Fleet)
    (label : FleetLabel)
    : Option (FleetLabel × Fleet) :=
  (s.next coordinator settings label).map (Prod.mk label)

theorem advance_step (coordinator : WorkerService) (settings : WorkerSettings) (s : Fleet)
    (call label : FleetLabel) (t : Fleet)
    (done : s.advance coordinator settings call = some (label, t))
    : s.Step coordinator settings label t := by
  obtain ⟨next, taken, same⟩ := Option.map_eq_some_iff.mp done
  cases same
  exact taken

/-- Labels one after another, without those that have to wait. -/
def play (coordinator : WorkerService) (settings : WorkerSettings) (s : Fleet)
    (labels : List FleetLabel)
    : List FleetLabel × Fleet :=
  Execution.play (advance coordinator settings) (fun _ s label => s.endsClosed label) [] s labels

theorem play_run (coordinator : WorkerService) (settings : WorkerSettings) (s : Fleet)
    (labels : List FleetLabel)
    : GuardedRun (Step coordinator settings) (fun _ s label => s.endsClosed label) s
        (s.play coordinator settings labels).1 (s.play coordinator settings labels).2 :=
  Execution.play_run (advance_step coordinator settings) (.nil s) labels

/-- A job is uploaded in two chunks, delivered to a slot, downloaded, inferred and completed. -/
def deliverOnce : List FleetLabel :=
  let jobId := (Uuid.nth 0).text
  let slot := (Uuid.nth 5).text
  let metadata := [("authorization", "Bearer " ++ String.ofList (List.replicate 32 'a'))]
  let draw : Draw := ⟨0, 0, .nth 2, []⟩
  let request : BeginRequest := ⟨"gpu", slot, jobId, (Uuid.nth 1).text, (Uuid.nth 6).text⟩
  (Service.uploadOnce [.chunk 0, .close 0, .eof 0] ++ [Service.queueOnce]).map .ingress
  ++ [
    .ask 0 metadata (.reportAvailability "gpu" slot true),
    .serve 0 (.call draw),
    .ask 1 metadata (.registerConsumer "gpu" slot),
    .serve 1 (.call draw),
    .serve 1 (.call draw),
    .serve 1 (.call draw),
    .ask 2 metadata (.beginAttempt request),
    .serve 2 (.call draw),
    .serve 2 (.call draw),
    .serve 2 (.call draw),
    .serve 2 (.call draw),
    .serve 2 (.stat false),
    .begin 0 2,
    .work 0 3 metadata .enter,
    .work 0 3 metadata .fetch,
    .serve 3 (.own 0),
    .serve 3 .openFile,
    .serve 3 (.own 0),
    .serve 3 (.read false),
    .work 0 4 metadata (.chunk [1, 2, 3]),
    .serve 3 (.own 0),
    .serve 3 (.read false),
    .work 0 4 metadata .eof,
    .work 0 4 metadata .prepare,
    .work 0 4 metadata (.infer ⟨[1, 2, 3], "", "", ""⟩ ⟨"text", [⟨some 0, some 1, "text"⟩]⟩),
    .work 0 4 metadata .check,
    .work 0 4 metadata .post,
    .serve 4 (.call draw)
  ]

theorem results_faithful_delivered
    : let played := (Fleet.empty "/data/jobs" 3 (fun _ => 0) 0).play Endpoint.twoService
        Process.sampleSettings deliverOnce
      played.2.service.db.jobs.map (fun row => (row.status, row.text)) = [(.done, "text")]
        ∧ ∀ row ∈ played.2.service.db.jobs,
            row.status = .done → played.2.Faithful Process.sampleSettings played.1 row :=
  ⟨by decide +kernel, results_faithful (play_run _ _ _ _)⟩

end Fleet

end Transcriber
