import Transcriber.Worker.Process

/-! What one attempt of a remote worker sends to the coordinator, however its threads interleave:
at most one report, and a completion only of the whole input under a lease not known to be lost.
-/

namespace Transcriber

open Execution

-----------------------------------------------------------------------------------------
-- Steps
-----------------------------------------------------------------------------------------

/-- The worker stops, or the heartbeat thread finds the lease lost. -/
def Signal.losing : Signal → Bool
  | .halt | .expire | .beaten none | .beaten (some false) => true
  | _ => false

/-- What a step does, by the thread that takes it. -/
inductive Process.Move (settings : WorkerSettings) (p : Process)
    : Signal → Option WorkerRequest → Process → Prop
  | halt : Move settings p .halt none { p with halted := true }
  | woken (beat : Beat) : Move settings p .wake none { p with beat }
  | beat
    : Move settings p .beat
        (some (.heartbeat p.claim.jobId p.claim.leaseToken (settings.single p.progress)))
        { p with beat := .calling }
  | renewed : Move settings p (.beaten (some true)) none { p with beat := .waiting }
  | lost {signal} (losing : signal = .expire ∨ signal = .beaten none ∨ signal = .beaten (some false))
    : Move settings p signal none { p with beat := .over, leaseLost := true }
  | rest : Move settings p .rest none { p with beat := .waiting }
  | refused (stage : p.stage = .entered) (value : Option Bool) (untrue : value ≠ some true)
    : Move settings p .enter none (p.finish value)
  | entered (stage : p.stage = .entered)
    : Move settings p .enter none { p with stage := .admitting, beat := .waiting }
  | misfit (stage : p.stage = .admitting)
    (size : p.claim.inputSize = 0 ∨ settings.maxInputBytes < p.claim.inputSize)
    : Move settings p .fetch none { p with stage := .failing .invalidSize }
  | admitted (stage : p.stage = .admitting) (size : p.claim.inputSize ≤ settings.maxInputBytes)
    : Move settings p .fetch (some (.download p.claim.jobId p.claim.leaseToken))
        { p with stage := .receiving }
  | overflowed {data} (stage : p.stage = .receiving)
    (size
      : settings.maxInputBytes < p.audio.length + data.length
        ∨ p.claim.inputSize < p.audio.length + data.length)
    : Move settings p (.chunk data) none (p.leave (.failed .inputTooLarge))
  | written {data} (stage : p.stage = .receiving)
    : Move settings p (.chunk data) none { p with audio := p.audio ++ data }
  | received (stage : p.stage = .receiving) (size : p.audio.length = p.claim.inputSize)
    : Move settings p .eof none { p with stage := .received }
  | incomplete (stage : p.stage = .receiving) (size : p.audio.length ≠ p.claim.inputSize)
    : Move settings p .eof none (p.leave (.failed .incompleteInput))
  | stopped {signal} (plain : signal.losing = false)
    (stage
      : p.stage = .receiving
        ∨ p.stage = .received
        ∨ p.stage = .transcribing
        ∨ ∃ result, p.stage = .transcribed result)
    : Move settings p signal none (p.leave .stopped)
  | prepared (stage : p.stage = .received)
    : Move settings p .prepare none { p with stage := .transcribing }
  | progressed {value} (stage : p.stage = .transcribing)
    : Move settings p (.progress value) none { p with progress := value }
  | inferred {result} (stage : p.stage = .transcribing)
    : Move settings p (.infer p.engineCall result) none { p with stage := .transcribed result }
  | rejected (stage : p.stage = .transcribing)
    : Move settings p .refuse none (p.leave (.failed .rejectedInput))
  | checked {result} (stage : p.stage = .transcribed result) (kept : p.stopped = false)
    : Move settings p .check none { p with stage := .posting result }
  | oversized {result} (stage : p.stage = .posting result)
    (size
      : maxResultBytes
        < settings.byteSize p.claim.jobId p.claim.leaseToken result.text
            (result.sent settings).segments)
    : Move settings p .post none (p.leave (.failed .resultTooLarge))
  | posted {result} (stage : p.stage = .posting result)
    (size
      : settings.byteSize p.claim.jobId p.claim.leaseToken result.text
            (result.sent settings).segments
        ≤ maxResultBytes)
    : Move settings p .post (some (p.completion settings result)) { p with stage := .completing }
  | answered {accepted} (stage : p.stage = .completing)
    : Move settings p (.acked accepted) none (p.leave (.acked accepted))
  | disconnected (stage : p.stage = .receiving ∨ p.stage = .completing)
    : Move settings p .disconnect none (p.leave .disconnected)
  | raised (stage : p.stage = .admitting)
    : Move settings p .unexpected none { p with stage := .failing .unexpected }
  | broke (stage : p.stage = .receiving ∨ p.stage = .transcribing)
    : Move settings p .unexpected none (p.leave (.failed .unexpected))
  | cleaned {exit} (stage : p.stage = .leaving exit)
    : Move settings p .cleaned none (p.settle exit)
  | uncleaned {exit} (stage : p.stage = .leaving exit)
    : Move settings p .uncleaned none { p with stage := .failing .unexpected }
  | withheld {failure} (stage : p.stage = .failing failure)
    : Move settings p .check none (p.finish (some false))
  | warned {failure} (stage : p.stage = .failing failure) (kept : p.stopped = false)
    : Move settings p .check none { p with stage := .warning failure }
  | reported {failure} (stage : p.stage = .warning failure)
    : Move settings p .report
        (some (.fail p.claim.jobId p.claim.leaseToken failure.code failure.retryable))
        { p with stage := .reporting failure }
  | acknowledged {failure accepted} (stage : p.stage = .reporting failure)
    : Move settings p (.acked accepted) none (p.finish (some accepted))
  | unanswered {failure} (stage : p.stage = .reporting failure)
    : Move settings p .disconnect none (p.finish (some false))

namespace Process

variable {settings : WorkerSettings} {p q : Process} {signal : Signal}
  {request : Option WorkerRequest}

theorem heartbeat_move (done : p.heartbeat settings p.beat signal = some (request, q))
    : Move settings p signal request q := by
  unfold heartbeat at done
  split at done
  · cases done
    exact .woken _
  · cases done
    exact .lost (.inl rfl)
  · cases done
    exact .beat
  · cases done
    exact .rest
  · cases done
    exact .renewed
  · cases done
    rename_i accepted other _
    refine .lost (.inr ?_)
    cases accepted with
    | none => exact .inl rfl
    | some accepted =>
        cases accepted with
        | false => exact .inr rfl
        | true => exact absurd rfl other
  · cases done

theorem main_move (done : p.main settings p.stage signal = some (request, q))
    : Move settings p signal request q := by
  generalize stands : p.stage = stage at done
  unfold main at done
  split at done
  · split at done
    · cases done
      exact .refused stands (some false) (by simp)
    split at done <;> cases done
    · exact .refused stands none (by simp)
    · exact .entered stands
  · split at done <;> cases done
    · rename_i size
      exact .misfit stands (by simpa using size)
    · rename_i size
      exact .admitted stands (by simp at size; omega)
  · split at done
    · cases done
      exact .stopped rfl (.inl stands)
    split at done <;> cases done
    · rename_i size
      exact .overflowed stands (by simpa using size)
    · exact .written stands
  · split at done <;> cases done
    · rename_i size
      exact .received stands size
    · rename_i size
      exact .incomplete stands size
  · split at done <;> cases done
    · exact .stopped rfl (.inr (.inl stands))
    · exact .prepared stands
  · cases done
    exact .progressed stands
  · split at done <;> cases done
    rename_i called
    exact called ▸ .inferred stands
  · split at done <;> cases done
    exact .stopped rfl (.inr (.inr (.inl stands)))
  · cases done
    exact .rejected stands
  · split at done <;> cases done
    · exact .stopped rfl (.inr (.inr (.inr ⟨_, stands⟩)))
    · rename_i kept
      exact .checked stands (by simpa using kept)
  · split at done <;> cases done
    · rename_i size
      exact .oversized stands size
    · rename_i size
      exact .posted stands (Nat.le_of_not_lt size)
  · cases done
    exact .answered stands
  · cases done
    exact .disconnected (.inl stands)
  · cases done
    exact .disconnected (.inr stands)
  · cases done
    exact .raised stands
  · cases done
    exact .broke (.inl stands)
  · cases done
    exact .broke (.inr stands)
  · cases done
    exact .cleaned stands
  · cases done
    exact .uncleaned stands
  · split at done <;> cases done
    · exact .withheld stands
    · rename_i kept
      exact .warned stands (by simpa using kept)
  · cases done
    exact .reported stands
  · cases done
    exact .acknowledged stands
  · cases done
    exact .unanswered stands
  · cases done

theorem Step.move {label : Signal × Option WorkerRequest} (step : Step settings p label q)
    : Move settings p label.1 label.2 q := by
  obtain ⟨signal, request⟩ := label
  cases signal with
  | halt =>
      cases step
      exact .halt
  | wake | beat | beaten | expire | rest => exact heartbeat_move step
  | _ => exact main_move step

end Process

-----------------------------------------------------------------------------------------
-- Traces
-----------------------------------------------------------------------------------------

/-- The signals of one call with the requests that it sent. -/
abbrev Trace := List (Signal × Option WorkerRequest)

def Trace.signals (trace : Trace) : List Signal := trace.map Prod.fst

/-- The bytes that a signal brings from the coordinator. -/
def Signal.data : Signal → List UInt8
  | .chunk data => data
  | _ => []

def Trace.downloaded (trace : Trace) : List UInt8 := trace.flatMap (fun label => label.1.data)

def WorkerRequest.completion : WorkerRequest → Bool
  | .complete .. => true
  | _ => false

/-- The requests that end an attempt. -/
def WorkerRequest.report : WorkerRequest → Bool
  | .complete .. | .fail .. => true
  | _ => false

def Trace.reports (trace : Trace) : List WorkerRequest :=
  (trace.filterMap Prod.snd).filter WorkerRequest.report

namespace Trace

variable {past : Trace} {label : Signal × Option WorkerRequest}

theorem signals_snoc : (past ++ [label]).signals = past.signals ++ [label.1] := by
  simp [signals]

theorem downloaded_snoc : (past ++ [label]).downloaded = past.downloaded ++ label.1.data := by
  simp [downloaded]

/-- A label without a report adds none. -/
theorem reports_silent (silent : ∀ request, label.2 = some request → request.report = false)
    : (past ++ [label]).reports = past.reports := by
  obtain ⟨signal, request⟩ := label
  cases request with
  | none => simp [reports]
  | some request => simp [reports, silent request rfl]

theorem reports_snoc {signal : Signal} {request : WorkerRequest} (report : request.report)
    : (past ++ [(signal, some request)]).reports = past.reports ++ [request] := by
  simp [reports, report]

end Trace

/-- The step of another thread than the main one. -/
def Signal.beside : Signal → Bool
  | .halt | .wake | .beat | .beaten _ | .expire | .rest => true
  | _ => false

/-- The last step of the main thread was a check, and nothing had taken the lease or stopped the
worker before it.
-/
def Trace.Checked (past : Trace) : Prop :=
  ∃ before later,
    past.signals = before ++ .check :: later
    ∧ (∀ signal ∈ before, signal.losing = false)
    ∧ ∀ signal ∈ later, signal.beside = true

theorem Trace.Checked.snoc {past : Trace} {label : Signal × Option WorkerRequest}
    (checked : past.Checked) (beside : label.1.beside = true)
    : Trace.Checked (past ++ [label]) := by
  obtain ⟨before, later, same, kept, others⟩ := checked
  refine ⟨before, later ++ [label.1], ?_, kept, ?_⟩
  · rw [Trace.signals_snoc, same, List.append_assoc, List.cons_append]
  · rw [List.forall_mem_append, List.forall_mem_singleton]
    exact ⟨others, beside⟩

/-- What a trace shows of the cause of a failure. -/
def Failure.Seen (settings : WorkerSettings) (claim : ClaimResponse) (past : Trace)
    : Failure → Prop
  | .invalidSize => claim.inputSize = 0 ∨ settings.maxInputBytes < claim.inputSize
  | .inputTooLarge =>
      settings.maxInputBytes < past.downloaded.length
      ∨ claim.inputSize < past.downloaded.length
  | .incompleteInput => .eof ∈ past.signals ∧ past.downloaded.length ≠ claim.inputSize
  | .rejectedInput => .refuse ∈ past.signals
  | .resultTooLarge =>
      ∃ call result,
        .infer call result ∈ past.signals
        ∧ maxResultBytes
          < settings.byteSize claim.jobId claim.leaseToken result.text
              (result.sent settings).segments
  | .unexpected => .unexpected ∈ past.signals ∨ .uncleaned ∈ past.signals

/-- A request of a call, against what came before it. -/
def WorkerRequest.Justified (settings : WorkerSettings) (claim : ClaimResponse) (past : Trace)
    : WorkerRequest → Prop
  | .complete jobId leaseToken text segments byteSize =>
      jobId = claim.jobId
      ∧ leaseToken = claim.leaseToken
      ∧ byteSize ≤ maxResultBytes
      ∧ past.Checked
      ∧ past.downloaded.length = claim.inputSize
      ∧ claim.inputSize ≤ settings.maxInputBytes
      ∧ ∃ result : TranscriptionResult,
          .infer ⟨past.downloaded, claim.preset, claim.language, claim.initialPrompt⟩ result
              ∈ past.signals
          ∧ result.sent settings = ⟨text, segments⟩
  | .fail jobId leaseToken errorCode retryable =>
      jobId = claim.jobId
      ∧ leaseToken = claim.leaseToken
      ∧ past.Checked
      ∧ ∃ failure : Failure,
          failure.Seen settings claim past
          ∧ errorCode = failure.code
          ∧ retryable = failure.retryable
  | .heartbeat jobId leaseToken _ | .download jobId leaseToken =>
      jobId = claim.jobId ∧ leaseToken = claim.leaseToken
  | _ => False

-----------------------------------------------------------------------------------------
-- The invariant
-----------------------------------------------------------------------------------------

/-- Between a check of the main thread and the report that it allows. -/
def ProcessStage.checked : ProcessStage → Bool
  | .posting _ | .warning _ => true
  | _ => false

/-- One completion was sent, and nothing else. -/
def Trace.Completed (past : Trace) : Prop :=
  ∃ request, past.reports = [request] ∧ request.completion

/-- What the main thread has sent and received when it stands at a stage. -/
def Fits (settings : WorkerSettings) (claim : ClaimResponse) (past : Trace)
    (audio : List UInt8)
    : ProcessStage → Prop
  | .entered | .admitting => past.reports = [] ∧ audio = past.downloaded
  | .receiving =>
      past.reports = [] ∧ audio = past.downloaded ∧ claim.inputSize ≤ settings.maxInputBytes
  | .received | .transcribing =>
      past.reports = []
      ∧ audio = past.downloaded
      ∧ claim.inputSize ≤ settings.maxInputBytes
      ∧ audio.length = claim.inputSize
  | .transcribed result | .posting result =>
      past.reports = []
      ∧ audio = past.downloaded
      ∧ claim.inputSize ≤ settings.maxInputBytes
      ∧ audio.length = claim.inputSize
      ∧ .infer ⟨audio, claim.preset, claim.language, claim.initialPrompt⟩ result ∈ past.signals
  | .completing => past.Completed
  | .leaving exit =>
      match exit with
      | .acked accepted => past.Completed ∧ .acked accepted ∈ past.signals
      | .stopped => past.reports = []
      | .disconnected => past.reports = [] ∨ past.Completed
      | .failed failure => past.reports = [] ∧ failure.Seen settings claim past
  | .failing failure | .warning failure =>
      failure.Seen settings claim past
      ∧ (past.reports = []
        ∨ past.Completed ∧ .uncleaned ∈ past.signals ∧ failure = .unexpected)
  | .reporting failure =>
      ∃ report,
        report = WorkerRequest.fail claim.jobId claim.leaseToken failure.code failure.retryable
        ∧ (past.reports = [report]
          ∨ ∃ completion,
              past.reports = [completion, report]
              ∧ completion.completion
              ∧ .uncleaned ∈ past.signals
              ∧ failure = .unexpected)
  | .returned value =>
      (value = some true → .acked true ∈ past.signals)
      ∧ (past.reports.length ≤ 1
        ∨ ∃ completion,
            past.reports
              = [completion, .fail claim.jobId claim.leaseToken "inference_failed" true]
            ∧ completion.completion
            ∧ .uncleaned ∈ past.signals)

theorem Failure.Seen.snoc {settings : WorkerSettings} {claim : ClaimResponse} {past : Trace}
    {failure : Failure} {label : Signal × Option WorkerRequest}
    (seen : failure.Seen settings claim past) (plain : label.1.data = [])
    : failure.Seen settings claim (past ++ [label]) := by
  cases failure with
  | invalidSize => exact seen
  | inputTooLarge | incompleteInput =>
      simp only [Failure.Seen, Trace.downloaded_snoc, plain, List.append_nil, Trace.signals_snoc,
        List.mem_append] at seen ⊢
      tauto
  | rejectedInput | unexpected =>
      simp only [Failure.Seen, Trace.signals_snoc, List.mem_append] at seen ⊢
      tauto
  | resultTooLarge =>
      obtain ⟨call, result, inferred, size⟩ := seen
      exact ⟨call, result, by simp [Trace.signals_snoc, inferred], size⟩

/-- A label that brings no bytes and no report keeps what a stage has. -/
theorem Fits.snoc {settings : WorkerSettings} {claim : ClaimResponse} {past : Trace}
    {audio : List UInt8} {stage : ProcessStage} {label : Signal × Option WorkerRequest}
    (fits : Fits settings claim past audio stage) (plain : label.1.data = [])
    (silent : ∀ request, label.2 = some request → request.report = false)
    : Fits settings claim (past ++ [label]) audio stage := by
  have reports : (past ++ [label]).reports = past.reports := Trace.reports_silent silent
  have downloaded : (past ++ [label]).downloaded = past.downloaded := by
    rw [Trace.downloaded_snoc, plain, List.append_nil]
  have grows {signal : Signal} (member : signal ∈ past.signals)
      : signal ∈ (past ++ [label]).signals := by
    rw [Trace.signals_snoc]
    exact List.mem_append_left _ member
  cases stage with
  | entered | admitting | receiving | received | transcribing =>
      simp only [Fits, reports, downloaded] at fits ⊢
      exact fits
  | transcribed result | posting result =>
      simp only [Fits, reports, downloaded] at fits ⊢
      exact ⟨fits.1, fits.2.1, fits.2.2.1, fits.2.2.2.1, grows fits.2.2.2.2⟩
  | completing =>
      simp only [Fits, Trace.Completed, reports] at fits ⊢
      exact fits
  | leaving exit =>
      cases exit with
      | acked accepted =>
          simp only [Fits, Trace.Completed, reports] at fits ⊢
          exact ⟨fits.1, grows fits.2⟩
      | stopped | disconnected =>
          simp only [Fits, Trace.Completed, reports] at fits ⊢
          exact fits
      | failed failure =>
          simp only [Fits, reports] at fits ⊢
          exact ⟨fits.1, fits.2.snoc plain⟩
  | failing failure | warning failure =>
      simp only [Fits, Trace.Completed, reports] at fits ⊢
      refine ⟨fits.1.snoc plain, fits.2.imp_right ?_⟩
      rintro ⟨completed, uncleaned, cause⟩
      exact ⟨completed, grows uncleaned, cause⟩
  | reporting failure =>
      obtain ⟨report, same, sent⟩ := fits
      refine ⟨report, same, ?_⟩
      rw [reports]
      refine sent.imp_right ?_
      rintro ⟨completion, both, kind, uncleaned, cause⟩
      exact ⟨completion, both, kind, grows uncleaned, cause⟩
  | returned value =>
      obtain ⟨accepted, sent⟩ := fits
      refine ⟨fun yes => grows (accepted yes), ?_⟩
      rw [reports]
      refine sent.imp_right ?_
      rintro ⟨completion, both, kind, uncleaned⟩
      exact ⟨completion, both, kind, grows uncleaned⟩

namespace Process

variable {settings : WorkerSettings} {claim : ClaimResponse} {past : Trace} {p q : Process}
  {signal : Signal} {request : Option WorkerRequest}

/-- The state of a call against its trace. -/
structure Tracked (settings : WorkerSettings) (claim : ClaimResponse) (past : Trace)
    (p : Process)
    : Prop where
  same : p.claim = claim
  lost : p.stopped = past.signals.any Signal.losing
  fits : Fits settings claim past p.audio p.stage
  checked : p.stage.checked = true → past.Checked
  justified
    : ∀ before signal request after,
        past = before ++ (signal, some request) :: after
        → request.Justified settings claim before

theorem Tracked.start (settings : WorkerSettings) (claim : ClaimResponse)
    : Tracked settings claim [] (.start claim) where
  same := rfl
  lost := rfl
  fits := ⟨rfl, rfl⟩
  checked := by simp [Process.start, ProcessStage.checked]
  justified := by simp

/-- A step keeps the claim, and only a losing signal stops the call. -/
theorem Move.frame (move : Move settings p signal request q)
    : q.claim = p.claim ∧ q.stopped = (p.stopped || signal.losing) := by
  cases move with
  | halt => exact ⟨rfl, by simp [Process.stopped, Signal.losing]⟩
  | lost losing =>
      rcases losing with rfl | rfl | rfl <;>
        exact ⟨rfl, by simp [Process.stopped, Signal.losing]⟩
  | stopped plain => exact ⟨rfl, by simp [plain, leave, Process.stopped]⟩
  | @cleaned exit =>
      cases exit <;> exact ⟨rfl, by simp [Process.stopped, settle, finish, Signal.losing]⟩
  | _ => exact ⟨rfl, by simp [Process.stopped, leave, finish, Signal.losing]⟩

/-- No losing signal came before a step that the main thread checked. -/
theorem Tracked.kept (tracked : Tracked settings claim past p) (kept : p.stopped = false)
    : ∀ signal ∈ past.signals, signal.losing = false := by
  have none := tracked.lost.symm.trans kept
  simpa using none

theorem Move.justified {request : WorkerRequest} (move : Move settings p signal (some request) q)
    (tracked : Tracked settings claim past p)
    : request.Justified settings claim past := by
  have fits := tracked.fits
  obtain rfl := tracked.same
  cases move with
  | beat | admitted => exact ⟨rfl, rfl⟩
  | @posted result stage size =>
      have checked := tracked.checked (by rw [stage]; rfl)
      rw [stage] at fits
      obtain ⟨_, same, bound, whole, inferred⟩ := fits
      rw [same] at whole inferred
      exact ⟨rfl, rfl, size, checked, whole, bound, result, inferred, rfl⟩
  | @reported failure stage =>
      have checked := tracked.checked (by rw [stage]; rfl)
      rw [stage] at fits
      exact ⟨rfl, rfl, checked, failure, fits.1, rfl, rfl⟩

/-- Only a check leads to where a report is sent, and the other threads leave the main one there. -/
theorem Move.checks (move : Move settings p signal request q)
    (tracked : Tracked settings claim past p)
    : q.stage.checked = true → Trace.Checked (past ++ [(signal, request)]) := by
  have beside (beside : signal.beside = true) (checked : p.stage.checked = true)
      : Trace.Checked (past ++ [(signal, request)]) :=
    (tracked.checked checked).snoc beside
  have now (kept : p.stopped = false) : Trace.Checked (past ++ [(.check, none)]) :=
    ⟨past.signals, [], by rw [Trace.signals_snoc], tracked.kept kept, by simp⟩
  cases move with
  | halt | woken | beat | renewed | rest => exact beside rfl
  | lost losing => rcases losing with rfl | rfl | rfl <;> exact beside rfl
  | checked stage kept | warned stage kept => exact fun _ => now kept
  | written stage | progressed stage =>
      intro checked
      rw [show _ = _ from stage] at checked
      cases checked
  | @cleaned exit => cases exit <;> exact fun checked => by cases checked
  | _ => exact fun checked => by cases checked

/-- Every step of either thread fits, by cases on the step. -/
theorem Move.fits (move : Move settings p signal request q)
    (tracked : Tracked settings claim past p)
    : Fits settings claim (past ++ [(signal, request)]) q.audio q.stage := by
  have fits := tracked.fits
  obtain rfl := tracked.same
  have last : signal ∈ (Trace.signals (past ++ [(signal, request)])) := by
    simp [Trace.signals_snoc]
  have quiet (plain : signal.data = [])
      (silent : ∀ sent, request = some sent → sent.report = false)
      : Fits settings p.claim (past ++ [(signal, request)]) p.audio p.stage :=
    fits.snoc plain silent
  cases move with
  | halt | woken | renewed | rest | progressed => exact quiet rfl (by simp)
  | beat => exact quiet rfl (by simp [WorkerRequest.report])
  | lost losing => rcases losing with rfl | rfl | rfl <;> exact quiet rfl (by simp)
  | refused stage value untrue =>
      have kept := quiet rfl (by simp)
      rw [stage] at kept
      exact ⟨fun yes => absurd yes untrue, .inl (by simp [kept.1])⟩
  | entered stage | prepared stage =>
      have kept := quiet rfl (by simp)
      rw [stage] at kept
      exact kept
  | misfit stage size =>
      have kept := quiet rfl (by simp)
      rw [stage] at kept
      exact ⟨size, .inl kept.1⟩
  | admitted stage size =>
      have kept := quiet rfl (by simp [WorkerRequest.report])
      rw [stage] at kept
      exact ⟨kept.1, kept.2, size⟩
  | @overflowed data stage size =>
      rw [stage] at fits
      obtain ⟨none, same, _⟩ := fits
      refine ⟨(Trace.reports_silent (by simp)).trans none, ?_⟩
      simpa [Failure.Seen, Trace.downloaded_snoc, ← same, Signal.data] using size
  | @written data stage =>
      rw [stage] at fits
      obtain ⟨none, same, bound⟩ := fits
      simp only [stage]
      refine ⟨(Trace.reports_silent (by simp)).trans none, ?_, bound⟩
      rw [Trace.downloaded_snoc, same]
      rfl
  | received stage size =>
      have kept := quiet rfl (by simp)
      rw [stage] at kept
      exact ⟨kept.1, kept.2.1, kept.2.2, size⟩
  | incomplete stage size =>
      have kept := quiet rfl (by simp)
      rw [stage] at kept
      refine ⟨kept.1, last, ?_⟩
      rw [← kept.2.1]
      exact size
  | stopped plain stage =>
      refine (Trace.reports_silent (by simp)).trans ?_
      rcases stage with stage | stage | stage | ⟨result, stage⟩ <;>
        · rw [stage] at fits
          exact fits.1
  | inferred stage =>
      have kept := quiet rfl (by simp)
      rw [stage] at kept
      exact ⟨kept.1, kept.2.1, kept.2.2.1, kept.2.2.2, last⟩
  | checked stage | warned stage =>
      have kept := quiet rfl (by simp)
      rw [stage] at kept
      exact kept
  | rejected stage =>
      have kept := quiet rfl (by simp)
      rw [stage] at kept
      exact ⟨kept.1, last⟩
  | @oversized result stage size =>
      have kept := quiet rfl (by simp)
      rw [stage] at kept
      exact ⟨kept.1, _, result, kept.2.2.2.2, size⟩
  | @posted result stage size =>
      rw [stage] at fits
      refine ⟨p.completion settings result, ?_, rfl⟩
      rw [Trace.reports_snoc rfl, fits.1, List.nil_append]
  | answered stage =>
      have kept := quiet rfl (by simp)
      rw [stage] at kept
      exact ⟨kept, last⟩
  | disconnected stage =>
      have kept := quiet rfl (by simp)
      rcases stage with stage | stage <;> rw [stage] at kept
      · exact .inl kept.1
      · exact .inr kept
  | raised stage =>
      have kept := quiet rfl (by simp)
      rw [stage] at kept
      exact ⟨.inl last, .inl kept.1⟩
  | broke stage =>
      have kept := quiet rfl (by simp)
      rcases stage with stage | stage <;>
        · rw [stage] at kept
          exact ⟨kept.1, .inl last⟩
  | @cleaned exit stage =>
      have kept := quiet rfl (by simp)
      rw [stage] at kept
      cases exit with
      | acked accepted =>
          obtain ⟨⟨request, one, _⟩, acked⟩ := kept
          exact ⟨fun yes => Option.some.inj yes ▸ acked, .inl (by simp [one])⟩
      | stopped => exact ⟨by simp, .inl (by simp [show _ = _ from kept])⟩
      | disconnected =>
          refine ⟨by simp, .inl ?_⟩
          rcases kept with none | ⟨request, one, _⟩
          · simp [none]
          · simp [one]
      | failed failure => exact ⟨kept.2, .inl kept.1⟩
  | @uncleaned exit stage =>
      have kept := quiet rfl (by simp)
      rw [stage] at kept
      refine ⟨.inr last, ?_⟩
      cases exit with
      | acked accepted => exact .inr ⟨kept.1, last, rfl⟩
      | stopped => exact .inl kept
      | disconnected => exact kept.imp_right (fun completed => ⟨completed, last, rfl⟩)
      | failed failure => exact .inl kept.1
  | withheld stage =>
      have kept := quiet rfl (by simp)
      rw [stage] at kept
      refine ⟨by simp, .inl ?_⟩
      rcases kept.2 with none | ⟨⟨request, one, _⟩, _⟩
      · simp [none]
      · simp [one]
  | @reported failure stage =>
      rw [stage] at fits
      refine ⟨_, rfl, ?_⟩
      rw [Trace.reports_snoc rfl]
      rcases fits.2 with none | ⟨⟨request, one, kind⟩, uncleaned, cause⟩
      · exact .inl (by rw [none, List.nil_append])
      · refine .inr ⟨request, by rw [one]; rfl, kind, ?_, cause⟩
        rw [Trace.signals_snoc]
        exact List.mem_append_left _ uncleaned
  | acknowledged stage | unanswered stage =>
      have kept := quiet rfl (by simp)
      rw [stage] at kept
      obtain ⟨report, rfl, sent⟩ := kept
      constructor
      · intro yes
        first
          | exact Option.some.inj yes ▸ last
          | cases yes
      · rcases sent with one | ⟨completion, both, kind, uncleaned, rfl⟩
        · exact .inl (by simp [one])
        · exact .inr ⟨completion, both, kind, uncleaned⟩

theorem Tracked.step {label : Signal × Option WorkerRequest}
    (tracked : Tracked settings claim past p) (step : Step settings p label q)
    : Tracked settings claim (past ++ [label]) q := by
  have move := step.move
  refine ⟨move.frame.1.trans tracked.same, ?_, move.fits tracked, move.checks tracked, ?_⟩
  · rw [move.frame.2, tracked.lost, Trace.signals_snoc]
    simp
  · intro before signal request after split
    rcases snoc_split split with ⟨rfl, rfl, _⟩ | ⟨earlier, _, inPast⟩
    · exact move.justified tracked
    · exact tracked.justified before signal request earlier inPast

/-- What the requests and the return value of one call say, over its whole trace. -/
structure ReportsSound (settings : WorkerSettings) (claim : ClaimResponse) (trace : Trace)
    (p : Process)
    : Prop where
  once
    : trace.reports.length ≤ 1
      ∨ ∃ completion,
          trace.reports = [completion, .fail claim.jobId claim.leaseToken "inference_failed" true]
          ∧ completion.completion
          ∧ .uncleaned ∈ trace.signals
  justified
    : ∀ before signal request after,
        trace = before ++ (signal, some request) :: after
        → request.Justified settings claim before
  accepted : p.stage = .returned (some true) → .acked true ∈ trace.signals

theorem Fits.once {audio : List UInt8} {stage : ProcessStage}
    (fits : Fits settings claim past audio stage)
    : past.reports.length ≤ 1
      ∨ ∃ completion,
          past.reports = [completion, .fail claim.jobId claim.leaseToken "inference_failed" true]
          ∧ completion.completion
          ∧ .uncleaned ∈ past.signals := by
  have none (silent : past.reports = []) : past.reports.length ≤ 1 := by simp [silent]
  have one (completed : past.Completed) : past.reports.length ≤ 1 := by
    obtain ⟨request, one, _⟩ := completed
    simp [one]
  cases stage with
  | entered | admitting | receiving | received | transcribing | transcribed | posting =>
      exact .inl (none fits.1)
  | completing => exact .inl (one fits)
  | leaving exit =>
      left
      cases exit with
      | acked accepted => exact one fits.1
      | stopped => exact none fits
      | disconnected => exact fits.elim none one
      | failed failure => exact none fits.1
  | failing failure | warning failure =>
      exact .inl (fits.2.elim none (fun completed => one completed.1))
  | reporting failure =>
      obtain ⟨report, rfl, sent⟩ := fits
      rcases sent with sent | ⟨completion, both, kind, uncleaned, rfl⟩
      · exact .inl (by simp [sent])
      · exact .inr ⟨completion, both, kind, uncleaned⟩
  | returned value => exact fits.2

/-- In every interleaving of its two threads with the answers of the coordinator, the engine and
the stop of the worker, one call of `process` reports soundly.
-/
theorem reports_sound {trace : Trace} (run : Run (Step settings) (start claim) trace p)
    : ReportsSound settings claim trace p := by
  have tracked : Tracked settings claim trace p :=
    run.history (fun _ _ _ _ tracked step => tracked.step step) (.start settings claim)
  refine ⟨Fits.once tracked.fits, tracked.justified, fun returned => ?_⟩
  have fits := tracked.fits
  rw [returned] at fits
  exact fits.1 rfl

/-- A signal with the request that it sends. -/
def perform (settings : WorkerSettings) (p : Process) (signal : Signal)
    : Option ((Signal × Option WorkerRequest) × Process) :=
  (p.next settings signal).map (fun done => ((signal, done.1), done.2))

theorem perform_step (settings : WorkerSettings) (p : Process) (signal : Signal)
    (label : Signal × Option WorkerRequest) (q : Process)
    (done : p.perform settings signal = some (label, q))
    : Step settings p label q := by
  obtain ⟨⟨request, next⟩, taken, same⟩ := Option.map_eq_some_iff.mp done
  cases same
  exact taken

/-- Signals one after another, without those that the call does not wait for. -/
def play (settings : WorkerSettings) (p : Process) (signals : List Signal) : Trace × Process :=
  Execution.play (perform settings) (fun _ _ _ => true) [] p signals

theorem play_run (settings : WorkerSettings) (p : Process) (signals : List Signal)
    : Run (Step settings) p (p.play settings signals).1 (p.play settings signals).2 :=
  (Execution.play_run (perform_step settings) (.nil p) signals).run
    (fun _ _ _ _ _ step => step)

/-- A claim of three bytes, and a worker that takes up to three. -/
def sampleClaim : ClaimResponse := ⟨"job", "gpu/token", 900, "wav", "voice", "", "", 3, "", ""⟩

def sampleSettings : WorkerSettings := ⟨3, fun _ _ text _ => text.length, id⟩

/-- A downloaded input is inferred and completed while the lease is renewed. -/
def sampleSignals : List Signal :=
  [.enter, .fetch, .wake, .beat, .beaten (some true), .chunk [1, 2], .chunk [3], .eof, .prepare,
    .progress (some 50), .wake, .beat, .infer ⟨[1, 2, 3], "voice", "", ""⟩ ⟨"text", []⟩,
    .beaten (some true), .check, .post, .acked true, .cleaned, .wake]

theorem reports_sound_completed
    : let played := (start sampleClaim).play sampleSettings sampleSignals
      played.1.reports = [.complete "job" "gpu/token" "text" [] 4]
        ∧ played.2.stage = .returned (some true)
        ∧ ReportsSound sampleSettings sampleClaim played.1 played.2 :=
  ⟨by decide +kernel, by decide +kernel, reports_sound (play_run sampleSettings _ sampleSignals)⟩

end Process

end Transcriber
