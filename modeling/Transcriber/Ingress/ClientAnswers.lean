import Transcriber.Ingress.ClientCalls

/-! What clients may conclude from the answers to their calls, whatever the other users of the
store do between two transactions of a call.
-/

namespace Transcriber

open Execution

namespace Desk

variable {single : Rat → Rat}

-----------------------------------------------------------------------------------------
-- Steps of the desk as steps of the store
-----------------------------------------------------------------------------------------

/-- The state in which a call is answered, and what the answer says of it. -/
inductive Answers (single : Rat → Rat) (s t : Desk)
    : ClientStage → ClientRequest → ClientAnswer → Prop
  | status {jobId row} (found : s.db.job? jobId = some row) (kept : t.db = s.db)
    : Answers single s t .called (.getStatus jobId) (.status (statusResponse single row))
  | missing {jobId} (missing : s.db.job? jobId = none) (kept : t.db = s.db)
    : Answers single s t .called (.getStatus jobId)
        (.error .notFound ("Job not found: " ++ jobId))
  | cancelled {jobId config now reply}
    (step : s.db.Step ⟨config, .cancelJob jobId now, reply⟩ t.db)
    : Answers single s t .called (.cancel jobId) (.cancelled (reply ≠ Reply.rows 0))
  | unnamed : Answers single s t .called (.ack "") (.error .invalidArgument "Job ID required")
  | acknowledged {jobId config now reply}
    (step : s.db.Step ⟨config, .acknowledgeJob jobId now, reply⟩ t.db)
    (matched : reply ≠ .rows 0)
    : Answers single s t .called (.ack jobId) .acknowledged
  | unknown {jobId} (missing : s.db.job? jobId = none)
    : Answers single s t .refused (.ack jobId) (.error .notFound "Job not found")
  | unfinished {jobId row} (found : s.db.job? jobId = some row)
    : Answers single s t .refused (.ack jobId)
        (.error .failedPrecondition "Only terminal jobs can be acknowledged")
  | transcribed {jobId row} (found : s.db.job? jobId = some row) (done : row.status = .done)
    (kept : t.db = s.db)
    : Answers single s t .called (.transcribe jobId) (.transcribed row.text)
  | failed {jobId row} (found : s.db.job? jobId = some row) (failed : row.status = .failed)
    (kept : t.db = s.db)
    : Answers single s t .called (.transcribe jobId) (.error .internal row.error)
  | closed {jobId}
    : Answers single s t .called (.transcribe jobId)
        (.error .cancelled "Transcription request closed")

/-- What a step does to the store and to the calls. -/
inductive Move (single : Rat → Rat) (s : Desk) (label : ClientEvent) (t : Desk) : Prop
  | received (request : ClientRequest) (silent : label = ⟨none, none⟩) (db : t.db = s.db)
    (calls : t.calls = s.calls ++ [⟨request, .called⟩])
  | waited (silent : label = ⟨none, none⟩) (same : t = s)
  | stored (event : Event) (called : label = ⟨some event, none⟩) (step : s.db.Step event t.db)
    (calls : t.calls = s.calls)
  | refused (index : Nat) (jobId : String) (event : Event) (config : Config) (now : Int)
    (op : event = ⟨config, .acknowledgeJob jobId now, .rows 0⟩)
    (called : label = ⟨some event, none⟩) (step : s.db.Step event t.db)
    (stood : s.calls[index]? = some ⟨.ack jobId, .called⟩)
    (calls : t.calls = s.calls.set index ⟨.ack jobId, .refused⟩)
  | answered (index : Nat) (request : ClientRequest) (stage : ClientStage) (answer : ClientAnswer)
    (called : label.answered = some (index, request, answer))
    (stood : s.calls[index]? = some ⟨request, stage⟩)
    (calls : t.calls = s.calls.set index ⟨request, .answered⟩)
    (db
      : label.stored = none ∧ t.db = s.db
        ∨ ∃ event, label.stored = some event ∧ s.db.Step event t.db)
    (answers : Answers single s t stage request answer)

theorem getStatus_missing {s : Db} {jobId : String} (missing : s.job? jobId = none)
    : getStatus single s jobId
      = (some (.notFound, "Job not found: " ++ jobId), .empty) := by
  rw [getStatus, missing]

theorem getStatus_found {s : Db} {jobId : String} {row : JobRecord}
    (found : s.job? jobId = some row)
    : getStatus single s jobId = (none, statusResponse single row) := by
  rw [getStatus, found]

/-- The next transaction of a call, by cases on the call and where it stands. -/
theorem advance_move {s t : Desk} {label : ClientEvent} {index : Nat} {config : Config}
    {now : Int} {call : ClientCall} (stood : s.calls[index]? = some call)
    (done : s.advance single index config now call = some (label, t))
    : Move single s label t := by
  obtain ⟨request, stage⟩ := call
  cases request with
  | getStatus jobId =>
      cases stage with
      | called =>
          cases found : s.db.job? jobId with
          | none =>
              simp only [advance, getStatus_missing found] at done
              cases done
              exact .answered index _ _ _ rfl stood rfl (.inl ⟨rfl, rfl⟩) (.missing found rfl)
          | some row =>
              simp only [advance, getStatus_found found] at done
              cases done
              exact .answered index _ _ _ rfl stood rfl (.inl ⟨rfl, rfl⟩) (.status found rfl)
      | refused | answered => cases done
  | cancel jobId =>
      cases stage with
      | called =>
          obtain ⟨⟨db, reply⟩, executed, same⟩ := Option.map_eq_some_iff.mp done
          cases same
          exact .answered index _ _ _ rfl stood rfl (.inr ⟨_, rfl, executed⟩)
            (.cancelled executed)
      | refused | answered => cases done
  | ack jobId =>
      cases stage with
      | called =>
          simp only [advance] at done
          split at done
          · rename_i unnamed
            subst unnamed
            cases done
            exact .answered index _ _ _ rfl stood rfl (.inl ⟨rfl, rfl⟩) .unnamed
          · obtain ⟨⟨db, reply⟩, executed, same⟩ := Option.map_eq_some_iff.mp done
            simp only at same
            split at same
            · rename_i none
              cases none
              cases same
              exact .refused index jobId _ config now rfl rfl executed stood rfl
            · rename_i matched
              cases same
              exact .answered index _ _ _ rfl stood rfl (.inr ⟨_, rfl, executed⟩)
                (.acknowledged executed matched)
      | refused =>
          simp only [advance] at done
          split at done <;> cases done
          · rename_i missing
            exact .answered index _ _ _ rfl stood rfl (.inl ⟨rfl, rfl⟩) (.unknown missing)
          · rename_i row found
            exact .answered index _ _ _ rfl stood rfl (.inl ⟨rfl, rfl⟩) (.unfinished found)
      | answered => cases done
  | transcribe jobId =>
      cases stage with
      | called =>
          cases found : s.db.job? jobId with
          | none =>
              simp only [advance, getStatus_missing found, StatusResponse.empty] at done
              cases done
              exact .waited rfl rfl
          | some row =>
              simp only [advance, getStatus_found found, statusResponse] at done
              split at done
              · rename_i status
                cases done
                exact .answered index _ _ _ rfl stood rfl (.inl ⟨rfl, rfl⟩)
                  (.transcribed found status rfl)
              · rename_i status
                cases done
                exact .answered index _ _ _ rfl stood rfl (.inl ⟨rfl, rfl⟩)
                  (.failed found status rfl)
              · cases done
                exact .waited rfl rfl
      | refused | answered => cases done

theorem Step.move {s t : Desk} {label : ClientEvent} (step : Step single s label t)
    : Move single s label t := by
  obtain ⟨action, done⟩ := step
  cases action with
  | receive request =>
      cases done
      exact .received request rfl rfl rfl
  | proceed index config now =>
      obtain ⟨call, stood, done⟩ := Option.bind_eq_some_iff.mp done
      exact advance_move stood done
  | close index =>
      simp only [exec] at done
      split at done
      · rename_i jobId stood
        cases done
        exact .answered index _ _ _ rfl stood rfl (.inl ⟨rfl, rfl⟩) .closed
      · cases done
  | other config op =>
      obtain ⟨⟨db, reply⟩, executed, same⟩ := Option.map_eq_some_iff.mp done
      cases same
      exact .stored _ rfl executed rfl

/-- A step leaves the store as it is or takes the step of the store that its label tells. -/
theorem Step.db {s t : Desk} {label : ClientEvent} (step : Step single s label t)
    : label.stored = none ∧ t.db = s.db
      ∨ ∃ event, label.stored = some event ∧ s.db.Step event t.db := by
  cases step.move with
  | received request silent db => exact .inl ⟨silent ▸ rfl, db⟩
  | waited silent same => exact .inl ⟨silent ▸ rfl, same ▸ rfl⟩
  | stored event called step => exact .inr ⟨event, called ▸ rfl, step⟩
  | refused _ _ event _ _ _ called step => exact .inr ⟨event, called ▸ rfl, step⟩
  | answered _ _ _ _ _ _ _ db => exact db

theorem storeEvents_append (labels more : List ClientEvent)
    : storeEvents (labels ++ more) = storeEvents labels ++ storeEvents more :=
  List.filterMap_append

/-- A run of the desk is a run of the store, by induction on it. -/
theorem run_db {s t : Desk} {labels : List ClientEvent} (run : Run (Step single) s labels t)
    : Run Db.Step s.db (storeEvents labels) t.db := by
  induction run with
  | nil => exact .nil _
  | @snoc _ _ past label run last ih =>
      rw [storeEvents_append]
      rcases last.db with ⟨silent, same⟩ | ⟨event, stored, step⟩
      · simpa [storeEvents, silent, same] using ih
      · simpa [storeEvents, stored] using ih.snoc step

-----------------------------------------------------------------------------------------
-- Polls
-----------------------------------------------------------------------------------------

end Desk

/-- What a later poll of a job shows against an earlier one. -/
structure StatusResponse.Advances (response later : StatusResponse) : Prop where
  jobId : later.jobId = response.jobId
  phase : response.status.phase ≤ later.status.phase
  attempts : response.attempts ≤ later.attempts
  maxAttempts : later.maxAttempts = response.maxAttempts
  settled : response.status.terminal → later = response

theorem JobRecord.Advances.response {row next : JobRecord} (advances : row.Advances next)
    (single : Rat → Rat)
    : (statusResponse single row).Advances (statusResponse single next) where
  jobId := advances.jobId
  phase := advances.phase
  attempts := advances.attempts
  maxAttempts := advances.maxAttempts
  settled terminal := by
    rw [advances.settled terminal]
    rfl

/-- The answer that a missing job gets. -/
def ClientAnswer.missing (jobId : String) : ClientAnswer :=
  .error .notFound ("Job not found: " ++ jobId)

/-- What the polls of a job show over a history: later polls advance, and a job that was found
and is missing stays missing.
-/
structure PollsAdvance (labels : List ClientEvent) (jobId : String) : Prop where
  later
    : ∀ before first middle second after i j response answer,
        labels = before ++ first :: (middle ++ second :: after)
        → first.answered = some (i, .getStatus jobId, .status response)
        → second.answered = some (j, .getStatus jobId, answer)
        → (∃ later, answer = .status later ∧ response.Advances later)
          ∨ answer = .missing jobId
  missing
    : ∀ before first middle second rest third after i j k response answer,
        labels = before ++ first :: (middle ++ second :: (rest ++ third :: after))
        → first.answered = some (i, .getStatus jobId, .status response)
        → second.answered = some (j, .getStatus jobId, .missing jobId)
        → third.answered = some (k, .getStatus jobId, answer)
        → answer = .missing jobId

namespace Desk

variable {single : Rat → Rat}

/-- A poll reads the store and leaves it as it is. -/
theorem Step.poll {s t : Desk} {label : ClientEvent} {i : Nat} {jobId : String}
    {answer : ClientAnswer} (step : Step single s label t)
    (answered : label.answered = some (i, .getStatus jobId, answer))
    : t.db = s.db
      ∧ ((∃ row, s.db.job? jobId = some row ∧ answer = .status (statusResponse single row))
        ∨ s.db.job? jobId = none ∧ answer = .missing jobId) := by
  obtain ⟨action, done⟩ := step
  have move : Move single s label t := Step.move ⟨action, done⟩
  cases move with
  | received _ silent | waited silent | stored _ silent | refused _ _ _ _ _ _ silent =>
      rw [silent] at answered
      cases answered
  | answered index request stage other called stood calls db answers =>
      cases called.symm.trans answered
      cases answers with
      | status found kept => exact ⟨kept, .inl ⟨_, found, rfl⟩⟩
      | missing missing kept => exact ⟨kept, .inr ⟨missing, rfl⟩⟩

/-- After a run from a consistent store a stored job shows a later version or nothing. -/
theorem polls_run {s t : Desk} {labels : List ClientEvent} {jobId : String} {row : JobRecord}
    (run : Run (Step single) s labels t) (consistent : s.db.Consistent)
    (found : s.db.job? jobId = some row)
    : (∃ next, t.db.job? jobId = some next ∧ row.Advances next) ∨ t.db.Gone jobId :=
  Db.advances_run (run_db run) consistent found

theorem consistent_run {clock : Int} {s : Desk} {labels : List ClientEvent}
    (run : Run (Step single) (start clock) labels s)
    : s.db.Consistent :=
  Db.consistent_run (.empty clock) (run_db run)

/-- Polls advance in every run: each reads the store between the steps of its users. -/
theorem polls_advance {clock : Int} {s : Desk} {labels : List ClientEvent}
    (run : Run (Step single) (start clock) labels s) (jobId : String)
    : PollsAdvance labels jobId := by
  constructor
  · rintro before first middle second after i j response answer rfl polled polledAgain
    obtain ⟨t, t', past, step, rest⟩ := run.split_at
    obtain ⟨u, u', between, step', _⟩ := rest.split_at
    obtain ⟨same, ⟨row, found, shown⟩ | ⟨_, absent⟩⟩ := step.poll polled
    · cases shown
      have consistent : t'.db.Consistent := same ▸ consistent_run past
      obtain ⟨_, ⟨next, foundNext, shownNext⟩ | ⟨_, absent⟩⟩ := step'.poll polledAgain
      · rcases polls_run between consistent (same ▸ found) with ⟨later, stored, advances⟩ | gone
        · cases foundNext.symm.trans stored
          exact .inl ⟨_, shownNext, advances.response single⟩
        · cases foundNext.symm.trans gone.1
      · exact .inr absent
    · cases absent
  · rintro before first middle second rest third after i j k response answer rfl polled missed
      polledAgain
    obtain ⟨t, t', past, step, more⟩ := run.split_at
    obtain ⟨u, u', between, step', more⟩ := more.split_at
    obtain ⟨v, v', between', step'', _⟩ := more.split_at
    obtain ⟨same, ⟨row, found, _⟩ | ⟨_, absent⟩⟩ := step.poll polled
    · have consistent : t'.db.Consistent := same ▸ consistent_run past
      obtain ⟨same', ⟨_, _, shown⟩ | ⟨missing, _⟩⟩ := step'.poll missed
      · cases shown
      · have gone : u'.db.Gone jobId := by
          rw [same']
          rcases polls_run between consistent (same ▸ found) with ⟨next, stored, _⟩ | gone
          · cases missing.symm.trans stored
          · exact gone
        have later : u'.db.Consistent :=
          same' ▸ Db.consistent_run consistent (run_db between)
        have lost := Db.gone_run (run_db between') later gone
        obtain ⟨_, ⟨_, stored, _⟩ | ⟨_, absent⟩⟩ := step''.poll polledAgain
        · cases lost.1.symm.trans stored
        · exact absent
    · cases absent

/-- A job is polled when it is queued and when it is done. -/
def pollTwice : List ClientAction :=
  let jobId := (Uuid.nth 0).text
  (Db.completeOnce.take 2).map (fun call => .other call.1 call.2)
  ++ [.receive (.getStatus jobId), .proceed 0 (.onePool .rabbitmq) 0]
  ++ (Db.completeOnce.drop 2).map (fun call => .other call.1 call.2)
  ++ [.receive (.getStatus jobId), .proceed 1 (.onePool .rabbitmq) 2]

theorem polls_advance_completed
    : let labels := ((start 0).play pollTwice).1
      let answers := (labels.filterMap ClientEvent.answered).map (fun entry => entry.2.2)
      answers.length = 2
        ∧ answers.all (fun answer => answer ≠ .missing (Uuid.nth 0).text)
        ∧ PollsAdvance labels (Uuid.nth 0).text :=
  ⟨by decide +kernel, by decide +kernel, polls_advance (play_run (start 0) pollTwice) _⟩

-----------------------------------------------------------------------------------------
-- Calls that wait
-----------------------------------------------------------------------------------------

/-- While an Ack of the job was running, the job was stored and unfinished. -/
def SawUnfinished (single : Rat → Rat) (start : Desk) (past : List ClientEvent) (index : Nat)
    (jobId : String)
    : Prop :=
  ∃ before after u row stage,
    past = before ++ after
    ∧ Run (Step single) start before u
    ∧ u.calls[index]? = some ⟨.ack jobId, stage⟩
    ∧ stage ≠ .answered
    ∧ u.db.job? jobId = some row
    ∧ row.status.terminal = false

theorem SawUnfinished.append {start : Desk} {past : List ClientEvent} {index : Nat}
    {jobId : String} (saw : SawUnfinished single start past index jobId) (label : ClientEvent)
    : SawUnfinished single start (past ++ [label]) index jobId := by
  obtain ⟨before, after, u, row, stage, rfl, rest⟩ := saw
  exact ⟨before, after ++ [label], u, row, stage, by simp, rest⟩

/-- A call stands where it stood unless the step is its own. -/
theorem Move.stands {s t : Desk} {label : ClientEvent} {index : Nat} {jobId : String}
    (move : Move single s label t) (stands : t.calls[index]? = some ⟨.ack jobId, .refused⟩)
    : s.calls[index]? = some ⟨.ack jobId, .refused⟩
      ∨ s.calls[index]? = some ⟨.ack jobId, .called⟩
        ∧ ∃ config now,
            s.db.Step ⟨config, .acknowledgeJob jobId now, .rows 0⟩ t.db := by
  cases move with
  | received request silent db calls =>
      rw [calls, List.getElem?_append] at stands
      split at stands
      · exact .inl stands
      · rename_i beyond
        obtain ⟨_, other⟩ := List.getElem?_eq_some_iff.mp stands
        simp at other
  | waited silent same => exact .inl (same ▸ stands)
  | stored event called step calls => exact .inl (calls ▸ stands)
  | refused other jobId' event config now op called step stood calls =>
      rcases eq_or_ne other index with rfl | differs
      · obtain ⟨bound, _⟩ := List.getElem?_eq_some_iff.mp stood
        rw [calls, List.getElem?_set_self bound] at stands
        cases stands
        subst op
        exact .inr ⟨stood, config, now, step⟩
      · rw [calls, List.getElem?_set_ne differs] at stands
        exact .inl stands
  | answered other request stage answer called stood calls db answers =>
      rcases eq_or_ne other index with rfl | differs
      · obtain ⟨bound, _⟩ := List.getElem?_eq_some_iff.mp stood
        rw [calls, List.getElem?_set_self bound] at stands
        cases stands
      · rw [calls, List.getElem?_set_ne differs] at stands
        exact .inl stands

/-- A job that an Ack did not find terminal is missing, or was unfinished during the call. -/
theorem refused_run {clock : Int} {s : Desk} {labels : List ClientEvent} {index : Nat}
    {jobId : String} (run : Run (Step single) (start clock) labels s)
    (stands : s.calls[index]? = some ⟨.ack jobId, .refused⟩)
    : s.db.job? jobId = none ∨ SawUnfinished single (start clock) labels index jobId := by
  induction run with
  | nil => simp [start] at stands
  | @snoc t u past label run last ih =>
      have consistent := consistent_run run
      have reached := run.snoc last
      have here {row : JobRecord} (found : u.db.job? jobId = some row)
          (unfinished : row.status.terminal = false)
          : SawUnfinished single (start clock) (past ++ [label]) index jobId :=
        ⟨past ++ [label], [], u, row, .refused, by simp, reached, stands, by simp, found,
          unfinished⟩
      rcases last.move.stands stands with stood | ⟨stood, config, now, step⟩
      · rcases ih stood with missing | saw
        · -- a row that appears during the call is a created one
          cases found : u.db.job? jobId with
          | none => exact .inl rfl
          | some next =>
              right
              rcases last.db with ⟨_, same⟩ | ⟨event, _, step⟩
              · cases missing.symm.trans (same ▸ found)
              · have change := (step.outcome consistent.distinct consistent.held).change
                rcases change.origin consistent found
                  with ⟨row, stored, _⟩ | ⟨_, _, options, newId, now, _, _, rfl⟩
                · cases missing.symm.trans stored
                · exact here found rfl
        · exact .inr (saw.append label)
      · have only
            : ∀ row : JobRecord, (Sql.ack jobId now).selects row → row.jobId = jobId := by
          intro row selected
          simp only [Sql.ack, Bool.and_eq_true, decide_eq_true_eq] at selected
          exact selected.1
        rcases Db.executed_row step consistent.distinct only
          with ⟨_, _, _, _, matched⟩ | ⟨unselected, same, _⟩
        · exact absurd rfl matched
        · cases found : t.db.job? jobId with
          | none => exact .inl (same.trans found)
          | some row =>
              right
              refine here (same.trans found) ?_
              simpa [Sql.ack, (Db.job?_mem found).2] using unselected row found

-----------------------------------------------------------------------------------------
-- Answers
-----------------------------------------------------------------------------------------

/-- The answers to the calls about a job, over a whole history: a transcript is the one accepted
result of the job; a job that Transcribe reports as failed, or that Cancel took, is never
completed; an acknowledged job is terminal and stays acknowledged; an Ack that was refused met
an unfinished job.
-/
structure AnswersHold (single : Rat → Rat) (start : Desk) (labels : List ClientEvent) (s : Desk)
    (jobId : String)
    : Prop where
  transcribed
    : ∀ before label after i text,
        labels = before ++ label :: after
        → label.answered = some (i, .transcribe jobId, .transcribed text)
        → ∃ token segments,
            completions (storeEvents labels) jobId = [(token, text, segments)]
            ∧ (issuedTokens (storeEvents before) jobId).head? = some token
  failed
    : ∀ before label after i details,
        labels = before ++ label :: after
        → label.answered = some (i, .transcribe jobId, .error .internal details)
        → completions (storeEvents labels) jobId = []
  cancelled
    : ∀ before label after i,
        labels = before ++ label :: after
        → label.answered = some (i, .cancel jobId, .cancelled true)
        → completions (storeEvents labels) jobId = []
          ∧ ∀ middle poll rest j response,
              after = middle ++ poll :: rest
              → poll.answered = some (j, .getStatus jobId, .status response)
              → response.status = .failed ∧ response.error = "cancelled"
  acknowledged
    : ∀ before label after i,
        labels = before ++ label :: after
        → label.answered = some (i, .ack jobId, .acknowledged)
        → (∃ row,
            s.db.job? jobId = some row ∧ row.status.terminal ∧ row.acknowledgedAt.isSome)
          ∨ s.db.Gone jobId
  unfinished
    : ∀ before label after i details,
        labels = before ++ label :: after
        → label.answered = some (i, .ack jobId, .error .failedPrecondition details)
        → SawUnfinished single start before i jobId

/-- The state in which an answer was given, read off its label. -/
theorem Step.answers {s t : Desk} {label : ClientEvent} {index : Nat} {request : ClientRequest}
    {answer : ClientAnswer} (step : Step single s label t)
    (answered : label.answered = some (index, request, answer))
    : ∃ stage,
        s.calls[index]? = some ⟨request, stage⟩ ∧ Answers single s t stage request answer := by
  cases step.move with
  | received _ silent | waited silent | stored _ silent | refused _ _ _ _ _ _ silent =>
      rw [silent] at answered
      cases answered
  | answered other request' stage answer' called stood calls db answers =>
      cases called.symm.trans answered
      exact ⟨stage, stood, answers⟩

/-- A cancelled job is failed when its Cancel is answered. -/
theorem Answers.cancels {s t : Desk} {jobId : String} {stage : ClientStage}
    (answers : Answers single s t stage (.cancel jobId) (.cancelled true))
    (consistent : s.db.Consistent)
    : ∃ row, t.db.job? jobId = some row ∧ row.status = .failed ∧ row.error = "cancelled" := by
  generalize said : ClientAnswer.cancelled true = answer at answers
  cases answers with
  | @cancelled _ config now reply step =>
      have matched : reply ≠ .rows 0 := by simpa using said
      have only
          : ∀ row : JobRecord, (Sql.cancelJob jobId now).selects row → row.jobId = jobId := by
        intro row selected
        simp only [Sql.cancelJob, Bool.and_eq_true, decide_eq_true_eq] at selected
        exact selected.1
      rcases Db.executed_row step consistent.distinct only
        with ⟨row, _, _, stored, _⟩ | ⟨_, _, none⟩
      · exact ⟨_, stored, rfl, rfl⟩
      · exact absurd none matched

/-- A job is terminal and acknowledged when its Ack is answered so. -/
theorem Answers.acknowledges {s t : Desk} {jobId : String} {stage : ClientStage}
    (answers : Answers single s t stage (.ack jobId) .acknowledged)
    (consistent : s.db.Consistent)
    : ∃ row,
        t.db.job? jobId = some row ∧ row.status.terminal ∧ row.acknowledgedAt.isSome := by
  cases answers with
  | @acknowledged _ config now reply step matched =>
      have only : ∀ row : JobRecord, (Sql.ack jobId now).selects row → row.jobId = jobId := by
        intro row selected
        simp only [Sql.ack, Bool.and_eq_true, decide_eq_true_eq] at selected
        exact selected.1
      rcases Db.executed_row step consistent.distinct only
        with ⟨row, _, selected, stored, _⟩ | ⟨_, _, none⟩
      · simp only [Sql.ack, Bool.and_eq_true] at selected
        exact ⟨_, stored, selected.2, rfl⟩
      · exact absurd none matched

/-- An acknowledged row stays acknowledged, by induction on the run. -/
theorem acknowledged_kept {s t : Db} {events : List Event} {jobId : String} {row : JobRecord}
    (run : Run Db.Step s events t) (consistent : s.Consistent)
    (found : s.job? jobId = some row) (terminal : row.status.terminal)
    (acknowledged : row.acknowledgedAt.isSome)
    : (∃ next, t.job? jobId = some next ∧ next.status.terminal ∧ next.acknowledgedAt.isSome)
      ∨ t.Gone jobId := by
  induction run with
  | nil => exact .inl ⟨row, found, terminal, acknowledged⟩
  | snoc run last ih =>
      have middle := Db.consistent_run consistent run
      rcases ih with ⟨version, stored, terminal, acknowledged⟩ | gone
      · refine (last.version middle stored).imp_left ?_
        rintro ⟨next, kept, step⟩
        have same := step.sameResult terminal
        obtain ⟨moment, set⟩ := Option.isSome_iff_exists.mp acknowledged
        refine ⟨next, kept, same.status ▸ terminal, ?_⟩
        rw [same.acknowledgedAt moment set]
        rfl
      · exact .inr (last.gone middle gone)

/-- Every answer holds, in every run of the calls among other users of the store. -/
theorem answers_hold {clock : Int} {s : Desk} {labels : List ClientEvent}
    (run : Run (Step single) (start clock) labels s) (jobId : String)
    : AnswersHold single (start clock) labels s jobId := by
  have parts {before after : List ClientEvent} {label : ClientEvent}
      (split : labels = before ++ label :: after)
      : storeEvents labels = storeEvents before ++ storeEvents (label :: after) := by
    rw [split, storeEvents_append]
  have around {before after : List ClientEvent} {label : ClientEvent}
      (split : labels = before ++ label :: after)
      : ∃ t t',
          Run (Step single) (start clock) before t
          ∧ Step single t label t'
          ∧ Run (Step single) t' after s :=
    (split ▸ run).split_at
  constructor
  case transcribed =>
    intro before label after i text split answered
    obtain ⟨t, t', past, step, rest⟩ := around split
    obtain ⟨stage, _, answers⟩ := step.answers answered
    cases answers with
    | @transcribed _ row found done kept =>
        obtain ⟨token, newest, result⟩ :=
          (Db.attempts_fenced (run_db past) jobId).result row found done
        have once := (Db.attempts_fenced (run_db run) jobId).completed_once
        refine ⟨token, row.segments, ?_, newest⟩
        rw [parts split, completions_append, result] at once ⊢
        rw [List.length_append, List.length_singleton] at once
        have none : completions (storeEvents (label :: after)) jobId = [] :=
          List.eq_nil_of_length_eq_zero (by omega)
        rw [none, List.append_nil]
  case failed =>
    intro before label after i details split answered
    obtain ⟨t, t', past, step, rest⟩ := around split
    obtain ⟨stage, _, answers⟩ := step.answers answered
    cases answers with
    | failed found failed kept =>
        rw [parts split]
        have later := run_db (Run.cons step rest)
        exact Db.failed_uncompleted (run_db past) later found failed
  case cancelled =>
    intro before label after i split answered
    obtain ⟨t, t', past, step, rest⟩ := around split
    obtain ⟨stage, _, answers⟩ := step.answers answered
    obtain ⟨row, found, failed, error⟩ := answers.cancels (consistent_run past)
    have reached := past.snoc step
    constructor
    · have whole : storeEvents labels = storeEvents (before ++ [label]) ++ storeEvents after := by
        rw [← storeEvents_append, split]
        simp
      rw [whole]
      exact Db.failed_uncompleted (run_db reached) (run_db rest) found failed
    · rintro middle poll more j response rfl polled
      obtain ⟨u, u', between, pollStep, _⟩ := rest.split_at
      obtain ⟨_, ⟨version, stored, shown⟩ | ⟨_, absent⟩⟩ := pollStep.poll polled
      · cases shown
        rcases polls_run between (consistent_run reached) found with ⟨next, kept, advances⟩ | gone
        · cases stored.symm.trans kept
          rw [advances.settled (by simp [failed, Status.terminal])]
          exact ⟨failed, error⟩
        · cases stored.symm.trans gone.1
      · cases absent
  case acknowledged =>
    intro before label after i split answered
    obtain ⟨t, t', past, step, rest⟩ := around split
    obtain ⟨stage, _, answers⟩ := step.answers answered
    obtain ⟨row, found, terminal, acknowledged⟩ := answers.acknowledges (consistent_run past)
    exact acknowledged_kept (run_db rest) (consistent_run (past.snoc step)) found terminal
      acknowledged
  case unfinished =>
    intro before label after i details split answered
    obtain ⟨t, t', past, step, rest⟩ := around split
    obtain ⟨stage, stands, answers⟩ := step.answers answered
    cases answers with
    | unfinished found =>
        rcases refused_run past stands with missing | saw
        · cases found.symm.trans missing
        · exact saw

/-- An Ack comes too early; Transcribe polls the running and the done job; then it is acknowledged.
-/
def askThrice : List ClientAction :=
  let jobId := (Uuid.nth 0).text
  let config := Config.onePool .rabbitmq
  Db.deliverOnce.map (fun call => .other call.1 call.2)
  ++ [.receive (.ack jobId), .proceed 0 config 0, .proceed 0 config 0,
    .receive (.transcribe jobId), .proceed 1 config 0]
  ++ (Db.completeOnce.drop 9).map (fun call => .other call.1 call.2)
  ++ [.proceed 1 config 2, .receive (.ack jobId), .proceed 2 config 2]

theorem answers_hold_completed
    : let played := (start 0).play askThrice
      let jobId := (Uuid.nth 0).text
      played.1.filterMap ClientEvent.answered
          = [(0, .ack jobId,
              .error .failedPrecondition "Only terminal jobs can be acknowledged"),
            (1, .transcribe jobId, .transcribed "text"), (2, .ack jobId, .acknowledged)]
        ∧ AnswersHold id (start 0) played.1 played.2 jobId :=
  ⟨by decide +kernel, answers_hold (play_run (start 0) askThrice) _⟩

end Desk

end Transcriber
