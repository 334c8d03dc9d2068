import Transcriber.Worker.Api
import Transcriber.Worker.Leases

/-! What the checks of the endpoint establish, and what an admitted handler asks of the store. -/

namespace Transcriber

-----------------------------------------------------------------------------------------
-- Who is admitted
-----------------------------------------------------------------------------------------

/-- The worker id that a request names. -/
def WorkerRequest.workerId? : WorkerRequest → Option String
  | .claim workerId _ | .registerConsumer workerId _ | .reportAvailability workerId _ _ =>
      some workerId
  | .beginAttempt request => some request.workerId
  | .download .. | .heartbeat .. | .complete .. | .fail .. => none

/-- The lease token that a request carries. -/
def WorkerRequest.leaseToken? : WorkerRequest → Option String
  | .download _ leaseToken | .heartbeat _ leaseToken _ | .complete _ leaseToken _ _ _
  | .fail _ leaseToken _ _ => some leaseToken
  | .claim .. | .registerConsumer .. | .beginAttempt _ | .reportAvailability .. => none

/-- `Claim` and `BeginAttempt`. -/
def WorkerRequest.issues : WorkerRequest → Bool
  | .claim .. | .beginAttempt _ => true
  | _ => false

/-- The metadata carry one authorization header, and its token is registered for the worker. -/
def WorkerService.Authorized (service : WorkerService) (metadata : List (String × String))
    (identity : String)
    : Prop :=
  ∃ value,
    (metadata.filter (fun entry => entry.1 = "authorization")).map Prod.snd = [value]
    ∧ service.credentials.Registered service.sha256 value identity

namespace WorkerService

variable {service : WorkerService} {metadata : List (String × String)}

/-- What `_authenticate` has established when it returns. -/
theorem authenticate_spec {workerId leaseToken : Option String} {identity : String}
    (passed : service.authenticate metadata workerId leaseToken = .ok identity)
    : service.Authorized metadata identity
      ∧ (∀ named, workerId = some named → named = identity)
      ∧ ∀ token, leaseToken = some token → hasPrefix (identity ++ "/") token := by
  simp only [authenticate] at passed
  split at passed
  · cases passed
  · rename_i resolved
    split at passed
    · cases passed
    · rename_i matched
      cases passed
      simp only [Bool.or_eq_true, Option.any_eq_true, not_or, not_exists, not_and] at matched
      refine ⟨?_, ?_, ?_⟩
      · split at resolved
        · rename_i value single
          exact ⟨value, single, (service.credentials.authenticate_iff _ _ _).mp resolved⟩
        · cases resolved
      · rintro named rfl
        have same : identity = named := by simpa using matched.1 named rfl
        exact same.symm
      · rintro token rfl
        simpa using matched.2 token rfl

/-- A call that nobody is authorized for fails to authenticate. -/
theorem authenticate_none (workerId leaseToken : Option String)
    (nobody : ∀ identity, ¬service.Authorized metadata identity)
    : service.authenticate metadata workerId leaseToken
      = .error ⟨.unauthenticated, "Worker authentication required"⟩ := by
  simp only [authenticate]
  split
  · rfl
  · rename_i identity resolved
    split at resolved
    · rename_i value single
      have registered := (service.credentials.authenticate_iff _ _ _).mp resolved
      exact absurd ⟨value, single, registered⟩ (nobody identity)
    · cases resolved

/-- A computation that returns has passed its first part. -/
theorem ok_of_bind {α β : Type} {first : Except Abort α} {rest : α → Except Abort β} {result : β}
    (done : first >>= rest = .ok result)
    : ∃ value, first = .ok value ∧ rest value = .ok result := by
  cases first with
  | error => cases done
  | ok value => exact ⟨value, rfl, done⟩

/-- What follows a check that passed. -/
theorem ok_of_require {passed : Bool} {code : StatusCode} {details : String}
    {rest : Except Abort String} {result : String}
    (done : (require passed code details >>= fun _ => rest) = .ok result)
    : rest = .ok result := by
  obtain ⟨_, _, done⟩ := ok_of_bind done
  exact done

theorem authenticate_of_consumer {workerId instanceId identity : String}
    (passed : service.consumerIdentity metadata workerId instanceId = .ok identity)
    : service.authenticate metadata (some workerId) none = .ok identity := by
  obtain ⟨resolved, passed, checked⟩ := ok_of_bind passed
  cases ok_of_require (ok_of_require checked)
  exact passed

/-- An admitted request was authenticated with what it names, by cases on the call. -/
theorem authenticate_of_vet {request : WorkerRequest} {identity : String}
    (admitted : service.vet metadata request = .ok identity)
    : service.authenticate metadata request.workerId? request.leaseToken? = .ok identity := by
  cases request with
  | registerConsumer => exact authenticate_of_consumer admitted
  | beginAttempt =>
      obtain ⟨resolved, passed, checked⟩ := ok_of_bind admitted
      cases ok_of_require checked
      exact authenticate_of_consumer passed
  | claim | reportAvailability | download | heartbeat | complete | fail =>
      obtain ⟨resolved, passed, checked⟩ := ok_of_bind admitted
      repeat replace checked := ok_of_require checked
      cases checked
      exact passed

/-- Nothing is checked before the authentication, by cases on the call. -/
theorem vet_of_unauthenticated {request : WorkerRequest} {abort : Abort}
    (failed
      : service.authenticate metadata request.workerId? request.leaseToken? = .error abort)
    : service.vet metadata request = .error abort := by
  cases request <;>
  · simp only [WorkerRequest.workerId?, WorkerRequest.leaseToken?] at failed
    simp only [vet, consumerIdentity, failed]
    rfl

end WorkerService

-----------------------------------------------------------------------------------------
-- What a handler asks of the store
-----------------------------------------------------------------------------------------

namespace WorkerRequest

variable {config : Config} {draw : Draw} {request : WorkerRequest} {stage : Stage} {op : Op}

/-- Only `Claim` and `BeginAttempt` start attempts, for the worker that they name. -/
theorem call?_starter (called : request.call? config draw stage = some op) {workerId : String}
    (starter : op.starter? = some workerId)
    : request.workerId? = some workerId ∧ request.issues := by
  unfold call? at called
  repeat' split at called
  all_goals cases called
  all_goals cases starter
  all_goals exact ⟨rfl, rfl⟩

/-- A handler writes slots of the worker that its request names. -/
theorem call?_slotWorker (called : request.call? config draw stage = some op) {workerId : String}
    (slot : op.slotWorker? = some workerId)
    : request.workerId? = some workerId := by
  unfold call? at called
  repeat' split at called
  all_goals cases called
  all_goals cases slot
  all_goals rfl

/-- A handler calls under the token that its request carries, or gives up a job it has just
claimed.
-/
theorem call?_leaseCall (called : request.call? config draw stage = some op)
    {jobId token : String} (lease : op.leaseCall? = some (jobId, token))
    : request.leaseToken? = some token ∨ ∃ job, stage = .missing job ∧ token = job.leaseOwner := by
  unfold call? at called
  repeat' split at called
  all_goals cases called
  all_goals cases lease
  all_goals
    first
      | exact .inl rfl
      | exact .inr ⟨_, rfl, rfl⟩

/-- A handler that ends up with a claimed job got it from this reply. -/
theorem resume_claimed {reply : Reply} {disposition : Option Disposition} {claimed : ClaimedJob}
    (resumed : request.resume config stage reply = .claimed disposition claimed)
    : stage = .claimed disposition claimed
      ∨ ((∃ workerId instanceId, request = .claim workerId instanceId)
        ∧ reply = .claimed (some claimed))
      ∨ ∃ begun disposition',
          request = .beginAttempt begun ∧ reply = .attempt disposition' (some claimed) := by
  unfold resume at resumed
  split at resumed
  all_goals cases resumed
  · exact .inr (.inl ⟨⟨_, _, rfl⟩, rfl⟩)
  · exact .inr (.inr ⟨_, _, rfl, rfl⟩)
  · exact .inl rfl

theorem resume_missing {reply : Reply} {claimed : ClaimedJob}
    : request.resume config stage reply ≠ .missing claimed := by
  intro resumed
  unfold resume at resumed
  split at resumed
  all_goals cases resumed
  simp_all

theorem resume_streaming {reply : Reply} {inputPath : String} {owned : Bool}
    (resumed : request.resume config stage reply = .streaming inputPath owned)
    : stage = .streaming inputPath owned := by
  unfold resume at resumed
  split at resumed
  all_goals cases resumed
  rfl

end WorkerRequest

namespace Db

/-- A replayed delivery returns the live lease of its own worker. -/
theorem brokerJob_replay {s t : Db} {request : BeginRequest} {clock : Int}
    {disposition : Disposition} {claimed : ClaimedJob}
    (done : s.brokerJob request clock = some (t, .attempt disposition (some claimed)))
    : ∃ row ∈ s.jobs,
        claimed.leaseOwner = row.leaseOwner
        ∧ row.status = .running
        ∧ row.assignedWorkerId = request.workerId := by
  obtain ⟨transaction, _, same⟩ := Option.map_eq_some_iff.mp done
  split at same
  · cases same
  · rename_i row found
    split at same
    case h_2 replay =>
        cases same
        unfold verdict at replay
        split at replay
        · cases replay
        · split at replay
          · rename_i holds
            split at replay
            · rename_i own
              simp only [JobRecord.assignedTo, Bool.and_eq_true, decide_eq_true_eq] at own
              exact ⟨row, (job?_mem found).1, rfl, JobRecord.holdsLease_running holds, own.2.1⟩
            · cases replay
          · repeat' split at replay
            all_goals cases replay
    all_goals
      repeat' split at same
      all_goals cases same

/-- A claimed job's token was just issued, or is the live lease of the handler's worker. -/
theorem call_claimed {s t : Db} {config : Config} {draw : Draw} {request : WorkerRequest}
    {stage : Stage} {op : Op} {reply : Reply} {disposition : Option Disposition}
    {claimed : ClaimedJob} (called : request.call? config draw stage = some op)
    (done : s.exec config op = some (t, reply))
    (resumed : request.resume config stage reply = .claimed disposition claimed)
    : request.issues
      ∧ ((∃ jobId deliveryId,
            (Event.mk config op reply).act? jobId = some (.start claimed.leaseOwner deliveryId))
        ∨ ∃ row ∈ s.jobs,
            claimed.leaseOwner = row.leaseOwner
            ∧ row.status = .running
            ∧ request.workerId? = some row.assignedWorkerId) := by
  rcases WorkerRequest.resume_claimed resumed with rfl | ⟨⟨workerId, instanceId, rfl⟩, rfl⟩ | begun
  · cases request <;> cases called
  · refine ⟨rfl, .inl ⟨claimed.job.jobId, none, ?_⟩⟩
    cases stage with
    | called =>
        simp only [WorkerRequest.call?] at called
        split at called
        · cases called
          simp [Event.act?]
        · cases called
          simp only [exec, lockScheduler] at done
          split at done <;> cases done
    | locked =>
        cases called
        obtain ⟨transaction, _, same⟩ := Option.map_eq_some_iff.mp done
        dsimp only at same
        split at same <;> cases same
    | selected =>
        cases called
        simp [Event.act?]
    | missing => cases resumed
    | _ => cases called
  · obtain ⟨begun, disposition', rfl, rfl⟩ := begun
    refine ⟨rfl, ?_⟩
    cases stage with
    | called =>
        cases called
        simp only [exec, lockScheduler] at done
        split at done <;> cases done
    | locked =>
        cases called
        obtain ⟨row, member, same, running, assigned⟩ := brokerJob_replay done
        exact .inr ⟨row, member, same, running, congrArg some assigned.symm⟩
    | loaded =>
        cases called
        obtain ⟨transaction, _, done⟩ := Option.bind_eq_some_iff.mp done
        repeat' split at done
        all_goals cases done
    | capable =>
        cases called
        refine .inl ⟨begun.jobId, some begun.deliveryId, ?_⟩
        obtain ⟨transaction, _, done⟩ := Option.bind_eq_some_iff.mp done
        repeat' split at done
        all_goals cases done
        simp [Event.act?]
    | missing => cases resumed
    | _ => cases called

end Db

end Transcriber
