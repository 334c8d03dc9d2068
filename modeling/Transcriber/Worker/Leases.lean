import Transcriber.Store.AttemptFencing
import Transcriber.Store.LockMoves
import Transcriber.Worker.Credentials

/-! Whose lease, attempt and slot a store operation is about.
A lease token starts with the id of the worker that it was issued to, and ids have no slash.
-/

namespace Transcriber

-----------------------------------------------------------------------------------------
-- Tokens
-----------------------------------------------------------------------------------------

/-- The prefix test names the worker in the token: neither id has a slash. -/
theorem leaseToken_starts {identity workerId : String} {uuid : Uuid}
    (slash : '/' ∉ identity.toList) (slash' : '/' ∉ workerId.toList)
    (named : hasPrefix (identity ++ "/") (leaseToken workerId uuid))
    : identity = workerId := by
  simp only [hasPrefix, leaseToken, List.isPrefixOf_iff_prefix, String.toList_append] at named
  have unique (left right rest : List Char) (first : '/' ∉ left) (second : '/' ∉ right)
      (start : left ++ ['/'] <+: right ++ '/' :: rest)
      : left = right := by
    induction left generalizing right with
    | nil =>
        cases right with
        | nil => rfl
        | cons head tail =>
            obtain ⟨same, _⟩ := List.cons_prefix_cons.mp start
            exact absurd (same ▸ List.mem_cons_self) second
    | cons head tail ih =>
        cases right with
        | nil =>
            obtain ⟨same, _⟩ := List.cons_prefix_cons.mp start
            exact absurd (same ▸ List.mem_cons_self) first
        | cons head' tail' =>
            obtain ⟨same, rest⟩ := List.cons_prefix_cons.mp start
            rw [same, ih tail' (fun member => first (List.mem_cons_of_mem _ member))
              (fun member => second (List.mem_cons_of_mem _ member)) rest]
  exact String.toList_inj.mp (unique _ _ uuid.text.toList slash slash' (by simpa using named))

/-- A token names the worker it was issued to. -/
theorem leaseToken_hasPrefix (workerId : String) (uuid : Uuid)
    : hasPrefix (workerId ++ "/") (leaseToken workerId uuid) := by
  simp only [hasPrefix, leaseToken, List.isPrefixOf_iff_prefix, String.toList_append]
  exact List.prefix_append _ _

/-- A token that begins with an identity is not empty. -/
theorem ne_empty_of_hasPrefix {identity token : String}
    (named : hasPrefix (identity ++ "/") token)
    : token ≠ "" := by
  rintro rfl
  simp [hasPrefix] at named

-----------------------------------------------------------------------------------------
-- Who starts an attempt
-----------------------------------------------------------------------------------------

/-- The worker that an attempt is started for. -/
def Op.starter? : Op → Option String
  | .claimLegacy workerId .. | .claimSlot workerId .. => some workerId
  | .brokerStart request _ _ => some request.workerId
  | _ => none

/-- A start act is an accepted start of one of three operations. -/
theorem Event.act?_start {event : Event} {jobId token : String} {deliveryId : Option String}
    (act : event.act? jobId = some (.start token deliveryId))
    : ∃ claimed : ClaimedJob,
        claimed.leaseOwner = token
        ∧ ((∃ workerId instanceId fallback uuid locked now,
              event.op = .claimLegacy workerId instanceId fallback uuid locked now
              ∧ event.reply = .claimed (some claimed)
              ∧ claimed.job.jobId = jobId)
          ∨ (∃ workerId instanceId uuid locked clock,
              event.op = .claimSlot workerId instanceId uuid locked clock
              ∧ event.reply = .claimed (some claimed)
              ∧ claimed.job.jobId = jobId)
          ∨ (∃ request uuid clock,
              event.op = .brokerStart request uuid clock
              ∧ event.reply = .attempt .started (some claimed)
              ∧ request.jobId = jobId)) := by
  unfold Event.act? at act
  split at act
  case h_2 claimed op reply =>
      split at act
      · rename_i same
        cases act
        exact ⟨claimed, rfl, .inl ⟨_, _, _, _, _, _, op, reply, same⟩⟩
      · cases act
  case h_3 claimed op reply =>
      split at act
      · rename_i same
        cases act
        exact ⟨claimed, rfl, .inr (.inl ⟨_, _, _, _, _, op, reply, same⟩)⟩
      · cases act
  case h_4 claimed op reply =>
      split at act
      · rename_i same
        cases act
        exact ⟨claimed, rfl, .inr (.inr ⟨_, _, _, op, reply, same⟩)⟩
      · cases act
  all_goals
    first
      | cases act
      | (split at act <;> cases act)

namespace Db

/-- The started row of a statement that starts an attempt under a token. -/
theorem started_row {s : Db} {statement : RowUpdate} {jobId token workerId : String}
    (hit : ∀ row ∈ s.jobs, row.jobId = jobId → statement.selects row)
    (assigned
      : ∀ row,
          (statement.assign row).leaseOwner = token
          ∧ (statement.assign row).assignedWorkerId = workerId)
    : ∀ next ∈ s.jobs.map statement.apply,
        next.jobId = jobId → next.leaseOwner = token ∧ next.assignedWorkerId = workerId := by
  intro next member same
  obtain ⟨row, stored, rfl⟩ := List.mem_map.mp member
  rw [RowUpdate.apply_jobId] at same
  rw [RowUpdate.apply_selected (hit row stored same)]
  exact assigned row

/-- A started attempt belongs to the worker of its operation, by cases on the three starts. -/
theorem Step.starter {s t : Db} {event : Event} {jobId token : String}
    {deliveryId : Option String} (step : s.Step event t) (distinct : s.DistinctIds)
    (started : event.act? jobId = some (.start token deliveryId))
    : ∃ workerId uuid,
        event.op.starter? = some workerId
        ∧ token = leaseToken workerId uuid
        ∧ ∀ next ∈ t.jobs,
            next.jobId = jobId → next.leaseOwner = token ∧ next.assignedWorkerId = workerId := by
  obtain ⟨config, op, reply⟩ := event
  obtain ⟨claimed, rfl, legacy | slot | delivery⟩ := Event.act?_start started
  · obtain ⟨workerId, instanceId, fallback, uuid, locked, now, rfl, rfl, rfl⟩ := legacy
    refine ⟨workerId, uuid, rfl, ?_⟩
    simp only [Db.Step, exec, claimLegacy] at step
    repeat' split at step
    all_goals cases step
    rename_i row chosen _
    obtain ⟨stored, startable, _⟩ := candidate_spec chosen
    refine ⟨rfl, started_row ?_ (fun _ => ⟨rfl, rfl⟩)⟩
    intro other member same
    rw [distinct.eq member stored same]
    simp [Sql.claim, startable]
  · obtain ⟨workerId, instanceId, uuid, locked, clock, rfl, rfl, rfl⟩ := slot
    refine ⟨workerId, uuid, rfl, ?_⟩
    obtain ⟨transaction, _, done⟩ := Option.bind_eq_some_iff.mp step
    repeat' split at done
    all_goals cases done
    rename_i row chosen
    obtain ⟨stored, startable, _⟩ := candidate_spec chosen
    refine ⟨rfl, started_row ?_ (fun _ => ⟨rfl, rfl⟩)⟩
    intro other member same
    rw [distinct.eq member stored same]
    simp [Sql.claimSlot, startable]
  · obtain ⟨request, uuid, clock, rfl, rfl, rfl⟩ := delivery
    refine ⟨request.workerId, uuid, rfl, ?_⟩
    obtain ⟨transaction, _, done⟩ := Option.bind_eq_some_iff.mp step
    repeat' split at done
    all_goals cases done
    refine ⟨rfl, started_row ?_ (fun _ => ⟨rfl, rfl⟩)⟩
    intro other member same
    simp [Sql.brokerStart, same]

end Db

/-- A row step keeps the lease, gives it up or is a start. -/
theorem RowStep.lease {act : Option Act} {row next : JobRecord} (step : RowStep act row next)
    : (next.leaseOwner = row.leaseOwner ∧ next.assignedWorkerId = row.assignedWorkerId)
      ∨ next.leaseOwner = ""
      ∨ ∃ token deliveryId, act = some (.start token deliveryId) := by
  cases step with
  | cancelled | completed | failed | exhausted => exact .inr (.inl rfl)
  | claimed | delivered => exact .inr (.inr ⟨_, _, rfl⟩)
  | _ => exact .inl ⟨rfl, rfl⟩

-----------------------------------------------------------------------------------------
-- Slots and lease calls
-----------------------------------------------------------------------------------------

/-- The worker whose slot an operation reports, asks for or admits. -/
def Op.slotWorker? : Op → Option String
  | .reportAvailability workerId .. | .selectWorker workerId .. | .brokerAdmit workerId ..
  | .registerConsumer workerId .. => some workerId
  | _ => none

/-- The job and the token of a heartbeat, a completion or a failure. -/
def Op.leaseCall? : Op → Option (String × String)
  | .heartbeatLegacy jobId token .. | .heartbeat jobId token .. | .completeJob jobId token ..
  | .failJob jobId token .. => some (jobId, token)
  | _ => none

/-- A lease call under a token is a worker call. -/
theorem Event.workerCall?_of_lease {event : Event} {jobId token : String}
    (lease : event.op.leaseCall? = some (jobId, token)) (named : token ≠ "")
    : event.workerCall? = some (jobId, token) := by
  unfold Op.leaseCall? at lease
  split at lease
  all_goals cases lease
  all_goals
    rename_i op
    simp [Event.workerCall?, op, named]

/-- Slots of other workers stay as they are, but for the rows that `cleanup_availability.sql`
deletes a day after their last readiness.
-/
structure Db.SlotsScoped (s : Db) (event : Event) (t : Db) (workerId : String) : Prop where
  written : ∀ slot ∈ t.slots, slot ∈ s.slots ∨ slot.workerId = workerId
  removed
    : ∀ slot ∈ s.slots,
        slot ∈ t.slots
        ∨ slot.workerId = workerId
        ∨ ∃ instanceId ready now,
            event.op = .reportAvailability workerId instanceId ready now
            ∧ slot.readyUntil < now - 86400 * second

namespace Db

/-- A rewriting of one slot's row. -/
theorem SlotsScoped.of_map {s t : Db} {event : Event} {workerId : String}
    {f : AvailabilityRow → AvailabilityRow} (slots : t.slots = s.slots.map f)
    (own : ∀ slot, f slot = slot ∨ slot.workerId = workerId ∧ (f slot).workerId = workerId)
    : s.SlotsScoped event t workerId := by
  constructor
  · rw [slots, List.forall_mem_map]
    intro slot member
    rcases own slot with same | ⟨_, own⟩
    · rw [same]
      exact .inl member
    · exact .inr own
  · intro slot member
    rcases own slot with same | ⟨own, _⟩
    · rw [slots]
      exact .inl (List.mem_map.mpr ⟨slot, member, same⟩)
    · exact .inr (.inl own)

/-- A report writes the row of its own slot. -/
theorem reportAvailability_slots (workerId instanceId : String)
    (readySeconds demandSeconds now : Int) (slots : List AvailabilityRow)
    : (∀ slot ∈ reportAvailability workerId instanceId readySeconds demandSeconds now slots,
          slot ∈ slots ∨ slot.workerId = workerId)
      ∧ ∀ slot ∈ slots,
          slot ∈ reportAvailability workerId instanceId readySeconds demandSeconds now slots
          ∨ slot.workerId = workerId := by
  have named {slot : AvailabilityRow} (same : slot.isSlot workerId instanceId)
      : slot.workerId = workerId := by
    simp only [AvailabilityRow.isSlot, Bool.and_eq_true, decide_eq_true_eq] at same
    exact same.1
  simp only [reportAvailability]
  split
  · rw [List.forall_mem_map]
    refine ⟨fun slot member => ?_, fun slot member => ?_⟩
    · split
      · rename_i same
        exact .inr (named same)
      · exact .inl member
    · by_cases same : slot.isSlot workerId instanceId
      · exact .inr (named same)
      · exact .inl (List.mem_map.mpr ⟨slot, member, by rw [if_neg same]⟩)
  · refine ⟨fun slot member => ?_, fun slot member => .inl (List.mem_append_left _ member)⟩
    rcases List.mem_append.mp member with old | new
    · exact .inl old
    · obtain rfl := List.mem_singleton.mp new
      exact .inr rfl

/-- A step writes slots of one worker at most, by cases on how it moves the slots. -/
theorem Step.slotsScoped {s t : Db} {event : Event} (step : s.Step event t) {workerId : String}
    (own : ∀ named, event.op.slotWorker? = some named → named = workerId)
    : s.SlotsScoped event t workerId := by
  cases step.slotMove with
  | kept same =>
      exact ⟨fun slot member => .inl (same ▸ member), fun slot member => .inl (same ▸ member)⟩
  | reported named instanceId ready demandSeconds now called slots =>
      obtain rfl := own named (by rw [called]; rfl)
      have reported := reportAvailability_slots named instanceId
        (if ready then event.config.availabilityTtlSeconds else 0) demandSeconds now
        (cleanupAvailability now s.slots)
      rw [← slots] at reported
      constructor
      · intro slot member
        exact (reported.1 slot member).imp_left (fun left => (List.mem_filter.mp left).1)
      · intro slot member
        by_cases stale : slot.readyUntil < now - 86400 * second
        · exact .inr (.inr ⟨instanceId, ready, now, called, stale⟩)
        · have left : slot ∈ cleanupAvailability now s.slots :=
            List.mem_filter.mpr ⟨member, by simpa using stale⟩
          exact (reported.2 slot left).imp_right .inl
  | requested _ named instanceId clock called _ _ slots
  | admitted _ named instanceId clock _ called _ _ _ slots =>
      obtain rfl := own named (by rw [called]; rfl)
      refine .of_map slots (fun slot => ?_)
      split
      · rename_i same
        simp only [AvailabilityRow.isSlot, Bool.and_eq_true, decide_eq_true_eq] at same
        exact .inr ⟨same.1.1, same.1.1⟩
      · exact .inl rfl

end Db

end Transcriber
