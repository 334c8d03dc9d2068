import Mathlib.Data.Finset.Card
import Mathlib.Data.Finset.Insert
import Transcriber.Store.Capacity

/-! The cap on admitted consumers of a pool.
Admission is granted under the scheduler lock, in a snapshot that is taken before the COMMIT, but
extended by availability reports outside it, whose `NOW()` may lie before the admission ran out
although they execute after it.
-/

namespace Transcriber

open Execution

-----------------------------------------------------------------------------------------
-- Occupied slots
-----------------------------------------------------------------------------------------

/-- A slot is occupied while it is admitted or holds an unexpired lease. -/
theorem mem_occupiedSlots {slots : List AvailabilityRow} {jobs : List JobRecord}
    {workerId instanceId : String} {moment : Int}
    : instanceId ∈ occupiedSlots slots jobs workerId moment
      ↔ (∃ slot ∈ slots, slot.isSlot workerId instanceId ∧ slot.admitted moment)
        ∨ 0 < leases (isSlot workerId instanceId) moment jobs := by
  simp only [occupiedSlots, List.mem_dedup, List.mem_append, List.mem_map, List.mem_filter,
    leases, List.countP_pos_iff, AvailabilityRow.isSlot, isSlot, Bool.and_eq_true,
    decide_eq_true_eq]
  constructor
  · rintro (⟨slot, ⟨member, worker, admitted⟩, same⟩ | ⟨row, ⟨member, worker, holds⟩, same⟩)
    · exact .inl ⟨slot, member, ⟨worker, same⟩, admitted⟩
    · exact .inr ⟨row, member, holds, worker, same⟩
  · rintro (⟨slot, member, ⟨worker, same⟩, admitted⟩ | ⟨row, member, holds, worker, same⟩)
    · exact .inl ⟨slot, ⟨member, worker, admitted⟩, same⟩
    · exact .inr ⟨row, ⟨member, worker, holds⟩, same⟩

/-- A later moment can only end an admission. -/
theorem AvailabilityRow.admitted_antitone {slot : AvailabilityRow} {early late : Int}
    (order : early ≤ late) (later : slot.admitted late)
    : slot.admitted early := by
  simp only [AvailabilityRow.admitted, Bool.and_eq_true, decide_eq_true_eq] at later ⊢
  exact ⟨by omega, isAfter_antitone order later.2⟩

/-- Passing time only frees slots. -/
theorem occupiedSlots_antitone {slots : List AvailabilityRow} {jobs : List JobRecord}
    {workerId instanceId : String} {early late : Int} (order : early ≤ late)
    (later : instanceId ∈ occupiedSlots slots jobs workerId late)
    : instanceId ∈ occupiedSlots slots jobs workerId early := by
  rw [mem_occupiedSlots] at later ⊢
  refine later.imp ?_ ?_
  · rintro ⟨slot, member, same, admitted⟩
    exact ⟨slot, member, same, AvailabilityRow.admitted_antitone order admitted⟩
  · exact fun leased => leased.trans_le (Fewer.of_le order jobs _)

/-- The slots of a pool that are occupied now. -/
def Db.occupied (s : Db) (workerId : String) : List String :=
  occupiedSlots s.slots s.jobs workerId s.clock

/-- The report extends an admission although its slot was no longer occupied when the lock was
taken, in the snapshot by which its holder admits, or now if the lock is free.
-/
def Event.readmits (s : Db) (event : Event) : Bool :=
  match event.op with
  | .reportAvailability workerId instanceId ready now =>
      s.slots.any (fun slot =>
        slot.isSlot workerId instanceId && isAfter slot.consumerUntil now)
        && s.since < now + (if ready then event.config.availabilityTtlSeconds else 0) * second
        && !(occupiedSlots s.slots s.jobs workerId s.since).contains instanceId
  | _ => false

namespace Db

/-- The lock holder has found room for this slot and has not admitted it yet. -/
def Admits (transaction : Transaction) (workerId instanceId : String) : Prop :=
  transaction.task = .register workerId instanceId
  ∧ ∃ policy, transaction.phase = .admitting policy

/-- The slot is occupied since the lock was taken or since the snapshot of its holder, or the
holder is about to lease or to admit it.
-/
def Holds (s : Db) (workerId instanceId : String) : Prop :=
  instanceId ∈ occupiedSlots s.slots s.jobs workerId s.since
  ∨ ∃ transaction,
      s.scheduler = some transaction
      ∧ (transaction.grants workerId instanceId ∨ Admits transaction workerId instanceId)

/-- An admission never outlasts the report that it came from. -/
def AdmissionsReported (s : Db) : Prop :=
  ∀ slot ∈ s.slots, ∀ moment, isAfter slot.consumerUntil moment → moment < slot.readyUntil

/-- Everything that holds a slot of a pool fits into its cap. -/
structure Admitting (policies : List (String × Policy)) (s : Db) : Prop where
  consistent : s.Consistent
  settings
    : ∀ transaction,
        s.scheduler = some transaction
        → transaction.config.workerPolicies = policies
          ∧ ∀ workerId instanceId, transaction.task ≠ .claim workerId instanceId
  since_le : s.since ≤ s.clock
  reported : s.AdmissionsReported
  bounded
    : ∀ workerId,
        ∃ held : Finset String,
          held.card ≤ maxConcurrency policies workerId
          ∧ ∀ instanceId, s.Holds workerId instanceId → instanceId ∈ held

/-- A timely step of a coordinator in RabbitMQ mode with these policies. -/
def BrokerStep (policies : List (String × Policy)) (s : Db) (event : Event) (t : Db) : Prop :=
  s.PolicyStep policies event t ∧ event.config.queueBackend = .rabbitmq

variable {policies : List (String × Policy)} {s t : Db} {event : Event}

/-- The lock holder of the next state reads the clock no earlier, and not in the future. -/
theorem Admitting.since_mono (kept : s.Admitting policies) (step : s.TimedStep event t)
    : s.since ≤ t.since ∧ t.since ≤ t.clock := by
  have later := step.clock_le
  have early := kept.since_le
  have inherit (same : t.since = s.since) : s.since ≤ t.since ∧ t.since ≤ t.clock := by omega
  cases step.1.lockMove with
  | kept same =>
      cases holder : s.scheduler with
      | none =>
          have before : s.since = s.clock := by simp [since, holder]
          have after : t.since = t.clock := by simp [since, same, holder]
          omega
      | some transaction => exact inherit (by simp [since, same, holder])
  | released free =>
      have after : t.since = t.clock := by simp [since, free]
      omega
  | taken task now free _ next => exact inherit (by simp [since, free, next])
  | selected transaction _ _ _ _ holder _ _ next | loaded transaction _ _ _ _ holder _ _ _ next
  | capable transaction _ _ _ _ _ holder _ _ _ _ next =>
      exact inherit (by simp [since, holder, next])
  | admitting transaction _ _ clock _ called holder _ _ _ _ _ same next =>
      have timely := step.2
      simp only [Event.timely, called, reads, holder, Option.all_some, Bool.and_eq_true,
        decide_eq_true_eq] at timely
      simp only [since, holder, next, same, Option.map_some, Option.getD_some]
      exact timely

-----------------------------------------------------------------------------------------
-- Admissions over one step
-----------------------------------------------------------------------------------------

/-- A slot after a report, with the one it was. -/
theorem reportAvailability_spec {workerId instanceId : String}
    {readySeconds demandSeconds now : Int} {slots : List AvailabilityRow}
    {slot : AvailabilityRow}
    (member
      : slot
        ∈ Transcriber.reportAvailability workerId instanceId readySeconds demandSeconds now
            (cleanupAvailability now slots))
    : slot ∈ slots
      ∨ slot.consumerUntil = none
      ∨ ∃ old ∈ slots,
          old.isSlot workerId instanceId
          ∧ slot.workerId = old.workerId
          ∧ slot.instanceId = old.instanceId
          ∧ slot.readyUntil = now + readySeconds * second
          ∧ slot.consumerUntil
            = if isAfter old.consumerUntil now then
                some (now + readySeconds * second)
              else
                old.consumerUntil := by
  simp only [Transcriber.reportAvailability] at member
  have stored {other : AvailabilityRow} (listed : other ∈ cleanupAvailability now slots)
      : other ∈ slots :=
    (List.mem_filter.mp listed).1
  split at member
  · obtain ⟨old, listed, rfl⟩ := List.mem_map.mp member
    cases mine : old.isSlot workerId instanceId with
    | true =>
        refine .inr (.inr ⟨old, stored listed, mine, ?_⟩)
        simp
    | false =>
        refine .inl ?_
        simpa using stored listed
  · rcases List.mem_append.mp member with listed | new
    · exact .inl (stored listed)
    · rw [List.mem_singleton.mp new]
      exact .inr (.inl rfl)

/-- A slot after `request_work.sql`, with the one it was. -/
theorem requestWork_spec {demandTtlSeconds clock : Int} {workerId instanceId : String}
    {slots : List AvailabilityRow} {slot : AvailabilityRow}
    (member : slot ∈ requestWork demandTtlSeconds workerId instanceId clock slots)
    : ∃ old ∈ slots,
        slot.workerId = old.workerId
        ∧ slot.instanceId = old.instanceId
        ∧ slot.readyUntil = old.readyUntil
        ∧ slot.consumerUntil = old.consumerUntil := by
  obtain ⟨old, listed, rfl⟩ := List.mem_map.mp member
  refine ⟨old, listed, ?_⟩
  split <;> exact ⟨rfl, rfl, rfl, rfl⟩

/-- A slot after an admission, with the one it was. -/
theorem brokerAdmit_spec {workerId instanceId : String} {clock : Int}
    {slots : List AvailabilityRow} {slot : AvailabilityRow}
    (member : slot ∈ Transcriber.brokerAdmit workerId instanceId clock slots)
    : slot ∈ slots
      ∨ slot.isSlot workerId instanceId ∧ slot.consumerUntil = some slot.readyUntil := by
  obtain ⟨old, listed, rfl⟩ := List.mem_map.mp member
  split
  · rename_i asked
    simp only [Bool.and_eq_true] at asked
    exact .inr ⟨asked.1, rfl⟩
  · exact .inl listed

/-- Every step keeps admissions within their reports, by cases on what it does to the slots. -/
theorem Step.admissionsReported (step : s.Step event t) (kept : s.AdmissionsReported)
    : t.AdmissionsReported := by
  cases step.slotMove with
  | kept same => rwa [AdmissionsReported, same]
  | reported workerId instanceId ready demandSeconds now called slots =>
      intro slot member moment after
      rw [slots] at member
      rcases reportAvailability_spec member with old | absent | ⟨old, _, _, _, _, ready', consumer⟩
      · exact kept slot old moment after
      · simp [absent, isAfter] at after
      · rw [consumer] at after
        rw [ready']
        split at after
        · simpa [isAfter] using after
        · rename_i ended
          have ttl := event.config.availabilityTtlSeconds_range.1
          have early : moment < now := by
            by_contra late
            exact ended (isAfter_antitone (Int.not_lt.mp late) after)
          split <;> simp only [second] <;> omega
  | requested transaction workerId instanceId clock called holder task slots =>
      intro slot member moment after
      rw [slots] at member
      obtain ⟨old, listed, _, _, ready, consumer⟩ := requestWork_spec member
      rw [consumer] at after
      rw [ready]
      exact kept old listed moment after
  | admitted transaction workerId instanceId clock policy called holder task phase slots =>
      intro slot member moment after
      rw [slots] at member
      rcases brokerAdmit_spec member with old | ⟨_, consumer⟩
      · exact kept slot old moment after
      · simpa [consumer, isAfter] using after

/-- What a step leaves admitted held a place before, unless the step is a report that readmits it.
-/
theorem SlotMove.occupied_before {workerId instanceId : String} {moment : Int}
    (move : s.SlotMove event t) (reported : s.AdmissionsReported)
    (fresh : event.readmits s = false) (order : s.since ≤ moment) {slot : AvailabilityRow}
    (member : slot ∈ t.slots) (mine : slot.isSlot workerId instanceId)
    (admitted : slot.admitted moment)
    : s.Holds workerId instanceId := by
  have known {old : AvailabilityRow} (listed : old ∈ s.slots)
      (mine : old.isSlot workerId instanceId) (admitted : old.admitted moment)
      : s.Holds workerId instanceId :=
    .inl (occupiedSlots_antitone order
      (mem_occupiedSlots.mpr (.inl ⟨old, listed, mine, admitted⟩)))
  cases move with
  | kept same => exact known (same ▸ member) mine admitted
  | reported worker instance' ready demandSeconds now called slots =>
      rw [slots] at member
      rcases reportAvailability_spec member
        with old | absent | ⟨old, listed, asked, worker', slot', ready', consumer⟩
      · exact known old mine admitted
      · simp [AvailabilityRow.admitted, absent, isAfter] at admitted
      · simp only [AvailabilityRow.isSlot, Bool.and_eq_true, decide_eq_true_eq, worker', slot']
          at mine asked
        obtain ⟨rfl, rfl⟩ := mine
        obtain ⟨rfl, rfl⟩ := asked
        simp only [AvailabilityRow.admitted, ready', consumer, Bool.and_eq_true,
          decide_eq_true_eq] at admitted
        cases extended : isAfter old.consumerUntil now with
        | false =>
            rw [extended] at admitted
            refine known listed (by simp [AvailabilityRow.isSlot]) ?_
            simp only [AvailabilityRow.admitted, Bool.and_eq_true, decide_eq_true_eq]
            exact ⟨reported old listed moment admitted.2, admitted.2⟩
        | true =>
            have asked : s.slots.any (fun slot =>
                slot.isSlot old.workerId old.instanceId && isAfter slot.consumerUntil now) :=
              List.any_eq_true.mpr ⟨old, listed, by simp [AvailabilityRow.isSlot, extended]⟩
            have later := Int.lt_of_le_of_lt order admitted.1
            have occupied : old.instanceId ∈ occupiedSlots s.slots s.jobs old.workerId s.since := by
              simpa only [Event.readmits, called, asked, later, decide_true, Bool.true_and,
                Bool.not_eq_false', List.contains_iff_mem] using fresh
            exact .inl occupied
  | requested transaction worker instance' clock called holder task slots =>
      rw [slots] at member
      obtain ⟨old, listed, worker', slot', ready, consumer⟩ := requestWork_spec member
      refine known listed ?_ ?_
      · simpa [AvailabilityRow.isSlot, worker', slot'] using mine
      · simpa [AvailabilityRow.admitted, ready, consumer] using admitted
  | admitted transaction worker instance' clock policy called holder task phase slots =>
      rw [slots] at member
      rcases brokerAdmit_spec member with old | ⟨asked, _⟩
      · exact known old mine admitted
      · simp only [AvailabilityRow.isSlot, Bool.and_eq_true, decide_eq_true_eq] at mine asked
        obtain ⟨rfl, rfl⟩ := mine
        obtain ⟨rfl, rfl⟩ := asked
        exact .inr ⟨transaction, holder, .inr ⟨task, policy, phase⟩⟩

-----------------------------------------------------------------------------------------
-- Leases over one step
-----------------------------------------------------------------------------------------

/-- What a step leaves leased was leased when the lock was taken, or it is the granted start. -/
theorem LeaseMove.holds_before {workerId instanceId : String} {moment : Int}
    (move : s.LeaseMove event t) (consistent : s.Consistent) (step : s.TimedStep event t)
    (order : s.since ≤ moment) (reached : t.since ≤ moment)
    (leased : 0 < leases (isSlot workerId instanceId) moment t.jobs)
    : s.Holds workerId instanceId := by
  have known (before : 0 < leases (isSlot workerId instanceId) s.since s.jobs)
      : s.Holds workerId instanceId :=
    .inl (mem_occupiedSlots.mpr (.inr before))
  cases move with
  | plain plain =>
      have change := (step.1.outcome consistent.distinct consistent.held).change
      have fewer := (Fewer.of_le order s.jobs).trans (change.fewer plain moment)
      exact known (leased.trans_le (fewer _))
  | renewed free same fewer =>
      have now : t.since = s.clock := by simp [since, free, same]
      have later := fewer.trans (Fewer.of_le (now ▸ reached) t.jobs)
      exact known (leased.trans_le (later _))
  | started transaction worker slot jobId f holder grants free same jobs started others =>
      rw [jobs] at leased
      have added := leases_start moment consistent.distinct started others
        (isSlot workerId instanceId)
      cases mine : isSlot workerId instanceId worker slot with
      | true =>
          simp only [isSlot, Bool.and_eq_true, decide_eq_true_eq] at mine
          obtain ⟨rfl, rfl⟩ := mine
          exact .inr ⟨transaction, holder, .inl grants⟩
      | false =>
          simp only [mine, Bool.false_eq_true, if_false, Nat.add_zero] at added
          exact known (leased.trans_le (added.trans (Fewer.of_le order s.jobs _)))

/-- Whoever is granted a start after a step was granted it before, or its slot was admitted. -/
theorem Admitting.grants_before {workerId instanceId : String} (kept : s.Admitting policies)
    (step : s.TimedStep event t) {transaction : Transaction}
    (holder : t.scheduler = some transaction)
    (grants : transaction.grants workerId instanceId)
    : s.Holds workerId instanceId := by
  cases step.1.lockMove with
  | kept same => exact .inr ⟨transaction, same ▸ holder, .inl grants⟩
  | released free => simp [free] at holder
  | taken task now free allowed next =>
      obtain rfl := Option.some.inj (next.symm.trans holder)
      cases task <;> cases grants
  | admitting before worker slot clock policy called holder' task _ _ _ _ _ next =>
      obtain rfl := Option.some.inj (next.symm.trans holder)
      simp [Transaction.grants, task] at grants
  | selected before worker slot clock called holder' task chosen next =>
      exact absurd task ((kept.settings before holder').2 worker slot)
  | loaded before request clock row called holder' task found passed next =>
      obtain rfl := Option.some.inj (next.symm.trans holder)
      simp [Transaction.grants, task] at grants
  | capable before request clock row policy called holder' task phase listed granted next =>
      obtain rfl := Option.some.inj (next.symm.trans holder)
      simp only [Transaction.grants, task] at grants
      obtain ⟨rfl, rfl⟩ := grants
      have timely := step.2
      simp only [Event.timely, called, reads, holder', Option.all_some, Bool.and_eq_true,
        decide_eq_true_eq] at timely
      have since : s.since ≤ clock := by simpa [Db.since, holder'] using timely.1
      simp only [Capacity.refuses, Transcriber.brokerCapacity, Bool.or_eq_false_iff] at granted
      obtain ⟨slot, member, ready⟩ := List.any_eq_true.mp
        (by simpa only [Bool.not_eq_false'] using granted.1.1)
      simp only [Bool.and_eq_true] at ready
      exact .inl (occupiedSlots_antitone since
        (mem_occupiedSlots.mpr (.inl ⟨slot, member, ready.1, ready.2⟩)))

-----------------------------------------------------------------------------------------
-- The invariant
-----------------------------------------------------------------------------------------

/-- A step that finds room for no further slot lets none hold a place. -/
theorem Admitting.holds_before {workerId instanceId : String} (listed : policies ≠ [])
    (kept : s.Admitting policies) (step : s.PolicyStep policies event t)
    (fresh : event.readmits s = false)
    (waiting
      : ∀ transaction,
          t.scheduler = some transaction
          → Admits transaction workerId instanceId
          → s.Holds workerId instanceId)
    (holds : t.Holds workerId instanceId)
    : s.Holds workerId instanceId := by
  have order := (kept.since_mono step.1).1
  rcases holds with occupied | ⟨transaction, holder, grants | admits⟩
  · rcases mem_occupiedSlots.mp occupied with ⟨slot, member, mine, admitted⟩ | leased
    · exact step.1.1.slotMove.occupied_before kept.reported fresh order member mine admitted
    · exact (step.leaseMove listed kept.consistent).holds_before kept.consistent step.1 order
        (Int.le_refl _) leased
  · exact kept.grants_before step.1 holder grants
  · exact waiting transaction holder admits

/-- An admission query lets at most the asking slot in, and only while there is room for it. -/
theorem Admitting.register {workerId instanceId : String} {clock : Int} {policy : Policy}
    {transaction : Transaction} (kept : s.Admitting policies) (timely : s.reads clock)
    (holder : s.scheduler = some transaction)
    (task : transaction.task = .register workerId instanceId)
    (listed : policy? transaction.config.workerPolicies workerId = some policy)
    (admits : admits s.slots s.jobs workerId instanceId policy.maxConcurrency clock)
    (slots : t.slots = s.slots) (jobs : t.jobs = s.jobs)
    (next : t.scheduler = some { transaction with phase := .admitting policy, since := clock })
    (worker : String)
    : ∃ held : Finset String,
        held.card ≤ maxConcurrency policies worker
        ∧ ∀ slot, t.Holds worker slot → slot ∈ held := by
  obtain ⟨held, small, before⟩ := kept.bounded worker
  simp only [reads, holder, Option.all_some, Bool.and_eq_true, decide_eq_true_eq] at timely
  have since : s.since ≤ clock := by simpa [Db.since, holder] using timely.1
  have now : t.since = clock := by simp [Db.since, next]
  -- What holds a place after the query is occupied in its snapshot, or is the asking slot.
  have origin {slot : String} (holds : t.Holds worker slot)
      : slot ∈ occupiedSlots s.slots s.jobs worker clock
        ∨ worker = workerId ∧ slot = instanceId := by
    rcases holds with occupied | ⟨other, same, grants | ⟨asked, _⟩⟩
    · rw [now, jobs, slots] at occupied
      exact .inl occupied
    · obtain rfl := Option.some.inj (next.symm.trans same)
      simp [Transaction.grants, task] at grants
    · obtain rfl := Option.some.inj (next.symm.trans same)
      cases task.symm.trans asked
      exact .inr ⟨rfl, rfl⟩
  have inside {slot : String} (occupied : slot ∈ occupiedSlots s.slots s.jobs worker clock)
      : slot ∈ held :=
    before slot (.inl (occupiedSlots_antitone since occupied))
  simp only [Transcriber.admits, Bool.and_eq_true, Bool.or_eq_true, List.contains_iff_mem,
    decide_eq_true_eq] at admits
  rcases eq_or_ne worker workerId with rfl | other
  · rcases admits.1 with already | room
    · refine ⟨held, small, fun slot holds => ?_⟩
      rcases origin holds with occupied | ⟨_, rfl⟩
      · exact inside occupied
      · exact inside already
    · refine ⟨insert instanceId (occupiedSlots s.slots s.jobs worker clock).toFinset, ?_, ?_⟩
      · have limit : maxConcurrency policies worker = policy.maxConcurrency := by
          simp [maxConcurrency, ← (kept.settings transaction holder).1, listed]
        have count := (occupiedSlots s.slots s.jobs worker clock).toFinset_card_le
        have added := Finset.card_insert_le instanceId
          (occupiedSlots s.slots s.jobs worker clock).toFinset
        omega
      · intro slot holds
        rw [Finset.mem_insert, List.mem_toFinset]
        exact (origin holds).symm.imp_left And.right
  · refine ⟨held, small, fun slot holds => ?_⟩
    rcases origin holds with occupied | ⟨same, _⟩
    · exact inside occupied
    · exact absurd same other

/-- Every step of a coordinator in RabbitMQ mode that readmits no slot keeps the cap. -/
theorem Admitting.step (listed : policies ≠ []) (kept : s.Admitting policies)
    (step : s.BrokerStep policies event t) (fresh : event.readmits s = false)
    : t.Admitting policies := by
  obtain ⟨policyStep, rabbit⟩ := step
  have settings := policyStep.1.1.holder_allowed
    (P := fun config task =>
      config.workerPolicies = policies
      ∧ ∀ workerId instanceId, task ≠ .claim workerId instanceId)
    kept.settings
    (fun task allowed =>
      ⟨policyStep.2, by rintro workerId instanceId rfl; simp [Task.allowed, rabbit] at allowed⟩)
  refine ⟨policyStep.1.1.consistent kept.consistent, settings, (kept.since_mono policyStep.1).2,
    policyStep.1.1.admissionsReported kept.reported, ?_⟩
  have plain
      (waiting
        : ∀ workerId instanceId transaction,
            t.scheduler = some transaction
            → Admits transaction workerId instanceId
            → s.Holds workerId instanceId)
      (workerId : String)
      : ∃ held : Finset String,
          held.card ≤ maxConcurrency policies workerId
          ∧ ∀ instanceId, t.Holds workerId instanceId → instanceId ∈ held := by
    obtain ⟨held, small, before⟩ := kept.bounded workerId
    exact ⟨held, small, fun instanceId holds => before instanceId
      (kept.holds_before listed policyStep fresh (waiting workerId instanceId) holds)⟩
  cases policyStep.1.1.lockMove with
  | kept same =>
      exact plain (fun _ _ transaction holder admits =>
        .inr ⟨transaction, same ▸ holder, .inr admits⟩)
  | released free => exact plain (fun _ _ _ holder => by simp [free] at holder)
  | taken _ _ _ _ next | selected _ _ _ _ _ _ _ _ next | loaded _ _ _ _ _ _ _ _ _ next
  | capable _ _ _ _ _ _ _ _ _ _ _ next =>
      refine plain ?_
      rintro _ _ transaction holder ⟨_, policy, phase⟩
      obtain rfl := Option.some.inj (next.symm.trans holder)
      cases phase
  | admitting transaction workerId instanceId clock policy called holder task known admits slots
      jobs _ next =>
      have timely : s.reads clock := by simpa [Event.timely, called] using policyStep.1.2
      exact kept.register timely holder task known admits slots jobs next

-----------------------------------------------------------------------------------------
-- The cap over runs
-----------------------------------------------------------------------------------------

/-- A timely step that readmits no slot. -/
def FreshStep (s : Db) (event : Event) (t : Db) : Prop :=
  s.TimedStep event t ∧ event.readmits s = false

/-- A store without occupied slots keeps every cap. -/
theorem Admitting.start {clock : Int} {past : List Event}
    (before : Run Db.Step (Db.empty clock) past s)
    (idle : ∀ row ∈ s.jobs, row.status ≠ .running)
    (unadmitted : ∀ slot ∈ s.slots, slot.admitted s.clock = false) (free : s.scheduler = none)
    : s.Admitting policies := by
  have reported : s.AdmissionsReported :=
    before.invariant (fun _ _ _ kept step => step.admissionsReported kept)
      (by simp [AdmissionsReported, Db.empty])
  have now : s.since = s.clock := by simp [since, free]
  refine ⟨consistent_run (.empty clock) before, by simp [free], now.le, reported, ?_⟩
  intro workerId
  refine ⟨∅, Nat.zero_le _, ?_⟩
  rintro instanceId (occupied | ⟨_, holder, _⟩)
  · rw [now, mem_occupiedSlots] at occupied
    rcases occupied with ⟨slot, member, _, admitted⟩ | leased
    · simp [unadmitted slot member] at admitted
    · obtain ⟨row, member, holds⟩ := List.countP_pos_iff.mp leased
      simp only [Bool.and_eq_true] at holds
      exact absurd (JobRecord.holdsLease_running holds.1) (idle row member)
  · simp [free] at holder

/-- Consumer admission: with fixed non-empty policies in RabbitMQ mode, from any reachable store
without occupied slots, no interleaving of timely steps ever has more occupied slots in a pool
than it may run executions, as long as no report readmits a slot.
-/
theorem admission_capped {policies : List (String × Policy)} (listed : policies ≠ [])
    {clock : Int} {start s : Db} {past events : List Event}
    (before : Run Db.Step (Db.empty clock) past start)
    (idle : ∀ row ∈ start.jobs, row.status ≠ .running)
    (unadmitted : ∀ slot ∈ start.slots, slot.admitted start.clock = false)
    (free : start.scheduler = none) (run : Run FreshStep start events s)
    (fixed
      : ∀ event ∈ events,
          event.config.workerPolicies = policies ∧ event.config.queueBackend = .rabbitmq)
    : ∀ workerId, (s.occupied workerId).length ≤ maxConcurrency policies workerId := by
  have admitting : s.Admitting policies := by
    refine (run.restrict fixed).invariant ?_ (Admitting.start before idle unadmitted free)
    rintro s event t kept ⟨⟨step, fresh⟩, settings, rabbit⟩
    exact kept.step listed ⟨⟨step, settings⟩, rabbit⟩ fresh
  intro workerId
  obtain ⟨held, small, inside⟩ := admitting.bounded workerId
  have distinct : (s.occupied workerId).Nodup := List.nodup_dedup _
  rw [← List.toFinset_card_of_nodup distinct]
  refine (Finset.card_le_card ?_).trans small
  intro instanceId occupied
  rw [List.mem_toFinset] at occupied
  exact inside instanceId (.inl (occupiedSlots_antitone admitting.since_le occupied))

/-- The slot `first` is admitted to a pool for one; once its admission has run out, the slot
`second` is.
-/
def admitTwo : List (Config × Op) :=
  let config := Config.onePool .rabbitmq
  [
    (config, .reportAvailability "gpu" "first" true 0),
    (config, .lockScheduler (.register "gpu" "first") 0),
    (config, .brokerAdmit "gpu" "first" 0),
    (config, .registerConsumer "gpu" "first" 0),
    (config, .tick (91 * second)),
    (config, .reportAvailability "gpu" "second" true (91 * second)),
    (config, .lockScheduler (.register "gpu" "second") (91 * second)),
    (config, .brokerAdmit "gpu" "second" (91 * second)),
    (config, .registerConsumer "gpu" "second" (91 * second))
  ]

/-- Timely operations one after another, without those that readmit a slot. -/
def playFresh (s : Db) (calls : List (Config × Op)) : List Event × Db :=
  Execution.play Db.perform (fun _ s event => event.timely s && !event.readmits s) [] s calls

theorem playFresh_run (s : Db) (calls : List (Config × Op))
    : Run FreshStep s (s.playFresh calls).1 (s.playFresh calls).2 := by
  refine (Execution.play_run perform_step (.nil s) calls).run ?_
  intro _ s event t met step
  simp only [Bool.and_eq_true, Bool.not_eq_true'] at met
  exact ⟨⟨step, met.1⟩, met.2⟩

/-- A report of `first` whose transaction started before its admission ran out. -/
def lateReport : Config × Op :=
  (Config.onePool .rabbitmq, .reportAvailability "gpu" "first" true (89 * second))

/-- Without the late report the pool for one has one occupied slot. -/
theorem admission_capped_two
    : let s := ((Db.empty 0).playFresh (admitTwo ++ [lateReport])).2
      s.occupied "gpu" = ["second"]
        ∧ ∀ workerId,
            (s.occupied workerId).length
              ≤ maxConcurrency (Config.onePool .rabbitmq).workerPolicies workerId :=
  ⟨by decide +kernel,
    admission_capped (by decide) (.nil (Db.empty 0)) (by decide) (by decide) rfl
      (playFresh_run (Db.empty 0) (admitTwo ++ [lateReport])) (by decide +kernel)⟩

/-- The late report executes after the admission of `second`: the pool for one has two admitted
slots.
-/
theorem admission_overrun
    : (((Db.empty 0).playTimed (admitTwo ++ [lateReport])).2.occupied "gpu"
          = ["first", "second"])
      ∧ ¬∀ (policies : List (String × Policy)) (clock : Int) (start s : Db)
            (past events : List Event),
          policies ≠ []
          → Run Db.Step (Db.empty clock) past start
          → (∀ row ∈ start.jobs, row.status ≠ .running)
          → (∀ slot ∈ start.slots, slot.admitted start.clock = false)
          → start.scheduler = none
          → Run Db.TimedStep start events s
          → (∀ event ∈ events,
              event.config.workerPolicies = policies ∧ event.config.queueBackend = .rabbitmq)
          → ∀ workerId, (s.occupied workerId).length ≤ maxConcurrency policies workerId := by
  have both : ((Db.empty 0).playTimed (admitTwo ++ [lateReport])).2.occupied "gpu"
      = ["first", "second"] := by
    decide +kernel
  refine ⟨both, fun claim => ?_⟩
  have capped := claim (Config.onePool .rabbitmq).workerPolicies 0 (Db.empty 0) _ [] _
    (by decide) (.nil (Db.empty 0)) (by decide) (by decide) rfl
    (playTimed_run (Db.empty 0) (admitTwo ++ [lateReport])) (by decide +kernel) "gpu"
  rw [both] at capped
  exact absurd capped (by decide)

end Db

end Transcriber
