import Mathlib.Data.List.MinMax
import Transcriber.Store.Invariants

/-! Policy-mode scheduling: `claim_next_job` under `WORKER_POLICIES`, at one instant of the clock
and with no other transaction open. A grant goes to the least priority number among the open
slots and takes the oldest startable job; slots that all ask and get nothing leave nothing
to do.
-/

namespace Transcriber

open Execution

-----------------------------------------------------------------------------------------
-- The call
-----------------------------------------------------------------------------------------

namespace Db

/-- The state in which a call selects: `reap.sql` and `request_work.sql` are done. -/
def asked (s : Db) (config : Config) (clock : Int) (workerId instanceId : String) : Db :=
  { s.rewrite (Sql.reap clock) with
    slots := requestWork config.demandTtlSeconds workerId instanceId clock s.slots }

/-- The policy branch of `claim_next_job`, where every reading of a clock is the same instant. -/
def claimNextJob (s : Db) (config : Config) (clock : Int) (workerId instanceId : String)
    (uuid : Uuid)
    : Db × Option ClaimedJob :=
  let asked := s.asked config clock workerId instanceId
  if Transcriber.selectWorker config.workerPolicies asked.slots asked.jobs workerId instanceId
      clock then
    match candidate clock [] asked.jobs with
    | none => (asked, none)
    | some row =>
        let token := leaseToken workerId uuid
        let statement :=
          Sql.claimSlot row.jobId token config.leaseSeconds workerId instanceId clock clock
        let claimed := statement.assign row
        ({ asked.rewrite statement with drawn := uuid :: asked.drawn },
          some ⟨claimed, token, claimed.leaseExpiresAt⟩)
  else
    (asked, none)

end Db

/-- A call of `claim_next_job` by a slot, with the UUID of its token and what it was granted. -/
structure ClaimCall where
  workerId : String
  instanceId : String
  uuid : Uuid
  granted : Option ClaimedJob

/-- One call at the instant. -/
def Db.ClaimStep (config : Config) (clock : Int) (s : Db) (call : ClaimCall) (t : Db) : Prop :=
  s.claimNextJob config clock call.workerId call.instanceId call.uuid = (t, call.granted)

-----------------------------------------------------------------------------------------
-- What the scheduler promises
-----------------------------------------------------------------------------------------

/-- A live lease occupies the slot; one without a slot id occupies its whole pool. -/
def AvailabilityRow.busy (slot : AvailabilityRow) (clock : Int) (jobs : List JobRecord) : Bool :=
  jobs.any (fun row =>
    row.holdsLease clock
      && row.assignedWorkerId = slot.workerId
      && (row.assignedInstanceId = slot.instanceId || row.assignedInstanceId = ""))

/-- The slot is ready and idle, and its pool is below its cap; an unlisted pool has no room. -/
def AvailabilityRow.isOpen (slot : AvailabilityRow) (policies : List (String × Policy))
    (clock : Int) (jobs : List JobRecord)
    : Bool :=
  clock < slot.readyUntil
    && !slot.busy clock jobs
    && poolLeases slot.workerId clock jobs < maxConcurrency policies slot.workerId

/-- The priority number of a pool. -/
def poolPriority (policies : List (String × Policy)) (workerId : String) : Nat :=
  ((policy? policies workerId).map Policy.priority).getD 0

/-- One row over a refused call: only an expired job without attempts left is failed. -/
def JobRecord.Refused (clock : Int) (row next : JobRecord) : Prop :=
  next = row
  ∨ row.status = .running
    ∧ row.maxAttempts ≤ row.attempts
    ∧ isPast row.leaseExpiresAt clock
    ∧ next.status = .failed
    ∧ next.jobId = row.jobId
    ∧ next.attempts = row.attempts

/-- What a call means for the slot, the job and the rows. -/
structure Db.Scheduled (config : Config) (clock : Int) (s : Db) (call : ClaimCall) (t : Db)
    : Prop where
  ready
    : call.granted.isSome
      → ∃ slot ∈ s.slots,
          slot.isSlot call.workerId call.instanceId
          ∧ slot.isOpen config.workerPolicies clock s.jobs
  idle : call.granted.isSome → slotLeases call.workerId call.instanceId clock s.jobs = 0
  belowCap
    : call.granted.isSome
      → poolLeases call.workerId clock s.jobs
        < maxConcurrency config.workerPolicies call.workerId
  first
    : call.granted.isSome
      → ∀ other ∈ s.slots,
          other.isOpen config.workerPolicies clock s.jobs
          → clock < other.demandUntil
          → poolPriority config.workerPolicies call.workerId
            ≤ poolPriority config.workerPolicies other.workerId
  oldest
    : ∀ claimed,
        call.granted = some claimed
        → ∃ row ∈ s.jobs,
            claimed.job.jobId = row.jobId
            ∧ row.startable clock
            ∧ ∀ other ∈ s.jobs, other.startable clock → row.precedes other
  leased
    : ∀ claimed,
        call.granted = some claimed
        → claimed.job ∈ t.jobs
          ∧ claimed.job.leaseOwner = claimed.leaseOwner
          ∧ claimed.job.holdsLease clock
          ∧ claimed.job.assignedTo call.workerId call.instanceId
          ∧ ∀ row ∈ t.jobs,
              row.holdsLease clock
              → row.assignedTo call.workerId call.instanceId
              → row.jobId = claimed.job.jobId
  refused : call.granted = none → List.Forall₂ (JobRecord.Refused clock) s.jobs t.jobs

/-- There is no job to start, or no slot of a listed pool to start it. -/
def Db.Saturated (config : Config) (clock : Int) (s : Db) : Prop :=
  (∀ row ∈ s.jobs, row.startable clock = false)
  ∨ ∀ slot ∈ s.slots,
      clock < slot.readyUntil
      → (policy? config.workerPolicies slot.workerId).isSome
      → slot.busy clock s.jobs
        ∨ maxConcurrency config.workerPolicies slot.workerId
          ≤ poolLeases slot.workerId clock s.jobs

-----------------------------------------------------------------------------------------
-- The queries
-----------------------------------------------------------------------------------------

/-- The eligible slots are the open ones with fresh demand. -/
theorem AvailabilityRow.eligible_eq (slot : AvailabilityRow)
    (policies : List (String × Policy)) (clock : Int) (jobs : List JobRecord)
    : slot.eligible policies clock jobs
      = (slot.isOpen policies clock jobs && clock < slot.demandUntil) := by
  unfold eligible isOpen busy maxConcurrency
  cases policy? policies slot.workerId with
  | none => simp
  | some policy =>
      simp only [Option.map_some, Option.getD_some]
      ac_rfl

/-- `select_worker.sql` returns the asking slot if it is eligible and no eligible slot has a smaller
priority number.
-/
theorem selectWorker_iff {policies : List (String × Policy)} {slots : List AvailabilityRow}
    {jobs : List JobRecord} {workerId instanceId : String} {clock : Int}
    : selectWorker policies slots jobs workerId instanceId clock
      ↔ ∃ slot ∈ slots,
          slot.isSlot workerId instanceId
          ∧ slot.eligible policies clock jobs
          ∧ ∀ other ∈ slots,
              other.eligible policies clock jobs
              → poolPriority policies workerId ≤ poolPriority policies other.workerId := by
  simp only [selectWorker, List.any_eq_true, List.mem_filter, Bool.and_eq_true,
    List.all_eq_true, decide_eq_true_eq, and_imp]
  constructor
  · rintro ⟨slot, ⟨member, eligible⟩, own, least⟩
    refine ⟨slot, member, own, eligible, ?_⟩
    simp only [AvailabilityRow.isSlot, Bool.and_eq_true, decide_eq_true_eq] at own
    rw [← own.1]
    exact least
  · rintro ⟨slot, member, own, eligible, least⟩
    refine ⟨slot, ⟨member, eligible⟩, own, ?_⟩
    simp only [AvailabilityRow.isSlot, Bool.and_eq_true, decide_eq_true_eq] at own
    rw [← own.1] at least
    exact least

/-- The order of `claim_slot.sql` is reflexive, transitive and total. -/
theorem JobRecord.precedes_iff {row other : JobRecord}
    : row.precedes other
      ↔ row.createdAt < other.createdAt
        ∨ row.createdAt = other.createdAt ∧ row.jobId ≤ other.jobId := by
  simp [JobRecord.precedes]

theorem JobRecord.precedes_refl (row : JobRecord) : row.precedes row :=
  precedes_iff.mpr (.inr ⟨rfl, String.le_refl _⟩)

theorem JobRecord.precedes_trans {row middle other : JobRecord} (before : row.precedes middle)
    (after : middle.precedes other)
    : row.precedes other := by
  rw [precedes_iff] at before after ⊢
  rcases before with earlier | ⟨same, least⟩
  · rcases after with later | ⟨same', _⟩
    · exact .inl (by omega)
    · exact .inl (by omega)
  · rcases after with later | ⟨same', least'⟩
    · exact .inl (by omega)
    · exact .inr ⟨same.trans same', String.le_trans least least'⟩

theorem JobRecord.precedes_total {row other : JobRecord} (after : ¬row.precedes other)
    : other.precedes row := by
  rw [precedes_iff] at after ⊢
  rw [not_or, not_and] at after
  rcases Int.lt_or_eq_of_le (Int.not_lt.mp after.1) with earlier | same
  · exact .inl earlier
  · refine .inr ⟨same, ?_⟩
    exact (String.le_total row.jobId other.jobId).resolve_left (after.2 same.symm)

/-- A query without a first row found none. -/
theorem firstRow_none {rows : List JobRecord} (none : firstRow rows = none) : rows = [] := by
  cases rows with
  | nil => rfl
  | cons head tail =>
      simp only [firstRow] at none
      split at none
      · cases none
      · split at none <;> cases none

/-- The first row precedes every row, by induction on the list. -/
theorem firstRow_least {rows : List JobRecord} {row : JobRecord}
    (first : firstRow rows = some row)
    : ∀ other ∈ rows, row.precedes other := by
  induction rows generalizing row with
  | nil => simp
  | cons head tail ih =>
      cases rest : firstRow tail with
      | none =>
          obtain rfl : head = row := by simpa [firstRow, rest] using first
          simp [firstRow_none rest, JobRecord.precedes_refl]
      | some best =>
          have least := ih rest
          simp only [firstRow, rest] at first
          split at first
          · rename_i before
            cases first
            refine List.forall_mem_cons.mpr ⟨JobRecord.precedes_refl head, ?_⟩
            exact fun other member => JobRecord.precedes_trans before (least other member)
          · rename_i after
            cases first
            exact List.forall_mem_cons.mpr ⟨JobRecord.precedes_total after, least⟩

/-- The candidate is the oldest startable row. -/
theorem candidate_oldest {clock : Int} {jobs : List JobRecord} {row : JobRecord}
    (chosen : candidate clock [] jobs = some row)
    : ∀ other ∈ jobs, other.startable clock → row.precedes other := by
  intro other member startable
  exact firstRow_least chosen other (List.mem_filter.mpr ⟨member, by simp [startable]⟩)

theorem candidate_none {clock : Int} {jobs : List JobRecord}
    (none : candidate clock [] jobs = none)
    : ∀ row ∈ jobs, row.startable clock = false := by
  simpa using List.filter_eq_nil_iff.mp (firstRow_none none)

-----------------------------------------------------------------------------------------
-- What a refused call leaves alone
-----------------------------------------------------------------------------------------

/-- A rewriting that only touches rows outside a filter, and leaves them outside, keeps it. -/
theorem filter_map_of_outside {α : Type*} {f : α → α} {p : α → Bool} {rows : List α}
    (outside : ∀ row ∈ rows, f row = row ∨ p row = false ∧ p (f row) = false)
    : (rows.map f).filter p = rows.filter p := by
  induction rows with
  | nil => rfl
  | cons row rest ih =>
      obtain ⟨first, others⟩ := List.forall_mem_cons.mp outside
      rw [List.map_cons, List.filter_cons, List.filter_cons, ih others]
      rcases first with same | ⟨before, after⟩
      · rw [same]
      · simp only [before, after, Bool.false_eq_true, if_false]

/-- What decides a call: the slots up to their demand, the live leases and the startable jobs. -/
structure Db.Alike (clock : Int) (s t : Db) : Prop where
  slots
    : t.slots.map (fun slot => (slot.workerId, slot.instanceId, slot.readyUntil))
      = s.slots.map (fun slot => (slot.workerId, slot.instanceId, slot.readyUntil))
  leases
    : t.jobs.filter (fun row => row.holdsLease clock)
      = s.jobs.filter (fun row => row.holdsLease clock)
  startable
    : t.jobs.filter (fun row => row.startable clock)
      = s.jobs.filter (fun row => row.startable clock)

namespace Db.Alike

variable {clock : Int} {s t u : Db}

theorem refl (s : Db) : s.Alike clock s := ⟨rfl, rfl, rfl⟩

theorem symm (alike : s.Alike clock t) : t.Alike clock s :=
  ⟨alike.slots.symm, alike.leases.symm, alike.startable.symm⟩

theorem trans (first : s.Alike clock t) (second : t.Alike clock u) : s.Alike clock u where
  slots := second.slots.trans first.slots
  leases := second.leases.trans first.leases
  startable := second.startable.trans first.startable

/-- Alike states count the same live leases. -/
theorem countP (alike : s.Alike clock t) (counts : JobRecord → Bool)
    : t.jobs.countP (fun row => row.holdsLease clock && counts row)
      = s.jobs.countP (fun row => row.holdsLease clock && counts row) := by
  have filtered (jobs : List JobRecord)
      : jobs.countP (fun row => row.holdsLease clock && counts row)
        = (jobs.filter (fun row => row.holdsLease clock)).countP counts := by
    rw [List.countP_filter]
    simp only [Bool.and_comm]
  rw [filtered, filtered, alike.leases]

theorem poolLeases (alike : s.Alike clock t) (workerId : String)
    : poolLeases workerId clock t.jobs = poolLeases workerId clock s.jobs :=
  alike.countP (fun row => row.assignedWorkerId = workerId)

theorem slotLeases (alike : s.Alike clock t) (workerId instanceId : String)
    : slotLeases workerId instanceId clock t.jobs = slotLeases workerId instanceId clock s.jobs :=
  alike.countP (fun row => row.assignedTo workerId instanceId)

/-- A busy slot is one whose leases are not zero in number. -/
theorem busy (alike : s.Alike clock t) (slot : AvailabilityRow)
    : slot.busy clock t.jobs = slot.busy clock s.jobs := by
  have counted (jobs : List JobRecord)
      : slot.busy clock jobs
        = decide (0 < jobs.countP (fun row => row.holdsLease clock
            && (row.assignedWorkerId = slot.workerId
              && (row.assignedInstanceId = slot.instanceId
                || row.assignedInstanceId = "")))) := by
    rw [Bool.eq_iff_iff, decide_eq_true_eq, List.countP_pos_iff, AvailabilityRow.busy,
      List.any_eq_true]
    simp only [Bool.and_assoc]
  rw [counted, counted, alike.countP]

theorem isOpen (alike : s.Alike clock t) (policies : List (String × Policy))
    (slot : AvailabilityRow)
    : slot.isOpen policies clock t.jobs = slot.isOpen policies clock s.jobs := by
  rw [AvailabilityRow.isOpen, alike.busy, alike.poolLeases]
  rfl

/-- A slot of one state is a slot of the other, up to its demand. -/
theorem slot (alike : s.Alike clock t) {slot : AvailabilityRow} (member : slot ∈ s.slots)
    : ∃ other ∈ t.slots,
        other.workerId = slot.workerId
        ∧ other.instanceId = slot.instanceId
        ∧ other.readyUntil = slot.readyUntil := by
  have image : (slot.workerId, slot.instanceId, slot.readyUntil)
      ∈ t.slots.map (fun slot => (slot.workerId, slot.instanceId, slot.readyUntil)) := by
    rw [alike.slots]
    exact List.mem_map.mpr ⟨slot, member, rfl⟩
  obtain ⟨other, stored, same⟩ := List.mem_map.mp image
  simp only [Prod.mk.injEq] at same
  exact ⟨other, stored, same⟩

/-- Alike states have the same startable jobs. -/
theorem waiting (alike : s.Alike clock t) {row : JobRecord}
    : row ∈ t.jobs ∧ row.startable clock ↔ row ∈ s.jobs ∧ row.startable clock := by
  have filtered := congrArg (fun rows => row ∈ rows) alike.startable
  simpa only [List.mem_filter, eq_iff_iff] using filtered

theorem unstartable (alike : s.Alike clock t)
    (none : ∀ row ∈ t.jobs, row.startable clock = false)
    : ∀ row ∈ s.jobs, row.startable clock = false := by
  have empty : t.jobs.filter (fun row => row.startable clock) = [] := by
    simpa using none
  rw [alike.startable] at empty
  simpa using empty

/-- Alike states are saturated together. -/
theorem saturated {config : Config} (alike : s.Alike clock t)
    (saturated : t.Saturated config clock)
    : s.Saturated config clock := by
  rcases saturated with none | full
  · exact .inl (alike.unstartable none)
  · refine .inr (fun slot member ready listed => ?_)
    obtain ⟨other, stored, worker, instance_, until_⟩ := alike.slot member
    have occupied := full other stored (by rwa [until_]) (by rwa [worker])
    rw [worker, alike.poolLeases, alike.busy] at occupied
    have same : other.busy clock s.jobs = slot.busy clock s.jobs := by
      simp only [AvailabilityRow.busy, worker, instance_]
    rwa [same] at occupied

end Db.Alike

/-- `reap.sql` touches neither a live lease nor a startable job. -/
theorem Sql.reap_outside (clock : Int) (row : JobRecord)
    : (Sql.reap clock).apply row = row
      ∨ (row.holdsLease clock = false ∧ ((Sql.reap clock).apply row).holdsLease clock = false)
        ∧ row.startable clock = false
        ∧ ((Sql.reap clock).apply row).startable clock = false := by
  cases selected : (Sql.reap clock).selects row with
  | false => exact .inl (RowUpdate.apply_unselected selected)
  | true =>
      refine .inr ?_
      rw [RowUpdate.apply_selected selected]
      simp only [Sql.reap, Bool.and_eq_true, decide_eq_true_eq] at selected
      obtain ⟨⟨running, spent⟩, past⟩ := selected
      have idle := isAfter_of_isPast past
      refine ⟨⟨?_, ?_⟩, ?_, ?_⟩
      · simp [JobRecord.holdsLease, idle]
      · simp [JobRecord.holdsLease, Sql.reap]
      · simp [JobRecord.startable, Int.not_lt.mpr spent]
      · simp [JobRecord.startable, Sql.reap, Status.active]

/-- A slot after `request_work.sql`. -/
theorem requestWork_faces (demandTtlSeconds : Int) (workerId instanceId : String) (clock : Int)
    (slots : List AvailabilityRow)
    : (requestWork demandTtlSeconds workerId instanceId clock slots).map
        (fun slot => (slot.workerId, slot.instanceId, slot.readyUntil))
      = slots.map (fun slot => (slot.workerId, slot.instanceId, slot.readyUntil)) := by
  rw [requestWork, List.map_map]
  refine List.map_congr_left (fun slot _ => ?_)
  dsimp only [Function.comp]
  split <;> rfl

namespace Db

theorem asked_alike (s : Db) (config : Config) (clock : Int) (workerId instanceId : String)
    : s.Alike clock (s.asked config clock workerId instanceId) where
  slots := requestWork_faces _ _ _ _ _
  leases :=
    filter_map_of_outside (fun row _ => (Sql.reap_outside clock row).imp id And.left)
  startable :=
    filter_map_of_outside (fun row _ => (Sql.reap_outside clock row).imp id And.right)

/-- The statement that grants a job to the caller. -/
def granting (config : Config) (clock : Int) (call : ClaimCall) (row : JobRecord) : RowUpdate :=
  Sql.claimSlot row.jobId (leaseToken call.workerId call.uuid) config.leaseSeconds call.workerId
    call.instanceId clock clock

/-- A call is refused in the asked state, or granted the candidate there. -/
theorem ClaimStep.cases {config : Config} {clock : Int} {s t : Db} {call : ClaimCall}
    (step : s.ClaimStep config clock call t)
    : let asked := s.asked config clock call.workerId call.instanceId
      let selected :=
        Transcriber.selectWorker config.workerPolicies asked.slots asked.jobs call.workerId
          call.instanceId clock
      (call.granted = none
        ∧ t = asked
        ∧ (selected → candidate clock [] asked.jobs = none))
      ∨ ∃ row claimed,
          call.granted = some claimed
          ∧ claimed.job = (granting config clock call row).assign row
          ∧ claimed.leaseOwner = leaseToken call.workerId call.uuid
          ∧ t.jobs = asked.jobs.map (granting config clock call row).apply
          ∧ selected
          ∧ candidate clock [] asked.jobs = some row := by
  intro asked selected
  unfold ClaimStep claimNextJob at step
  dsimp only at step
  split at step
  · rename_i chosen
    split at step
    · rename_i none
      obtain ⟨rfl, refused⟩ := Prod.mk.inj step
      exact .inl ⟨refused.symm, rfl, fun _ => none⟩
    · rename_i row found
      obtain ⟨rfl, granted⟩ := Prod.mk.inj step
      exact .inr ⟨row, _, granted.symm, rfl, rfl, rfl, chosen, found⟩
  · rename_i unselected
    obtain ⟨rfl, refused⟩ := Prod.mk.inj step
    exact .inl ⟨refused.symm, rfl, fun chosen => absurd chosen unselected⟩

-----------------------------------------------------------------------------------------
-- One call
-----------------------------------------------------------------------------------------

/-- The slots in which a call selects, with what their demand was before. -/
theorem asked_slot {s : Db} (config : Config) (clock : Int) (workerId instanceId : String)
    {slot : AvailabilityRow} (member : slot ∈ s.slots)
    : ∃ other ∈ (s.asked config clock workerId instanceId).slots,
        other.workerId = slot.workerId
        ∧ other.instanceId = slot.instanceId
        ∧ other.readyUntil = slot.readyUntil
        ∧ (clock < slot.demandUntil → clock < other.demandUntil)
        ∧ (slot.isSlot workerId instanceId
          → clock < slot.readyUntil
          → clock < other.demandUntil) := by
  have window := config.demandTtlSeconds_range
  have fresh : clock < clock + config.demandTtlSeconds * second := by
    unfold second
    omega
  refine ⟨_, List.mem_map_of_mem member, ?_⟩
  split
  · exact ⟨rfl, rfl, rfl, fun _ => fresh, fun _ _ => fresh⟩
  · rename_i other
    refine ⟨rfl, rfl, rfl, id, fun own ready => ?_⟩
    simp [own, ready] at other

/-- Openness reads a slot up to its demand. -/
theorem isOpen_congr {slot other : AvailabilityRow} (worker : other.workerId = slot.workerId)
    (instance_ : other.instanceId = slot.instanceId)
    (until_ : other.readyUntil = slot.readyUntil) (policies : List (String × Policy))
    (clock : Int) (jobs : List JobRecord)
    : other.isOpen policies clock jobs = slot.isOpen policies clock jobs := by
  simp only [AvailabilityRow.isOpen, AvailabilityRow.busy, worker, instance_, until_]

/-- An open slot holds no live lease, and its pool has room. -/
theorem isOpen_spec {slot : AvailabilityRow} {policies : List (String × Policy)} {clock : Int}
    {jobs : List JobRecord} (opened : slot.isOpen policies clock jobs)
    : clock < slot.readyUntil
      ∧ slotLeases slot.workerId slot.instanceId clock jobs = 0
      ∧ poolLeases slot.workerId clock jobs < maxConcurrency policies slot.workerId := by
  simp only [AvailabilityRow.isOpen, Bool.and_eq_true, Bool.not_eq_true', decide_eq_true_eq]
    at opened
  obtain ⟨⟨ready, idle⟩, room⟩ := opened
  refine ⟨ready, List.countP_eq_zero.mpr ?_, room⟩
  intro row stored holds
  have free := List.any_eq_false.mp idle row stored
  simp only [JobRecord.assignedTo, Bool.and_eq_true, decide_eq_true_eq] at holds
  simp [holds.1, holds.2.1, holds.2.2] at free

/-- The rows of the asked state are refused rows. -/
theorem asked_refused (s : Db) (config : Config) (clock : Int) (workerId instanceId : String)
    : List.Forall₂ (JobRecord.Refused clock) s.jobs
        (s.asked config clock workerId instanceId).jobs := by
  refine List.forall₂_map_right_iff.mpr (List.forall₂_same.mpr (fun row _ => ?_))
  cases selected : (Sql.reap clock).selects row with
  | false => exact .inl (RowUpdate.apply_unselected selected)
  | true =>
      rw [RowUpdate.apply_selected selected]
      simp only [Sql.reap, Bool.and_eq_true, decide_eq_true_eq] at selected
      exact .inr ⟨selected.1.1, selected.1.2, selected.2, rfl, rfl, rfl⟩

/-- What a selected call says of the state before it. -/
theorem selected_spec {s : Db} {config : Config} {clock : Int} {workerId instanceId : String}
    (selected
      : Transcriber.selectWorker config.workerPolicies
          (s.asked config clock workerId instanceId).slots
          (s.asked config clock workerId instanceId).jobs workerId instanceId clock)
    : (∃ slot ∈ s.slots,
        slot.isSlot workerId instanceId ∧ slot.isOpen config.workerPolicies clock s.jobs)
      ∧ ∀ other ∈ s.slots,
          other.isOpen config.workerPolicies clock s.jobs
          → clock < other.demandUntil
          → poolPriority config.workerPolicies workerId
            ≤ poolPriority config.workerPolicies other.workerId := by
  have alike := s.asked_alike config clock workerId instanceId
  obtain ⟨slot, member, own, eligible, least⟩ := selectWorker_iff.mp selected
  rw [AvailabilityRow.eligible_eq, Bool.and_eq_true] at eligible
  constructor
  · obtain ⟨before, stored, worker, instance_, until_⟩ := alike.symm.slot member
    refine ⟨before, stored, ?_, ?_⟩
    · simpa only [AvailabilityRow.isSlot, worker, instance_] using own
    · rw [isOpen_congr worker instance_ until_, ← alike.isOpen]
      exact eligible.1
  · intro other stored opened demands
    obtain ⟨after, member', worker, instance_, until_, kept, _⟩ :=
      asked_slot config clock workerId instanceId stored
    rw [← worker]
    refine least after member' ?_
    rw [AvailabilityRow.eligible_eq, Bool.and_eq_true, decide_eq_true_eq,
      isOpen_congr worker instance_ until_, alike.isOpen]
    exact ⟨opened, kept demands⟩

/-- The started row is leased to the caller. -/
theorem granting_spec (config : Config) (clock : Int) (call : ClaimCall) (row : JobRecord)
    : let next := (granting config clock call row).assign row
      next.jobId = row.jobId
        ∧ next.leaseOwner = leaseToken call.workerId call.uuid
        ∧ next.holdsLease clock
        ∧ next.assignedTo call.workerId call.instanceId := by
  have positive : 0 < config.leaseSeconds * second :=
    Int.mul_pos (by have := config.leaseSeconds_ge; omega) (by decide)
  simp [granting, Sql.claimSlot, Sql.startAttempt, JobRecord.holdsLease, JobRecord.assignedTo,
    isAfter, positive]

/-- A slot without a lease has the one that it is granted. -/
theorem granted_lease {config : Config} {clock : Int} {call : ClaimCall} {row : JobRecord}
    {jobs : List JobRecord} (idle : slotLeases call.workerId call.instanceId clock jobs = 0)
    : ∀ next ∈ jobs.map (granting config clock call row).apply,
        next.holdsLease clock
        → next.assignedTo call.workerId call.instanceId
        → next.jobId = row.jobId := by
  intro next member holds own
  obtain ⟨before, stored, rfl⟩ := List.mem_map.mp member
  cases selected : (granting config clock call row).selects before with
  | true =>
      simp only [granting, Sql.claimSlot, Bool.and_eq_true, decide_eq_true_eq] at selected
      rw [RowUpdate.apply_jobId]
      exact selected.1
  | false =>
      rw [RowUpdate.apply_unselected selected] at holds own
      have none := List.countP_eq_zero.mp idle before stored
      simp [holds, own] at none

/-- Every call is scheduled, from any state. -/
theorem ClaimStep.scheduled {config : Config} {clock : Int} {s t : Db} {call : ClaimCall}
    (step : s.ClaimStep config clock call t)
    : s.Scheduled config clock call t := by
  have alike := s.asked_alike config clock call.workerId call.instanceId
  rcases step.cases with
    ⟨refused, rfl, _⟩ | ⟨row, claimed, granted, same, token, jobs, selected, chosen⟩
  · exact {
      ready := by simp [refused]
      idle := by simp [refused]
      belowCap := by simp [refused]
      first := by simp [refused]
      oldest := by simp [refused]
      leased := by simp [refused]
      refused := fun _ => s.asked_refused config clock _ _
    }
  · obtain ⟨⟨slot, stored, own, opened⟩, least⟩ := selected_spec selected
    obtain ⟨_, idle, room⟩ := isOpen_spec opened
    have worker : slot.workerId = call.workerId ∧ slot.instanceId = call.instanceId := by
      simpa [AvailabilityRow.isSlot] using own
    rw [worker.1, worker.2] at idle
    rw [worker.1] at room
    obtain ⟨member, ready, _⟩ := candidate_spec chosen
    obtain ⟨job, owner, holds, assigned⟩ := granting_spec config clock call row
    rw [← same] at job owner holds assigned
    exact {
      ready := fun _ => ⟨slot, stored, own, opened⟩
      idle := fun _ => idle
      belowCap := fun _ => room
      first := fun _ => least
      oldest := by
        rw [granted]
        rintro _ ⟨⟩
        refine ⟨row, (alike.waiting.mp ⟨member, ready⟩).1, job, ready, ?_⟩
        intro other stored' waiting
        exact candidate_oldest chosen other (alike.waiting.mpr ⟨stored', waiting⟩).1 waiting
      leased := by
        rw [granted, jobs]
        rintro _ ⟨⟩
        refine ⟨?_, owner.trans token.symm, holds, assigned, ?_⟩
        · have starts : (granting config clock call row).selects row := by
            simp [granting, Sql.claimSlot, ready]
          rw [same, ← RowUpdate.apply_selected starts]
          exact List.mem_map_of_mem member
        · rw [job]
          exact granted_lease ((alike.slotLeases _ _).trans idle)
      refused := by simp [granted]
    }

/-- A refused call leaves an alike state. -/
theorem ClaimStep.alike {config : Config} {clock : Int} {s t : Db} {call : ClaimCall}
    (step : s.ClaimStep config clock call t) (refused : call.granted = none)
    : s.Alike clock t := by
  rcases step.cases with ⟨_, rfl, _⟩ | ⟨row, claimed, granted, _⟩
  · exact s.asked_alike config clock _ _
  · rw [refused] at granted
    cases granted

/-- A refused call of an open slot without a rival leaves nothing to start. -/
theorem ClaimStep.starved {config : Config} {clock : Int} {s t : Db} {call : ClaimCall}
    (step : s.ClaimStep config clock call t) (refused : call.granted = none)
    {slot : AvailabilityRow} (member : slot ∈ s.slots)
    (own : slot.isSlot call.workerId call.instanceId)
    (opened : slot.isOpen config.workerPolicies clock s.jobs)
    (least
      : ∀ other ∈ s.slots,
          other.isOpen config.workerPolicies clock s.jobs
          → poolPriority config.workerPolicies slot.workerId
            ≤ poolPriority config.workerPolicies other.workerId)
    : ∀ row ∈ s.jobs, row.startable clock = false := by
  have alike := s.asked_alike config clock call.workerId call.instanceId
  rcases step.cases with ⟨_, _, none⟩ | ⟨row, claimed, granted, _⟩
  · apply alike.unstartable
    apply candidate_none
    apply none
    obtain ⟨after, member', worker, instance_, until_, _, fresh⟩ :=
      asked_slot config clock call.workerId call.instanceId member
    have owner : slot.workerId = call.workerId := by
      simp only [AvailabilityRow.isSlot, Bool.and_eq_true, decide_eq_true_eq] at own
      exact own.1
    refine selectWorker_iff.mpr ⟨after, member', ?_, ?_, ?_⟩
    · simpa only [AvailabilityRow.isSlot, worker, instance_] using own
    · rw [AvailabilityRow.eligible_eq, Bool.and_eq_true, decide_eq_true_eq,
        isOpen_congr worker instance_ until_, alike.isOpen]
      exact ⟨opened, fresh own (isOpen_spec opened).1⟩
    · intro other stored eligible
      rw [AvailabilityRow.eligible_eq, Bool.and_eq_true] at eligible
      obtain ⟨before, stored', worker', instance', until'⟩ := alike.symm.slot stored
      rw [← worker', ← owner]
      refine least before stored' ?_
      rw [isOpen_congr worker' instance' until', ← alike.isOpen]
      exact eligible.1
  · rw [refused] at granted
    cases granted

-----------------------------------------------------------------------------------------
-- A round of calls
-----------------------------------------------------------------------------------------

/-- Refused calls leave an alike state, by induction on the run. -/
theorem alike_run {config : Config} {clock : Int} {s t : Db} {calls : List ClaimCall}
    (run : Run (ClaimStep config clock) s calls t)
    (refused : ∀ call ∈ calls, call.granted = none)
    : s.Alike clock t := by
  induction run with
  | nil => exact .refl s
  | snoc run last ih =>
      rw [List.forall_mem_append, List.forall_mem_singleton] at refused
      exact (ih refused.1).trans (last.alike refused.2)

/-- Of the rows with a property one has the least number, if there is one. -/
theorem exists_least {α : Type*} {rows : List α} {p : α → Bool} (number : α → Nat) {row : α}
    (member : row ∈ rows) (holds : p row)
    : ∃ least ∈ rows, p least ∧ ∀ other ∈ rows, p other → number least ≤ number other := by
  have inside : row ∈ rows.filter p := List.mem_filter.mpr ⟨member, holds⟩
  cases found : (rows.filter p).argmin number with
  | none =>
      rw [List.argmin_eq_none.mp found] at inside
      cases inside
  | some least =>
      obtain ⟨stored, holds⟩ := List.mem_filter.mp (List.argmin_mem found)
      refine ⟨least, stored, holds, ?_⟩
      intro other stored' holds'
      exact List.le_of_mem_argmin (List.mem_filter.mpr ⟨stored', holds'⟩) found

/-- A round in which every ready slot asks and gets nothing found a saturated store. -/
theorem saturated_of_refused {config : Config} {clock : Int} {s t : Db}
    {calls : List ClaimCall} (run : Run (ClaimStep config clock) s calls t)
    (refused : ∀ call ∈ calls, call.granted = none)
    (asks
      : ∀ slot ∈ s.slots,
          clock < slot.readyUntil
          → ∃ call ∈ calls, slot.isSlot call.workerId call.instanceId)
    : s.Saturated config clock := by
  by_cases full : ∀ slot ∈ s.slots, slot.isOpen config.workerPolicies clock s.jobs = false
  · refine .inr (fun slot member ready _ => ?_)
    have closed := full slot member
    simp only [AvailabilityRow.isOpen, ready, decide_true, Bool.true_and,
      Bool.and_eq_false_iff, Bool.not_eq_false', decide_eq_false_iff_not, not_lt] at closed
    exact closed
  · push Not at full
    obtain ⟨some, member, opened⟩ := full
    obtain ⟨slot, stored, opened, least⟩ :=
      exists_least (p := fun slot => slot.isOpen config.workerPolicies clock s.jobs)
        (fun slot => poolPriority config.workerPolicies slot.workerId) member
        (by simpa using opened)
    obtain ⟨call, called, own⟩ := asks slot stored (isOpen_spec opened).1
    obtain ⟨before, after, rfl⟩ := List.append_of_mem called
    have parts : before ++ call :: after = (before ++ [call]) ++ after := by simp
    obtain ⟨v, further⟩ := (parts ▸ run).of_append
    obtain ⟨u, reached, step⟩ := further.last
    have earlier : ∀ other ∈ before, other.granted = none := fun other member =>
      refused other (List.mem_append_left _ member)
    have alike := alike_run reached earlier
    obtain ⟨here, stored', worker, instance_, until_⟩ := alike.slot stored
    refine .inl (alike.unstartable (step.starved (refused call called) stored' ?_ ?_ ?_))
    · simpa only [AvailabilityRow.isSlot, worker, instance_] using own
    · rw [isOpen_congr worker instance_ until_, alike.isOpen]
      exact opened
    · intro other stored'' opened'
      obtain ⟨there, stored₀, worker', instance', until'⟩ := alike.symm.slot stored''
      rw [worker, ← worker']
      refine least there stored₀ ?_
      rw [isOpen_congr worker' instance' until', ← alike.isOpen]
      exact opened'

/-- Policy-mode scheduling is priority-ordered, first in first out and work-conserving: from every
state every call is scheduled, and a run of calls in which every ready slot asks and nobody is
granted a job leaves nothing to start, or no slot to start it.
-/
theorem policy_scheduling (config : Config) (clock : Int)
    : (∀ s call t, ClaimStep config clock s call t → s.Scheduled config clock call t)
      ∧ ∀ s calls t,
          Run (ClaimStep config clock) s calls t
          → (∀ call ∈ calls, call.granted = none)
          → (∀ slot ∈ s.slots,
              clock < slot.readyUntil
              → ∃ call ∈ calls, slot.isSlot call.workerId call.instanceId)
          → s.Saturated config clock ∧ t.Saturated config clock := by
  refine ⟨fun s call t step => step.scheduled, ?_⟩
  intro s calls t run refused asks
  have before := saturated_of_refused run refused asks
  exact ⟨before, (alike_run run refused).symm.saturated before⟩

theorem priority_first : 0 ≤ 10000 := by decide

theorem concurrency_one : 1 ≤ 32 := by decide

/-- Two pools for one execution each, `gpu` before `cpu`. -/
def twoPools : Config :=
  { Config.onePool .postgres with
    workerPolicies :=
      [("gpu", ⟨0, 1, priority_first, concurrency_one⟩),
        ("cpu", ⟨1, 1, by decide, concurrency_one⟩)]
    workerPolicies_distinct := by decide
    rabbitmq_policies := by simp }

/-- Two jobs wait, and a slot of each pool is ready. -/
def twoWaiting : Db :=
  ((Db.empty 0).play
    [
      (twoPools, .createJob (.wav "first") (.nth 0) 0),
      (twoPools, .createJob (.wav "second") (.nth 1) 1),
      (twoPools, .markQueued (Uuid.nth 0).text (.nth 8) 1 1),
      (twoPools, .markQueued (Uuid.nth 1).text (.nth 9) 1 1),
      (twoPools, .reportAvailability "gpu" "slot" true 1),
      (twoPools, .reportAvailability "cpu" "slot" true 1)
    ]).2

/-- Calls of slots one after another, each with the UUID that its token would get. -/
def claimRound (config : Config) (clock : Int) (s : Db)
    : List (String × String × Uuid) → List ClaimCall × Db
  | [] => ([], s)
  | (workerId, instanceId, uuid) :: rest =>
      let answer := s.claimNextJob config clock workerId instanceId uuid
      let later := claimRound config clock answer.1 rest
      (⟨workerId, instanceId, uuid, answer.2⟩ :: later.1, later.2)

/-- Calls one after another are a run, by induction on them. -/
theorem claimRound_run (config : Config) (clock : Int) (s : Db)
    (asking : List (String × String × Uuid))
    : Run (ClaimStep config clock) s (claimRound config clock s asking).1
        (claimRound config clock s asking).2 := by
  induction asking generalizing s with
  | nil => exact .nil s
  | cons ask rest ih =>
      obtain ⟨workerId, instanceId, uuid⟩ := ask
      have step : s.ClaimStep config clock
          ⟨workerId, instanceId, uuid, (s.claimNextJob config clock workerId instanceId uuid).2⟩
          (s.claimNextJob config clock workerId instanceId uuid).1 := rfl
      exact .cons step (ih _)

/-- The slot of the second pool asks first, then both slots in the order of their pools. -/
def firstRound : List ClaimCall × Db :=
  claimRound twoPools 2 twoWaiting
    [("cpu", "slot", .nth 2), ("gpu", "slot", .nth 3), ("cpu", "slot", .nth 4)]

/-- Both slots ask once more. -/
def secondRound : List ClaimCall × Db :=
  claimRound twoPools 2 firstRound.2 [("cpu", "slot", .nth 5), ("gpu", "slot", .nth 6)]

/-- The second pool is refused while the first one is idle, which gets the older job; when both
are at work the round in which they ask again finds the store saturated.
-/
theorem policy_scheduling_two_pools
    : firstRound.1.map (fun call => call.granted.map (fun claimed => claimed.job.jobId))
        = [none, some (Uuid.nth 0).text, some (Uuid.nth 1).text]
      ∧ (∀ before call after u v,
          firstRound.1 = before ++ call :: after
          → Run (ClaimStep twoPools 2) twoWaiting before u
          → u.ClaimStep twoPools 2 call v
          → u.Scheduled twoPools 2 call v)
      ∧ secondRound.2.Saturated twoPools 2 := by
  refine ⟨by decide +kernel, ?_, ?_⟩
  · intro before call after u v _ _ step
    exact (policy_scheduling twoPools 2).1 u call v step
  · have keys : firstRound.2.slots.map (fun slot => (slot.workerId, slot.instanceId))
        = [("gpu", "slot"), ("cpu", "slot")] := by
      decide +kernel
    have refused : ∀ call ∈ secondRound.1, call.granted = none := by
      decide +kernel
    have calls : secondRound.1.map (fun call => (call.workerId, call.instanceId))
        = [("cpu", "slot"), ("gpu", "slot")] := by
      decide +kernel
    have run := claimRound_run twoPools 2 firstRound.2
      [("cpu", "slot", .nth 5), ("gpu", "slot", .nth 6)]
    refine ((policy_scheduling twoPools 2).2 _ _ _ run refused ?_).2
    intro slot member _
    have key : (slot.workerId, slot.instanceId) ∈ [("gpu", "slot"), ("cpu", "slot")] := by
      rw [← keys]
      exact List.mem_map_of_mem member
    have called : (slot.workerId, slot.instanceId)
        ∈ secondRound.1.map (fun call => (call.workerId, call.instanceId)) := by
      rw [calls]
      simpa [or_comm] using key
    obtain ⟨call, member', same⟩ := List.mem_map.mp called
    simp only [Prod.mk.injEq] at same
    exact ⟨call, member', by simp [AvailabilityRow.isSlot, same.1, same.2]⟩

-----------------------------------------------------------------------------------------
-- A call as a run of the store
-----------------------------------------------------------------------------------------

/-- A row that was reaped is not reaped again. -/
theorem reap_idempotent (clock : Int) (row : JobRecord)
    : (Sql.reap clock).apply ((Sql.reap clock).apply row) = (Sql.reap clock).apply row := by
  cases selected : (Sql.reap clock).selects row with
  | false => rw [RowUpdate.apply_unselected selected, RowUpdate.apply_unselected selected]
  | true =>
      apply RowUpdate.apply_unselected
      rw [RowUpdate.apply_selected selected]
      simp [Sql.reap]

/-- `reap.sql` on one job after another, by induction on the jobs. -/
theorem reap_run (config : Config) {s : Db} (clock : Int)
    (unlocked : ∀ jobId, s.locks jobId = false) (ids : List String)
    : ∃ events,
        Run Step s events
          { s with
            jobs := s.jobs.map (fun row =>
              if row.jobId ∈ ids then (Sql.reap clock).apply row else row) } := by
  induction ids generalizing s with
  | nil => exact ⟨[], by simpa using Run.nil s⟩
  | cons id rest ih =>
      let statement := (Sql.reap clock).only id
      have free : s.blocks statement.selects = false := by
        simp [blocks, unlocked]
      have step : s.Step ⟨config, .reap id clock, .rows (s.jobs.countP statement.selects)⟩
          (s.rewrite statement) := by
        simp only [Step, exec, execute]
        rw [if_neg (by simp [statement, free])]
      obtain ⟨events, run⟩ := ih (s := s.rewrite statement) unlocked
      have jobs : s.jobs.map (fun row =>
            if row.jobId ∈ id :: rest then (Sql.reap clock).apply row else row)
          = (s.jobs.map statement.apply).map (fun row =>
            if row.jobId ∈ rest then (Sql.reap clock).apply row else row) := by
        rw [List.map_map]
        refine List.map_congr_left (fun row _ => ?_)
        have one : statement.apply row
            = if row.jobId = id then (Sql.reap clock).apply row else row := by
          by_cases same : row.jobId = id <;>
            simp [statement, RowUpdate.apply, RowUpdate.only, same]
        rw [Function.comp_apply, RowUpdate.apply_jobId, one]
        by_cases same : row.jobId = id <;> by_cases later : row.jobId ∈ rest <;>
          simp [same, later, reap_idempotent]
      rw [jobs]
      exact ⟨_, .cons step run⟩

/-- The end of a transaction that is over changes nothing. -/
theorem commit_of_free {s : Db} (free : s.scheduler = none) : s.commit = s := by
  simp [commit, ← free]

/-- A call is a run of the store: the lock, the reaping, the selection and the claim. -/
theorem claimNextJob_run {config : Config} {s t : Db} {clock : Int} {call : ClaimCall}
    (step : s.ClaimStep config clock call t) (backend : config.queueBackend = .postgres)
    (listed : config.workerPolicies ≠ []) (free : s.scheduler = none)
    (fresh : call.uuid ∉ s.drawn)
    : ∃ events op, Run Step s (events ++ [⟨config, op, .claimed call.granted⟩]) t := by
  let task := Task.claim call.workerId call.instanceId
  let transaction : Transaction := ⟨config, clock, s.clock, task, .locked⟩
  let locked : Db := { s with scheduler := some transaction }
  let reaped : Db := { locked with jobs := s.jobs.map (Sql.reap clock).apply }
  let asked := s.asked config clock call.workerId call.instanceId
  have lock : s.Step ⟨config, .lockScheduler task clock, .unit⟩ locked := by
    simp [Step, exec, lockScheduler, free, task, Task.allowed, backend, listed, locked,
      transaction]
  obtain ⟨reaps, reaping⟩ : ∃ reaps, Run Step locked reaps reaped := by
    obtain ⟨reaps, reaping⟩ :=
      reap_run config (s := locked) clock (fun _ => rfl) (s.jobs.map JobRecord.jobId)
    have jobs : s.jobs.map (fun row =>
          if row.jobId ∈ s.jobs.map JobRecord.jobId then (Sql.reap clock).apply row else row)
        = s.jobs.map (Sql.reap clock).apply :=
      List.map_congr_left (fun row member => if_pos (List.mem_map_of_mem member))
    rw [show locked.jobs = s.jobs from rfl, jobs] at reaping
    exact ⟨reaps, reaping⟩
  have early := Run.cons lock reaping
  have holder : reaped.holder? task Phase.isLocked = some transaction := by
    simp [holder?, reaped, locked, transaction, Phase.isLocked]
  unfold ClaimStep claimNextJob at step
  dsimp only at step
  split at step
  · rename_i chosen
    let selected : Db := { asked with scheduler := some { transaction with phase := .selected } }
    have select : reaped.Step
        ⟨config, .selectWorker call.workerId call.instanceId clock, .unit⟩ selected := by
      change Option.map _ (reaped.holder? task Phase.isLocked) = _
      rw [holder]
      exact congrArg some (if_pos chosen)
    have holder' : selected.holder? task Phase.isSelected
        = some { transaction with phase := .selected } := by
      simp [holder?, selected, transaction, Phase.isSelected]
    split at step
    · rename_i none
      obtain ⟨rfl, refused⟩ := Prod.mk.inj step
      refine ⟨_, .claimSlot call.workerId call.instanceId call.uuid [] clock,
        (early.snoc select).snoc ?_⟩
      change Option.bind (selected.holder? task Phase.isSelected) _ = _
      rw [holder', ← refused]
      change (if call.uuid ∈ s.drawn then _ else _) = _
      rw [if_neg fresh]
      have found : candidate clock [] selected.jobs = Option.none := none
      simp only [found]
      exact congrArg (fun db => some (db, Reply.claimed Option.none))
        (commit_of_free (s := asked) free)
    · rename_i row chosen
      obtain ⟨rfl, granted⟩ := Prod.mk.inj step
      refine ⟨_, .claimSlot call.workerId call.instanceId call.uuid [] clock,
        (early.snoc select).snoc ?_⟩
      change Option.bind (selected.holder? task Phase.isSelected) _ = _
      rw [holder', ← granted]
      change (if call.uuid ∈ s.drawn then _ else _) = _
      rw [if_neg fresh]
      have found : candidate clock [] selected.jobs = some row := chosen
      simp only [found]
      let statement := Sql.claimSlot row.jobId (leaseToken call.workerId call.uuid)
        config.leaseSeconds call.workerId call.instanceId clock clock
      refine congrArg some (Prod.ext ?_ rfl)
      exact commit_of_free (s := { asked.rewrite statement with drawn := call.uuid :: s.drawn })
        free
  · rename_i unselected
    obtain ⟨rfl, refused⟩ := Prod.mk.inj step
    refine ⟨_, .selectWorker call.workerId call.instanceId clock, early.snoc ?_⟩
    change Option.map _ (reaped.holder? task Phase.isLocked) = _
    rw [holder, ← refused]
    refine congrArg some ((if_neg unselected).trans ?_)
    exact congrArg (·, Reply.claimed none) (commit_of_free (s := asked) free)

end Db

end Transcriber
