import Mathlib.Data.List.Dedup
import Transcriber.Store.Statements

/-! The statements over `worker_availability` and the capacity queries.
Each query reads the clock once; leases are counted whoever granted them.
-/

namespace Transcriber

/-- Unexpired leases that a pool holds. -/
def poolLeases (workerId : String) (clock : Int) (jobs : List JobRecord) : Nat :=
  jobs.countP (fun row => row.holdsLease clock && row.assignedWorkerId = workerId)

/-- Unexpired leases that one slot of a pool holds. -/
def slotLeases (workerId instanceId : String) (clock : Int) (jobs : List JobRecord) : Nat :=
  jobs.countP (fun row => row.holdsLease clock && row.assignedTo workerId instanceId)

namespace AvailabilityRow

/-- The primary key of `worker_availability`. -/
def isSlot (slot : AvailabilityRow) (workerId instanceId : String) : Bool :=
  slot.workerId = workerId && slot.instanceId = instanceId

/-- The slot may receive deliveries: both its report and its admission are current. -/
def admitted (slot : AvailabilityRow) (clock : Int) : Bool :=
  clock < slot.readyUntil && isAfter slot.consumerUntil clock

/-- A row of the `eligible` relation of `select_worker.sql`. A lease without a slot id holds
the whole pool.
-/
def eligible (slot : AvailabilityRow) (policies : List (String × Policy)) (clock : Int)
    (jobs : List JobRecord)
    : Bool :=
  match policy? policies slot.workerId with
  | none => false
  | some policy =>
      clock < slot.readyUntil && clock < slot.demandUntil
        && !jobs.any (fun row => row.holdsLease clock
          && row.assignedWorkerId = slot.workerId
          && (row.assignedInstanceId = slot.instanceId || row.assignedInstanceId = ""))
        && poolLeases slot.workerId clock jobs < policy.maxConcurrency

/-- The priority that `select_worker.sql` joins to a slot. -/
def priority (slot : AvailabilityRow) (policies : List (String × Policy)) : Nat :=
  ((policy? policies slot.workerId).map Policy.priority).getD 0

end AvailabilityRow

/-- `select_worker.sql`: whether the asking slot is eligible at the least eligible priority. -/
def selectWorker (policies : List (String × Policy)) (slots : List AvailabilityRow)
    (jobs : List JobRecord) (workerId instanceId : String) (clock : Int)
    : Bool :=
  let eligible := slots.filter (fun slot => slot.eligible policies clock jobs)
  eligible.any (fun slot => slot.isSlot workerId instanceId
    && eligible.all (fun other => slot.priority policies ≤ other.priority policies))

/-- The row that `broker_capacity.sql` returns. -/
structure Capacity where
  ready : Bool
  busy : Bool
  active : Nat
  deriving DecidableEq, Repr

/-- `broker_capacity.sql` -/
def brokerCapacity (slots : List AvailabilityRow) (jobs : List JobRecord)
    (workerId instanceId : String) (clock : Int)
    : Capacity where
  ready := slots.any (fun slot => slot.isSlot workerId instanceId && slot.admitted clock)
  busy := jobs.any (fun row => row.holdsLease clock && row.assignedTo workerId instanceId)
  active := poolLeases workerId clock jobs

/-- The refusal test of `begin_attempt` on that row. -/
def Capacity.refuses (capacity : Capacity) (policy : Policy) : Bool :=
  !capacity.ready || capacity.busy || policy.maxConcurrency ≤ capacity.active

/-- `request_work.sql` -/
def requestWork (demandTtlSeconds : Int) (workerId instanceId : String) (clock : Int)
    (slots : List AvailabilityRow)
    : List AvailabilityRow :=
  slots.map (fun slot =>
    if slot.isSlot workerId instanceId && clock < slot.readyUntil then
      { slot with demandUntil := clock + demandTtlSeconds * second }
    else
      slot)

/-- `cleanup_availability.sql` -/
def cleanupAvailability (now : Int) (slots : List AvailabilityRow) : List AvailabilityRow :=
  Table.delete (fun slot => slot.readyUntil < now - 86400 * second) slots

/-- The upsert of `report_availability.sql`; a repeated report leaves the demand alone. -/
def reportAvailability (workerId instanceId : String) (readySeconds demandSeconds now : Int)
    (slots : List AvailabilityRow)
    : List AvailabilityRow :=
  let readyUntil := now + readySeconds * second
  if slots.any (fun slot => slot.isSlot workerId instanceId) then
    slots.map (fun slot =>
      if slot.isSlot workerId instanceId then
        { slot with
          readyUntil
          reportedAt := now
          consumerUntil :=
            if isAfter slot.consumerUntil now then some readyUntil else slot.consumerUntil }
      else
        slot)
  else
    slots ++
      [{
        workerId
        instanceId
        readyUntil
        reportedAt := now
        demandUntil := now + demandSeconds * second
        consumerUntil := none
      }]

/-- The `occupied` relation of `broker_admit.sql`; its UNION counts each slot once. -/
def occupiedSlots (slots : List AvailabilityRow) (jobs : List JobRecord) (workerId : String)
    (clock : Int)
    : List String :=
  (((slots.filter (fun slot => slot.workerId = workerId && slot.admitted clock)).map
        AvailabilityRow.instanceId)
    ++ ((jobs.filter (fun row => row.assignedWorkerId = workerId && row.holdsLease clock)).map
        JobRecord.assignedInstanceId)).dedup

/-- Whether `broker_admit.sql` updates the asking slot, in the snapshot that it counts. -/
def admits (slots : List AvailabilityRow) (jobs : List JobRecord)
    (workerId instanceId : String) (limit : Nat) (clock : Int)
    : Bool :=
  let occupied := occupiedSlots slots jobs workerId clock
  (occupied.contains instanceId || occupied.length < limit)
    && slots.any (fun slot => slot.isSlot workerId instanceId && clock < slot.readyUntil)

/-- What `broker_admit.sql` writes to the row of the asking slot. -/
def brokerAdmit (workerId instanceId : String) (clock : Int) (slots : List AvailabilityRow)
    : List AvailabilityRow :=
  slots.map (fun slot =>
    if slot.isSlot workerId instanceId && clock < slot.readyUntil then
      { slot with consumerUntil := some slot.readyUntil }
    else
      slot)

-----------------------------------------------------------------------------------------
-- What a granted capacity query says about the leases it counted
-----------------------------------------------------------------------------------------

/-- A selected slot is idle and its pool is below its cap at the clock of the query. -/
theorem selectWorker_spec {policies : List (String × Policy)} {slots : List AvailabilityRow}
    {jobs : List JobRecord} {workerId instanceId : String} {clock : Int}
    (selected : selectWorker policies slots jobs workerId instanceId clock)
    : slotLeases workerId instanceId clock jobs = 0
      ∧ poolLeases workerId clock jobs < maxConcurrency policies workerId := by
  obtain ⟨slot, member, chosen⟩ := List.any_eq_true.mp selected
  have eligible := (List.mem_filter.mp member).2
  simp only [AvailabilityRow.isSlot, Bool.and_eq_true, decide_eq_true_eq] at chosen
  obtain ⟨⟨rfl, rfl⟩, _⟩ := chosen
  unfold AvailabilityRow.eligible at eligible
  cases known : policy? policies slot.workerId with
  | none => simp [known] at eligible
  | some policy =>
      simp only [known, Bool.and_eq_true, Bool.not_eq_true', decide_eq_true_eq] at eligible
      obtain ⟨⟨_, idle⟩, below⟩ := eligible
      refine ⟨?_, by simpa [maxConcurrency, known] using below⟩
      apply List.countP_eq_zero.mpr
      intro row stored holds
      have free := List.any_eq_false.mp idle row stored
      simp only [JobRecord.assignedTo, Bool.and_eq_true, decide_eq_true_eq] at holds
      simp [holds.1, holds.2.1, holds.2.2] at free

/-- An accepted capacity row means the same for a delivered job. -/
theorem brokerCapacity_spec {slots : List AvailabilityRow} {jobs : List JobRecord}
    {workerId instanceId : String} {clock : Int} {policy : Policy}
    (granted : (brokerCapacity slots jobs workerId instanceId clock).refuses policy = false)
    : slotLeases workerId instanceId clock jobs = 0
      ∧ poolLeases workerId clock jobs < policy.maxConcurrency := by
  simp only [Capacity.refuses, brokerCapacity, Bool.or_eq_false_iff] at granted
  obtain ⟨⟨_, idle⟩, below⟩ := granted
  refine ⟨List.countP_eq_zero.mpr ?_, Nat.lt_of_not_le (of_decide_eq_false below)⟩
  intro row stored holds
  exact List.any_eq_false.mp idle row stored holds

end Transcriber
