import Transcriber.Store.Timed

/-! How many attempts one broker delivery is charged.
A delivery that started a job is recognised only while its lease is live. Seen again after the
expiry, it is charged a second attempt under a second token.
-/

namespace Transcriber

open Execution

-----------------------------------------------------------------------------------------
-- Observations
-----------------------------------------------------------------------------------------

/-- The token and the delivery of an attempt that a delivery started. -/
def Act.delivery? : Act → Option (String × String)
  | .start token deliveryId => deliveryId.map (fun delivery => (token, delivery))
  | .queue | .renew _ _ | .complete _ _ _ _ | .fail _ => none

/-- The deliveries that started a job, oldest first; each raised its attempts by one. -/
def deliveries (events : List Event) (jobId : String) : List (String × String) :=
  events.filterMap (fun event => (event.act? jobId).bind Act.delivery?)

/-- The token that a begin_attempt call returned, if it started or replayed. -/
def Event.returned? (event : Event) (jobId deliveryId : String) : Option String :=
  match event.op, event.reply with
  | .brokerJob request _, .attempt .started (some claimed)
  | .brokerStart request _ _, .attempt .started (some claimed) =>
      if request.jobId = jobId ∧ request.deliveryId = deliveryId then
        some claimed.leaseOwner
      else
        none
  | _, _ => none

/-- The tokens that the begin_attempt calls of one delivery returned. -/
def returnedTokens (events : List Event) (jobId deliveryId : String) : List String :=
  events.filterMap (fun event => event.returned? jobId deliveryId)

/-- Each delivery was charged once, under one token. -/
structure ChargedOnce (events : List Event) (s : Db) (jobId : String) : Prop where
  once : ∀ deliveryId, ((deliveries events jobId).map Prod.snd).count deliveryId ≤ 1
  one_token
    : ∀ deliveryId,
        ∀ token ∈ returnedTokens events jobId deliveryId,
          ∀ token' ∈ returnedTokens events jobId deliveryId, token = token'
  distinct
    : ∀ row,
        s.job? jobId = some row
        → row.attempts = ((deliveries events jobId).map Prod.snd).dedup.length

/-- A begin_attempt of a delivery that already started its job: it found the job startable,
and now finds its slot admitted and idle with room in its pool.
-/
def recharges (past : List Event) (s : Db) (event : Event) : Bool :=
  match event.op, s.scheduler with
  | .brokerCapacity request clock, some transaction =>
      match transaction.phase, policy? transaction.config.workerPolicies request.workerId with
      | .loaded _, some policy =>
          !(brokerCapacity s.slots s.jobs request.workerId request.instanceId clock).refuses
              policy
            && ((deliveries past request.jobId).map Prod.snd).contains request.deliveryId
      | _, _ => false
  | _, _ => false

-----------------------------------------------------------------------------------------
-- Starts
-----------------------------------------------------------------------------------------

/-- A step that starts no attempt charges nothing and gives no row a lease. -/
theorem RowStep.uncharged {act : Option Act} {row next : JobRecord}
    (step : RowStep act row next) (plain : ∀ token deliveryId, act ≠ some (.start token deliveryId))
    : next.attempts = row.attempts
      ∧ (next.status = .running
          → row.status = .running
            ∧ next.leaseOwner = row.leaseOwner
            ∧ next.deliveryId = row.deliveryId) := by
  cases step with
  | keep | interrupted | acknowledged | redispatched =>
      exact ⟨rfl, fun running => ⟨running, rfl, rfl⟩⟩
  | downloading | queued | cancelled | completed | exhausted =>
      refine ⟨rfl, fun running => ?_⟩
      simp [Sql.updateStatus, Sql.markQueued, Sql.cancelJob, Sql.complete, Sql.reap] at running
  | renewed selected =>
      simp only [Sql.heartbeat, Bool.and_eq_true] at selected
      exact ⟨rfl, fun _ => ⟨JobRecord.holdsLease_running selected.2, rfl, rfl⟩⟩
  | failed =>
      refine ⟨rfl, fun running => ?_⟩
      simp only [Sql.fail] at running
      split at running <;> cases running
  | claimed => exact absurd rfl (plain _ _)
  | delivered => exact absurd rfl (plain _ _)

/-- A started row is charged once, under the token and the delivery of its start. -/
theorem RowStep.charged {row next : JobRecord} {token deliveryId : String}
    (step : RowStep (some (.start token (some deliveryId))) row next)
    : next.attempts = row.attempts + 1
      ∧ next.leaseOwner = token
      ∧ next.deliveryId = deliveryId := by
  cases step
  exact ⟨rfl, rfl, rfl⟩

/-- A start is a claim, or the last statement of a begin_attempt for this job. -/
theorem Event.start_op {event : Event} {jobId token : String} {deliveryId : Option String}
    (started : event.act? jobId = some (.start token deliveryId))
    : (∃ workerId instanceId fallback uuid locked now,
        event.op = .claimLegacy workerId instanceId fallback uuid locked now)
      ∨ (∃ workerId instanceId uuid locked clock,
        event.op = .claimSlot workerId instanceId uuid locked clock)
      ∨ ∃ request uuid clock,
          event.op = .brokerStart request uuid clock
          ∧ request.jobId = jobId
          ∧ deliveryId = some request.deliveryId := by
  obtain ⟨config, op, reply⟩ := event
  simp only [Event.act?] at started
  split at started
  case h_2 => exact .inl ⟨_, _, _, _, _, _, rfl⟩
  case h_3 => exact .inr (.inl ⟨_, _, _, _, _, rfl⟩)
  case h_4 request uuid clock claimed =>
    split at started
    · rename_i same
      simp only [Option.some.injEq, Act.start.injEq] at started
      exact .inr (.inr ⟨request, uuid, clock, rfl, same, started.2.symm⟩)
    · cases started
  all_goals
    first
    | cases started
    | split at started <;> cases started

-----------------------------------------------------------------------------------------
-- The invariant
-----------------------------------------------------------------------------------------

/-- The deliveries of a job so far against the store. -/
structure Charging (jobId : String) (past : List Event) (s : Db) : Prop where
  consistent : s.Consistent
  brokered
    : ∀ transaction,
        s.scheduler = some transaction
        → ∀ workerId instanceId, transaction.task ≠ .claim workerId instanceId
  unborn : (∀ uuid ∈ s.drawn, uuid.text ≠ jobId) → deliveries past jobId = []
  fresh
    : ∀ transaction row request,
        s.scheduler = some transaction
        → transaction.phase = .capable row
        → transaction.task = .begin request
        → request.jobId = jobId
        → request.deliveryId ∉ (deliveries past jobId).map Prod.snd
  distinct : ((deliveries past jobId).map Prod.snd).Nodup
  attempts : ∀ row, s.job? jobId = some row → row.attempts = (deliveries past jobId).length
  running
    : ∀ row,
        s.job? jobId = some row
        → row.status = .running
        → (row.leaseOwner, row.deliveryId) ∈ deliveries past jobId
  returned
    : ∀ deliveryId,
        ∀ token ∈ returnedTokens past jobId deliveryId,
          (token, deliveryId) ∈ deliveries past jobId

theorem deliveries_snoc (past : List Event) (event : Event) (jobId : String)
    : deliveries (past ++ [event]) jobId
      = deliveries past jobId ++ ((event.act? jobId).bind Act.delivery?).toList := by
  cases started : (event.act? jobId).bind Act.delivery? <;> simp [deliveries, started]

theorem returnedTokens_snoc (past : List Event) (event : Event) (jobId deliveryId : String)
    : returnedTokens (past ++ [event]) jobId deliveryId
      = returnedTokens past jobId deliveryId ++ (event.returned? jobId deliveryId).toList := by
  cases token : event.returned? jobId deliveryId <;> simp [returnedTokens, token]

/-- The last statement of a begin_attempt runs on a row that passed its tests and ends the
transaction.
-/
theorem Db.brokerStart_spec {s t : Db} {request : BeginRequest} {uuid : Uuid} {clock : Int}
    {reply : Reply} (done : s.brokerStart request uuid clock = some (t, reply))
    : (∃ transaction row,
        s.scheduler = some transaction
        ∧ transaction.phase = .capable row
        ∧ transaction.task = .begin request)
      ∧ t.scheduler = none
      ∧ ∃ job expires,
          reply
          = .attempt .started
              (some ⟨job, leaseToken request.workerId uuid, expires⟩) := by
  obtain ⟨transaction, holder, done⟩ := Option.bind_eq_some_iff.mp done
  split at done
  · rename_i row phase
    split at done
    · cases done
    rename_i allowed
    simp only [ne_eq, Bool.or_eq_true, decide_eq_true_eq, not_or, Decidable.not_not] at allowed
    cases done
    exact ⟨⟨transaction, row, holder, phase, allowed.1⟩, rfl, _, _, rfl⟩
  · cases done

/-- In RabbitMQ mode every start is the last statement of a begin_attempt. -/
theorem Charging.start_op {jobId : String} {past : List Event} {s t : Db} {event : Event}
    {token : String} {deliveryId : Option String} (charging : Charging jobId past s)
    (step : s.Step event t) (broker : event.config.queueBackend = .rabbitmq)
    (started : event.act? jobId = some (.start token deliveryId))
    : ∃ request uuid clock,
        event.op = .brokerStart request uuid clock
        ∧ request.jobId = jobId
        ∧ deliveryId = some request.deliveryId := by
  rcases Event.start_op started with legacy | slot | broker
  · obtain ⟨workerId, instanceId, fallback, uuid, locked, now, called⟩ := legacy
    simp [Db.Step, called, Db.exec, Db.claimLegacy, broker] at step
  · obtain ⟨workerId, instanceId, uuid, locked, clock, called⟩ := slot
    simp only [Db.Step, called, Db.exec] at step
    obtain ⟨transaction, holder, _⟩ := Option.bind_eq_some_iff.mp step
    obtain ⟨holder, task, _⟩ := Db.holder_spec holder
    exact absurd task (charging.brokered transaction holder workerId instanceId)
  · exact broker

/-- A begin_attempt returns the token of a start by the same delivery: its own, or that of the
live attempt it replays.
-/
theorem Charging.returned_step {jobId : String} {past : List Event} {s t : Db} {event : Event}
    {deliveryId token : String} (charging : Charging jobId past s) (step : s.Step event t)
    (returned : event.returned? jobId deliveryId = some token)
    : (token, deliveryId) ∈ deliveries (past ++ [event]) jobId := by
  rw [deliveries_snoc]
  obtain ⟨config, op, reply⟩ := event
  simp only [Event.returned?] at returned
  split at returned
  · rename_i request clock claimed
    split at returned
    · rename_i same
      obtain ⟨rfl, rfl⟩ := same
      obtain rfl := Option.some.inj returned
      refine List.mem_append_left _ ?_
      obtain ⟨transaction, holder, done⟩ := Option.map_eq_some_iff.mp step
      split at done
      · cases done
      rename_i row found
      split at done
      case h_2 replay =>
        cases done
        have live : row.holdsLease clock ∧ row.deliveryId = request.deliveryId := by
          unfold Db.verdict at replay
          grind
        rw [← live.2]
        exact charging.running row found (JobRecord.holdsLease_running live.1)
      case h_5 =>
        split at done <;> cases done
      all_goals cases done
    · cases returned
  · rename_i request uuid clock claimed
    split at returned
    · rename_i same
      obtain ⟨rfl, rfl⟩ := same
      obtain rfl := Option.some.inj returned
      refine List.mem_append_right _ ?_
      simp [Event.act?, Act.delivery?]
    · cases returned
  · cases returned

/-- An event charges the job nothing, or one attempt to the delivery that it starts. -/
theorem Charging.charge {jobId : String} {past : List Event} {s t : Db} {event : Event}
    (charging : Charging jobId past s) (step : s.Step event t)
    (broker : event.config.queueBackend = .rabbitmq)
    : (∀ token deliveryId, event.act? jobId ≠ some (.start token deliveryId))
        ∧ deliveries (past ++ [event]) jobId = deliveries past jobId
      ∨ ∃ request uuid clock token,
          event.op = .brokerStart request uuid clock
          ∧ request.jobId = jobId
          ∧ event.act? jobId = some (.start token (some request.deliveryId))
          ∧ deliveries (past ++ [event]) jobId
            = deliveries past jobId ++ [(token, request.deliveryId)] := by
  rw [deliveries_snoc]
  cases act : event.act? jobId with
  | none => exact .inl ⟨by simp, by simp⟩
  | some act' =>
      cases act' with
      | queue | renew | complete | fail => exact .inl ⟨by simp, by simp [Act.delivery?]⟩
      | start token deliveryId =>
          obtain ⟨request, uuid, clock, called, same, rfl⟩ := charging.start_op step broker act
          exact .inr ⟨request, uuid, clock, token, called, same, rfl, by simp [Act.delivery?]⟩

/-- Unless a delivery is charged again, every step in RabbitMQ mode keeps the charges. -/
theorem Charging.step {jobId : String} {past : List Event} {s t : Db} {event : Event}
    (charging : Charging jobId past s) (step : s.Step event t)
    (broker : event.config.queueBackend = .rabbitmq) (once : recharges past s event = false)
    : Charging jobId (past ++ [event]) t := by
  have consistent := step.consistent charging.consistent
  have outcome := step.outcome charging.consistent.distinct charging.consistent.held
  have change := outcome.change
  have brokered := step.holder_allowed
    (P := fun _ task => ∀ workerId instanceId, task ≠ .claim workerId instanceId)
    charging.brokered (by
      rintro task allowed workerId instanceId rfl
      simp [Db.Task.allowed, broker] at allowed)
  have returned (deliveryId token : String)
      (member : token ∈ returnedTokens (past ++ [event]) jobId deliveryId)
      : (token, deliveryId) ∈ deliveries (past ++ [event]) jobId := by
    rw [returnedTokens_snoc, List.mem_append, Option.mem_toList] at member
    rcases member with old | new
    · rw [deliveries_snoc]
      exact List.mem_append_left _ (charging.returned deliveryId token old)
    · exact charging.returned_step step new
  rcases charging.charge step broker with ⟨plain, same⟩ | started
  · refine ⟨consistent, brokered, ?_, ?_, ?_, ?_, ?_, returned⟩
    · intro unused
      rw [same]
      exact charging.unborn (fun uuid old => unused uuid (outcome.drawn uuid old))
    · intro transaction row request holder phase task target
      rw [same]
      cases step.lockMove with
      | kept sameHolder =>
          exact charging.fresh transaction row request (sameHolder ▸ holder) phase task target
      | released free => simp [free] at holder
      | taken _ _ _ _ next | selected _ _ _ _ _ _ _ _ next | loaded _ _ _ _ _ _ _ _ _ next
      | admitting _ _ _ _ _ _ _ _ _ _ _ _ _ next =>
          obtain rfl := Option.some.inj (next.symm.trans holder)
          cases phase
      | capable before asked clock row' policy called holder' task' loaded listed granted next =>
          obtain rfl := Option.some.inj (next.symm.trans holder)
          obtain rfl : asked = request := by simpa [task'] using task
          intro member
          rw [← target] at member
          simp [recharges, called, holder', loaded, listed, granted, member] at once
    · rw [same]
      exact charging.distinct
    · intro next found
      rw [same]
      rcases change.origin charging.consistent found
        with ⟨row, stored, rowStep⟩ | ⟨_, unused, options, newId, now, _, _, rfl⟩
      · rw [(rowStep.uncharged plain).1]
        exact charging.attempts row stored
      · rw [charging.unborn unused]
        rfl
    · intro next found running
      rw [same]
      rcases change.origin charging.consistent found
        with ⟨row, stored, rowStep⟩ | ⟨_, unused, options, newId, now, _, _, rfl⟩
      · obtain ⟨wasRunning, owner, delivery⟩ := (rowStep.uncharged plain).2 running
        rw [owner, delivery]
        exact charging.running row stored wasRunning
      · cases running
  · obtain ⟨request, uuid, clock, token, called, target, act, grown⟩ := started
    have executed := step
    simp only [Db.Step, called, Db.exec] at executed
    obtain ⟨⟨transaction, locked, holder, phase, task⟩, free, _⟩ := Db.brokerStart_spec executed
    have unused := charging.fresh transaction locked request holder phase task target
    obtain ⟨row, next, stored, found, rowStep⟩ :=
      change.acted charging.consistent consistent (by rw [act]; simp)
    rw [act] at rowStep
    obtain ⟨attempts, owner, delivery⟩ := rowStep.charged
    refine ⟨consistent, brokered, ?_, ?_, ?_, ?_, ?_, returned⟩
    · intro other
      obtain ⟨member, rfl⟩ := Db.job?_mem stored
      obtain ⟨known, old, named⟩ := charging.consistent.known row member
      exact absurd named.symm (other known (outcome.drawn known old))
    · intro transaction' row' request' holder'
      simp [free] at holder'
    · rw [grown, List.map_append]
      exact List.nodup_append.mpr ⟨charging.distinct, by simp, by
        rintro delivery old _ new rfl
        simp only [List.map_cons, List.map_nil, List.mem_singleton] at new
        exact unused (new ▸ old)⟩
    · intro other found'
      obtain rfl := Option.some.inj (found.symm.trans found')
      rw [attempts, charging.attempts row stored, grown]
      simp
    · intro other found' _
      obtain rfl := Option.some.inj (found.symm.trans found')
      rw [owner, delivery, grown]
      simp

/-- A step in RabbitMQ mode that charges no delivery again. -/
def chargesOnce (past : List Event) (s : Db) (event : Event) : Bool :=
  event.config.queueBackend = .rabbitmq && !recharges past s event

/-- One delivery, one attempt: in RabbitMQ mode, in every state of every run in which no
delivery that already started its job gets a startable job and a free slot again.
-/
theorem Db.charged_once {clock : Int} {s : Db} {events : List Event}
    (run : GuardedRun Db.Step (fun past s event => chargesOnce past s event) (Db.empty clock)
      events s)
    (jobId : String)
    : ChargedOnce events s jobId := by
  have charging : Charging jobId events s := by
    refine run.history ?_ ?_
    · intro past s event t charging met step
      simp only [chargesOnce, Bool.and_eq_true, decide_eq_true_eq, Bool.not_eq_true'] at met
      exact charging.step step met.1 met.2
    · refine ⟨.empty clock, ?_, fun _ => rfl, ?_, List.nodup_nil, ?_, ?_, ?_⟩ <;>
        simp [Db.empty, Db.job?, Table.lookup, returnedTokens]
  refine ⟨?_, ?_, ?_⟩
  · intro deliveryId
    exact List.nodup_iff_count_le_one.mp charging.distinct deliveryId
  · intro deliveryId token member token' member'
    have first := charging.returned deliveryId token member
    have second := charging.returned deliveryId token' member'
    exact congrArg Prod.fst (List.inj_on_of_nodup_map charging.distinct first second rfl)
  · intro row found
    rw [charging.distinct.dedup, List.length_map]
    exact charging.attempts row found

/-- A begin_attempt is sent again under its delivery id, four seconds after its start and one
after its lease expired.
-/
def Db.deliverTwice : List (Config × Op) :=
  let config := Config.onePool .rabbitmq
  let request : BeginRequest :=
    ⟨"gpu", "slot", (Uuid.nth 0).text, (Uuid.nth 1).text, "delivery"⟩
  let clock := 4 * second
  deliverOnce ++
    [
      (config, .tick clock),
      (config, .lockScheduler (.begin request) clock),
      (config, .brokerJob request clock),
      (config, .brokerCapacity request clock),
      (config, .brokerStart request (.nth 3) clock)
    ]

/-- Played under the guard, the second start is left out. -/
theorem Db.charged_once_delivered
    : let played :=
        Execution.play Db.perform chargesOnce [] (Db.empty 0) deliverTwice
      deliveries played.1 (Uuid.nth 0).text = [(leaseToken "gpu" (.nth 2), "delivery")]
        ∧ ChargedOnce played.1 played.2 (Uuid.nth 0).text :=
  ⟨by decide +kernel,
    charged_once (Execution.play_run perform_step (.nil (Db.empty 0)) deliverTwice)
      (Uuid.nth 0).text⟩

/-- Not every run charges a delivery once: a retry after the expiry starts a second attempt. -/
theorem Db.charged_twice
    : ¬∀ clock events s,
        Run Db.TimedStep (Db.empty clock) events s
        → (∀ event ∈ events, event.config.queueBackend = .rabbitmq)
        → ∀ jobId, ChargedOnce events s jobId := by
  intro always
  have charged := always 0 _ _ (playTimed_run (Db.empty 0) deliverTwice) (by decide +kernel)
    (Uuid.nth 0).text
  have twice : ((deliveries ((Db.empty 0).playTimed deliverTwice).1
      (Uuid.nth 0).text).map Prod.snd).count "delivery" = 2 := by
    decide +kernel
  have once := charged.once "delivery"
  omega

end Transcriber
