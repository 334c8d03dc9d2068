import Transcriber.Broker.Delivery

/-! No job is lost in RabbitMQ mode: every job that needs it is covered by an outbox row that
is not being committed, or by a message that no consumer may acknowledge.
-/

namespace Transcriber

open Execution

-----------------------------------------------------------------------------------------
-- Covers
-----------------------------------------------------------------------------------------

/-- The consumer may acknowledge the delivery: it has or will see an answer that settles it, or
its delayed copy is confirmed.
-/
def Unacked.spent (unacked : Unacked) : Bool :=
  match unacked.phase with
  | .settled | .delayed => true
  | .calling _ =>
      unacked.answers.any (fun answer =>
        match answer with
        | .begun .discard _ => true
        | _ => false)
  | .processing _ => unacked.answers.contains (.ended true)
  | .incoming | .busy => false

namespace System

/-- A message with this task is queued, or delivered and not spent. -/
def Carries (s : System) (task : Envelope) : Prop :=
  (∃ message ∈ s.ready, delivery message = some task)
  ∨ (∃ message ∈ s.retry, delivery message = some task)
  ∨ ∃ c consumer unacked,
      s.consumers c = some consumer
      ∧ consumer.unacked = some unacked
      ∧ delivery unacked.message = some task
      ∧ unacked.spent = false

/-- An outbox row of the job's dispatch waits, and no publisher is committing it. -/
def Pending (s : System) (row : JobRecord) : Prop :=
  ∃ entry ∈ s.db.outbox,
    entry.messageId = row.dispatchId
    ∧ entry.jobId = row.jobId
    ∧ entry.publishedAt = none
    ∧ entry.messageId ∉ s.confirmed

def Covered (s : System) (row : JobRecord) : Prop :=
  s.Pending row ∨ s.Carries ⟨row.jobId, row.dispatchId⟩

theorem Covered.dispatched {s : System} {row : JobRecord} (covered : s.Covered row)
    : s.Dispatched row := by
  rcases covered with ⟨entry, listed, id, job, unpublished, _⟩ | carried
  · exact .inl ⟨entry, listed, id, job, unpublished⟩
  · rcases carried with ⟨message, queued, task⟩ | ⟨message, queued, task⟩
      | ⟨c, consumer, unacked, found, held, task, _⟩
    · exact .inr ⟨message, .inl queued, task⟩
    · exact .inr ⟨message, .inr (.inl queued), task⟩
    · exact .inr ⟨unacked.message, .inr (.inr ⟨c, consumer, unacked, found, held, rfl⟩), task⟩

end System

/-- A condition on active rows that no kept row newly meets. -/
structure Needy (needy : JobRecord → Bool) : Prop where
  active : ∀ row, needy row → row.status.active
  before
    : ∀ act row next,
        RowStep act row next
        → row.status.active
        → (∀ token, act ≠ some (.fail token))
        → needy next
        → needy row

namespace System

/-- Dispatch identities are apart, and publishers confirm drawn ones only. -/
structure Regular (s : System) : Prop where
  consistent : s.db.Consistent
  dispatches : s.db.Dispatches
  confirmed : ∀ id ∈ s.confirmed, ∃ uuid ∈ s.db.drawn, id = uuid.text

/-- Every needy job is covered. -/
structure Sound (needy : JobRecord → Bool) (s : System) : Prop extends s.Regular where
  covered : ∀ row ∈ s.db.jobs, needy row → s.Covered row

variable {needy : JobRecord → Bool}

-----------------------------------------------------------------------------------------
-- Steps of the store
-----------------------------------------------------------------------------------------

/-- A step answers `discard` only to a delivery whose job is not active under its dispatch. -/
theorem discard_answer {s t : Db} {event : Event} (step : s.Step event t)
    (consistent : s.Consistent) {request : BeginRequest} {token : Option String}
    (answer : beginAnswer request event = some (.begun .discard token)) {row : JobRecord}
    (member : row ∈ t.jobs) (job : row.jobId = request.jobId)
    (dispatch : row.dispatchId = request.messageId)
    : row.status.active = false := by
  obtain ⟨config, op, reply⟩ := event
  simp only [beginAnswer] at answer
  split at answer
  · rename_i asked clock disposition claimed
    split at answer
    · rename_i same
      subst same
      cases answer
      exact Db.brokerJob_discard consistent step member job dispatch
    · cases answer
  · rename_i asked clock disposition claimed
    split at answer
    · cases answer
      obtain ⟨transaction, _, done⟩ := Option.bind_eq_some_iff.mp step
      repeat' split at done
      all_goals cases done
    · cases answer
  · rename_i asked uuid clock disposition claimed
    split at answer
    · cases answer
      obtain ⟨transaction, _, done⟩ := Option.bind_eq_some_iff.mp step
      repeat' split at done
      all_goals cases done
    · cases answer
  · cases answer

/-- An accepted end of an attempt is an act on its job. -/
theorem end_answer {event : Event} {jobId token : String}
    (answer : endAnswer jobId token event = some (.ended true))
    : (∃ text segments resultPath,
        event.act? jobId = some (.complete token text segments resultPath))
      ∨ event.act? jobId = some (.fail token) := by
  obtain ⟨config, op, reply⟩ := event
  simp only [endAnswer] at answer
  split at answer
  · rename_i target owner text segments resultPath now count
    split at answer
    · rename_i same
      obtain ⟨rfl, rfl⟩ := same
      simp only [Option.some.injEq, Answer.ended.injEq, decide_eq_true_eq] at answer
      exact .inl ⟨text, segments, resultPath, by simp [Event.act?, answer]⟩
    · cases answer
  · split at answer
    · rename_i same
      obtain ⟨rfl, rfl⟩ := same
      simp only [Option.some.injEq, Answer.ended.injEq, decide_eq_true_eq] at answer
      exact .inr (by simp [Event.act?, answer])
    · cases answer
  · cases answer

/-- A delivery that a step spends: its job is not active under its dispatch, or was ended. -/
theorem spent_answer {unacked : Unacked} {workerId instanceId : String} {event : Event}
    {task : Envelope} (named : delivery unacked.message = some task)
    (unspent : unacked.spent = false)
    (spent : (unacked.hear workerId instanceId event).spent)
    : (∃ deliveryId token,
        beginAnswer ⟨workerId, instanceId, task.jobId, task.messageId, deliveryId⟩ event
          = some (.begun .discard token))
      ∨ ∃ token, endAnswer task.jobId token event = some (.ended true) := by
  cases phase : unacked.phase with
  | incoming | busy | settled | delayed =>
      simp [Unacked.hear, Unacked.spent, phase] at spent unspent
  | calling deliveryId =>
      simp only [Unacked.hear, Unacked.spent, phase, List.any_append, Bool.or_eq_true]
        at spent unspent
      rcases spent with old | new
      · simp [old] at unspent
      · obtain ⟨answer, given, discards⟩ := List.any_eq_true.mp new
        rw [Option.mem_toList, Unacked.answer, named, phase] at given
        split at discards
        · exact .inl ⟨deliveryId, _, given⟩
        · cases discards
  | processing token =>
      simp only [Unacked.hear, Unacked.spent, phase, List.contains_eq_mem, List.mem_append,
        decide_eq_true_eq, decide_eq_false_iff_not] at spent unspent
      rcases spent with old | new
      · exact absurd old unspent
      · rw [Option.mem_toList, Unacked.answer, named, phase] at new
        exact .inr ⟨token, new⟩

theorem store_spec {s t : System} {config : Config} {op : Op}
    (done : s.store config op = some t)
    : ∃ reply,
        config.queueBackend = .rabbitmq
        ∧ isPublished op = false
        ∧ s.db.Step ⟨config, op, reply⟩ t.db
        ∧ t.ready = s.ready
        ∧ t.retry = s.retry
        ∧ t.confirmed = s.confirmed
        ∧ t.consumers
          = fun c => (s.consumers c).map (Consumer.hear ⟨config, op, reply⟩) := by
  unfold System.store at done
  split at done
  · cases done
  rename_i allowed
  simp only [Bool.or_eq_true, decide_eq_true_eq, not_or, ne_eq, not_not, Bool.not_eq_true]
    at allowed
  obtain ⟨⟨db, reply⟩, executed, rfl⟩ := Option.map_eq_some_iff.mp done
  exact ⟨reply, allowed.1, allowed.2, executed, rfl, rfl, rfl, rfl⟩

/-- A covered job that stays active under its dispatch stays covered. -/
theorem Covered.store {s t : System} {config : Config} {op : Op} {reply : Reply}
    {row next : JobRecord} (covered : s.Covered row) (consistent : s.db.Consistent)
    (step : s.db.Step ⟨config, op, reply⟩ t.db) (unpublished : isPublished op = false)
    (ready : t.ready = s.ready) (retry : t.retry = s.retry)
    (confirmed : t.confirmed = s.confirmed)
    (consumers
      : t.consumers = fun c => (s.consumers c).map (Consumer.hear ⟨config, op, reply⟩))
    (rowStep : RowStep (Event.act? ⟨config, op, reply⟩ row.jobId) row next)
    (same : next.dispatchId = row.dispatchId)
    (unfailed : ∀ token, Event.act? ⟨config, op, reply⟩ row.jobId ≠ some (.fail token))
    (member : next ∈ t.db.jobs) (active : next.status.active)
    : t.Covered next := by
  rcases covered with ⟨entry, listed, id, job, waits, free⟩ | carried
  · refine .inl ⟨entry, ?_, id.trans same.symm, job.trans rowStep.jobId.symm, waits,
      confirmed ▸ free⟩
    refine step.entry_kept consistent listed ?_ ⟨next, member, rowStep.jobId.trans job.symm⟩
    rintro now rfl
    cases unpublished
  · rw [← rowStep.jobId, ← same] at carried
    rcases carried with queued | delayed | ⟨c, consumer, unacked, found, held, named, unspent⟩
    · exact .inr (.inl (ready ▸ queued))
    · exact .inr (.inr (.inl (retry ▸ delayed)))
    · refine .inr (.inr (.inr ⟨c, consumer.hear ⟨config, op, reply⟩,
        unacked.hear consumer.workerId consumer.instanceId ⟨config, op, reply⟩,
        by simp [consumers, found], by simp [Consumer.hear, held], named, ?_⟩))
      by_contra spent
      rcases spent_answer named unspent (by simpa using spent)
        with ⟨deliveryId, token, answer⟩ | ⟨token, answer⟩
      · have inactive := discard_answer step consistent answer member rfl rfl
        simp [inactive] at active
      · rw [rowStep.jobId] at answer
        rcases end_answer answer with ⟨text, segments, resultPath, completed⟩ | failed
        · rw [completed] at rowStep
          cases rowStep
          simp [Sql.complete, Status.active] at active
        · exact unfailed token failed

/-- A step of the store covers every needy job if it keeps only covered ones under their
dispatches.
-/
theorem Regular.store {s t : System} {config : Config} {op : Op} (kept : s.Regular)
    (active : ∀ row, needy row → row.status.active) (done : s.store config op = some t)
    (covered
      : ∀ (event : Event) (next : JobRecord),
          event.op = op
          → s.db.Step event t.db
          → next ∈ t.db.jobs
          → needy next
          → ∀ row ∈ s.db.jobs,
              RowStep (event.act? row.jobId) row next
              → next.dispatchId = row.dispatchId
              → row.status.active
              → (∀ token, event.act? row.jobId ≠ some (.fail token))
              → s.Covered row)
    : t.Sound needy := by
  obtain ⟨reply, rabbit, unpublished, step, ready, retry, confirmed, consumers⟩ :=
    store_spec done
  have outcome := step.outcome kept.consistent.distinct kept.consistent.held
  refine ⟨⟨step.consistent kept.consistent, step.dispatches kept.consistent kept.dispatches, ?_⟩,
    ?_⟩
  · intro id listed
    obtain ⟨uuid, known, same⟩ := kept.confirmed id (confirmed ▸ listed)
    exact ⟨uuid, outcome.drawn uuid known, same⟩
  intro next member need
  rcases step.active_origin kept.consistent rabbit member (active next need)
    with ⟨⟨entry, listed, id, job, waits⟩, uuid, text, fresh⟩
      | ⟨row, stored, rowStep, same, was, unfailed⟩
  · -- A fresh dispatch is no confirmed one.
    refine .inl ⟨entry, listed, id, job, waits, ?_⟩
    rw [confirmed]
    intro listed
    obtain ⟨other, known, named⟩ := kept.confirmed _ listed
    obtain rfl := Uuid.text_injective (named.symm.trans (id.trans text))
    exact fresh.1 known
  · have before := covered ⟨config, op, reply⟩ next rfl step member need row stored rowStep same
      was unfailed
    exact before.store kept.consistent step unpublished ready retry confirmed consumers rowStep
      same unfailed member (active next need)

/-- A step of the store keeps every needy job covered. -/
theorem Sound.store {s t : System} {config : Config} {op : Op} (kept : s.Sound needy)
    (tracked : Needy needy) (done : s.store config op = some t)
    : t.Sound needy := by
  refine kept.toRegular.store tracked.active done ?_
  intro event next _ _ _ need row stored rowStep _ was unfailed
  exact kept.covered row stored (tracked.before _ row next rowStep was unfailed need)

-----------------------------------------------------------------------------------------
-- Steps of the publisher
-----------------------------------------------------------------------------------------

/-- A confirmed publication puts the message of its outbox row into the queue. -/
theorem Sound.publish {s t : System} {messageId : String} {clock : Int} (kept : s.Sound needy)
    (done : s.publish messageId clock = some t)
    : t.Sound needy := by
  unfold System.publish at done
  split at done
  · cases done
  obtain ⟨entry, first, rfl⟩ := Option.map_eq_some_iff.mp done
  have listed := List.mem_of_find?_eq_some first
  have chosen := List.find?_some first
  simp only [Bool.and_eq_true, decide_eq_true_eq] at chosen
  obtain ⟨⟨rfl, _⟩, _⟩ := chosen
  refine ⟨⟨kept.consistent, kept.dispatches, ?_⟩, ?_⟩
  · intro id member
    rcases List.mem_cons.mp member with rfl | old
    · exact kept.dispatches.entries entry listed
    · exact kept.confirmed id old
  · intro row member need
    by_cases mine : row.dispatchId = entry.messageId
    · have job := kept.dispatches.agree entry listed row member mine
      refine .inr (.inl ⟨entry.message, by simp, ?_⟩)
      rw [entry.delivery_message, job, mine]
    · rcases kept.covered row member need with ⟨other, listed', id, same, waits, free⟩ | carried
      · refine .inl ⟨other, listed', id, same, waits, ?_⟩
        simp only [List.mem_cons, not_or]
        exact ⟨id ▸ mine, free⟩
      · rcases carried with ⟨message, queued, named⟩ | elsewhere
        · exact .inr (.inl ⟨message, List.mem_append_left _ queued, named⟩)
        · exact .inr (.inr elsewhere)

/-- A committed publication was confirmed, so its message covers the job. -/
theorem Sound.commit {s t : System} {config : Config} {messageId : String} {now : Int}
    (kept : s.Sound needy) (done : s.commit config messageId now = some t)
    : t.Sound needy := by
  unfold System.commit at done
  split at done
  · rename_i confirmed
    obtain ⟨⟨db, reply⟩, executed, rfl⟩ := Option.map_eq_some_iff.mp done
    have step : s.db.Step ⟨config, .outboxPublished messageId now, reply⟩ db := executed
    cases executed
    refine ⟨⟨step.consistent kept.consistent, step.dispatches kept.consistent kept.dispatches,
      fun id member => kept.confirmed id (List.mem_filter.mp member).1⟩, ?_⟩
    intro row member need
    rcases kept.covered row member need with ⟨entry, listed, id, job, waits, free⟩ | carried
    · have differs : entry.messageId ≠ messageId := by
        rintro rfl
        exact free (by simpa using confirmed)
      refine .inl ⟨entry, ?_, id, job, waits, fun still => free (List.mem_filter.mp still).1⟩
      exact List.mem_map.mpr ⟨entry, listed, if_neg differs⟩
    · exact .inr carried
  · cases done

-----------------------------------------------------------------------------------------
-- Steps of the broker and its consumers
-----------------------------------------------------------------------------------------

/-- A step that moves messages only. -/
theorem Sound.carry {s t : System} (kept : s.Sound needy) (db : t.db = s.db)
    (confirmed : ∀ id ∈ t.confirmed, id ∈ s.confirmed)
    (carries : ∀ task, s.Carries task → t.Carries task)
    : t.Sound needy := by
  refine ⟨⟨db ▸ kept.consistent, db ▸ kept.dispatches, ?_⟩, ?_⟩
  · rw [db]
    exact fun id member => kept.confirmed id (confirmed id member)
  · intro row member need
    rcases kept.covered row (db ▸ member) need with ⟨entry, listed, id, job, waits, free⟩ | carried
    · exact .inl ⟨entry, db ▸ listed, id, job, waits, fun still => free (confirmed _ still)⟩
    · exact .inr (carries _ carried)

/-- A task stays carried when its queued messages stay and what the consumer held unspent is
still somewhere.
-/
theorem Carries.move {s t : System} {task : Envelope} (carried : s.Carries task) (c : Nat)
    (ready : ∀ message ∈ s.ready, delivery message = some task → t.Carries task)
    (retry : ∀ message ∈ s.retry, delivery message = some task → t.Carries task)
    (others : ∀ j, j ≠ c → t.consumers j = s.consumers j)
    (own
      : ∀ consumer unacked,
          s.consumers c = some consumer
          → consumer.unacked = some unacked
          → delivery unacked.message = some task
          → unacked.spent = false
          → t.Carries task)
    : t.Carries task := by
  rcases carried with ⟨message, queued, named⟩ | ⟨message, queued, named⟩
    | ⟨j, consumer, unacked, found, held, named, unspent⟩
  · exact ready message queued named
  · exact retry message queued named
  · rcases eq_or_ne j c with rfl | differs
    · exact own consumer unacked found held named unspent
    · exact .inr (.inr ⟨j, consumer, unacked, (others j differs).trans found, held, named, unspent⟩)

theorem onDelivery_spec {s t : System} {c : Nat} {step : Consumer → Unacked → Option System}
    (done : s.onDelivery c step = some t)
    : ∃ consumer unacked,
        s.consumers c = some consumer
        ∧ consumer.unacked = some unacked
        ∧ step consumer unacked = some t := by
  obtain ⟨consumer, found, done⟩ := Option.bind_eq_some_iff.mp done
  obtain ⟨unacked, held, done⟩ := Option.bind_eq_some_iff.mp done
  exact ⟨consumer, unacked, found, held, done⟩

/-- A consumer whose delivery goes on, with the messages it may add to the queues. -/
theorem Sound.setUnacked {s t : System} {c : Nat} {consumer : Consumer} {unacked : Unacked}
    {next : Option Unacked} (kept : s.Sound needy) (found : s.consumers c = some consumer)
    (held : consumer.unacked = some unacked) (db : t.db = s.db)
    (confirmed : t.confirmed = s.confirmed) (ready : ∀ message ∈ s.ready, message ∈ t.ready)
    (retry : ∀ message ∈ s.retry, message ∈ t.retry)
    (consumers
      : t.consumers = Function.update s.consumers c (some { consumer with unacked := next }))
    (own
      : unacked.spent = false
        → delivery unacked.message = none
          ∨ unacked.message ∈ t.ready
          ∨ unacked.message ∈ t.retry
          ∨ ∃ after, next = some after ∧ after.message = unacked.message ∧ after.spent = false)
    : t.Sound needy := by
  refine kept.carry db (by simp [confirmed]) ?_
  intro task carried
  refine carried.move c ?_ ?_ ?_ ?_
  · exact fun message queued named => .inl ⟨message, ready message queued, named⟩
  · exact fun message queued named => .inr (.inl ⟨message, retry message queued, named⟩)
  · intro j differs
    rw [consumers, Function.update_of_ne differs]
  · intro other mine found' held' named unspent
    obtain rfl := Option.some.inj (found.symm.trans found')
    obtain rfl := Option.some.inj (held.symm.trans held')
    rcases own unspent with malformed | queued | delayed | ⟨after, rfl, same, still⟩
    · simp [malformed] at named
    · exact .inl ⟨_, queued, named⟩
    · exact .inr (.inl ⟨_, delayed, named⟩)
    · exact .inr (.inr ⟨c, _, after, by rw [consumers, Function.update_self], rfl, same ▸ named,
        still⟩)

theorem Sound.deliver {s t : System} {c index : Nat} (kept : s.Sound needy)
    (done : s.deliver c index = some t)
    : t.Sound needy := by
  obtain ⟨consumer, found, done⟩ := Option.bind_eq_some_iff.mp done
  split at done
  · cases done
  rename_i idle
  obtain ⟨message, chosen, rfl⟩ := Option.map_eq_some_iff.mp done
  refine kept.carry rfl (fun _ listed => listed) ?_
  intro task carried
  refine carried.move c ?_ (fun delayed queued named => .inr (.inl ⟨delayed, queued, named⟩))
    (fun j differs => Function.update_of_ne differs _ _) ?_
  · intro other queued named
    obtain ⟨position, found'⟩ := List.getElem?_of_mem queued
    rcases eq_or_ne position index with rfl | differs
    · obtain rfl := Option.some.inj (chosen.symm.trans found')
      exact .inr (.inr ⟨c, _, _, Function.update_self .., rfl, named, rfl⟩)
    · refine .inl ⟨other, ?_, named⟩
      exact List.mem_eraseIdx_iff_getElem?.mpr ⟨position, differs, found'⟩
  · intro other unacked found' held
    obtain rfl := Option.some.inj (found.symm.trans found')
    simp [held] at idle

theorem Sound.reject {s t : System} {c : Nat} (kept : s.Sound needy)
    (done : s.reject c = some t)
    : t.Sound needy := by
  obtain ⟨consumer, unacked, found, held, done⟩ := onDelivery_spec done
  split at done
  · rename_i malformed
    cases done
    exact kept.setUnacked found held rfl rfl (fun _ queued => queued) (fun _ queued => queued) rfl
      (fun _ => .inl malformed.2)
  · cases done

theorem Sound.begin {s t : System} {c : Nat} {deliveryId : String} (kept : s.Sound needy)
    (done : s.begin c deliveryId = some t)
    : t.Sound needy := by
  obtain ⟨consumer, unacked, found, held, done⟩ := onDelivery_spec done
  split at done
  · cases done
    exact kept.setUnacked found held rfl rfl (fun _ queued => queued) (fun _ queued => queued) rfl
      (fun _ => .inr (.inr (.inr ⟨_, rfl, rfl, rfl⟩)))
  · cases done

/-- A delivery that is not spent has received nothing that settles it. -/
theorem Sound.receive {s t : System} {c : Nat} {answer : Answer} (kept : s.Sound needy)
    (done : s.receive c answer = some t)
    : t.Sound needy := by
  obtain ⟨consumer, unacked, found, held, done⟩ := onDelivery_spec done
  split at done
  · rename_i heard
    obtain ⟨phase, received, rfl⟩ := Option.map_eq_some_iff.mp done
    refine kept.setUnacked found held rfl rfl (fun _ queued => queued) (fun _ queued => queued) rfl
      (fun unspent => .inr (.inr (.inr ⟨_, rfl, rfl, ?_⟩)))
    have given : answer ∈ unacked.answers := by simpa using heard
    unfold Unacked.receive at received
    split at received
    · rename_i calling _
      simp only [Unacked.spent, calling, List.any_eq_false] at unspent
      exact absurd rfl (unspent _ given)
    · cases received
      rfl
    · cases received
      rfl
    · rename_i processing _
      simp [Unacked.spent, processing, given] at unspent
    · cases received
  · cases done

/-- The delayed copy takes over from the delivery. -/
theorem Sound.delay {s t : System} {c : Nat} (kept : s.Sound needy) (done : s.delay c = some t)
    : t.Sound needy := by
  obtain ⟨consumer, unacked, found, held, done⟩ := onDelivery_spec done
  split at done
  · cases done
    exact kept.setUnacked found held rfl rfl (fun _ queued => queued)
      (fun _ queued => List.mem_append_left _ queued) rfl
      (fun _ => .inr (.inr (.inl (by simp [System.setUnacked, setConsumer]))))
  · cases done

/-- Only spent deliveries are acknowledged. -/
theorem Sound.ack {s t : System} {c : Nat} (kept : s.Sound needy) (done : s.ack c = some t)
    : t.Sound needy := by
  obtain ⟨consumer, unacked, found, held, done⟩ := onDelivery_spec done
  split at done
  · rename_i finished
    cases done
    refine kept.setUnacked found held rfl rfl (fun _ queued => queued) (fun _ queued => queued) rfl
      (fun unspent => ?_)
    rcases finished with phase | phase <;> simp [Unacked.spent, phase] at unspent
  · cases done

/-- The broker requeues the delivery of a closed connection. -/
theorem Sound.close {s t : System} {c : Nat} (kept : s.Sound needy) (done : s.close c = some t)
    : t.Sound needy := by
  obtain ⟨consumer, found, rfl⟩ := Option.map_eq_some_iff.mp done
  refine kept.carry rfl (fun _ listed => listed) ?_
  intro task carried
  refine carried.move c ?_ (fun delayed queued named => .inr (.inl ⟨delayed, queued, named⟩))
    (fun j differs => Function.update_of_ne differs _ _) ?_
  · exact fun message queued named => .inl ⟨message, List.mem_append_left _ queued, named⟩
  · intro other unacked found' held named _
    obtain rfl := Option.some.inj (found.symm.trans found')
    exact .inl ⟨unacked.message, List.mem_append_right _ (by simp [held]), named⟩

theorem Sound.deadLetter {s t : System} {index : Nat} {again : Bool} (kept : s.Sound needy)
    (done : s.deadLetter index again = some t)
    : t.Sound needy := by
  obtain ⟨message, chosen, rfl⟩ := Option.map_eq_some_iff.mp done
  refine kept.carry rfl (fun _ listed => listed) ?_
  rintro task (⟨queued, member, named⟩ | ⟨delayed, member, named⟩ | held)
  · exact .inl ⟨queued, List.mem_append_left _ member, named⟩
  · obtain ⟨position, found⟩ := List.getElem?_of_mem member
    rcases eq_or_ne position index with rfl | differs
    · obtain rfl := Option.some.inj (chosen.symm.trans found)
      exact .inl ⟨message, by simp, named⟩
    · refine .inr (.inl ⟨delayed, ?_, named⟩)
      dsimp only
      split
      · exact member
      · exact List.mem_eraseIdx_iff_getElem?.mpr ⟨position, differs, found⟩
  · exact .inr (.inr held)

-----------------------------------------------------------------------------------------
-- Runs
-----------------------------------------------------------------------------------------

/-- Every step keeps every needy job covered, by cases on the label. -/
theorem Sound.step {s t : System} {label : Delivering} (kept : s.Sound needy)
    (tracked : Needy needy) (step : s.Step label t)
    : t.Sound needy := by
  cases label with
  | store => exact kept.store tracked step
  | publish => exact kept.publish step
  | commit => exact kept.commit step
  | crash =>
      cases step
      exact kept.carry rfl (fun _ listed => (List.mem_filter.mp listed).1) (fun _ carried => carried)
  | connect c workerId instanceId =>
      simp only [Step, next] at step
      split at step <;> cases step
      rename_i unused
      refine kept.carry rfl (fun _ listed => listed) ?_
      intro task carried
      refine carried.move c (fun message queued named => .inl ⟨message, queued, named⟩)
        (fun message queued named => .inr (.inl ⟨message, queued, named⟩))
        (fun j differs => Function.update_of_ne differs _ _) ?_
      intro consumer unacked found
      simp [found] at unused
  | deliver => exact kept.deliver step
  | reject => exact kept.reject step
  | begin => exact kept.begin step
  | receive => exact kept.receive step
  | delay => exact kept.delay step
  | ack => exact kept.ack step
  | close => exact kept.close step
  | deadLetter => exact kept.deadLetter step

theorem sound_run {s t : System} {labels : List Delivering} (run : Run Step s labels t)
    (tracked : Needy needy) (kept : s.Sound needy)
    : t.Sound needy :=
  run.invariant (fun _ _ _ kept step => kept.step tracked step) kept

-----------------------------------------------------------------------------------------
-- No job is lost
-----------------------------------------------------------------------------------------

theorem needy_active : Needy (fun row => row.status.active) :=
  ⟨fun _ active => active, fun _ _ _ _ was _ _ => was⟩

/-- An empty database, or one without dispatch identities that `init_schema` adopted. -/
def Adopted (db : Db) : Prop :=
  ∃ clock,
    db = Db.empty clock
    ∨ ∃ past before config draw,
        Run Db.Step (Db.empty clock) past before
        ∧ (∀ row ∈ before.jobs, row.dispatchId = "")
        ∧ config.queueBackend = .rabbitmq
        ∧ before.Step ⟨config, .initSchema draw, .unit⟩ db

/-- The facts about dispatch identities hold in every reachable database. -/
theorem regular_start {clock : Int} {events : List Event} {db : Db}
    (run : Run Db.Step (Db.empty clock) events db)
    : (start db).Regular := by
  have kept : db.Consistent ∧ db.Dispatches :=
    run.invariant (I := fun db => db.Consistent ∧ db.Dispatches)
      (fun _ _ _ kept step => ⟨step.consistent kept.1, step.dispatches kept.1 kept.2⟩)
      ⟨.empty clock, .empty clock⟩
  exact ⟨kept.1, kept.2, by simp [start]⟩

theorem Adopted.sound {db : Db} (adopted : Adopted db)
    : (start db).Sound (fun row => row.status.active) := by
  obtain ⟨clock, rfl | ⟨past, before, config, draw, run, undispatched, rabbit, step⟩⟩ := adopted
  · exact ⟨regular_start (.nil _), by simp [start, Db.empty]⟩
  · have regular := regular_start (run.snoc step)
    refine ⟨regular, ?_⟩
    intro next member active
    have consistent := (regular_start run).consistent
    rcases step.active_origin consistent rabbit member active
      with ⟨⟨entry, listed, id, job, waits⟩, _⟩ | ⟨row, stored, _, same, _⟩
    · exact .inl ⟨entry, listed, id, job, waits, by simp [start]⟩
    · simp only [Db.Step, Db.exec, Db.initSchema, rabbit] at step
      obtain ⟨seeded, done, equal⟩ := Option.map_eq_some_iff.mp step
      cases equal
      exact absurd (same.trans (undispatched row stored))
        (Db.seed_dispatched done member active)

/-- No job is lost in RabbitMQ mode: over every interleaving each queued or running job has
its current dispatch in the outbox or in the broker.
-/
theorem no_job_lost {db : Db} {s : System} {labels : List Delivering} (adopted : Adopted db)
    (run : Run Step (start db) labels s)
    : ∀ row ∈ s.db.jobs,
        row.status = .queued ∨ row.status = .running → s.Dispatched row := by
  intro row member waiting
  have sound := sound_run run needy_active adopted.sound
  refine (sound.covered row member ?_).dispatched
  rcases waiting with status | status <;> simp [status, Status.active]

/-- One job is submitted, published and delivered to a consumer, whose connection closes after
it was told to start.
-/
def interruptOnce : List Delivering :=
  let config := Config.onePool .rabbitmq
  let jobId := (Uuid.nth 0).text
  let messageId := (Uuid.nth 1).text
  let request : BeginRequest := ⟨"gpu", "slot", jobId, messageId, "delivery"⟩
  [.store config (.createJob (.wav "request") (.nth 0) 0),
    .store config (.markQueued jobId (.nth 1) 0 0), .publish messageId 0,
    .commit config messageId 0, .store config (.reportAvailability "gpu" "slot" true 0),
    .store config (.lockScheduler (.register "gpu" "slot") 0),
    .store config (.brokerAdmit "gpu" "slot" 0), .store config (.registerConsumer "gpu" "slot" 0),
    .connect 0 "gpu" "slot", .deliver 0 0, .begin 0 "delivery",
    .store config (.lockScheduler (.begin request) 0),
    .store config (.brokerJob request 0), .store config (.brokerCapacity request 0),
    .store config (.brokerStart request (.nth 2) 0),
    .receive 0 (.begun .started (some (leaseToken "gpu" (.nth 2)))), .close 0]

/-- The message of the interrupted attempt is back in its queue. -/
theorem no_job_lost_interrupted
    : let s := ((start (Db.empty 0)).play interruptOnce).2
      s.db.jobs.map JobRecord.status = [.running]
        ∧ s.ready.map Message.messageId = [(Uuid.nth 1).text]
        ∧ ∀ row ∈ s.db.jobs,
            row.status = .queued ∨ row.status = .running → s.Dispatched row :=
  ⟨by decide +kernel, by decide +kernel,
    no_job_lost ⟨0, .inl rfl⟩ (play_run (start (Db.empty 0)) interruptOnce)⟩

end System

end Transcriber
