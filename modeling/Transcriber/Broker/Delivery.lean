import Mathlib.Logic.Function.Basic
import Transcriber.Store.Dispatch

/-! RabbitMQ mode: the store with its outbox publisher, the broker's queues and the consumers
of `consume_slot`. Connections, replies and confirmations may be lost at any step.
-/

namespace Transcriber

open Execution

-----------------------------------------------------------------------------------------
-- Messages
-----------------------------------------------------------------------------------------

/-- The JSON object of a message body: version 1 with two canonical UUIDs. -/
structure Envelope where
  jobId : String
  messageId : String
  deriving DecidableEq, Repr

/-- A message with its parsed body, if that is an envelope. -/
structure Message where
  body : Option Envelope
  messageId : String
  deriving DecidableEq, Repr

/-- `delivery`: the task of a well-formed message. -/
def delivery (message : Message) : Option Envelope :=
  message.body.filter (fun value => value.messageId = message.messageId)

/-- What `Publisher.publish` sends for an outbox row. -/
def OutboxRow.message (entry : OutboxRow) : Message :=
  ⟨some ⟨entry.jobId, entry.messageId⟩, entry.messageId⟩

theorem OutboxRow.delivery_message (entry : OutboxRow)
    : delivery entry.message = some ⟨entry.jobId, entry.messageId⟩ := by
  simp [delivery, OutboxRow.message]

-----------------------------------------------------------------------------------------
-- Consumers
-----------------------------------------------------------------------------------------

/-- A reply of the API to a worker: of `BeginAttempt` with the lease token of a started attempt,
or of `Complete` and `Fail`.
-/
inductive Answer
  | begun (disposition : Disposition) (leaseToken : Option String)
  | ended (accepted : Bool)
  deriving DecidableEq, Repr

/-- How far `consume_slot` has come with a delivery; `delayed` after the confirmed delayed copy
of a busy one.
-/
inductive DeliveryPhase
  | incoming
  | calling (deliveryId : String)
  | processing (leaseToken : String)
  | settled
  | busy
  | delayed
  deriving DecidableEq, Repr

/-- An unacknowledged delivery with the answers to its calls. -/
structure Unacked where
  message : Message
  phase : DeliveryPhase
  answers : List Answer
  deriving DecidableEq, Repr

/-- One consumer, with prefetch one. -/
structure Consumer where
  workerId : String
  instanceId : String
  unacked : Option Unacked
  deriving DecidableEq, Repr

/-- What a step of the store answers to `BeginAttempt`. -/
def beginAnswer (request : BeginRequest) (event : Event) : Option Answer :=
  match event.op, event.reply with
  | .brokerJob asked _, .attempt disposition claimed
  | .brokerCapacity asked _, .attempt disposition claimed
  | .brokerStart asked _ _, .attempt disposition claimed =>
      if asked = request then
        some (.begun disposition (claimed.map ClaimedJob.leaseOwner))
      else
        none
  | _, _ => none

/-- What a step of the store answers to `Complete` or `Fail`. -/
def endAnswer (jobId token : String) (event : Event) : Option Answer :=
  match event.op, event.reply with
  | .completeJob target owner _ _ _ _, .rows count | .failJob target owner _ _ _ _ _, .rows count =>
      if target = jobId ∧ owner = token then some (.ended (count ≠ 0)) else none
  | _, _ => none

/-- The answer of a step to the call that the delivery waits for. -/
def Unacked.answer (unacked : Unacked) (workerId instanceId : String) (event : Event)
    : Option Answer :=
  match delivery unacked.message, unacked.phase with
  | some task, .calling deliveryId =>
      beginAnswer ⟨workerId, instanceId, task.jobId, task.messageId, deliveryId⟩ event
  | some task, .processing token => endAnswer task.jobId token event
  | _, _ => none

/-- The delivery after a step of the store; any answer may still be lost or late. -/
def Unacked.hear (unacked : Unacked) (workerId instanceId : String) (event : Event) : Unacked where
  message := unacked.message
  phase := unacked.phase
  answers := unacked.answers ++ (unacked.answer workerId instanceId event).toList

def Consumer.hear (event : Event) (consumer : Consumer) : Consumer where
  workerId := consumer.workerId
  instanceId := consumer.instanceId
  unacked :=
    consumer.unacked.map
      (fun unacked => unacked.hear consumer.workerId consumer.instanceId event)

/-- `_process_delivery` with one answer; every other end closes the connection. -/
def Unacked.receive (unacked : Unacked) (answer : Answer) : Option DeliveryPhase :=
  match unacked.phase, answer with
  | .calling _, .begun .discard _ => some .settled
  | .calling _, .begun .busy _ => some .busy
  | .calling _, .begun .started (some token) => some (.processing token)
  | .processing _, .ended true => some .settled
  | _, _ => none

-----------------------------------------------------------------------------------------
-- The system
-----------------------------------------------------------------------------------------

/-- The store, the queues, the publications that are confirmed but not committed, and the
consumers.
-/
structure System where
  db : Db
  ready : List Message
  retry : List Message
  dead : List Message
  confirmed : List String
  consumers : Nat → Option Consumer

/-- A step of the publisher, of the broker, of a consumer, or of anybody on the store. -/
inductive Delivering
  | store (config : Config) (op : Op)
  | publish (messageId : String) (clock : Int)
  | commit (config : Config) (messageId : String) (now : Int)
  | crash (messageId : String)
  | connect (c : Nat) (workerId instanceId : String)
  | deliver (c index : Nat)
  | reject (c : Nat)
  | begin (c : Nat) (deliveryId : String)
  | receive (c : Nat) (answer : Answer)
  | delay (c : Nat)
  | ack (c : Nat)
  | close (c : Nat)
  | deadLetter (index : Nat) (again : Bool)

namespace System

def setConsumer (s : System) (c : Nat) (consumer : Option Consumer) : System :=
  { s with consumers := Function.update s.consumers c consumer }

/-- The consumer with another delivery. -/
def setUnacked (s : System) (c : Nat) (consumer : Consumer) (unacked : Option Unacked) : System :=
  s.setConsumer c (some { consumer with unacked })

/-- A step of a consumer with its delivery. -/
def onDelivery (s : System) (c : Nat) (step : Consumer → Unacked → Option System)
    : Option System :=
  (s.consumers c).bind (fun consumer => consumer.unacked.bind (step consumer))

/-- The commit of `publish_next` belongs to the publisher. -/
def isPublished : Op → Bool
  | .outboxPublished .. => true
  | _ => false

/-- A committed step of the store in RabbitMQ mode, with its answers. -/
def store (s : System) (config : Config) (op : Op) : Option System :=
  if config.queueBackend ≠ .rabbitmq || isPublished op then
    none
  else
    (s.db.exec config op).map (fun done =>
      { s with
        db := done.1
        consumers := fun c => (s.consumers c).map (Consumer.hear ⟨config, op, done.2⟩) })

/-- `publish_next` up to the confirm, on a row that no other publisher has locked. -/
def publish (s : System) (messageId : String) (clock : Int) : Option System :=
  if s.confirmed.contains messageId then
    none
  else
    (s.db.outbox.find? (fun entry =>
      entry.messageId = messageId && entry.publishedAt.isNone && entry.availableAt ≤ clock)).map
        (fun entry =>
          { s with
            ready := s.ready ++ [entry.message]
            confirmed := messageId :: s.confirmed })

/-- The commit of `publish_next`. -/
def commit (s : System) (config : Config) (messageId : String) (now : Int) : Option System :=
  if s.confirmed.contains messageId then
    (s.db.exec config (.outboxPublished messageId now)).map (fun done =>
      { s with db := done.1, confirmed := s.confirmed.filter (fun id => id ≠ messageId) })
  else
    none

/-- A delivery to an idle consumer. -/
def deliver (s : System) (c index : Nat) : Option System :=
  (s.consumers c).bind (fun consumer =>
    if consumer.unacked.isSome then
      none
    else
      (s.ready[index]?).map (fun message =>
        { s with ready := s.ready.eraseIdx index }.setUnacked c consumer
          (some ⟨message, .incoming, []⟩)))

/-- `message.reject(requeue=False)` -/
def reject (s : System) (c : Nat) : Option System :=
  s.onDelivery c (fun consumer unacked =>
    if unacked.phase = .incoming ∧ delivery unacked.message = none then
      some ({ s with dead := s.dead ++ [unacked.message] }.setUnacked c consumer none)
    else
      none)

def begin (s : System) (c : Nat) (deliveryId : String) : Option System :=
  s.onDelivery c (fun consumer unacked =>
    if unacked.phase = .incoming ∧ delivery unacked.message ≠ none then
      some (s.setUnacked c consumer (some ⟨unacked.message, .calling deliveryId, []⟩))
    else
      none)

def receive (s : System) (c : Nat) (answer : Answer) : Option System :=
  s.onDelivery c (fun consumer unacked =>
    if unacked.answers.contains answer then
      (unacked.receive answer).map (fun phase =>
        s.setUnacked c consumer (some ⟨unacked.message, phase, []⟩))
    else
      none)

/-- The confirmed delayed copy of a busy delivery. -/
def delay (s : System) (c : Nat) : Option System :=
  s.onDelivery c (fun consumer unacked =>
    if unacked.phase = .busy then
      some ({ s with retry := s.retry ++ [unacked.message] }.setUnacked c consumer
        (some { unacked with phase := .delayed }))
    else
      none)

/-- `message.ack()` -/
def ack (s : System) (c : Nat) : Option System :=
  s.onDelivery c (fun consumer unacked =>
    if unacked.phase = .settled ∨ unacked.phase = .delayed then
      some (s.setUnacked c consumer none)
    else
      none)

/-- A connection that closes or is lost; the broker requeues what was not acknowledged. -/
def close (s : System) (c : Nat) : Option System :=
  (s.consumers c).map (fun consumer =>
    { s with ready := s.ready ++ consumer.unacked.toList.map Unacked.message }.setConsumer c none)

/-- The TTL of the retry queue, which dead-letters at least once. -/
def deadLetter (s : System) (index : Nat) (again : Bool) : Option System :=
  (s.retry[index]?).map (fun message =>
    { s with
      ready := s.ready ++ [message]
      retry := if again then s.retry else s.retry.eraseIdx index })

def next (s : System) : Delivering → Option System
  | .store config op => s.store config op
  | .publish messageId clock => s.publish messageId clock
  | .commit config messageId now => s.commit config messageId now
  | .crash messageId =>
      some { s with confirmed := s.confirmed.filter (fun id => id ≠ messageId) }
  | .connect c workerId instanceId =>
      if (s.consumers c).isSome then
        none
      else
        some (s.setConsumer c (some ⟨workerId, instanceId, none⟩))
  | .deliver c index => s.deliver c index
  | .reject c => s.reject c
  | .begin c deliveryId => s.begin c deliveryId
  | .receive c answer => s.receive c answer
  | .delay c => s.delay c
  | .ack c => s.ack c
  | .close c => s.close c
  | .deadLetter index again => s.deadLetter index again

def Step (s : System) (label : Delivering) (t : System) : Prop := s.next label = some t

/-- The label and the state after it. -/
def perform (s : System) (label : Delivering) : Option (Delivering × System) :=
  (s.next label).map (Prod.mk label)

/-- Labels one after another, without those that the state does not admit. -/
def play (s : System) (labels : List Delivering) : List Delivering × System :=
  Execution.play perform (fun _ _ _ => true) [] s labels

theorem play_run (s : System) (labels : List Delivering)
    : Run Step s (s.play labels).1 (s.play labels).2 := by
  have sound (s : System) (call label : Delivering) (t : System)
      (done : s.perform call = some (label, t))
      : s.Step label t := by
    obtain ⟨next, taken, same⟩ := Option.map_eq_some_iff.mp done
    cases same
    exact taken
  exact (Execution.play_run sound (.nil s) labels).run (fun _ _ _ _ _ step => step)

/-- The store with empty queues and nobody connected. -/
def start (db : Db) : System := ⟨db, [], [], [], [], fun _ => none⟩

/-- The message is ready, delayed, or delivered and unacknowledged. -/
def Present (s : System) (message : Message) : Prop :=
  message ∈ s.ready
  ∨ message ∈ s.retry
  ∨ ∃ c consumer unacked,
      s.consumers c = some consumer
      ∧ consumer.unacked = some unacked
      ∧ unacked.message = message

/-- The job can be started again: its current dispatch waits in the outbox or in the broker. -/
def Dispatched (s : System) (row : JobRecord) : Prop :=
  s.db.Announced row
  ∨ ∃ message, s.Present message ∧ delivery message = some ⟨row.jobId, row.dispatchId⟩

end System

end Transcriber
