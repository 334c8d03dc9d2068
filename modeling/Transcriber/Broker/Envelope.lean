import Transcriber.Broker.Delivery
import Transcriber.Library.UuidText

/-! The bytes of a task envelope: what `delivery` reads of any message, what the publisher and
the delayed copies send, and where `consume_slot` leaves a message.
-/

namespace Transcriber

namespace Wire

open Execution Json UuidText

-----------------------------------------------------------------------------------------
-- Reading an envelope
-----------------------------------------------------------------------------------------

/-- A message of the broker, which may come without an id. -/
structure Message where
  body : List UInt8
  messageId : Option Text
  deriving DecidableEq, Repr

/-- The dictionary that `delivery` returns. -/
structure Task where
  version : Int
  jobId : Text
  messageId : Text
  deriving DecidableEq, Repr

inductive Raised
  | valueError
  | typeError
  | keyError
  | attributeError
  | recursionError
  deriving DecidableEq, Repr

/-- The recursion limit of the interpreter. What it leaves `json.loads`, less the frames that are on
the stack by then, is the `limit` on arrays and objects in one another.
-/
def recursionLimit : Nat := 1000

def fields : List Text := [text "version", text "job_id", text "message_id"]

def isHashable : Value → Bool
  | .list _ | .dict _ => false
  | _ => true

/-- The elements of `set(value)`, with none for those that are no strings. -/
def elements : Value → Except Raised (List (Option Text))
  | .dict members => .ok (members.map (fun entry => some entry.1))
  | .str s => .ok (s.map (fun c => some [c]))
  | .list items =>
      if items.all isHashable then
        .ok (items.map (fun item => match item with
          | .str s => some s
          | _ => none))
      else
        .error .typeError
  | _ => .error .typeError

/-- `set(value) == {"version", "job_id", "message_id"}` -/
def sameKeys (keys : List (Option Text)) : Bool :=
  keys.all (fun key => (fields.map some).contains key)
  && fields.all (fun name => keys.contains (some name))

/-- `value[name]` -/
def index (value : Value) (name : Text) : Except Raised Value :=
  match value with
  | .dict members =>
      match lookup members name with
      | some value => .ok value
      | none => .error .keyError
  | _ => .error .typeError

/-- The version, which must be the integer 1. -/
def version : Value → Except Raised Int
  | .int n => if n = 1 then .ok n else .error .valueError
  | _ => .error .valueError

/-- `str(uuid.UUID(id)) == id`; null is no argument of `UUID`, and all but strings have no
`replace`.
-/
def identifier : Value → Except Raised Text
  | .str s => if (parse s).map format = some s then .ok s else .error .valueError
  | .null => .error .typeError
  | _ => .error .attributeError

/-- The version and both ids of the decoded value. -/
def contents (value : Value) : Except Raised Task := do
  let one ← index value (text "version") >>= version
  let jobId ← index value (text "job_id") >>= identifier
  let messageId ← index value (text "message_id") >>= identifier
  return ⟨one, jobId, messageId⟩

/-- The checks of `delivery` on the decoded value. -/
def task (value : Value) : Except Raised Task := do
  let keys ← elements value
  if sameKeys keys then contents value else .error .valueError

def load (limit : Nat) (body : List UInt8) : Except Raised Value :=
  match loads limit body with
  | .ok value => .ok value
  | .error .decode => .error .valueError
  | .error .recursion => .error .recursionError

/-- The body of the `try` of `delivery`. -/
def read (limit : Nat) (body : List UInt8) (messageId : Option Text) : Except Raised Task :=
  if 1024 < body.length then
    .error .valueError
  else do
    let found ← load limit body >>= task
    if messageId = some found.messageId then .ok found else .error .valueError

/-- `except (ValueError, TypeError, KeyError, AttributeError)` -/
def caught : Raised → Bool
  | .recursionError => false
  | _ => true

def delivery (limit : Nat) (body : List UInt8) (messageId : Option Text) : Except Raised Task :=
  match read limit body messageId with
  | .ok found => .ok found
  | .error raised => .error (if caught raised then .valueError else raised)

-----------------------------------------------------------------------------------------
-- Sending one, and the ends of a delivery
-----------------------------------------------------------------------------------------

/-- The members of a published envelope. -/
def entries (jobId messageId : Text) : List (Text × Scalar) :=
  [
    (text "version", .int 1),
    (text "job_id", .str jobId),
    (text "message_id", .str messageId)
  ]

/-- What `Publisher._publish` sends. -/
def publish (jobId messageId : Text) : Option Message :=
  (dumps (entries jobId messageId)).map (fun written => ⟨encode written, some messageId⟩)

/-- How the work on a task ends: with a disposition, or in any other way (another value, an
exception, a lost connection, the stop of the worker).
-/
inductive Work
  | busy
  | settled
  | lost
  deriving DecidableEq, Repr

/-- What becomes of a message: `returned` where the connection closes without an answer, `died`
where an exception of `delivery` ends `consume_slot`, which closes the connection too.
-/
inductive Ending
  | deadLettered
  | delayed (copy : Message)
  | acknowledged
  | returned
  | died (raised : Raised)
  deriving DecidableEq, Repr

/-- The loop of `consume_slot` from its call of `delivery`. -/
def consume (limit : Nat) (message : Message) (work : Work) : Ending :=
  match delivery limit message.body message.messageId with
  | .error .valueError => .deadLettered
  | .error raised => .died raised
  | .ok _ =>
      match work with
      | .busy => .delayed ⟨message.body, message.messageId⟩
      | .settled => .acknowledged
      | .lost => .returned

/-- The queues of the topology; none of them limits the deliveries of a message. -/
structure Queues where
  ready : List Message
  retry : List Message
  dead : List Message
  deriving DecidableEq, Repr

/-- A publication, a message of anybody else, a delivery to a consumer, or the end of a delay.
-/
inductive Action
  | publish (jobId messageId : Text)
  | send (message : Message)
  | consume (index : Nat) (work : Work)
  | expire (index : Nat)

namespace Queues

/-- The queues after a delivery; a message without an answer goes back. -/
def settle (queues : Queues) (message : Message) (index : Nat) : Ending → Queues
  | .deadLettered =>
      { queues with ready := queues.ready.eraseIdx index, dead := queues.dead ++ [message] }
  | .delayed copy =>
      { queues with ready := queues.ready.eraseIdx index, retry := queues.retry ++ [copy] }
  | .acknowledged => { queues with ready := queues.ready.eraseIdx index }
  | .returned | .died _ => queues

def next (limit : Nat) (queues : Queues) : Action → Option Queues
  | .publish jobId messageId =>
      (Wire.publish jobId messageId).map (fun message =>
        { queues with ready := queues.ready ++ [message] })
  | .send message => some { queues with ready := queues.ready ++ [message] }
  | .consume index work =>
      (queues.ready[index]?).map (fun message =>
        queues.settle message index (Wire.consume limit message work))
  | .expire index =>
      (queues.retry[index]?).map (fun message =>
        { queues with
          ready := queues.ready ++ [message]
          retry := queues.retry.eraseIdx index })

def Step (limit : Nat) (queues : Queues) (action : Action) (after : Queues) : Prop :=
  queues.next limit action = some after

def empty : Queues := ⟨[], [], []⟩

end Queues

-----------------------------------------------------------------------------------------
-- The grammar
-----------------------------------------------------------------------------------------

/-- The members of an object with exactly the three keys, which hold the task. -/
structure Holds (members : List (Text × Value)) (task : Task) : Prop where
  keys : ∀ name, name ∈ members.map Prod.fst ↔ name ∈ fields
  version : lookup members (text "version") = some (.int 1)
  one : task.version = 1
  jobId : lookup members (text "job_id") = some (.str task.jobId)
  messageId : lookup members (text "message_id") = some (.str task.messageId)
  canonicalJob : Canonical task.jobId
  canonicalMessage : Canonical task.messageId

/-- The byte string is an envelope of the task, for a message with the id. -/
structure Envelope (body : List UInt8) (messageId : Option Text) (task : Task) : Prop where
  short : body.length ≤ 1024
  object : ∃ members, decodes body = some (.dict members) ∧ Holds members task
  identity : messageId = some task.messageId

variable {limit : Nat} {body : List UInt8} {messageId : Option Text} {value : Value} {found : Task}

theorem identifier_str (s : Text)
    : identifier (.str s)
      = if (parse s).map format = some s then .ok s else .error .valueError :=
  rfl

/-- Only canonical UUIDs are identifiers. -/
theorem identifier_iff {s : Text} : identifier value = .ok s ↔ value = .str s ∧ Canonical s := by
  cases value with
  | str given =>
      rw [identifier_str, Value.str.injEq]
      split
      · rename_i same
        have canonical := format_parse_iff.mp same
        rw [Except.ok.injEq]
        exact ⟨fun same => ⟨same, same ▸ canonical⟩, And.left⟩
      · rename_i other
        exact ⟨fun raised => (by cases raised), fun same =>
          absurd (format_parse_iff.mpr (same.1.symm ▸ same.2)) other⟩
  | null | bool | int | float | list | dict => simp [identifier]

theorem identifier_error {raised : Raised} (failed : identifier value = .error raised)
    : caught raised = true := by
  cases value with
  | str given =>
      rw [identifier_str] at failed
      split at failed
      · cases failed
      · cases failed
        rfl
  | null | bool | int | float | list | dict => cases failed; rfl

theorem version_int (n : Int)
    : version (.int n) = if n = 1 then .ok n else .error .valueError :=
  rfl

theorem version_iff {n : Int} : version value = .ok n ↔ value = .int 1 ∧ n = 1 := by
  cases value with
  | int given =>
      rw [version_int, Value.int.injEq]
      split
      · rename_i one
        rw [Except.ok.injEq, one]
        exact ⟨fun same => ⟨rfl, same.symm⟩, fun same => same.2.symm⟩
      · rename_i other
        exact ⟨fun raised => (by cases raised), fun same => absurd same.1 other⟩
  | null | bool | str | float | list | dict => simp [version]

theorem version_error {raised : Raised} (failed : version value = .error raised)
    : raised = .valueError := by
  cases value with
  | int given =>
      rw [version_int] at failed
      split at failed
      · cases failed
      · cases failed
        rfl
  | null | bool | str | float | list | dict => cases failed; rfl

theorem index_iff {name : Text} {found : Value}
    : index value name = .ok found
      ↔ ∃ members, value = .dict members ∧ lookup members name = some found := by
  cases value with
  | dict members =>
      cases known : lookup members name with
      | none => simp [index, known]
      | some entry => simp [index, known]
  | null | bool | int | float | str | list => simp [index]

theorem index_error {name : Text} {raised : Raised} (failed : index value name = .error raised)
    : caught raised = true := by
  cases value with
  | dict members =>
      cases known : lookup members name with
      | none =>
          simp only [index, known, Except.error.injEq] at failed
          rw [← failed]
          rfl
      | some entry => simp [index, known] at failed
  | null | bool | int | float | str | list => cases failed; rfl

theorem elements_error {raised : Raised} (failed : elements value = .error raised)
    : raised = .typeError := by
  cases value with
  | list items =>
      unfold elements at failed
      by_cases hashable : items.all isHashable = true
      · simp [hashable] at failed
      · simpa [hashable] using failed.symm
  | null | bool | int | float => cases failed; rfl
  | str | dict => cases failed

theorem bind_ok_iff {α β : Type} {first : Except Raised α} {second : α → Except Raised β}
    {result : β}
    : first >>= second = .ok result ↔ ∃ given, first = .ok given ∧ second given = .ok result := by
  cases first with
  | error raised => simp [bind, Except.bind]
  | ok given => simp [bind, Except.bind]

theorem bind_error {α β : Type} {first : Except Raised α} {second : α → Except Raised β}
    {raised : Raised} (failed : first >>= second = .error raised)
    : first = .error raised ∨ ∃ given, first = .ok given ∧ second given = .error raised := by
  cases first with
  | error other =>
      cases failed
      exact .inl rfl
  | ok given => exact .inr ⟨given, rfl, failed⟩

theorem sameKeys_iff {members : List (Text × Value)}
    : sameKeys (members.map (fun entry => some entry.1)) = true
      ↔ ∀ name, name ∈ members.map Prod.fst ↔ name ∈ fields := by
  simp only [sameKeys, Bool.and_eq_true, List.all_eq_true, List.contains_iff_mem, List.mem_map,
    forall_exists_index, and_imp, Option.some.injEq]
  constructor
  · intro same name
    constructor
    · intro listed
      obtain ⟨entry, member, named⟩ := listed
      obtain ⟨field, known, equal⟩ := same.1 (some entry.1) entry member rfl
      rw [← named, ← Option.some.inj equal]
      exact known
    · intro known
      exact same.2 name known
  · intro same
    refine ⟨?_, fun name known => (same name).mpr known⟩
    intro key entry member equal
    exact ⟨entry.1, (same entry.1).mp ⟨entry, member, rfl⟩, equal⟩

theorem contents_iff
    : contents value = .ok found
      ↔ ∃ members,
          value = .dict members
          ∧ lookup members (text "version") = some (.int 1)
          ∧ found.version = 1
          ∧ lookup members (text "job_id") = some (.str found.jobId)
          ∧ lookup members (text "message_id") = some (.str found.messageId)
          ∧ Canonical found.jobId
          ∧ Canonical found.messageId := by
  simp only [contents, bind_ok_iff, index_iff, version_iff, identifier_iff]
  constructor
  · intro read
    obtain ⟨one, ⟨_, ⟨members, rfl, known⟩, rfl, rfl⟩, jobId, ⟨_, ⟨_, same, job⟩, rfl, canonical⟩,
      messageId, ⟨_, ⟨_, again, message⟩, rfl, form⟩, result⟩ := read
    cases same
    cases again
    cases result
    exact ⟨members, rfl, known, rfl, job, message, canonical, form⟩
  · intro read
    obtain ⟨members, rfl, known, one, job, message, canonical, form⟩ := read
    refine ⟨1, ⟨_, ⟨members, rfl, known⟩, rfl, rfl⟩, found.jobId,
      ⟨_, ⟨members, rfl, job⟩, rfl, canonical⟩, found.messageId,
      ⟨_, ⟨members, rfl, message⟩, rfl, form⟩, ?_⟩
    cases found
    cases one
    rfl

/-- The checks accept exactly the objects that hold a task. -/
theorem task_iff
    : task value = .ok found ↔ ∃ members, value = .dict members ∧ Holds members found := by
  simp only [task, bind_ok_iff]
  constructor
  · intro read
    obtain ⟨keys, listed, checked⟩ := read
    split at checked
    · rename_i same
      obtain ⟨members, rfl, known, one, job, message, canonical, form⟩ :=
        contents_iff.mp checked
      cases listed
      exact ⟨members, rfl, sameKeys_iff.mp same, known, one, job, message, canonical, form⟩
    · cases checked
  · intro read
    obtain ⟨members, rfl, holds⟩ := read
    refine ⟨_, rfl, ?_⟩
    rw [if_pos (sameKeys_iff.mpr holds.keys)]
    exact contents_iff.mpr
      ⟨members, rfl, holds.version, holds.one, holds.jobId, holds.messageId,
        holds.canonicalJob, holds.canonicalMessage⟩

theorem contents_error {raised : Raised} (failed : contents value = .error raised)
    : caught raised = true := by
  have step {α : Type} {name : Text} {check : Value → Except Raised α}
      (checked : ∀ value, check value = .error raised → caught raised = true)
      (failed : index value name >>= check = .error raised)
      : caught raised = true := by
    rcases bind_error failed with missing | ⟨entry, _, refused⟩
    · exact index_error missing
    · exact checked entry refused
  rcases bind_error failed with wrong | ⟨one, _, left⟩
  · exact step (fun value refused => version_error refused ▸ rfl) wrong
  · rcases bind_error left with wrong | ⟨jobId, _, left⟩
    · exact step (fun value => identifier_error) wrong
    · rcases bind_error left with wrong | ⟨messageId, _, left⟩
      · exact step (fun value => identifier_error) wrong
      · cases left

/-- Every check of the value fails in an exception that `delivery` catches. -/
theorem task_error {raised : Raised} (failed : task value = .error raised)
    : caught raised = true := by
  rcases bind_error failed with wrong | ⟨keys, _, left⟩
  · rw [elements_error wrong]
    rfl
  · split at left
    · exact contents_error left
    · cases left
      rfl

-----------------------------------------------------------------------------------------
-- What `delivery` accepts
-----------------------------------------------------------------------------------------

theorem load_iff : load limit body = .ok value ↔ loads limit body = .ok value := by
  unfold load
  cases loads limit body with
  | ok found => simp
  | error error => cases error <;> simp

/-- Only a body that nests too deep raises a RecursionError. -/
theorem load_error {raised : Raised} (failed : load limit body = .error raised)
    : raised = .valueError ∧ nestingOf body ≤ limit
      ∨ raised = .recursionError ∧ limit < nestingOf body := by
  unfold load at failed
  rcases result : loads limit body with error | found
  · have overflow
        : loads limit body = .error .recursion ↔ limit < nestingOf body :=
      loads_recursion_iff
    rw [result] at failed overflow
    cases error with
    | decode =>
        cases failed
        exact .inl ⟨rfl, Nat.le_of_not_lt fun deeper => by cases overflow.mpr deeper⟩
    | recursion =>
        cases failed
        exact .inr ⟨rfl, overflow.mp rfl⟩
  · rw [result] at failed
    cases failed

theorem read_iff
    : read limit body messageId = .ok found
      ↔ body.length ≤ 1024
        ∧ (∃ value, loads limit body = .ok value ∧ task value = .ok found)
        ∧ messageId = some found.messageId := by
  unfold read
  by_cases long : 1024 < body.length
  · simp [long, Nat.not_le.mpr long]
  · rw [if_neg long, bind_ok_iff]
    simp only [bind_ok_iff, load_iff]
    constructor
    · intro accepted
      obtain ⟨task, decoded, identified⟩ := accepted
      split at identified
      · rename_i same
        cases identified
        exact ⟨Nat.le_of_not_lt long, decoded, same⟩
      · cases identified
    · intro accepted
      obtain ⟨_, decoded, same⟩ := accepted
      exact ⟨found, decoded, by rw [if_pos same]⟩

theorem read_error {raised : Raised} (failed : read limit body messageId = .error raised)
    : caught raised = true
      ∨ raised = .recursionError ∧ body.length ≤ 1024 ∧ limit < nestingOf body := by
  unfold read at failed
  split at failed
  · cases failed
    exact .inl rfl
  · rename_i short
    rcases bind_error failed with wrong | ⟨task, _, other⟩
    · rcases bind_error wrong with unread | ⟨value, _, refused⟩
      · rcases load_error unread with ⟨rfl, _⟩ | ⟨rfl, deeper⟩
        · exact .inl rfl
        · exact .inr ⟨rfl, Nat.le_of_not_lt short, deeper⟩
      · exact .inl (task_error refused)
    · split at other
      · cases other
      · cases other
        exact .inl rfl

theorem delivery_ok_iff
    : delivery limit body messageId = .ok found ↔ read limit body messageId = .ok found := by
  unfold delivery
  cases read limit body messageId with
  | ok task => simp
  | error raised => simp

/-- Whatever is accepted is an envelope of the task. -/
theorem envelope_of_delivery (accepted : delivery limit body messageId = .ok found)
    : Envelope body messageId found := by
  obtain ⟨short, ⟨value, loaded, checked⟩, identity⟩ := read_iff.mp (delivery_ok_iff.mp accepted)
  obtain ⟨members, rfl, holds⟩ := task_iff.mp checked
  exact ⟨short, ⟨members, (decodes_of_loads loaded).2, holds⟩, identity⟩

/-- An envelope that does not nest too deep is accepted. -/
theorem delivery_of_envelope (envelope : Envelope body messageId found)
    (within : nestingOf body ≤ limit)
    : delivery limit body messageId = .ok found := by
  obtain ⟨short, ⟨members, said, holds⟩, identity⟩ := envelope
  have loaded := loads_of_nesting within
  rw [said] at loaded
  exact delivery_ok_iff.mpr
    (read_iff.mpr ⟨short, ⟨_, loaded, task_iff.mpr ⟨members, rfl, holds⟩⟩, identity⟩)

/-- The only exceptions are ValueError, and RecursionError for a short body that nests too
deep.
-/
theorem delivery_error {raised : Raised} (failed : delivery limit body messageId = .error raised)
    : raised = .valueError
      ∨ raised = .recursionError ∧ body.length ≤ 1024 ∧ limit < nestingOf body := by
  unfold delivery at failed
  rcases result : read limit body messageId with inner | task
  · rw [result] at failed
    cases failed
    rcases read_error result with handled | ⟨rfl, deep⟩
    · exact .inl (if_pos handled)
    · exact .inr ⟨rfl, deep⟩
  · rw [result] at failed
    cases failed

theorem delivery_recursion (messageId : Option Text) (short : body.length ≤ 1024)
    (deep : limit < nestingOf body)
    : delivery limit body messageId = .error .recursionError := by
  have unread : load limit body = .error .recursionError := by
    rw [load, loads_recursion_iff.mpr deep]
  rw [delivery, read, if_neg (Nat.not_lt.mpr short), unread]
  rfl

/-- One message is treated as it should be: `delivery` returns a task for the envelopes alone, and
raises ValueError for all other messages, which `consume_slot` dead-letters.
-/
structure Exact (limit : Nat) (body : List UInt8) (messageId : Option Text) : Prop where
  accepts : ∀ task, delivery limit body messageId = .ok task ↔ Envelope body messageId task
  refuses :
    (∀ task, ¬Envelope body messageId task)
    → delivery limit body messageId = .error .valueError
      ∧ ∀ work, consume limit ⟨body, messageId⟩ work = .deadLettered

/-- A body that is longer than an envelope may be, or that does not nest too deep. -/
def Loadable (limit : Nat) (body : List UInt8) : Prop :=
  1024 < body.length ∨ nestingOf body ≤ limit

theorem exact_iff : Exact limit body messageId ↔ Loadable limit body := by
  constructor
  · intro exact
    by_contra deep
    obtain ⟨short, deeper⟩ := not_or.mp deep
    have raised := delivery_recursion messageId (Nat.le_of_not_lt short) (Nat.lt_of_not_le deeper)
    have foreign : ∀ task, ¬Envelope body messageId task := by
      intro task envelope
      have accepted := (exact.accepts task).mpr envelope
      rw [raised] at accepted
      cases accepted
    have refused := (exact.refuses foreign).1
    rw [raised] at refused
    cases refused
  · intro loadable
    have handled {raised : Raised} (failed : delivery limit body messageId = .error raised)
        : raised = .valueError := by
      rcases delivery_error failed with value | ⟨_, short, deep⟩
      · exact value
      · rcases loadable with long | within <;> omega
    constructor
    · intro task
      refine ⟨envelope_of_delivery, ?_⟩
      intro envelope
      rcases loadable with long | within
      · exact absurd envelope.short (Nat.not_le.mpr long)
      · exact delivery_of_envelope envelope within
    · intro foreign
      have refused : delivery limit body messageId = .error .valueError := by
        rcases result : delivery limit body messageId with raised | task
        · rw [handled result]
        · exact absurd (envelope_of_delivery result) (foreign task)
      refine ⟨refused, ?_⟩
      intro work
      simp only [consume, refused]

-----------------------------------------------------------------------------------------
-- What the broker's clients send
-----------------------------------------------------------------------------------------

variable {jobId : Text}

theorem dumpsInt_one : dumpsInt 1 = some [49] := by
  simp [dumpsInt, decimal, maxDigits]

theorem field_lengths
    : (text "version").length = 7 ∧ (text "job_id").length = 6
      ∧ (text "message_id").length = 10 := by
  decide +kernel

theorem fields_apart
    : text "version" ≠ text "job_id" ∧ text "version" ≠ text "message_id"
      ∧ text "job_id" ≠ text "message_id" := by
  decide +kernel

theorem fields_plain : ∀ name ∈ fields, Plain name := by
  decide +kernel

/-- A published body has 118 characters. -/
theorem dumps_entries {messageId : Text} (job : Canonical jobId) (message : Canonical messageId)
    : ∃ written, dumps (entries jobId messageId) = some written ∧ written.length = 118 := by
  obtain ⟨seven, six, ten⟩ := field_lengths
  have key := dumpsString_length (fields_plain (text "version") (by simp [fields]))
  have second := dumpsString_length (fields_plain (text "job_id") (by simp [fields]))
  have third := dumpsString_length (fields_plain (text "message_id") (by simp [fields]))
  have jobLength := dumpsString_length job.plain
  have messageLength := dumpsString_length message.plain
  rw [job.length] at jobLength
  rw [message.length] at messageLength
  simp only [dumps, entries, dumpsMembers, dumpsMember, Scalar.dumps, dumpsInt_one,
    Option.map_some, Option.bind_eq_bind, Option.bind_some, Option.pure_def]
  refine ⟨_, rfl, ?_⟩
  simp [key, second, third, jobLength, messageLength, seven, six, ten]

/-- A canonical envelope is what the object of its members holds. -/
theorem holds_entries {messageId : Text} (job : Canonical jobId) (message : Canonical messageId)
    : Holds ((entries jobId messageId).map (fun entry => (entry.1, entry.2.value)))
        ⟨1, jobId, messageId⟩ := by
  obtain ⟨first, second, ids⟩ := fields_apart
  constructor
  · intro name
    rfl
  · simp [lookup, entries, Scalar.value, first.symm, second.symm]
  · rfl
  · simp [lookup, entries, Scalar.value, ids.symm]
  · simp [lookup, entries, Scalar.value]
  · exact job
  · exact message

/-- What the publisher sends of canonical UUIDs is accepted, with the same ids. -/
theorem delivery_publish {messageId : Text} (roomy : 0 < limit) (job : Canonical jobId)
    (message : Canonical messageId)
    : ∃ sent,
        publish jobId messageId = some sent
        ∧ sent.messageId = some messageId
        ∧ delivery limit sent.body sent.messageId = .ok ⟨1, jobId, messageId⟩ := by
  obtain ⟨written, wrote, length⟩ := dumps_entries job message
  refine ⟨⟨encode written, some messageId⟩, by rw [publish, wrote]; rfl, rfl, ?_⟩
  have keys : ∀ entry ∈ entries jobId messageId, Plain entry.1 := by
    intro entry member
    apply fields_plain
    simp only [entries, List.mem_cons, List.not_mem_nil, or_false] at member
    rcases member with rfl | rfl | rfl <;> simp [fields]
  have plain : ∀ entry ∈ entries jobId messageId, entry.2.Plain := by
    intro entry member
    simp only [entries, List.mem_cons, List.not_mem_nil, or_false] at member
    rcases member with rfl | rfl | rfl
    · trivial
    · exact job.plain
    · exact message.plain
  have loaded :=
    loads_dumps (limit - 1) keys plain (List.cons_ne_nil _ _) wrote (show skip [] = [] from rfl)
      (by simp [Ascii])
  rw [List.append_nil, Nat.sub_add_cancel roomy] at loaded
  have short : (encode written).length ≤ 1024 := by
    rw [encode, List.length_map, length]
    omega
  exact delivery_ok_iff.mpr
    (read_iff.mpr
      ⟨short, ⟨_, loaded, task_iff.mpr ⟨_, rfl, holds_entries job message⟩⟩, rfl⟩)

/-- A delayed copy is accepted like the message it replaces. -/
theorem delivery_delayed {message copy : Message} {work : Work}
    (delayed : consume limit message work = .delayed copy)
    : copy = message
      ∧ ∃ task, delivery limit message.body message.messageId = .ok task := by
  unfold consume at delayed
  split at delayed
  · cases delayed
  · cases delayed
  · rename_i task accepted
    cases work with
    | busy =>
        cases delayed
        exact ⟨rfl, task, accepted⟩
    | settled => cases delayed
    | lost => cases delayed

-----------------------------------------------------------------------------------------
-- Runs of the queues
-----------------------------------------------------------------------------------------

/-- The publisher sends canonical UUIDs, and nobody a short body that nests too deep. -/
def Admitted (limit : Nat) : Action → Prop
  | .publish jobId messageId => Canonical jobId ∧ Canonical messageId
  | .send message => Loadable limit message.body
  | .consume .. | .expire _ => True

theorem loadable_of_delivery {message : Message} {task : Task}
    (accepted : delivery limit message.body message.messageId = .ok task)
    : Loadable limit message.body := by
  obtain ⟨_, ⟨value, loaded, _⟩, _⟩ := read_iff.mp (delivery_ok_iff.mp accepted)
  exact .inr (decodes_of_loads loaded).1

namespace Queues

/-- All messages that may still be delivered can be loaded, and the delayed ones are accepted.
-/
structure Sound (limit : Nat) (queues : Queues) : Prop where
  ready : ∀ message ∈ queues.ready, Loadable limit message.body
  retry
    : ∀ message ∈ queues.retry, ∃ task, delivery limit message.body message.messageId = .ok task

theorem Sound.step {queues after : Queues} {action : Action} (roomy : 0 < limit)
    (sound : queues.Sound limit) (admitted : Admitted limit action)
    (step : Step limit queues action after)
    : after.Sound limit := by
  obtain ⟨ready, retry⟩ := sound
  have send {message : Message} (loadable : Loadable limit message.body)
      : ∀ other ∈ queues.ready ++ [message], Loadable limit other.body := by
    intro other member
    rcases List.mem_append.mp member with before | last
    · exact ready other before
    · rw [List.mem_singleton.mp last]
      exact loadable
  cases action with
  | publish jobId messageId =>
      obtain ⟨sent, published, _, accepted⟩ := delivery_publish roomy admitted.1 admitted.2
      have same : some { queues with ready := queues.ready ++ [sent] } = some after := by
        rw [← step, Queues.next, published]
        rfl
      cases same
      exact ⟨send (loadable_of_delivery accepted), retry⟩
  | send message =>
      cases step
      exact ⟨send admitted, retry⟩
  | consume index work =>
      obtain ⟨message, found, settled⟩ := Option.map_eq_some_iff.mp step
      have erased : ∀ other ∈ queues.ready.eraseIdx index, Loadable limit other.body :=
        fun other member => ready other (List.mem_of_mem_eraseIdx member)
      cases ending : consume limit message work with
      | deadLettered | acknowledged =>
          rw [ending] at settled
          cases settled
          exact ⟨erased, retry⟩
      | delayed copy =>
          rw [ending] at settled
          cases settled
          obtain ⟨rfl, accepted⟩ := delivery_delayed ending
          refine ⟨erased, ?_⟩
          intro other member
          rcases List.mem_append.mp member with before | last
          · exact retry other before
          · rw [List.mem_singleton.mp last]
            exact accepted
      | returned | died raised =>
          rw [ending] at settled
          cases settled
          exact ⟨ready, retry⟩
  | expire index =>
      obtain ⟨message, found, same⟩ := Option.map_eq_some_iff.mp step
      have delayed := List.mem_of_getElem? found
      obtain ⟨task, accepted⟩ := retry message delayed
      cases same
      refine ⟨send (loadable_of_delivery accepted), ?_⟩
      intro other member
      exact retry other (List.mem_of_mem_eraseIdx member)

/-- The invariant holds after every admitted run. -/
theorem Sound.run {actions : List Action} {queues : Queues} (roomy : 0 < limit)
    (run : Run (Step limit) empty actions queues)
    (admitted : ∀ action ∈ actions, Admitted limit action)
    : queues.Sound limit := by
  refine (run.restrict admitted).invariant (fun before action after sound step => ?_) ?_
  · exact sound.step roomy step.2 step.1
  · exact ⟨by simp [empty], by simp [empty]⟩

end Queues

-----------------------------------------------------------------------------------------
-- The messages of the delivery model
-----------------------------------------------------------------------------------------

/-- The string of code points; a lone surrogate, which no id has, becomes another character. -/
def string (s : Text) : String := String.ofList (s.map Char.ofNat)

/-- The task with its ids as strings. -/
def Task.model (task : Task) : Transcriber.Envelope where
  jobId := string task.jobId
  messageId := string task.messageId

/-- The message with its parsed body; a missing id is no id of an envelope. -/
def Message.model (message : Message) : Transcriber.Message where
  body :=
    if 1024 < message.body.length then
      none
    else
      (decodes message.body).bind (fun value => match task value with
        | .ok task => some task.model
        | .error _ => none)
  messageId := (message.messageId.map string).getD ""

theorem toNat_char {n : Nat} (valid : n.isValidChar) : (Char.ofNat n).toNat = n := by
  rw [Char.ofNat, dif_pos valid]
  rfl

/-- No other code point becomes a character of a UUID. -/
theorem char_injective {c d : Nat} (positive : 0 < c) (small : c < 128)
    (same : Char.ofNat c = Char.ofNat d)
    : c = d := by
  have valid : c.isValidChar := .inl (by omega)
  have code := toNat_char valid
  rw [same] at code
  by_cases other : d.isValidChar
  · rw [toNat_char other] at code
    exact code.symm
  · rw [Char.ofNat, dif_neg other] at code
    exact absurd code (Nat.ne_of_lt positive)

theorem string_injective {s t : Text} (canonical : Canonical s) (same : string s = string t)
    : s = t := by
  have chars := String.ofList_injective same
  have ascii := canonical.plain.ascii
  clear same canonical
  induction s generalizing t with
  | nil =>
      cases t with
      | nil => rfl
      | cons d rest => cases chars
  | cons c before ih =>
      cases t with
      | nil => cases chars
      | cons d rest =>
          simp only [List.map_cons, List.cons.injEq] at chars
          obtain ⟨positive, small⟩ := ascii c List.mem_cons_self
          rw [char_injective positive small chars.1,
            ih chars.2 (fun e member => ascii e (List.mem_cons_of_mem _ member))]

theorem string_ne_empty {s : Text} (canonical : Canonical s) : string s ≠ "" := by
  intro none
  have same := string_injective (t := []) canonical none
  have long := canonical.length
  rw [same] at long
  cases long

/-- The strings of two ids are the same only where the ids are. -/
theorem identity_model {messageId : Option Text} {id : Text} (canonical : Canonical id)
    : string id = (messageId.map string).getD "" ↔ messageId = some id := by
  cases messageId with
  | none => simpa using string_ne_empty canonical
  | some other =>
      rw [Option.map_some, Option.getD_some, Option.some.injEq]
      constructor
      · intro same
        exact (string_injective canonical same).symm
      · intro same
        rw [same]

/-- The delivery model reads a loadable message as `delivery` does. -/
theorem delivery_model {message : Message} (loadable : Loadable limit message.body)
    : Transcriber.delivery message.model
      = match delivery limit message.body message.messageId with
        | .ok task => some task.model
        | .error _ => none := by
  obtain ⟨body, messageId⟩ := message
  unfold Transcriber.delivery Message.model
  by_cases long : 1024 < body.length
  · simp [long, delivery, read]
  · have loaded := loads_of_nesting (loadable.resolve_left long)
    cases said : decodes body with
    | none => simp [long, said, loaded, delivery, read, load, bind, Except.bind]
    | some value =>
        cases checked : task value with
        | error raised =>
            simp [long, said, loaded, checked, delivery, read, load, bind, Except.bind]
        | ok found =>
            obtain ⟨_, _, holds⟩ := task_iff.mp checked
            have identity
                : string found.messageId = (messageId.map string).getD ""
                  ↔ messageId = some found.messageId :=
              identity_model holds.canonicalMessage
            simp only [long, said, loaded, checked, delivery, read, load, bind, Except.bind,
              if_false, Option.bind_some]
            by_cases same : messageId = some found.messageId
            · have equal := identity.mpr same
              rw [if_pos same]
              exact Option.filter_some_pos (decide_eq_true equal)
            · have other := identity.not.mpr same
              rw [if_neg same]
              exact Option.filter_some_neg (decide_eq_false other)

/-- A loadable message is rejected exactly where the delivery model lets `reject` take it. -/
theorem deadLettered_iff {message : Message} {work : Work} (loadable : Loadable limit message.body)
    : consume limit message work = .deadLettered ↔ Transcriber.delivery message.model = none := by
  rw [delivery_model loadable]
  unfold consume
  cases result : delivery limit message.body message.messageId with
  | ok found => cases work <;> simp
  | error raised =>
      rcases delivery_error result with rfl | ⟨rfl, short, deep⟩
      · simp
      · rcases loadable with long | within <;> omega

/-- A published message is the one that the delivery model publishes for an outbox row. -/
theorem publish_model {jobId messageId : Text} {sent : Message} (job : Canonical jobId)
    (message : Canonical messageId) (published : publish jobId messageId = some sent)
    : sent.model = ⟨some ⟨string jobId, string messageId⟩, string messageId⟩ := by
  obtain ⟨same, again, identity, accepted⟩ :=
    delivery_publish (by decide : 0 < recursionLimit) job message
  rw [published] at again
  cases again
  obtain ⟨short, ⟨value, loaded, checked⟩, _⟩ := read_iff.mp (delivery_ok_iff.mp accepted)
  have said := (decodes_of_loads loaded).2
  rw [Message.model, if_neg (Nat.not_lt.mpr short), said, identity]
  simp [checked, Task.model]

-----------------------------------------------------------------------------------------
-- Grammar, round trip and rejection
-----------------------------------------------------------------------------------------

/-- `delivery` returns a task for the envelopes alone and raises ValueError otherwise exactly on
the loadable bodies. Published envelopes and delayed copies are accepted with their ids, and in
a run without other bodies every ready message that is no envelope is dead-lettered. This holds
whatever the frames on the stack leave of `recursionLimit`.
-/
theorem envelopes_exact (roomy : 0 < limit) (body : List UInt8) (messageId : Option Text)
    : (Exact limit body messageId ↔ Loadable limit body)
      ∧ (∀ jobId messageId,
          Canonical jobId
          → Canonical messageId
          → ∃ sent,
              publish jobId messageId = some sent
              ∧ sent.messageId = some messageId
              ∧ delivery limit sent.body sent.messageId = .ok ⟨1, jobId, messageId⟩)
      ∧ (∀ message copy work,
          consume limit message work = .delayed copy
          → ∃ task,
              delivery limit message.body message.messageId = .ok task
              ∧ delivery limit copy.body copy.messageId = .ok task)
      ∧ (∀ actions queues,
          (∀ action ∈ actions, Admitted limit action)
          → Run (Queues.Step limit) Queues.empty actions queues
          → ∀ message ∈ queues.ready,
              (∀ task, ¬Envelope message.body message.messageId task)
              → ∀ work, consume limit message work = .deadLettered) := by
  refine ⟨exact_iff, fun jobId messageId => delivery_publish roomy, ?_, ?_⟩
  · intro message copy work delayed
    obtain ⟨rfl, task, accepted⟩ := delivery_delayed delayed
    exact ⟨task, accepted, accepted⟩
  · intro actions queues admitted run message ready foreign
    have loadable := (Queues.Sound.run roomy run admitted).ready message ready
    exact ((exact_iff.mpr loadable).refuses foreign).2

/-- The UUID of zeros. -/
def nil : Text := text "00000000-0000-0000-0000-000000000000"

theorem nil_canonical : Canonical nil := by
  refine ⟨List.replicate 32 48, List.length_replicate, ?_, by decide +kernel⟩
  intro c member
  rw [List.eq_of_mem_replicate member]
  rfl

theorem loadable_empty : Loadable recursionLimit [] := by
  refine .inr (Nat.le_of_not_lt fun deeper => ?_)
  have overflow := loads_recursion_iff.mpr deeper
  cases overflow

/-- An envelope of two such UUIDs, its delayed copy, and an empty message that follows them. -/
theorem envelopes_exact_sample
    : Exact recursionLimit [] none
      ∧ (∃ sent task,
          publish nil nil = some sent
          ∧ consume recursionLimit sent .busy = .delayed sent
          ∧ delivery recursionLimit sent.body sent.messageId = .ok task)
      ∧ consume recursionLimit ⟨[], none⟩ .settled = .deadLettered := by
  have roomy : 0 < recursionLimit := by decide
  obtain ⟨sent, published, _, accepted⟩ :=
    (envelopes_exact roomy [] none).2.1 nil nil nil_canonical nil_canonical
  have delayed : consume recursionLimit sent .busy = .delayed sent := by
    simp only [consume, accepted]
  obtain ⟨task, first, copy⟩ := (envelopes_exact roomy [] none).2.2.1 sent sent .busy delayed
  have step
      : Queues.Step recursionLimit Queues.empty (.send ⟨[], none⟩) ⟨[⟨[], none⟩], [], []⟩ := rfl
  refine ⟨(envelopes_exact roomy [] none).1.mpr loadable_empty,
    ⟨sent, task, published, delayed, copy⟩,
    (envelopes_exact roomy [] none).2.2.2 [.send ⟨[], none⟩] ⟨[⟨[], none⟩], [], []⟩ ?_
      (.single step) _ (List.mem_singleton_self _) ?_ .settled⟩
  · intro action member
    rw [List.mem_singleton.mp member]
    exact loadable_empty
  · intro task envelope
    cases envelope.identity

/-- Brackets that open as often as one more than the interpreter allows. -/
def poison : List UInt8 := List.replicate 1001 91

theorem poison_raises (messageId : Option Text)
    : delivery recursionLimit poison messageId = .error .recursionError := by
  have unread : load recursionLimit poison = .error .recursionError := by
    rw [load, poison, loads_brackets (by decide : recursionLimit < 1001)]
  have short : ¬1024 < poison.length := by
    rw [poison, List.length_replicate]
    decide
  rw [delivery, read, if_neg short, unread]
  rfl

/-- The poison is no envelope, but ends every consumer that it is delivered to and stays ready.
-/
theorem poison_loop
    : ¬Exact recursionLimit poison (some nil)
      ∧ ∀ work,
          consume recursionLimit ⟨poison, some nil⟩ work = .died .recursionError
          ∧ Queues.Step recursionLimit ⟨[⟨poison, some nil⟩], [], []⟩ (.consume 0 work)
              ⟨[⟨poison, some nil⟩], [], []⟩ := by
  have died (work : Work)
      : consume recursionLimit ⟨poison, some nil⟩ work = .died .recursionError := by
    simp only [consume, poison_raises]
  constructor
  · intro exact
    have raised := poison_raises (some nil)
    have foreign : ∀ task, ¬Envelope poison (some nil) task := by
      intro task envelope
      have accepted := (exact.accepts task).mpr envelope
      rw [raised] at accepted
      cases accepted
    have refused := (exact.refuses foreign).1
    rw [raised] at refused
    cases refused
  · intro work
    refine ⟨died work, ?_⟩
    simp [Queues.Step, Queues.next, Queues.settle, died]

end Wire

end Transcriber
