import Transcriber.Worker.Authorization

/-! Worker scoping: an identity reaches only its own leases and slots.
The store accepts only a row's current token, so the prefix test of the endpoint names the worker
that the job was issued to.
-/

namespace Transcriber

open Execution

-----------------------------------------------------------------------------------------
-- The scope of a handler
-----------------------------------------------------------------------------------------

/-- `Claim` or `BeginAttempt` issued the token to a worker. -/
def Issued (past : List Served) (identity token : String) : Prop :=
  ∃ handler event jobId deliveryId,
    .stored handler event ∈ past
    ∧ handler.identity = identity
    ∧ handler.request.issues
    ∧ event.act? jobId = some (.start token deliveryId)

theorem Issued.later {past : List Served} {identity token : String}
    (issued : Issued past identity token) (label : Served)
    : Issued (past ++ [label]) identity token := by
  obtain ⟨handler, event, jobId, deliveryId, member, rest⟩ := issued
  exact ⟨handler, event, jobId, deliveryId, List.mem_append_left _ member, rest⟩

/-- The worker is one of the registry. -/
def WorkerService.Listed (service : WorkerService) (identity : String) : Prop :=
  ∃ entry ∈ service.credentials.hashes, entry.1 = identity

theorem WorkerService.Listed.slash {service : WorkerService} {identity : String}
    (listed : service.Listed identity)
    : '/' ∉ identity.toList := by
  obtain ⟨entry, member, rfl⟩ := listed
  exact isWorkerId_slash (service.credentials.ids_valid entry member)

/-- A call of the worker with this request found its job under its current lease, with the input
at this path.
-/
def Owned (past : List Served) (identity : String) (request : WorkerRequest) (inputPath : String)
    : Prop :=
  ∃ handler jobId leaseToken row,
    .owned handler jobId leaseToken (some row) ∈ past
    ∧ handler.identity = identity
    ∧ handler.request = request
    ∧ row.inputPath = inputPath

theorem Owned.later {past : List Served} {identity inputPath : String} {request : WorkerRequest}
    (owned : Owned past identity request inputPath) (label : Served)
    : Owned (past ++ [label]) identity request inputPath := by
  obtain ⟨handler, jobId, leaseToken, row, member, rest⟩ := owned
  exact ⟨handler, jobId, leaseToken, row, List.mem_append_left _ member, rest⟩

/-- What a handler relies on where it stands: a claimed job's token was issued to its worker, and
a stream's input was found by an ownership check.
-/
def Stage.Sound (past : List Served) (identity : String) (request : WorkerRequest) : Stage → Prop
  | .claimed _ job | .missing job => job.leaseOwner ≠ "" ∧ Issued past identity job.leaseOwner
  | .streaming inputPath _ => Owned past identity request inputPath
  | _ => True

theorem Stage.Sound.later {past : List Served} {identity : String} {request : WorkerRequest}
    {stage : Stage} (sound : stage.Sound past identity request) (label : Served)
    : stage.Sound (past ++ [label]) identity request := by
  cases stage with
  | claimed | missing => exact ⟨sound.1, sound.2.later label⟩
  | streaming => exact Owned.later sound label
  | called | locked | selected | loaded | capable | answered | aborted => trivial

/-- A handler runs under a listed identity, which its request names; the token that it carries
begins with it.
-/
structure Handler.Scoped (service : WorkerService) (past : List Served) (handler : Handler)
    : Prop where
  listed : service.Listed handler.identity
  named : ∀ workerId, handler.request.workerId? = some workerId → workerId = handler.identity
  carried
    : ∀ token,
        handler.request.leaseToken? = some token → hasPrefix (handler.identity ++ "/") token
  stands : handler.stage.Sound past handler.identity handler.request

/-- The lease of a row is on the account of its assigned worker, or of a process that is no
registered worker.
-/
def RowIssued (service : WorkerService) (past : List Served) (row : JobRecord) : Prop :=
  row.leaseOwner ≠ ""
  → ∃ uuid,
      row.leaseOwner = leaseToken row.assignedWorkerId uuid
      ∧ (Issued past row.assignedWorkerId row.leaseOwner ∧ '/' ∉ row.assignedWorkerId.toList
        ∨ ∀ entry ∈ service.credentials.hashes,
            hasPrefix (entry.1 ++ "/") row.leaseOwner = false)

/-- What holds of the endpoint after a history. -/
structure Endpoint.Scoped (service : WorkerService) (past : List Served) (s : Endpoint)
    : Prop where
  consistent : s.db.Consistent
  valid : ∀ row ∈ s.db.jobs, row.Valid
  rows : ∀ row ∈ s.db.jobs, RowIssued service past row
  handlers : ∀ handler ∈ s.handlers, handler.Scoped service past

namespace Endpoint

variable {service : WorkerService} {past : List Served} {s t : Endpoint}

/-- A current lease that begins with an identity was issued to it. -/
theorem Scoped.issuer (kept : s.Scoped service past) {row : JobRecord} (member : row ∈ s.db.jobs)
    {identity : String} (listed : service.Listed identity)
    (named : hasPrefix (identity ++ "/") row.leaseOwner)
    : Issued past identity row.leaseOwner := by
  have leased : row.leaseOwner ≠ "" := by
    intro empty
    rw [empty] at named
    simp [hasPrefix] at named
  obtain ⟨uuid, token, ⟨issued, slash⟩ | foreign⟩ := kept.rows row member leased
  · rw [token] at named
    rwa [leaseToken_starts listed.slash slash named]
  · obtain ⟨entry, stored, rfl⟩ := listed
    rw [foreign entry stored] at named
    cases named

/-- A running row that is assigned to a listed worker was issued to it. -/
theorem Scoped.assigned (kept : s.Scoped service past) {row : JobRecord}
    (member : row ∈ s.db.jobs) (running : row.status = .running)
    (listed : service.Listed row.assignedWorkerId)
    : Issued past row.assignedWorkerId row.leaseOwner := by
  obtain ⟨uuid, token, _⟩ := kept.rows row member ((kept.valid row member).owned.mpr running)
  refine kept.issuer member listed ?_
  rw [token]
  exact leaseToken_hasPrefix row.assignedWorkerId uuid

end Endpoint

-----------------------------------------------------------------------------------------
-- The invariant
-----------------------------------------------------------------------------------------

theorem RowIssued.later {service : WorkerService} {past : List Served} {row : JobRecord}
    (issued : RowIssued service past row) (label : Served)
    : RowIssued service (past ++ [label]) row := by
  intro leased
  obtain ⟨uuid, token, account⟩ := issued leased
  exact ⟨uuid, token, account.imp_left (fun own => ⟨own.1.later label, own.2⟩)⟩

theorem Handler.Scoped.later {service : WorkerService} {past : List Served} {handler : Handler}
    (kept : handler.Scoped service past) (label : Served)
    : handler.Scoped service (past ++ [label]) where
  listed := kept.listed
  named := kept.named
  carried := kept.carried
  stands := kept.stands.later label

namespace Endpoint

variable {service : WorkerService} {past : List Served} {s t : Endpoint}

/-- A store step keeps the rows on their accounts if the attempts it starts are. -/
theorem Scoped.rows_step (kept : s.Scoped service past) {event : Event} {db : Db}
    (step : s.db.Step event db) (label : Served)
    (starts
      : ∀ jobId token deliveryId workerId,
          event.act? jobId = some (.start token deliveryId)
          → event.op.starter? = some workerId
          → Issued (past ++ [label]) workerId token ∧ '/' ∉ workerId.toList
            ∨ ∀ entry ∈ service.credentials.hashes, hasPrefix (entry.1 ++ "/") token = false)
    : ∀ next ∈ db.jobs, RowIssued service (past ++ [label]) next := by
  have change := (step.outcome kept.consistent.distinct kept.consistent.held).change
  have keptNext := step.consistent kept.consistent
  intro next member leased
  rcases change.origin kept.consistent (Db.job?_of_mem keptNext.distinct member) with old | new
  · obtain ⟨row, found, rowStep⟩ := old
    rcases rowStep.lease with ⟨owner, assigned⟩ | empty | ⟨token, deliveryId, started⟩
    · have issued := (kept.rows row (Db.job?_mem found).1).later label
      rw [RowIssued, ← owner, ← assigned] at issued
      exact issued leased
    · exact absurd empty leased
    · obtain ⟨workerId, uuid, starter, issued, rows⟩ :=
        step.starter kept.consistent.distinct started
      obtain ⟨owner, assigned⟩ := rows next member rfl
      rw [owner, assigned]
      exact ⟨uuid, issued, starts next.jobId token deliveryId workerId started starter⟩
  · obtain ⟨_, _, options, jobId, now, _, _, rfl⟩ := new
    exact absurd rfl leased

/-- A store step keeps the tables consistent and the rows valid. -/
theorem Scoped.db_step (kept : s.Scoped service past) {event : Event} {db : Db}
    (step : s.db.Step event db)
    : db.Consistent ∧ ∀ row ∈ db.jobs, row.Valid :=
  ⟨step.consistent kept.consistent,
    (step.outcome kept.consistent.distinct kept.consistent.held).change.rows kept.valid
      JobRecord.created_valid (fun _ _ _ => RowStep.valid)⟩

/-- A step without a store call keeps the invariant if each handler it leaves is scoped. -/
theorem Scoped.quiet (kept : s.Scoped service past) {left : List Handler} {label : Served}
    (handlers : ∀ handler ∈ left, handler.Scoped service (past ++ [label]))
    : ({ s with handlers := left } : Endpoint).Scoped service (past ++ [label]) where
  consistent := kept.consistent
  valid := kept.valid
  rows row member := (kept.rows row member).later label
  handlers := handlers

/-- A handler that moves on keeps its scope if it may stand where it goes. -/
theorem Scoped.proceed (kept : s.Scoped service past) {index : Nat} {handler : Handler}
    (found : s.handlers[index]? = some handler) {stage : Stage} {label : Served}
    (stands : stage.Sound (past ++ [label]) handler.identity handler.request)
    : ∀ other ∈ (s.proceed index handler stage).handlers,
        other.Scoped service (past ++ [label]) := by
  intro other member
  have own := kept.handlers handler (List.mem_of_getElem? found)
  rcases List.mem_or_eq_of_mem_set member with old | rfl
  · exact (kept.handlers other old).later label
  · exact ⟨own.listed, own.named, own.carried, stands⟩

/-- The store call of a handler, taken apart. -/
theorem call_spec {index : Nat} {draw : Draw} {label : Served}
    (done : exec service s (.call index draw) = some (label, t))
    : ∃ handler op db reply,
        s.handlers[index]? = some handler
        ∧ handler.request.call? service.config draw handler.stage = some op
        ∧ s.db.exec service.config op = some (db, reply)
        ∧ label = .stored handler ⟨service.config, op, reply⟩
        ∧ t
          = { s with db }.proceed index handler
              (handler.request.resume service.config handler.stage reply) := by
  obtain ⟨handler, stands, done⟩ := Option.bind_eq_some_iff.mp done
  obtain ⟨op, called, done⟩ := Option.bind_eq_some_iff.mp done
  obtain ⟨⟨db, reply⟩, executed, same⟩ := Option.bind_eq_some_iff.mp done
  cases same
  exact ⟨handler, op, db, reply, stands, called, executed, rfl, rfl⟩

/-- A handler's store call keeps the invariant: what it starts, it starts for its own identity. -/
theorem Scoped.call (kept : s.Scoped service past) {index : Nat} {draw : Draw} {label : Served}
    (done : exec service s (.call index draw) = some (label, t))
    : t.Scoped service (past ++ [label]) := by
  obtain ⟨handler, op, db, reply, found, called, executed, rfl, rfl⟩ := call_spec done
  have own := kept.handlers handler (List.mem_of_getElem? found)
  have step : s.db.Step ⟨service.config, op, reply⟩ db := executed
  obtain ⟨consistent, valid⟩ := kept.db_step step
  have issued {jobId token : String} {deliveryId : Option String}
      (issues : handler.request.issues)
      (started : (Event.mk service.config op reply).act? jobId = some (.start token deliveryId))
      : Issued (past ++ [.stored handler ⟨service.config, op, reply⟩]) handler.identity token :=
    ⟨handler, _, jobId, deliveryId, by simp, rfl, issues, started⟩
  refine ⟨consistent, valid, kept.rows_step step _ ?_, ?_⟩
  · intro jobId token deliveryId workerId started starter
    obtain ⟨named, issues⟩ := WorkerRequest.call?_starter called starter
    rw [own.named workerId named]
    exact .inl ⟨issued issues started, own.listed.slash⟩
  · refine kept.proceed found ?_
    cases resumed : handler.request.resume service.config handler.stage reply with
    | claimed disposition claimed =>
        obtain ⟨issues, ⟨jobId, deliveryId, started⟩ | ⟨row, member, owner, running, assigned⟩⟩ :=
          Db.call_claimed called executed resumed
        · obtain ⟨_, uuid, _, token, _⟩ := step.starter kept.consistent.distinct started
          exact ⟨token ▸ leaseToken_ne_empty _ uuid, issued issues started⟩
        · have same := own.named row.assignedWorkerId assigned
          rw [Stage.Sound, owner, ← same]
          exact ⟨(kept.valid row member).owned.mpr running,
            (kept.assigned member running (same ▸ own.listed)).later _⟩
    | missing => exact absurd resumed WorkerRequest.resume_missing
    | streaming inputPath owned =>
        rw [WorkerRequest.resume_streaming resumed] at called
        cases request : handler.request <;> simp [request, WorkerRequest.call?] at called
    | called | locked | selected | loaded | capable | answered | aborted => trivial

/-- Every step keeps the invariant, by cases on the action. -/
theorem Step.scoped {label : Served} (step : s.Step service label t)
    (kept : s.Scoped service past)
    : t.Scoped service (past ++ [label]) := by
  obtain ⟨⟨action, done⟩, foreign⟩ := step
  have unchanged : ∀ handler ∈ s.handlers, handler.Scoped service (past ++ [label]) :=
    fun handler member => (kept.handlers handler member).later label
  cases action with
  | receive metadata request =>
      simp only [exec] at done
      split at done
      · cases done
        exact kept.quiet unchanged
      · rename_i identity admitted
        cases done
        refine kept.quiet ?_
        intro handler member
        rcases List.mem_append.mp member with old | new
        · exact unchanged handler old
        · obtain rfl := List.mem_singleton.mp new
          obtain ⟨⟨value, _, token, _, listed⟩, named, carried⟩ :=
            WorkerService.authenticate_spec (WorkerService.authenticate_of_vet admitted)
          exact ⟨⟨_, listed, rfl⟩, named, carried, trivial⟩
  | call index draw => exact kept.call done
  | unlisted index =>
      obtain ⟨handler, found, done⟩ := Option.bind_eq_some_iff.mp done
      repeat' split at done
      all_goals cases done
      exact kept.quiet (kept.proceed found trivial)
  | stat index size =>
      obtain ⟨handler, found, done⟩ := Option.bind_eq_some_iff.mp done
      split at done
      · rename_i disposition claimed stage
        have own := (kept.handlers handler (List.mem_of_getElem? found)).stands
        rw [stage] at own
        cases done
        refine kept.quiet (kept.proceed found ?_)
        split
        · exact ⟨own.1, own.2.later _⟩
        · trivial
        · trivial
      · cases done
  | own index now =>
      obtain ⟨handler, found, done⟩ := Option.bind_eq_some_iff.mp done
      split at done
      · rename_i jobId leaseToken request
        have sound := (kept.handlers handler (List.mem_of_getElem? found)).stands
        dsimp only at done
        split at done
        · cases done
          refine kept.quiet (kept.proceed found ?_)
          cases job : s.db.ownedJob? jobId leaseToken now with
          | none => trivial
          | some row => exact ⟨handler, jobId, leaseToken, row, by simp, rfl, rfl, rfl⟩
        · rename_i inputPath stage
          rw [stage] at sound
          cases done
          refine kept.quiet (kept.proceed found ?_)
          split
          · exact Owned.later sound _
          · trivial
        · cases done
      · cases done
  | read index data =>
      obtain ⟨handler, found, done⟩ := Option.bind_eq_some_iff.mp done
      split at done
      · rename_i inputPath stage
        have own := (kept.handlers handler (List.mem_of_getElem? found)).stands
        rw [stage] at own
        split at done
        all_goals
          cases done
          refine kept.quiet (kept.proceed found ?_)
        · trivial
        · trivial
        · exact Owned.later own _
      · cases done
  | fault index =>
      cases done
      exact kept.quiet (fun handler member =>
        unchanged handler (List.mem_of_mem_eraseIdx member))
  | other config op =>
      obtain ⟨⟨db, reply⟩, executed, same⟩ := Option.bind_eq_some_iff.mp done
      cases same
      have step : s.db.Step ⟨config, op, reply⟩ db := executed
      obtain ⟨consistent, valid⟩ := kept.db_step step
      refine ⟨consistent, valid, kept.rows_step step _ ?_, unchanged⟩
      intro jobId token deliveryId workerId started _
      exact .inr (foreign _ rfl jobId token deliveryId started)

end Endpoint

-----------------------------------------------------------------------------------------
-- Scoping
-----------------------------------------------------------------------------------------

/-- What a store call of a handler does within its identity. -/
structure StoreScoped (past : List Served) (s : Db) (identity : String) (event : Event) (t : Db)
    : Prop where
  leases
    : ∀ jobId token,
        event.op.leaseCall? = some (jobId, token)
        → event.reply = .rows 0 ∧ t.jobs = s.jobs
          ∨ ∃ row ∈ s.jobs,
              row.jobId = jobId ∧ row.leaseOwner = token ∧ Issued past identity token
  claims
    : ∀ jobId token deliveryId,
        event.act? jobId = some (.start token deliveryId)
        → (∃ uuid, token = leaseToken identity uuid)
          ∧ ∀ next ∈ t.jobs,
              next.jobId = jobId → next.leaseOwner = token ∧ next.assignedWorkerId = identity
  slots : s.SlotsScoped event t identity

namespace Endpoint

variable {service : WorkerService} {past : List Served} {s t : Endpoint}

/-- A store call of a handler stays within its identity. -/
theorem Scoped.stored (kept : s.Scoped service past) {index : Nat} {draw : Draw}
    {handler : Handler} {event : Event}
    (done : exec service s (.call index draw) = some (.stored handler event, t))
    : StoreScoped past s.db handler.identity event t.db := by
  obtain ⟨handler', op, db, reply, found, called, executed, same, rfl⟩ := call_spec done
  cases same
  have own := kept.handlers handler (List.mem_of_getElem? found)
  have step : s.db.Step ⟨service.config, op, reply⟩ db := executed
  refine ⟨?_, ?_, ?_⟩
  · intro jobId token lease
    have named : token ≠ ""
        ∧ ∀ row ∈ s.db.jobs, row.leaseOwner = token → Issued past handler.identity token := by
      rcases WorkerRequest.call?_leaseCall called lease with carried | ⟨job, stage, rfl⟩
      · have start := own.carried token carried
        refine ⟨ne_empty_of_hasPrefix start, ?_⟩
        rintro row member rfl
        exact kept.issuer member own.listed start
      · have issued := own.stands
        rw [stage] at issued
        exact ⟨issued.1, fun _ _ _ => issued.2⟩
    refine (step.workerCall (Event.workerCall?_of_lease lease named.1)).imp_right ?_
    rintro ⟨row, member, same, owner, _⟩
    exact ⟨row, member, same, owner, named.2 row member owner⟩
  · intro jobId token deliveryId started
    obtain ⟨workerId, uuid, starter, rfl, rows⟩ := step.starter kept.consistent.distinct started
    obtain rfl := own.named workerId (WorkerRequest.call?_starter called starter).1
    exact ⟨⟨uuid, rfl⟩, rows⟩
  · refine step.slotsScoped ?_
    intro workerId slot
    exact own.named workerId (WorkerRequest.call?_slotWorker called slot)

end Endpoint

/-- What a step of the endpoint may do. A request without authorization is refused, a refused one
leaves everything as it is, and an admitted one is authorized as its identity; a store call, an
ownership check and a chunk of audio stay within the identity of their handler.
-/
def Served.Scoped (service : WorkerService) (past : List Served) (s : Endpoint) (label : Served)
    (t : Endpoint)
    : Prop :=
  match label with
  | .received metadata _ outcome =>
      ((∀ identity, ¬service.Authorized metadata identity)
        → outcome = .error ⟨.unauthenticated, "Worker authentication required"⟩)
      ∧ (∀ abort, outcome = .error abort → t = s)
      ∧ ∀ identity, outcome = .ok identity → service.Authorized metadata identity
  | .stored handler event => StoreScoped past s.db handler.identity event t.db
  | .owned handler jobId leaseToken job =>
      t.db = s.db
      ∧ ∀ row,
          job = some row
          → row ∈ s.db.jobs
            ∧ row.jobId = jobId
            ∧ row.leaseOwner = leaseToken
            ∧ Issued past handler.identity leaseToken
  | .sent handler inputPath _ =>
      t.db = s.db ∧ Owned past handler.identity handler.request inputPath
  | .quiet => t.db = s.db
  | .other _ => True

namespace Endpoint

variable {service : WorkerService} {past : List Served} {s t : Endpoint}

/-- An ownership check that passes names a current lease of the handler's worker. -/
theorem Scoped.owned (kept : s.Scoped service past) {index : Nat} {now : Int} {label : Served}
    (done : exec service s (.own index now) = some (label, t))
    : label.Scoped service past s t := by
  obtain ⟨handler, found, done⟩ := Option.bind_eq_some_iff.mp done
  split at done
  · rename_i jobId leaseToken request
    have own := kept.handlers handler (List.mem_of_getElem? found)
    have carried := own.carried leaseToken (by rw [request]; rfl)
    have check (row : JobRecord) (passed : s.db.ownedJob? jobId leaseToken now = some row)
        : row ∈ s.db.jobs
          ∧ row.jobId = jobId
          ∧ row.leaseOwner = leaseToken
          ∧ Issued past handler.identity leaseToken := by
      obtain ⟨member, selected⟩ := Db.find_spec passed
      simp only [Bool.and_eq_true, decide_eq_true_eq] at selected
      obtain ⟨⟨rfl, rfl⟩, _⟩ := selected
      exact ⟨member, rfl, rfl, kept.issuer member own.listed carried⟩
    dsimp only at done
    split at done
    all_goals cases done
    · exact ⟨rfl, check⟩
    · exact ⟨rfl, check⟩
  · cases done

/-- Every step stays in its scope, by cases on the action. -/
theorem Scoped.step (kept : s.Scoped service past) {action : Action} {label : Served}
    (done : exec service s action = some (label, t))
    : label.Scoped service past s t := by
  cases action with
  | receive metadata request =>
      simp only [exec] at done
      split at done
      · rename_i abort refused
        cases done
        refine ⟨fun nobody => ?_, fun _ _ => rfl, ?_⟩
        · exact WorkerService.vet_of_unauthenticated
            (WorkerService.authenticate_none _ _ nobody)
        · intro identity admitted
          rw [refused] at admitted
          cases admitted
      · rename_i identity admitted
        cases done
        have authorized :=
          (WorkerService.authenticate_spec (WorkerService.authenticate_of_vet admitted)).1
        refine ⟨fun nobody => absurd authorized (nobody identity), ?_, ?_⟩
        · intro abort refused
          rw [admitted] at refused
          cases refused
        · intro resolved passed
          rw [admitted] at passed
          cases passed
          exact authorized
  | call index draw =>
      obtain ⟨handler, op, db, reply, _, _, _, rfl, _⟩ := call_spec done
      exact kept.stored done
  | own index now => exact kept.owned done
  | read index data =>
      obtain ⟨handler, found, done⟩ := Option.bind_eq_some_iff.mp done
      split at done
      · rename_i inputPath stage
        have own := (kept.handlers handler (List.mem_of_getElem? found)).stands
        rw [stage] at own
        split at done
        all_goals cases done
        · rfl
        · rfl
        · exact ⟨rfl, own⟩
      · cases done
  | unlisted index =>
      obtain ⟨handler, found, done⟩ := Option.bind_eq_some_iff.mp done
      repeat' split at done
      all_goals cases done
      rfl
  | stat index size =>
      obtain ⟨handler, found, done⟩ := Option.bind_eq_some_iff.mp done
      split at done
      all_goals cases done
      rfl
  | fault index =>
      cases done
      rfl
  | other config op =>
      obtain ⟨⟨db, reply⟩, executed, same⟩ := Option.bind_eq_some_iff.mp done
      cases same
      trivial

/-- At the start nothing runs and nothing is stored. -/
theorem Scoped.start (service : WorkerService) (clock : Int)
    : (Endpoint.start clock).Scoped service [] where
  consistent := .empty clock
  valid := by simp [Endpoint.start, Db.empty]
  rows := by simp [Endpoint.start, Db.empty]
  handlers := by simp [Endpoint.start]

/-- Every step of every run of the endpoint stays within the identity that its request was
authenticated as, and one header names one worker.
-/
theorem worker_scoping {service : WorkerService} {clock : Int} {past : List Served}
    {s t : Endpoint} {label : Served} (run : Run (Step service) (start clock) past s)
    (step : Step service s label t)
    : label.Scoped service past s t
      ∧ ∀ authorization first second,
          service.credentials.Registered service.sha256 authorization first
          → service.credentials.Registered service.sha256 authorization second
          → first = second := by
  have kept : s.Scoped service past :=
    run.history (fun _ _ _ _ kept step => step.scoped kept) (.start service clock)
  obtain ⟨⟨action, done⟩, _⟩ := step
  exact ⟨kept.step done, fun _ _ _ registered registered' => registered.unique registered'⟩

-----------------------------------------------------------------------------------------
-- A concrete run
-----------------------------------------------------------------------------------------

/-- The digests of two tokens: 32 times the letter a, and 32 times the letter b. -/
def twoDigests (token : String) : String :=
  if token = String.ofList (List.replicate 32 'a') then
    "3ba3f5f43b92602683c19aee62a20342b084dd5971ddd33808d81a328879a547"
  else if token = String.ofList (List.replicate 32 'b') then
    "bdb339768bc5e4fecbe55a442056919b2b325907d49bcbf3bf8de13781996a83"
  else
    ""

/-- A registry of two workers, one id a prefix of the other. -/
def twoWorkers : CredentialFile where
  size := 300
  document :=
    some
      (.object
        [("version", .integer 1),
          ("workers",
            .object
              [("gpu", .text (twoDigests (String.ofList (List.replicate 32 'a')))),
                ("gpu2", .text (twoDigests (String.ofList (List.replicate 32 'b'))))])])

def twoService : WorkerService where
  config := .onePool .rabbitmq
  credentials := (WorkerCredentials.fromFile (some twoWorkers)).get (by decide +kernel)
  sha256 := twoDigests

/-- A step of the endpoint; other processes start no attempt. -/
def perform (service : WorkerService) (s : Endpoint) (action : Action)
    : Option (Served × Endpoint) :=
  (exec service s action).filter (fun done =>
    match done.1 with
    | .other event => event.op.starter? = none
    | _ => true)

theorem perform_step (service : WorkerService) (s : Endpoint) (action : Action) (label : Served)
    (t : Endpoint) (done : perform service s action = some (label, t))
    : Step service s label t := by
  obtain ⟨executed, idle⟩ := Option.filter_eq_some_iff.mp done
  refine ⟨⟨action, executed⟩, ?_⟩
  rintro event rfl jobId token deliveryId started
  obtain ⟨_, _, legacy | slot | delivery⟩ := Event.act?_start started
  · obtain ⟨_, _, _, _, _, _, op, _⟩ := legacy
    simp [op, Op.starter?] at idle
  · obtain ⟨_, _, _, _, _, op, _⟩ := slot
    simp [op, Op.starter?] at idle
  · obtain ⟨_, _, _, op, _⟩ := delivery
    simp [op, Op.starter?] at idle

/-- A job is submitted and delivered to the first worker, which then sends a heartbeat. -/
def heartbeatCalls : List Action :=
  let config := twoService.config
  let jobId := (Uuid.nth 0).text
  let slot := (Uuid.nth 5).text
  let request : BeginRequest := ⟨"gpu", slot, jobId, (Uuid.nth 1).text, (Uuid.nth 6).text⟩
  let metadata := [("authorization", "Bearer " ++ String.ofList (List.replicate 32 'a'))]
  let draw : Draw := ⟨0, 0, .nth 2, []⟩
  [
    .other config (.createJob (.wav "request") (.nth 0) 0),
    .other config (.markQueued jobId (.nth 1) 0 0),
    .receive metadata (.reportAvailability "gpu" slot true),
    .call 0 draw,
    .receive metadata (.registerConsumer "gpu" slot),
    .call 1 draw,
    .call 1 draw,
    .call 1 draw,
    .receive metadata (.beginAttempt request),
    .call 2 draw,
    .call 2 draw,
    .call 2 draw,
    .call 2 draw,
    .stat 2 (some 10),
    .receive metadata (.heartbeat jobId (leaseToken "gpu" (.nth 2)) (some 50)),
    .call 3 draw
  ]

def playHeartbeat : List Served × Endpoint :=
  Execution.play (perform twoService) (fun _ _ _ => true) [] (start 0) heartbeatCalls

/-- The heartbeat's statement. -/
def heartbeatStep : Served × Endpoint :=
  (perform twoService playHeartbeat.2 (.call 3 ⟨0, 0, .nth 3, []⟩)).get (by decide +kernel)

/-- The heartbeat moves the job that was issued to its worker. -/
theorem worker_scoping_heartbeat
    : heartbeatStep.2.db.jobs.map JobRecord.progressPercent = [50]
      ∧ heartbeatStep.1.Scoped twoService playHeartbeat.1 playHeartbeat.2 heartbeatStep.2 := by
  have run : Run (Step twoService) (start 0) playHeartbeat.1 playHeartbeat.2 :=
    (Execution.play_run (perform_step twoService) (.nil _) heartbeatCalls).run
      (fun _ _ _ _ _ step => step)
  have done : perform twoService playHeartbeat.2 (.call 3 ⟨0, 0, .nth 3, []⟩)
      = some (heartbeatStep.1, heartbeatStep.2) := by
    rw [Prod.mk.eta, heartbeatStep, Option.some_get]
  have step := perform_step twoService playHeartbeat.2 _ _ _ done
  exact ⟨by decide +kernel, (worker_scoping run step).1⟩

end Endpoint

end Transcriber
