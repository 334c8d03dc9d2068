import Transcriber.Updater.Docker

/-! The updater: `Updater.reconcile`, `update` and `recover` between one Docker call and the next,
with its journal. It may crash anywhere; what it holds of the journal is what it saved.
-/

namespace Transcriber.Updater

-----------------------------------------------------------------------------------------
-- State
-----------------------------------------------------------------------------------------

/-- The entry `pending` of the journal. -/
structure Pending where
  old : String
  started : Nat
  name : String
  service : String
  image : String
  deriving DecidableEq, Repr

/-- `state.json` -/
structure Journal where
  failed : List (String × String)
  pending : Option Pending
  deriving DecidableEq, Repr

/-- `failed[service] = image` -/
def Journal.quarantine (journal : Journal) (service image : String) : List (String × String) :=
  (service, image) :: journal.failed.filter (fun entry => entry.1 ≠ service)

/-- The loop of `reconcile`: the release's image for each role and the containers still listed. -/
structure Loop where
  images : List (String × String)
  ids : List String
  deriving DecidableEq, Repr

/-- The variables of `update`: what it was called with, and the loop that it returns to. -/
structure Update where
  old : Container
  image : String
  loop : Loop
  deriving DecidableEq, Repr

/-- The entry that `update` records, twice. -/
def Update.pending (update : Update) : Pending where
  old := update.old.id
  started := update.old.started
  name := update.old.name
  service := update.old.config.role
  image := update.image

/-- The name of the backup. -/
def Update.backup (update : Update) : String :=
  update.old.name ++ "-rollback-" ++ String.ofList (update.old.id.toList.take 12)

/-- `update` after its checks: before each call, `drained` and each save; at the inspections of the
new container.
-/
inductive UpdateStage
  | recording
  | signalling
  | draining
  | rerecording
  | stopping
  | backingUp
  | reading
  | creating (oldDefaults : Defaults)
  | starting (created : String)
  | watching (created : String)
  deriving DecidableEq, Repr

/-- `recover`: before each inspection, each call and the save. -/
inductive RecoverStage
  | inspectingOld
  | inspectingNew (old : Option Container)
  | starting
  | resuming
  | committing (old : Container)
  | removing (old new : Container)
  | restoring (old : Container)
  | restarting (old : Container)
  | clearing (rolledBack : Bool)
  deriving DecidableEq, Repr

/-- Who called `recover`: `reconcile`, `update` after a deferred drain or at its end, its error
handler.
-/
inductive Caller
  | reconcile
  | deferred (loop : Loop)
  | finished (loop : Loop)
  | handler
  deriving DecidableEq, Repr

/-- Where the updater is; idle is between two rounds of `main` and after a crash. -/
inductive Pc
  | idle
  | releasing
  | listing (images : List (String × String))
  | choosing (loop : Loop)
  | pulling (update : Update) (health : Health)
  | updating (update : Update) (target : Image) (stage : UpdateStage)
  | recovering (caller : Caller) (pending : Pending) (stage : RecoverStage)
  deriving DecidableEq, Repr

/-- The containers, the journal, the updater, and the requests whose client call has ended and
which may still take effect.
-/
structure State where
  docker : Docker
  journal : Journal
  pc : Pc
  inflight : List Request
  deriving DecidableEq, Repr

/-- How a call ends: with a reply; with an error and no effect; with an error after its effect;
with an error and an effect that may still follow.
-/
inductive Reply
  | answered
  | refused
  | unanswered
  | late
  deriving DecidableEq, Repr

/-- What a step shows; of a late request, whether it took effect. -/
inductive Label
  | silent
  | call (entry : Pending) (request : Request) (reply : Reply)
  | inspected (entry : Pending) (new : Option Container) (health : Health)
  | drained (id : String) (done : Bool)
  | recorded (entry : Pending)
  | cleared (entry : Pending)
  | raised (message : String)
  | crashed
  | restarted (id : String)
  | took (request : Request) (done : Bool)
  deriving DecidableEq, Repr

/-- What the surroundings answer in a step, whatever it reads: how its call ends, a health, ids, a
release, an image, defaults, the result of `drained`, and whether a wait is over.
-/
structure Choice where
  reply : Reply := .answered
  health : Health := .healthy
  id : String := ""
  ids : List String := []
  images : List (String × String) := []
  image : Image := ⟨"", [], [], none, none, none⟩
  drained : Bool := true
  quit : Bool := false
  deriving DecidableEq, Repr

-----------------------------------------------------------------------------------------
-- Steps
-----------------------------------------------------------------------------------------

namespace State

def at_ (s : State) (pc : Pc) : State := { s with pc }

/-- Where a call of `recover` returns to. -/
def returned (s : State) : Caller → State
  | .reconcile => s.at_ .releasing
  | .deferred loop | .finished loop => s.at_ (.choosing loop)
  | .handler => s.at_ .idle

/-- A call of `recover`. -/
def recover (s : State) (caller : Caller) : State :=
  match s.journal.pending with
  | none => s.returned caller
  | some entry => s.at_ (.recovering caller entry .inspectingOld)

/-- An error in `recover`; inside `update` the handler calls it again. -/
def raised (s : State) : Caller → State
  | .reconcile | .handler => s.at_ .idle
  | .deferred _ | .finished _ => s.recover .handler

/-- A call that changes something, made for an entry. -/
def issue (s : State) (entry : Pending) (request : Request) (reply : Reply)
    (answered failed : State → State)
    : Label × State :=
  match reply, s.docker.perform request with
  | .answered, some docker => (.call entry request .answered, answered { s with docker })
  | .unanswered, some docker => (.call entry request .unanswered, failed { s with docker })
  | .late, _ =>
      (.call entry request .late, failed { s with inflight := s.inflight ++ [request] })
  | _, _ => (.call entry request .refused, failed s)

/-- What `recover` does after its inspections, or its error. -/
def recovery (project : String) (entry : Pending) (old new : Option Container) (health : Health)
    : Except String RecoverStage :=
  match new, old with
  | some new, old =>
      if new.id = entry.old then
        if !new.config.managed project then
          .error "Recovery refused an unmanaged container"
        else if !new.running then
          .ok .starting
        else if new.started = entry.started then
          .ok .resuming
        else
          .ok (.clearing false)
      else if new.config.managed project && new.healthy health then
        match old with
        | none => .ok (.clearing false)
        | some old =>
            if old.config.managed project then
              .ok (.committing old)
            else
              .error "Recovery refused an unmanaged backup"
      else
        match old with
        | none => .error "Worker rollback backup unavailable"
        | some old =>
            if !old.config.managed project then
              .error "Worker rollback backup unavailable"
            else if new.config.managed project then
              .ok (.removing old new)
            else
              .error "Recovery refused an unmanaged replacement"
  | none, none => .error "Worker rollback backup unavailable"
  | none, some old =>
      if old.config.managed project then
        .ok (.restoring old)
      else
        .error "Worker rollback backup unavailable"

/-- A step of `recover`. -/
def recovering (project : String) (s : State) (c : Choice) (caller : Caller) (entry : Pending)
    : RecoverStage → Label × State :=
  let next := fun stage (s : State) => s.at_ (.recovering caller entry stage)
  let failed := fun (s : State) => s.raised caller
  fun
  | .inspectingOld =>
      if c.reply = .answered then
        (.silent, next (.inspectingNew (s.docker.byId entry.old)) s)
      else
        (.silent, failed s)
  | .inspectingNew old =>
      let new := s.docker.byName entry.name
      if c.reply = .answered then
        match recovery project entry old new c.health with
        | .ok stage => (.inspected entry new c.health, next stage s)
        | .error message => (.raised message, failed s)
      else
        (.silent, failed s)
  | .starting => s.issue entry (.start entry.old) c.reply (next (.clearing false)) failed
  | .resuming => s.issue entry (.kill entry.old .usr2) c.reply (next (.clearing false)) failed
  | .committing old => s.issue entry (.remove old.id) c.reply (next (.clearing false)) failed
  | .removing old new => s.issue entry (.remove new.id) c.reply (next (.restoring old)) failed
  | .restoring old =>
      s.issue entry (.rename old.id entry.name) c.reply (next (.restarting old)) failed
  | .restarting old => s.issue entry (.start old.id) c.reply (next (.clearing true)) failed
  | .clearing rolledBack =>
      let quarantined :=
        if rolledBack then
          s.journal.quarantine entry.service entry.image
        else
          s.journal.failed
      (.cleared entry, { s with journal := ⟨quarantined, none⟩ }.returned caller)

/-- A step of `update` after its checks. -/
def updating (s : State) (c : Choice) (update : Update) (target : Image)
    : UpdateStage → Label × State :=
  let entry := update.pending
  let next := fun stage (s : State) => s.at_ (.updating update target stage)
  let failed := fun (s : State) => s.recover .handler
  let recorded := { s with journal := { s.journal with pending := some entry } }
  fun
  | .recording => (.recorded entry, next .signalling recorded)
  | .signalling => s.issue entry (.kill entry.old .usr1) c.reply (next .draining) failed
  | .draining =>
      if c.reply ≠ .answered then
        (.silent, failed s)
      else if c.drained then
        (.drained entry.old true, next .rerecording s)
      else if c.quit then
        (.drained entry.old false, s.recover (.deferred update.loop))
      else
        (.drained entry.old false, next .draining s)
  | .rerecording => (.recorded entry, next .stopping recorded)
  | .stopping => s.issue entry (.stop entry.old) c.reply (next .backingUp) failed
  | .backingUp =>
      s.issue entry (.rename entry.old update.backup) c.reply (next .reading) failed
  | .reading =>
      if c.reply = .answered then (.silent, next (.creating c.image.config) s)
      else (.silent, failed s)
  | .creating oldDefaults =>
      let config :=
        replacement update.old.config update.image target.id oldDefaults target.config
      s.issue entry (.create entry.name c.id target.id config) c.reply (next (.starting c.id))
        failed
  | .starting created => s.issue entry (.start created) c.reply (next (.watching created)) failed
  | .watching created =>
      if c.quit then
        (.silent, s.recover (.finished update.loop))
      else if c.reply ≠ .answered then
        (.silent, failed s)
      else
        match s.docker.byId created with
        | some new =>
            if new.healthy c.health || !new.running then
              (.silent, s.recover (.finished update.loop))
            else
              (.silent, next (.watching created) s)
        | none => (.silent, s.recover (.finished update.loop))

/-- The first checks of `update`. -/
def update (s : State) (old : Container) (health : Health) (image : String) (loop : Loop)
    : State :=
  if s.journal.failed.lookup old.config.role = some image then
    s.at_ (.choosing loop)
  else
    s.at_ (.pulling ⟨old, image, loop⟩ health)

/-- Whether `update` goes on after it has pulled the image. -/
def proceeds (old : Container) (health : Health) (target : Image) : Bool :=
  old.image ≠ target.id
  && old.config.labels.lookup "io.transcriber.drain-protocol" = some "1"
  && old.healthy health

/-- A step of the updater. -/
def run (project : String) (s : State) (c : Choice) : Label × State :=
  let answered := c.reply = .answered
  match s.pc with
  | .idle => (.silent, s.recover .reconcile)
  | .releasing => (.silent, s.at_ (if answered then .listing c.images else .idle))
  | .listing images => (.silent, s.at_ (if answered then .choosing ⟨images, c.ids⟩ else .idle))
  | .choosing ⟨_, []⟩ => (.silent, s.at_ .idle)
  | .choosing ⟨images, id :: ids⟩ =>
      if answered then
        match s.docker.byId id with
        | some old =>
            if old.running && old.config.managed project then
              match images.lookup old.config.role with
              | some image => (.silent, s.update old c.health image ⟨images, ids⟩)
              | none => (.silent, s.at_ .idle)
            else
              (.silent, s.at_ (.choosing ⟨images, ids⟩))
        | none => (.silent, s.at_ (.choosing ⟨images, ids⟩))
      else
        (.silent, s.at_ .idle)
  | .pulling update health =>
      if answered then
        if proceeds update.old health c.image then
          (.silent, s.at_ (.updating update c.image .recording))
        else
          (.silent, s.at_ (.choosing update.loop))
      else
        (.silent, s.at_ .idle)
  | .updating update target stage => s.updating c update target stage
  | .recovering caller entry stage => s.recovering project c caller entry stage

end State

/-- A step of the updater, a crash of it, a restart of a container by itself, or the late effect of
a request.
-/
inductive Action
  | run (choice : Choice)
  | crash
  | restart (id : String)
  | take (index : Nat)
  deriving DecidableEq, Repr

namespace State

def exec (project : String) (s : State) : Action → Option (Label × State)
  | .run choice => some (s.run project choice)
  | .crash => some (.crashed, s.at_ .idle)
  | .restart id =>
      if (s.docker.byId id).any Container.running then
        some (.restarted id, { s with docker := s.docker.begin id })
      else
        none
  | .take index =>
      s.inflight[index]?.map (fun request =>
        (.took request (s.docker.perform request).isSome,
          { s with
            docker := (s.docker.perform request).getD s.docker
            inflight := s.inflight.eraseIdx index }))

/-- A step of the updater of a Compose project and its surroundings. -/
def Step (project : String) (s : State) (label : Label) (t : State) : Prop :=
  ∃ action, s.exec project action = some (label, t)

theorem Step.of_exec (project : String) (s : State) (action : Action) (label : Label) (t : State)
    (done : s.exec project action = some (label, t))
    : Step project s label t :=
  ⟨action, done⟩

end State

-----------------------------------------------------------------------------------------
-- A device
-----------------------------------------------------------------------------------------

/-- A worker that is managed in the project `workers`. -/
def sampleWorker : Container where
  id := "a1"
  name := "worker-cpu-1"
  image := "v1"
  config :=
    { image := "worker"
      labels :=
        [
          ("com.docker.compose.project", "workers"),
          ("com.docker.compose.service", "worker-cpu"),
          ("io.transcriber.worker-role", "cpu"),
          ("io.transcriber.autodeploy", "true"),
          ("io.transcriber.drain-protocol", "1")
        ]
      env := []
      cmd := none
      entrypoint := none
      workingDir := none
      hostname := none
      domainname := none
      others := []
      host := ⟨"default", none, []⟩ }
  running := true
  started := 0
  draining := false

/-- A device whose only container is that worker. -/
def device : State := ⟨⟨[sampleWorker], ["a1"], 0⟩, ⟨[], none⟩, .idle, []⟩

/-- The entry of its update to the image `release`. -/
def sampleEntry : Pending := ⟨"a1", 0, "worker-cpu-1", "cpu", "release"⟩

/-- The updater finds a release and calls `update` for the worker, up to the pull. -/
def chooseWorker : List Action :=
  [.run {}, .run { images := [("cpu", "release")] }, .run { ids := ["a1"] }, .run {}]

/-- It pulls a new image and updates the worker until the replacement `b2` has been created. -/
def replaceWorker : List Action :=
  [
    .run { image := ⟨"v2", [], [], none, none, none⟩ },
    .run {}, .run {}, .run {}, .run {}, .run {}, .run {}, .run {}, .run { id := "b2" }
  ]

end Transcriber.Updater
