import Transcriber.Library.Registry

/-! The Docker daemon as the updater uses it: containers by id and by name, the requests of
`Docker.action`, `Docker.remove` and the create call, and the configuration of a replacement.
Ids are never given twice, and no name is an id.
-/

namespace Transcriber.Updater

-----------------------------------------------------------------------------------------
-- Configurations
-----------------------------------------------------------------------------------------

/-- A value of a configuration; an absent key is none. -/
inductive Value
  | null
  | text (value : String)
  | list (items : List String)
  deriving DecidableEq, Repr

/-- The truth of a value. -/
def Value.truthy : Value → Bool
  | .null => false
  | .text value => value ≠ ""
  | .list items => items ≠ []

abbrev Labels := List (String × String)

/-- The defaults of an image: what its own Config has. -/
structure Defaults where
  labels : Labels
  env : List String
  cmd : Option Value
  entrypoint : Option Value
  workingDir : Option Value
  deriving DecidableEq, Repr

structure Image where
  id : String
  config : Defaults
  deriving DecidableEq, Repr

/-- `HostConfig`, with the keys that the updater reads. -/
structure HostConfig where
  networkMode : String
  consoleSize : Option Value
  others : List (String × Value)
  deriving DecidableEq, Repr

/-- `Config` and `HostConfig` of a container, with the keys that the updater reads. -/
structure Config where
  image : String
  labels : Labels
  env : List String
  cmd : Option Value
  entrypoint : Option Value
  workingDir : Option Value
  hostname : Option Value
  domainname : Option Value
  others : List (String × Value)
  host : HostConfig
  deriving DecidableEq, Repr

/-- `config.pop(key)` where the image's defaults have the key with the same value. -/
def popDefault (value default : Option Value) : Option Value :=
  match default with
  | some inherited => if value.getD .null = inherited then none else value
  | none => value

/-- `{**defaults, **labels}` -/
def mergeLabels (defaults labels : Labels) : Labels :=
  defaults.filter (fun entry => (labels.lookup entry.1).isNone) ++ labels

def replacement (old : Config) (image imageId : String) (oldDefaults newDefaults : Defaults)
    : Config :=
  let labels :=
    mergeLabels newDefaults.labels
      (old.labels.filter (fun entry => oldDefaults.labels.lookup entry.1 ≠ some entry.2))
  let cmd := popDefault old.cmd oldDefaults.cmd
  let entrypoint := popDefault old.entrypoint oldDefaults.entrypoint
  let shared := old.host.networkMode.startsWith "container:"
  { old with
    image
    labels := mergeLabels labels [("com.docker.compose.image", imageId)]
    env := old.env.filter (fun value => value ∉ oldDefaults.env)
    cmd :=
      if (entrypoint.getD .null).truthy && cmd.isNone && newDefaults.cmd.isSome then
        newDefaults.cmd
      else
        cmd
    entrypoint
    workingDir := popDefault old.workingDir oldDefaults.workingDir
    hostname := if shared then none else old.hostname
    domainname := if shared then none else old.domainname
    host := { old.host with consoleSize := none } }

/-- The configurations that updates make of one. -/
inductive Derived (config : Config) : Config → Prop
  | refl : Derived config config
  | replacement {old : Config} (derived : Derived config old) (image imageId : String)
    (oldDefaults newDefaults : Defaults)
    : Derived config (replacement old image imageId oldDefaults newDefaults)

/-- `Updater.managed` in a Compose project. -/
def Config.managed (project : String) (config : Config) : Bool :=
  config.labels.lookup "com.docker.compose.project" = some project
  && (match config.labels.lookup "io.transcriber.worker-role" with
    | some role =>
        (role = "cpu" || role = "gpu")
        && config.labels.lookup "com.docker.compose.service" = some ("worker-" ++ role)
    | none => false)
  && config.labels.lookup "io.transcriber.autodeploy" = some "true"

/-- The worker role of a configuration. -/
def Config.role (config : Config) : String :=
  (config.labels.lookup "io.transcriber.worker-role").getD ""

-----------------------------------------------------------------------------------------
-- Containers
-----------------------------------------------------------------------------------------

/-- A container; `started` is its `StartedAt`, and its process is draining when it has received a
SIGUSR1 and no SIGUSR2 since it started.
-/
structure Container where
  id : String
  name : String
  image : String
  config : Config
  running : Bool
  started : Nat
  draining : Bool
  deriving DecidableEq, Repr

/-- `State.Health.Status` -/
inductive Health
  | none
  | starting
  | healthy
  | unhealthy
  deriving DecidableEq, Repr

/-- What an inspection reports: only a running container is healthy. -/
def Container.healthy (container : Container) (health : Health) : Bool :=
  container.running && health = .healthy

structure Docker where
  containers : List Container
  used : List String
  clock : Nat
  deriving DecidableEq, Repr

inductive Signal
  | usr1
  | usr2
  deriving DecidableEq, Repr

/-- A request that changes something; the daemon chooses the id of a new container. -/
inductive Request
  | kill (id : String) (signal : Signal)
  | stop (id : String)
  | start (id : String)
  | rename (id name : String)
  | create (name id image : String) (config : Config)
  | remove (id : String)
  deriving DecidableEq, Repr

namespace Docker

def byId (docker : Docker) (id : String) : Option Container :=
  Table.lookup Container.id id docker.containers

def byName (docker : Docker) (name : String) : Option Container :=
  Table.lookup Container.name name docker.containers

/-- The daemon with one container changed. -/
def change (docker : Docker) (id : String) (f : Container → Container) : Docker :=
  { docker with containers := Table.change Container.id id f docker.containers }

/-- A new process begins in a container. -/
def begin (docker : Docker) (id : String) : Docker :=
  { docker.change id (fun container =>
      { container with running := true, started := docker.clock + 1, draining := false }) with
    clock := docker.clock + 1 }

/-- What a request does, or nothing where the daemon answers with an error; a container that runs
is not started and one that does not is not stopped.
-/
def perform (docker : Docker) : Request → Option Docker
  | .kill id signal =>
      if (docker.byId id).any Container.running then
        some
          (docker.change id (fun container => { container with draining := signal = .usr1 }))
      else
        none
  | .stop id =>
      if (docker.byId id).any Container.running then
        some
          (docker.change id (fun container =>
            { container with running := false, draining := false }))
      else
        none
  | .start id =>
      if (docker.byId id).any (fun container => !container.running) then
        some (docker.begin id)
      else
        none
  | .rename id name =>
      if (docker.byId id).isSome && (docker.byName name).isNone then
        some (docker.change id (fun container => { container with name }))
      else
        none
  | .create name id image config =>
      if (docker.byName name).isNone && id ∉ docker.used then
        some
          { docker with
            containers := docker.containers ++ [⟨id, name, image, config, false, 0, false⟩]
            used := id :: docker.used }
      else
        none
  | .remove id =>
      if (docker.byId id).isSome then
        some
          { docker with
            containers := Table.delete (fun container => container.id = id) docker.containers }
      else
        none

end Docker

end Transcriber.Updater
