import Transcriber.Updater.Moves
import Transcriber.Updater.Requests

/-! The four situations of a pending entry's old container and its replacement, and the calls that
lead from one to another.
-/

namespace Transcriber.Updater

open Function

/-- An updater about to start, on containers with no update pending. -/
structure State.Starts (s : State) : Prop where
  wf : s.docker.Wf
  idle : s.pc = .idle
  settled : s.journal.pending = none

/-- A configuration that an update makes of an old one. -/
def Replaces (old new : Config) : Prop :=
  ∃ image imageId oldDefaults newDefaults,
    new = replacement old image imageId oldDefaults newDefaults

/-- The old container stands under its name. -/
structure Intact (project : String) (entry : Pending) (docker : Docker) (old : Container)
    : Prop where
  found : docker.byId entry.old = some old
  bound : docker.byName entry.name = some old
  managed : old.config.managed project = true

/-- The old container is stopped and renamed, and its name is free. -/
structure BackedUp (project : String) (entry : Pending) (docker : Docker) (old : Container)
    : Prop where
  found : docker.byId entry.old = some old
  free : docker.byName entry.name = none
  managed : old.config.managed project = true
  stopped : old.running = false

/-- The old container is stopped and its replacement has its name. -/
structure Replaced (project : String) (entry : Pending) (docker : Docker) (old new : Container)
    : Prop where
  found : docker.byId entry.old = some old
  bound : docker.byName entry.name = some new
  apart : new.id ≠ entry.old
  managed : old.config.managed project = true
  stopped : old.running = false
  replaces : Replaces old.config new.config

/-- The old container is gone, for a replacement that is managed and runs. -/
structure Committed (project : String) (entry : Pending) (docker : Docker) (new : Container)
    : Prop where
  gone : docker.byId entry.old = none
  bound : docker.byName entry.name = some new
  managed : new.config.managed project = true
  running : new.running = true

inductive Situation (project : String) (entry : Pending) (docker : Docker) : Prop
  | intact {old : Container} (intact : Intact project entry docker old)
  | backedUp {old : Container} (backedUp : BackedUp project entry docker old)
  | replaced {old new : Container} (replaced : Replaced project entry docker old new)
  | committed {new : Container} (committed : Committed project entry docker new)

/-- The calls that are made in each situation. -/
inductive Allowed (project : String) (entry : Pending) (docker : Docker) : Request → Prop
  | signal (signal : Signal) {old : Container} (intact : Intact project entry docker old)
    : Allowed project entry docker (.kill entry.old signal)
  | stop {old : Container} (intact : Intact project entry docker old)
    : Allowed project entry docker (.stop entry.old)
  | restart {old : Container} (intact : Intact project entry docker old)
    : Allowed project entry docker (.start entry.old)
  | backUp (name : String) {old : Container} (intact : Intact project entry docker old)
    (stopped : old.running = false)
    : Allowed project entry docker (.rename entry.old name)
  | create (id image : String) (config : Config) {old : Container}
    (backedUp : BackedUp project entry docker old) (replaces : Replaces old.config config)
    : Allowed project entry docker (.create entry.name id image config)
  | start {old new : Container} (replaced : Replaced project entry docker old new)
    : Allowed project entry docker (.start new.id)
  | commit {old new : Container} (replaced : Replaced project entry docker old new)
    (managed : new.config.managed project = true) (running : new.running = true)
    : Allowed project entry docker (.remove entry.old)
  | discard {old new : Container} (replaced : Replaced project entry docker old new)
    : Allowed project entry docker (.remove new.id)
  | restore {old : Container} (backedUp : BackedUp project entry docker old)
    : Allowed project entry docker (.rename entry.old entry.name)

variable {project : String} {entry : Pending} {docker next : Docker} {old new after : Container}
variable {request : Request}

/-- The device of the samples starts well formed. -/
theorem device_starts : device.Starts :=
  ⟨⟨by decide, by decide, by decide⟩, rfl, rfl⟩

namespace Intact

theorem id (intact : Intact project entry docker old) : old.id = entry.old :=
  Docker.byId_id intact.found

theorem name (intact : Intact project entry docker old) : old.name = entry.name :=
  Docker.byName_name intact.bound

/-- The old container may be changed in place. -/
theorem change (intact : Intact project entry docker old)
    (changes : docker.Changes next old after) (name : after.name = old.name)
    (config : after.config = old.config)
    : Intact project entry next after where
  found := by rw [changes.byId, intact.id, update_self]
  bound := by rw [changes.byName, name, intact.name, update_self]
  managed := config ▸ intact.managed

/-- A stopped old container may be renamed to a free name. -/
theorem backUp (intact : Intact project entry docker old) (stopped : old.running = false)
    {name : String} (free : docker.byName name = none)
    (changes : docker.Changes next old { old with name })
    : BackedUp project entry next { old with name } where
  found := by rw [changes.byId, intact.id, update_self]
  free := by
    have differs : entry.name ≠ name := by
      rintro rfl
      cases intact.bound.symm.trans free
    rw [changes.byName, update_of_ne differs, intact.name, update_self]
  managed := intact.managed
  stopped := stopped

/-- A signal to the old container. -/
theorem kill {signal : Signal} (intact : Intact project entry docker old)
    (effect : docker.Effect (.kill entry.old signal) next)
    : Intact project entry next { old with draining := signal = .usr1 } ∧ old.running = true := by
  obtain ⟨old, found, running, changes⟩ := effect.of_kill
  cases intact.found.symm.trans found
  exact ⟨intact.change changes rfl rfl, running⟩

theorem stop (intact : Intact project entry docker old)
    (effect : docker.Effect (.stop entry.old) next)
    : Intact project entry next { old with running := false, draining := false } := by
  obtain ⟨old, found, _, changes⟩ := effect.of_stop
  cases intact.found.symm.trans found
  exact intact.change changes rfl rfl

theorem start (intact : Intact project entry docker old)
    (effect : docker.Effect (.start entry.old) next)
    : ∃ started,
        Intact project entry next { old with running := true, started, draining := false } := by
  obtain ⟨old, started, found, _, changes⟩ := effect.of_start
  cases intact.found.symm.trans found
  exact ⟨started, intact.change changes rfl rfl⟩

theorem rename {name : String} (intact : Intact project entry docker old)
    (stopped : old.running = false) (effect : docker.Effect (.rename entry.old name) next)
    : BackedUp project entry next { old with name } := by
  obtain ⟨old, found, free, changes⟩ := effect.of_rename
  cases intact.found.symm.trans found
  exact intact.backUp stopped free changes

end Intact

namespace BackedUp

theorem id (backedUp : BackedUp project entry docker old) : old.id = entry.old :=
  Docker.byId_id backedUp.found

/-- The replacement is created under the free name. -/
theorem create (wf : docker.Wf) (backedUp : BackedUp project entry docker old)
    (adds : docker.Adds next new) (name : new.name = entry.name)
    (replaces : Replaces old.config new.config)
    : Replaced project entry next old new := by
  have differs : new.id ≠ entry.old := by
    intro same
    exact adds.fresh (same ▸ wf.used_of_byId backedUp.found)
  refine ⟨?_, ?_, differs, backedUp.managed, backedUp.stopped, replaces⟩
  · rw [adds.byId, update_of_ne differs.symm]
    exact backedUp.found
  · rw [adds.byName, name, update_self]

/-- The old container gets its name back. -/
theorem restore (backedUp : BackedUp project entry docker old)
    (changes : docker.Changes next old { old with name := entry.name })
    : Intact project entry next { old with name := entry.name } where
  found := by rw [changes.byId, backedUp.id, update_self]
  bound := by rw [changes.byName, update_self]
  managed := backedUp.managed

theorem rename (backedUp : BackedUp project entry docker old)
    (effect : docker.Effect (.rename entry.old entry.name) next)
    : Intact project entry next { old with name := entry.name } := by
  obtain ⟨old, found, _, changes⟩ := effect.of_rename
  cases backedUp.found.symm.trans found
  exact backedUp.restore changes

end BackedUp

namespace Replaced

theorem id (replaced : Replaced project entry docker old new) : old.id = entry.old :=
  Docker.byId_id replaced.found

theorem name (replaced : Replaced project entry docker old new) : new.name = entry.name :=
  Docker.byName_name replaced.bound

/-- The old container has another name. -/
theorem renamed (wf : docker.Wf) (replaced : Replaced project entry docker old new)
    : old.name ≠ entry.name := by
  intro same
  have named := wf.byName_of_byId replaced.found
  rw [same, replaced.bound] at named
  cases named
  exact replaced.apart replaced.id

/-- The replacement may be changed in place. -/
theorem change (replaced : Replaced project entry docker old new)
    (changes : docker.Changes next new after) (name : after.name = new.name)
    (config : after.config = new.config)
    : Replaced project entry next old after where
  found := by rw [changes.byId, update_of_ne replaced.apart.symm, replaced.found]
  bound := by rw [changes.byName, name, replaced.name, update_self]
  apart := changes.id ▸ replaced.apart
  managed := replaced.managed
  stopped := replaced.stopped
  replaces := config ▸ replaced.replaces

/-- The old container is removed. -/
theorem commit (wf : docker.Wf) (replaced : Replaced project entry docker old new)
    (managed : new.config.managed project = true) (running : new.running = true)
    (removes : docker.Removes next old)
    : Committed project entry next new where
  gone := by rw [removes.byId, replaced.id, update_self]
  bound := by
    rw [removes.byName, update_of_ne (replaced.renamed wf).symm]
    exact replaced.bound
  managed := managed
  running := running

/-- The replacement is removed. -/
theorem discard (replaced : Replaced project entry docker old new)
    (removes : docker.Removes next new)
    : BackedUp project entry next old where
  found := by rw [removes.byId, update_of_ne replaced.apart.symm, replaced.found]
  free := by rw [removes.byName, replaced.name, update_self]
  managed := replaced.managed
  stopped := replaced.stopped

/-- The replacement is found by its id too. -/
theorem foundNew (wf : docker.Wf) (replaced : Replaced project entry docker old new)
    : docker.byId new.id = some new :=
  wf.byId_of_byName replaced.bound

theorem start (wf : docker.Wf) (replaced : Replaced project entry docker old new)
    (effect : docker.Effect (.start new.id) next)
    : ∃ started,
        Replaced project entry next old
          { new with running := true, started, draining := false } := by
  obtain ⟨new, started, found, _, changes⟩ := effect.of_start
  cases (replaced.foundNew wf).symm.trans found
  exact ⟨started, replaced.change changes rfl rfl⟩

theorem removeOld (wf : docker.Wf) (replaced : Replaced project entry docker old new)
    (managed : new.config.managed project = true) (running : new.running = true)
    (effect : docker.Effect (.remove entry.old) next)
    : Committed project entry next new := by
  obtain ⟨old, found, removes⟩ := effect.of_remove
  cases replaced.found.symm.trans found
  exact replaced.commit wf managed running removes

theorem removeNew (wf : docker.Wf) (replaced : Replaced project entry docker old new)
    (effect : docker.Effect (.remove new.id) next)
    : BackedUp project entry next old := by
  obtain ⟨new, found, removes⟩ := effect.of_remove
  cases (replaced.foundNew wf).symm.trans found
  exact replaced.discard removes

end Replaced

/-- A call that its situation allows leads to a situation again. -/
theorem Allowed.situation (wf : docker.Wf) (allowed : Allowed project entry docker request)
    (effect : docker.Effect request next)
    : Situation project entry next := by
  cases allowed with
  | signal signal intact => exact .intact (intact.kill effect).1
  | stop intact => exact .intact (intact.stop effect)
  | restart intact =>
      obtain ⟨started, intact⟩ := intact.start effect
      exact .intact intact
  | backUp name intact stopped => exact .backedUp (intact.rename stopped effect)
  | create id image config backedUp replaces =>
      exact .replaced (backedUp.create wf effect.of_create rfl replaces)
  | start replaced =>
      obtain ⟨started, replaced⟩ := replaced.start wf effect
      exact .replaced replaced
  | commit replaced managed running =>
      exact .committed (replaced.removeOld wf managed running effect)
  | discard replaced => exact .backedUp (replaced.removeNew wf effect)
  | restore backedUp => exact .intact (backedUp.rename effect)

end Transcriber.Updater
