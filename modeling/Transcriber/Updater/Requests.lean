import Transcriber.Updater.Docker

/-! What each request does to the lookups by id and by name, for containers with distinct ids,
none of which is used again, and distinct names.
-/

namespace Transcriber.Updater

structure Docker.Wf (docker : Docker) : Prop where
  ids : (docker.containers.map Container.id).Nodup
  names : (docker.containers.map Container.name).Nodup
  used : ∀ container ∈ docker.containers, container.id ∈ docker.used

namespace Docker

open Function

variable {docker next : Docker} {container old new : Container} {id name : String}

theorem byId_id (found : docker.byId id = some container) : container.id = id :=
  Table.lookup_key found

theorem byName_name (found : docker.byName name = some container) : container.name = name :=
  Table.lookup_key found

namespace Wf

variable (wf : docker.Wf)
include wf

/-- A container is found by its id exactly where it is found by its name. -/
theorem byName_of_byId (found : docker.byId id = some container)
    : docker.byName container.name = some container :=
  Table.lookup_of_mem wf.names (Table.lookup_mem found)

theorem byId_of_byName (found : docker.byName name = some container)
    : docker.byId container.id = some container :=
  Table.lookup_of_mem wf.ids (Table.lookup_mem found)

theorem byId_of_mem (member : container ∈ docker.containers)
    : docker.byId container.id = some container :=
  Table.lookup_of_mem wf.ids member

theorem used_of_byId (found : docker.byId id = some container) : id ∈ docker.used := by
  have used := wf.used container (Table.lookup_mem found)
  rwa [byId_id found] at used

end Wf

-----------------------------------------------------------------------------------------
-- Effects
-----------------------------------------------------------------------------------------

/-- One container has changed, with its name if that was free. -/
structure Changes (docker next : Docker) (old new : Container) : Prop where
  found : docker.byId old.id = some old
  id : new.id = old.id
  free : new.name = old.name ∨ docker.byName new.name = none
  byId : next.byId = update docker.byId old.id (some new)
  byName : next.byName = update (update docker.byName old.name none) new.name (some new)
  used : next.used = docker.used

/-- One container has been added. -/
structure Adds (docker next : Docker) (new : Container) : Prop where
  fresh : new.id ∉ docker.used
  free : docker.byName new.name = none
  byId : next.byId = update docker.byId new.id (some new)
  byName : next.byName = update docker.byName new.name (some new)
  used : next.used = new.id :: docker.used

/-- One container has been removed. -/
structure Removes (docker next : Docker) (old : Container) : Prop where
  found : docker.byId old.id = some old
  byId : next.byId = update docker.byId old.id none
  byName : next.byName = update docker.byName old.name none
  used : next.used = docker.used

/-- What a request that succeeds does. -/
inductive Effect (docker : Docker) : Request → Docker → Prop
  | kill (signal : Signal) {old : Container} {next : Docker} (running : old.running = true)
    (changes : docker.Changes next old { old with draining := signal = .usr1 })
    : Effect docker (.kill old.id signal) next
  | stop {old : Container} {next : Docker} (running : old.running = true)
    (changes : docker.Changes next old { old with running := false, draining := false })
    : Effect docker (.stop old.id) next
  | start (started : Nat) {old : Container} {next : Docker} (stopped : old.running = false)
    (changes : docker.Changes next old { old with running := true, started, draining := false })
    : Effect docker (.start old.id) next
  | rename (name : String) {old : Container} {next : Docker}
    (free : docker.byName name = none) (changes : docker.Changes next old { old with name })
    : Effect docker (.rename old.id name) next
  | create (name id image : String) (config : Config) {next : Docker}
    (adds : docker.Adds next ⟨id, name, image, config, false, 0, false⟩)
    : Effect docker (.create name id image config) next
  | remove {old : Container} {next : Docker} (removes : docker.Removes next old)
    : Effect docker (.remove old.id) next

namespace Effect

theorem of_kill {signal : Signal} (effect : docker.Effect (.kill id signal) next)
    : ∃ old,
        docker.byId id = some old ∧ old.running = true
        ∧ docker.Changes next old { old with draining := signal = .usr1 } := by
  cases effect with
  | @kill _ old _ running changes => exact ⟨old, changes.found, running, changes⟩

theorem of_stop (effect : docker.Effect (.stop id) next)
    : ∃ old,
        docker.byId id = some old ∧ old.running = true
        ∧ docker.Changes next old { old with running := false, draining := false } := by
  cases effect with
  | @stop old _ running changes => exact ⟨old, changes.found, running, changes⟩

theorem of_start (effect : docker.Effect (.start id) next)
    : ∃ old started,
        docker.byId id = some old ∧ old.running = false
        ∧ docker.Changes next old { old with running := true, started, draining := false } := by
  cases effect with
  | @start started old _ stopped changes =>
      exact ⟨old, started, changes.found, stopped, changes⟩

theorem of_rename (effect : docker.Effect (.rename id name) next)
    : ∃ old,
        docker.byId id = some old ∧ docker.byName name = none
        ∧ docker.Changes next old { old with name } := by
  cases effect with
  | @rename _ old _ free changes => exact ⟨old, changes.found, free, changes⟩

theorem of_create {image : String} {config : Config}
    (effect : docker.Effect (.create name id image config) next)
    : docker.Adds next ⟨id, name, image, config, false, 0, false⟩ := by
  cases effect with
  | create _ _ _ _ adds => exact adds

theorem of_remove (effect : docker.Effect (.remove id) next)
    : ∃ old, docker.byId id = some old ∧ docker.Removes next old := by
  cases effect with
  | @remove old _ removes => exact ⟨old, removes.found, removes⟩

end Effect

/-- The used ids stay used. -/
theorem Effect.used {request : Request} (effect : docker.Effect request next)
    (used : id ∈ docker.used)
    : id ∈ next.used := by
  cases effect with
  | kill _ _ changes | stop _ changes | start _ _ changes | rename _ _ changes =>
      exact changes.used ▸ used
  | create _ _ _ _ adds => exact adds.used ▸ List.mem_cons_of_mem _ used
  | remove removes => exact removes.used ▸ used

theorem Changes.gone (changes : docker.Changes next old new) (gone : docker.byId id = none)
    : next.byId id = none := by
  have differs : id ≠ old.id := by
    rintro rfl
    cases changes.found.symm.trans gone
  rw [changes.byId, update_of_ne differs, gone]

/-- A container that is gone does not come back. -/
theorem Effect.gone {request : Request} (effect : docker.Effect request next)
    (used : id ∈ docker.used) (gone : docker.byId id = none)
    : next.byId id = none := by
  cases effect with
  | kill _ _ changes | stop _ changes | start _ _ changes | rename _ _ changes =>
      exact changes.gone gone
  | create name new image config adds =>
      have differs : id ≠ new := by
        rintro rfl
        exact adds.fresh used
      rw [adds.byId, update_of_ne differs, gone]
  | @remove old _ removes =>
      rw [removes.byId, update_apply]
      split
      · rfl
      · exact gone

/-- A name stays with a container that is not changed, where the changed one takes another. -/
theorem Changes.frame (wf : docker.Wf) (changes : docker.Changes next old new)
    (bound : docker.byName name = some container) (other : container.id ≠ old.id)
    : next.byName name = some container := by
  have before : name ≠ old.name := by
    rintro rfl
    have own := wf.byName_of_byId changes.found
    rw [bound] at own
    cases own
    exact other rfl
  have after : name ≠ new.name := by
    rintro rfl
    rcases changes.free with same | free
    · exact before same
    · cases bound.symm.trans free
  rw [changes.byName, update_of_ne after, update_of_ne before, bound]

theorem Removes.frame (wf : docker.Wf) (removes : docker.Removes next old)
    (bound : docker.byName name = some container) (other : container.id ≠ old.id)
    : next.byName name = some container := by
  have before : name ≠ old.name := by
    rintro rfl
    have own := wf.byName_of_byId removes.found
    rw [bound] at own
    cases own
    exact other rfl
  rw [removes.byName, update_of_ne before, bound]

/-- The container that a request names. -/
def target : Request → String
  | .kill id _ | .stop id | .start id | .rename id _ | .create _ id _ _ | .remove id => id

/-- A request leaves the name of every container that it does not name. -/
theorem Effect.frame {request : Request} (wf : docker.Wf) (effect : docker.Effect request next)
    (bound : docker.byName name = some container) (other : container.id ≠ target request)
    : next.byName name = some container := by
  cases effect with
  | kill _ _ changes | stop _ changes | start _ _ changes | rename _ _ changes =>
      exact changes.frame wf bound other
  | create free id image config adds =>
      have differs : name ≠ free := by
        rintro rfl
        cases bound.symm.trans adds.free
      rw [adds.byName, update_of_ne differs, bound]
  | remove removes => exact removes.frame wf bound other

/-- A change of the container under an id, as long as it keeps its id. -/
theorem change_changes (wf : docker.Wf) (found : docker.byId id = some old)
    {f : Container → Container} (keeps : ∀ container, (f container).id = container.id)
    (free : (f old).name = old.name ∨ docker.byName (f old).name = none)
    : docker.Changes (docker.change id f) old (f old) ∧ (docker.change id f).Wf := by
  obtain rfl := byId_id found
  refine ⟨⟨found, keeps old, free, ?_, ?_, rfl⟩, ?_, ?_, ?_⟩
  · exact Table.lookup_change wf.ids keeps found
  · exact Table.lookup_change_other wf.ids wf.names found free
  · exact (Table.keys_change keeps).symm ▸ wf.ids
  · exact Table.nodup_change wf.ids wf.names found free
  · intro container member
    rcases (Table.mem_change wf.ids found).mp member with rfl | ⟨stored, _⟩
    · rw [keeps]
      exact wf.used old (Table.lookup_mem found)
    · exact wf.used container stored

theorem begin_changes (wf : docker.Wf) (found : docker.byId id = some old)
    : docker.Changes (docker.begin id) old
        { old with running := true, started := docker.clock + 1, draining := false }
      ∧ (docker.begin id).Wf := by
  obtain ⟨changes, kept⟩ := change_changes wf found
    (f := fun container =>
      { container with running := true, started := docker.clock + 1, draining := false })
    (fun _ => rfl) (.inl rfl)
  exact ⟨⟨changes.found, changes.id, changes.free, changes.byId, changes.byName, changes.used⟩,
    kept.ids, kept.names, kept.used⟩

/-- Each request that succeeds has its effect, by cases on it. -/
theorem perform_effect (wf : docker.Wf) {request : Request}
    (done : docker.perform request = some next)
    : docker.Effect request next ∧ next.Wf := by
  cases request with
  | kill id signal =>
      simp only [perform] at done
      split at done <;> cases done
      rename_i ready
      obtain ⟨old, found, running⟩ := (Option.any_eq_true _ _).mp ready
      obtain ⟨changes, kept⟩ := change_changes wf found
        (f := fun container => { container with draining := signal = .usr1 }) (fun _ => rfl)
        (.inl rfl)
      obtain rfl := byId_id found
      exact ⟨.kill signal running changes, kept⟩
  | stop id =>
      simp only [perform] at done
      split at done <;> cases done
      rename_i ready
      obtain ⟨old, found, running⟩ := (Option.any_eq_true _ _).mp ready
      obtain ⟨changes, kept⟩ := change_changes wf found
        (f := fun container => { container with running := false, draining := false })
        (fun _ => rfl) (.inl rfl)
      obtain rfl := byId_id found
      exact ⟨.stop running changes, kept⟩
  | start id =>
      simp only [perform] at done
      split at done <;> cases done
      rename_i ready
      obtain ⟨old, found, stopped⟩ := (Option.any_eq_true _ _).mp ready
      obtain ⟨changes, kept⟩ := begin_changes wf found
      obtain rfl := byId_id found
      exact ⟨.start _ (by simpa using stopped) changes, kept⟩
  | rename id name =>
      simp only [perform] at done
      split at done <;> cases done
      rename_i ready
      obtain ⟨here, free⟩ := Bool.and_eq_true_iff.mp ready
      obtain ⟨old, found⟩ := Option.isSome_iff_exists.mp here
      obtain ⟨changes, kept⟩ := change_changes wf found
        (f := fun container => { container with name }) (fun _ => rfl)
        (.inr (Option.isNone_iff_eq_none.mp free))
      obtain rfl := byId_id found
      exact ⟨.rename name (Option.isNone_iff_eq_none.mp free) changes, kept⟩
  | create name id image config =>
      simp only [perform] at done
      split at done <;> cases done
      rename_i ready
      obtain ⟨unbound, new⟩ := Bool.and_eq_true_iff.mp ready
      have free := Option.isNone_iff_eq_none.mp unbound
      have fresh : id ∉ docker.used := by simpa using new
      have absent : docker.byId id = none := by
        cases here : docker.byId id with
        | none => rfl
        | some old => exact absurd (wf.used_of_byId here) fresh
      refine ⟨.create _ _ _ _ ⟨fresh, free, ?_, ?_, rfl⟩, ?_, ?_, ?_⟩
      · exact Table.lookup_add absent
      · exact Table.lookup_add free
      · exact Table.nodup_append_singleton wf.ids absent
      · exact Table.nodup_append_singleton wf.names free
      · intro container member
        rcases List.mem_append.mp member with stored | added
        · exact List.mem_cons_of_mem _ (wf.used container stored)
        · rw [List.mem_singleton.mp added]
          exact List.mem_cons_self
  | remove id =>
      simp only [perform] at done
      split at done <;> cases done
      rename_i ready
      obtain ⟨old, found⟩ := Option.isSome_iff_exists.mp ready
      obtain rfl := byId_id found
      refine ⟨.remove ⟨found, ?_, ?_, rfl⟩, ?_, ?_, ?_⟩
      · exact Table.lookup_remove_other wf.ids wf.ids found
      · exact Table.lookup_remove_other wf.ids wf.names found
      · exact Table.nodup_delete wf.ids _
      · exact Table.nodup_delete wf.names _
      · exact fun container member => wf.used container (List.mem_of_mem_filter member)

end Docker

end Transcriber.Updater
