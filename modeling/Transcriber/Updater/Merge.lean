import Transcriber.Library.Overlay
import Transcriber.Updater.Docker

/-! `replacement` as a three-way merge of a container's configuration, the defaults of the image
it was made from and those of the new image, under the rule by which Docker fills in what a
create request lacks.
-/

namespace Transcriber.Updater

open Overlay

-----------------------------------------------------------------------------------------
-- The create rule
-----------------------------------------------------------------------------------------

/-- A value that is neither a missing key nor null. -/
def present : Option Value → Option Value
  | some .null => none
  | value => value

/-- The variable of an `Env` entry: the text before its first `=`. -/
def variableOf (entry : String) : String :=
  String.ofList (entry.toList.takeWhile (· ≠ '='))

/-- The configuration that a container gets from its image and its create request. -/
def effective (image : Defaults) (request : Config) : Config :=
  { request with
    labels := mergeLabels image.labels request.labels
    env := overlay variableOf request.env image.env
    cmd :=
      (present request.cmd).or
        (if present request.entrypoint = none then present image.cmd else none)
    entrypoint := (present request.entrypoint).or (present image.entrypoint)
    workingDir := (present request.workingDir).or (present image.workingDir) }

/-- An inspection of a container that the rule made from an image; its labels may come in any
order, and what the container lacks may be null or missing.
-/
structure Inspected (image : Defaults) (request config : Config) : Prop where
  distinct : (config.labels.map Prod.fst).Nodup
  labels : ∀ key, config.labels.lookup key = (effective image request).labels.lookup key
  env : config.env = (effective image request).env
  cmd : present config.cmd = (effective image request).cmd
  entrypoint : present config.entrypoint = (effective image request).entrypoint
  workingDir : present config.workingDir = (effective image request).workingDir

/-- The container's own values where they differ from the old image's defaults, and the new
image's elsewhere; the reference of the new image, and the other fields as they were.
-/
structure ThreeWay (old : Config) (image : String) (oldDefaults newDefaults : Defaults)
    (made : Config) : Prop where
  env
    : ∀ name,
        setting variableOf name made.env
          = merged (setting variableOf name old.env) (setting variableOf name oldDefaults.env)
              (setting variableOf name newDefaults.env)
  labels
    : ∀ key ≠ "com.docker.compose.image",
        made.labels.lookup key
          = merged (old.labels.lookup key) (oldDefaults.labels.lookup key)
              (newDefaults.labels.lookup key)
  cmd
    : present made.cmd
      = merged (present old.cmd) (present oldDefaults.cmd) (present newDefaults.cmd)
  entrypoint
    : present made.entrypoint
      = merged (present old.entrypoint) (present oldDefaults.entrypoint)
          (present newDefaults.entrypoint)
  workingDir
    : present made.workingDir
      = merged (present old.workingDir) (present oldDefaults.workingDir)
          (present newDefaults.workingDir)
  image : made.image = image
  hostname
    : old.host.networkMode.startsWith "container:" = false → made.hostname = old.hostname
  domainname
    : old.host.networkMode.startsWith "container:" = false → made.domainname = old.domainname
  others : made.others = old.others
  networkMode : made.host.networkMode = old.host.networkMode
  hostOthers : made.host.others = old.host.others

-----------------------------------------------------------------------------------------
-- Single values
-----------------------------------------------------------------------------------------

@[simp]
theorem present_present (value : Option Value)
    : present (present value) = present value := by
  rcases value with _ | (_ | _ | _) <;> rfl

@[simp]
theorem present_or (value other : Option Value)
    : present ((present value).or (present other)) = (present value).or (present other) := by
  rcases value with _ | (_ | _ | _)
  · exact present_present other
  · exact present_present other
  · rfl
  · rfl

/-- A command that Docker fills in is already present or absent. -/
theorem present_or_image (value other : Option Value) (fill : Prop) [Decidable fill]
    : present ((present value).or (if fill then present other else none))
      = (present value).or (if fill then present other else none) := by
  by_cases holds : fill
  · rw [if_pos holds, present_or]
  · rw [if_neg holds, Option.or_none, present_present]

/-- A value is popped where it is the default's, be it missing or null. -/
theorem present_popDefault (value default : Option Value)
    : present (popDefault value default)
      = if present value = present default then none else present value := by
  rcases default with _ | default
  · rcases value with _ | (_ | _ | _) <;> simp [popDefault, present]
  · rcases value with _ | value
    · cases default <;> simp [popDefault, present]
    · cases value <;> cases default <;> simp [popDefault, present]

-----------------------------------------------------------------------------------------
-- Labels
-----------------------------------------------------------------------------------------

theorem lookup_filter_key (labels : Labels) (keep : String → Bool) (key : String)
    : (labels.filter (fun entry => keep entry.1)).lookup key
      = if keep key then labels.lookup key else none := by
  induction labels with
  | nil => simp
  | cons entry rest ih =>
      obtain ⟨label, value⟩ := entry
      by_cases same : key = label
      · subst same
        cases kept : keep key with
        | true => simp [kept]
        | false => rw [List.filter_cons_of_neg (by simp [kept]), ih, kept]; rfl
      · have differs : (key == label) = false := by simpa using same
        cases kept : keep label <;> simp [kept, List.lookup_cons, differs, ih]

/-- With distinct keys a filter keeps or drops the value of a key, by induction on the labels. -/
theorem lookup_filter {labels : Labels} (distinct : (labels.map Prod.fst).Nodup)
    (keep : String × String → Bool) (key : String)
    : (labels.filter keep).lookup key
      = (labels.lookup key).filter (fun value => keep (key, value)) := by
  induction labels with
  | nil => rfl
  | cons entry rest ih =>
      obtain ⟨label, value⟩ := entry
      rw [List.map_cons, List.nodup_cons] at distinct
      have left := ih distinct.2
      by_cases same : key = label
      · subst same
        have absent : rest.lookup key = none := by
          rw [List.lookup_eq_none_iff]
          intro entry member
          rw [bne_iff_ne]
          rintro rfl
          exact distinct.1 (List.mem_map.mpr ⟨entry, member, rfl⟩)
        rw [absent] at left
        cases kept : keep (key, value) with
        | true => simp [kept, Option.filter]
        | false => simp [kept, left, Option.filter]
      · have differs : (key == label) = false := by simpa using same
        cases kept : keep (label, value) <;> simp [kept, List.lookup_cons, differs, left]

theorem lookup_mergeLabels (defaults labels : Labels) (key : String)
    : (mergeLabels defaults labels).lookup key
      = (labels.lookup key).or (defaults.lookup key) := by
  rw [mergeLabels, List.lookup_append,
    lookup_filter_key defaults (fun key => (labels.lookup key).isNone)]
  cases labels.lookup key <;> simp

/-- The labels of a replacement before Docker adds the image's. -/
theorem lookup_replacement {old : Config} {image imageId : String}
    {oldDefaults newDefaults : Defaults} {key : String}
    (distinct : (old.labels.map Prod.fst).Nodup) (other : key ≠ "com.docker.compose.image")
    : (replacement old image imageId oldDefaults newDefaults).labels.lookup key
      = ((old.labels.lookup key).filter
          (fun value => oldDefaults.labels.lookup key ≠ some value)).or
        (newDefaults.labels.lookup key) := by
  have apart : (key == "com.docker.compose.image") = false := by simpa using other
  simp only [replacement, lookup_mergeLabels, lookup_filter distinct]
  simp [List.lookup_cons, apart]

/-- Every label but the release's own is merged. -/
theorem labels_merged {old request : Config} {image imageId : String}
    {oldDefaults newDefaults : Defaults} {key : String}
    (inspected : Inspected oldDefaults request old) (other : key ≠ "com.docker.compose.image")
    : (effective newDefaults
          (replacement old image imageId oldDefaults newDefaults)).labels.lookup key
      = merged (old.labels.lookup key) (oldDefaults.labels.lookup key)
          (newDefaults.labels.lookup key) := by
  have inherited : old.labels.lookup key = none → oldDefaults.labels.lookup key = none := by
    intro absent
    rw [inspected.labels, effective, lookup_mergeLabels, Option.or_eq_none_iff] at absent
    exact absent.2
  rw [← filled_eq_merged inherited, effective, lookup_mergeLabels,
    lookup_replacement inspected.distinct other, Option.or_assoc, Option.or_self]
  congr 1
  cases own : old.labels.lookup key with
  | none => simp
  | some value =>
      by_cases same : oldDefaults.labels.lookup key = some value
      · simp [same, Option.filter]
      · simp [same, Option.filter, Ne.symm same]

-----------------------------------------------------------------------------------------
-- Entrypoint, working directory and environment
-----------------------------------------------------------------------------------------

theorem entrypoint_merged {old request : Config} {image imageId : String}
    {oldDefaults newDefaults : Defaults} (inspected : Inspected oldDefaults request old)
    : (effective newDefaults
          (replacement old image imageId oldDefaults newDefaults)).entrypoint
      = merged (present old.entrypoint) (present oldDefaults.entrypoint)
          (present newDefaults.entrypoint) := by
  have inherited : present old.entrypoint = none → present oldDefaults.entrypoint = none := by
    intro absent
    rw [inspected.entrypoint, effective, Option.or_eq_none_iff] at absent
    exact absent.2
  rw [← filled_eq_merged inherited, ← present_popDefault]
  rfl

theorem workingDir_merged {old request : Config} {image imageId : String}
    {oldDefaults newDefaults : Defaults} (inspected : Inspected oldDefaults request old)
    : (effective newDefaults
          (replacement old image imageId oldDefaults newDefaults)).workingDir
      = merged (present old.workingDir) (present oldDefaults.workingDir)
          (present newDefaults.workingDir) := by
  have inherited : present old.workingDir = none → present oldDefaults.workingDir = none := by
    intro absent
    rw [inspected.workingDir, effective, Option.or_eq_none_iff] at absent
    exact absent.2
  rw [← filled_eq_merged inherited, ← present_popDefault]
  rfl

/-- A variable is merged exactly where its entries are settled. -/
theorem env_merged_iff {old request : Config} {image imageId : String}
    {oldDefaults newDefaults : Defaults} (inspected : Inspected oldDefaults request old)
    (name : String)
    : setting variableOf name
          (effective newDefaults (replacement old image imageId oldDefaults newDefaults)).env
        = merged (setting variableOf name old.env) (setting variableOf name oldDefaults.env)
            (setting variableOf name newDefaults.env)
      ↔ Settled variableOf old.env oldDefaults.env newDefaults.env name := by
  apply merge_iff
  intro absent
  rw [inspected.env, effective, setting_overlay, Option.or_eq_none_iff] at absent
  exact absent.2

-----------------------------------------------------------------------------------------
-- The command
-----------------------------------------------------------------------------------------

/-- When the command is merged. With a default command in the new image, an inherited command
needs an inherited entrypoint, or one that is not empty and a null command that both sides spell
alike; a cleared command needs an entrypoint of its own, which is empty or beside a null command.
-/
def CommandSettled (old : Config) (oldDefaults newDefaults : Defaults) : Prop :=
  present newDefaults.cmd = none
  ∨ if present old.cmd = present oldDefaults.cmd then
      present old.entrypoint = present oldDefaults.entrypoint
      ∨ (old.entrypoint.getD .null).truthy ∧ ¬(old.cmd = some .null ∧ oldDefaults.cmd = none)
    else
      present old.cmd = none →
        present old.entrypoint ≠ present oldDefaults.entrypoint
        ∧ (old.cmd = some .null ∨ (old.entrypoint.getD .null).truthy = false)

/-- A command is missing after the merge where it was missing, or where the old image's defaults
have it.
-/
theorem popDefault_eq_none {value default : Option Value}
    : popDefault value default = none
      ↔ value = none ∨ default ≠ none ∧ present value = present default := by
  rcases default with _ | default
  · simp [popDefault]
  · rcases value with _ | value
    · cases default <;> simp [popDefault]
    · cases value <;> cases default <;> simp [popDefault, present]

/-- Only an entrypoint that is there is true. -/
theorem present_of_truthy {value : Option Value} (truthy : (value.getD .null).truthy = true)
    : present value ≠ none := by
  rcases value with _ | (_ | _ | _) <;> simp_all [present, Value.truthy]

/-- A value that is not popped is kept as it is written. -/
theorem popDefault_of_present {value default : Option Value}
    (kept : present (popDefault value default) ≠ none)
    : popDefault value default = value := by
  unfold popDefault at kept ⊢
  rcases default with _ | default
  · rfl
  · by_cases same : value.getD .null = default
    · simp [same, present] at kept
    · simp [same]

/-- The command of the new container: the new image's beside an inherited entrypoint, and beside
an own one where the replacement fills it in.
-/
theorem effective_cmd {old request : Config} {image imageId : String}
    {oldDefaults newDefaults : Defaults} (inspected : Inspected oldDefaults request old)
    : (effective newDefaults (replacement old image imageId oldDefaults newDefaults)).cmd
      = if present old.entrypoint = present oldDefaults.entrypoint then
          (present (popDefault old.cmd oldDefaults.cmd)).or (present newDefaults.cmd)
        else if (old.entrypoint.getD .null).truthy
            ∧ popDefault old.cmd oldDefaults.cmd = none then
          present newDefaults.cmd
        else
          present (popDefault old.cmd oldDefaults.cmd) := by
  have inherited : present old.entrypoint = none → present oldDefaults.entrypoint = none := by
    intro absent
    rw [inspected.entrypoint, effective, Option.or_eq_none_iff] at absent
    exact absent.2
  have entrypoint := present_popDefault old.entrypoint oldDefaults.entrypoint
  have filled :
      (effective newDefaults (replacement old image imageId oldDefaults newDefaults)).cmd
      = (present
            (if ((popDefault old.entrypoint oldDefaults.entrypoint).getD .null).truthy
                && (popDefault old.cmd oldDefaults.cmd).isNone && newDefaults.cmd.isSome then
              newDefaults.cmd
            else
              popDefault old.cmd oldDefaults.cmd)).or
          (if present (popDefault old.entrypoint oldDefaults.entrypoint) = none then
            present newDefaults.cmd
          else
            none) :=
    rfl
  rw [filled]
  generalize popDefault old.cmd oldDefaults.cmd = cmd
  by_cases same : present old.entrypoint = present oldDefaults.entrypoint
  · rw [if_pos same] at entrypoint ⊢
    have falsy :
        ((popDefault old.entrypoint oldDefaults.entrypoint).getD .null).truthy = false := by
      rw [Bool.eq_false_iff]
      intro truthy
      exact present_of_truthy truthy entrypoint
    rw [falsy, if_pos entrypoint]
    simp
  · have own : present old.entrypoint ≠ none := by
      intro absent
      exact same (absent.trans (inherited absent).symm)
    rw [if_neg same] at entrypoint ⊢
    have kept := popDefault_of_present (entrypoint.trans_ne own)
    rw [kept, if_neg own, Option.or_none]
    cases truthy : (old.entrypoint.getD .null).truthy with
    | false => simp
    | true =>
        cases cmd with
        | some value => simp
        | none =>
            cases newDefaults.cmd with
            | none => simp
            | some value => simp

/-- The command is merged exactly where it is settled: by cases on whether the old image's
default is inherited, changed or cleared, and whether the entrypoint is the image's.
-/
theorem cmd_merged_iff {old request : Config} {image imageId : String}
    {oldDefaults newDefaults : Defaults} (inspected : Inspected oldDefaults request old)
    : (effective newDefaults (replacement old image imageId oldDefaults newDefaults)).cmd
        = merged (present old.cmd) (present oldDefaults.cmd) (present newDefaults.cmd)
      ↔ CommandSettled old oldDefaults newDefaults := by
  have kept := present_popDefault old.cmd oldDefaults.cmd
  have missing := @popDefault_eq_none old.cmd oldDefaults.cmd
  rw [effective_cmd inspected, merged, CommandSettled]
  generalize popDefault old.cmd oldDefaults.cmd = cmd at kept missing ⊢
  generalize (old.entrypoint.getD .null).truthy = truthy
  by_cases same : present old.cmd = present oldDefaults.cmd
  · rw [if_pos same] at kept ⊢
    rw [if_pos same, kept, Option.none_or]
    by_cases inherited : present old.entrypoint = present oldDefaults.entrypoint
    · simp [inherited]
    · have spelt : cmd = none ↔ ¬(old.cmd = some .null ∧ oldDefaults.cmd = none) := by
        rw [missing]
        constructor
        · rintro (absent | ⟨stored, -⟩) ⟨null, lacking⟩
          · exact absurd (absent.symm.trans null) (by simp)
          · exact stored lacking
        · intro alike
          by_cases lacking : oldDefaults.cmd = none
          · left
            rw [lacking] at same
            rcases written : old.cmd with _ | (_ | _ | _)
            · rfl
            · exact absurd ⟨written, lacking⟩ alike
            · simp [written, present] at same
            · simp [written, present] at same
          · exact .inr ⟨lacking, same⟩
      rw [if_neg inherited, ← spelt]
      by_cases filled : truthy = true ∧ cmd = none
      · simp [filled]
      · simp [filled, inherited, eq_comm]
  · rw [if_neg same] at kept ⊢
    rw [if_neg same, kept]
    have absent_iff : cmd = none ↔ old.cmd = none := by simp [missing, same]
    simp only [absent_iff]
    by_cases cleared : present old.cmd = none
    · have written : old.cmd = none ∨ old.cmd = some .null := by
        rcases spelling : old.cmd with _ | (_ | _ | _)
        · exact .inl rfl
        · exact .inr rfl
        · simp [spelling, present] at cleared
        · simp [spelling, present] at cleared
      rw [cleared, Option.none_or]
      by_cases inherited : present old.entrypoint = present oldDefaults.entrypoint
      · simp [inherited]
      · rw [if_neg inherited]
        rcases written with absent | null
        · cases truthy <;> simp [absent, inherited]
        · simp [null, inherited]
    · obtain ⟨value, own⟩ := Option.ne_none_iff_exists'.mp cleared
      have stored : old.cmd ≠ none := by
        intro absent
        simp [absent, present] at own
      simp [own, stored]

-----------------------------------------------------------------------------------------
-- The merge
-----------------------------------------------------------------------------------------

/-- A replacement is the three-way merge exactly where every variable and the command are settled:
labels, entrypoint, working directory and the other fields always are.
-/
theorem replacement_merge_iff {old request : Config} {image imageId : String}
    {oldDefaults newDefaults : Defaults} (inspected : Inspected oldDefaults request old)
    : ThreeWay old image oldDefaults newDefaults
          (effective newDefaults (replacement old image imageId oldDefaults newDefaults))
      ↔ (∀ name, Settled variableOf old.env oldDefaults.env newDefaults.env name)
        ∧ CommandSettled old oldDefaults newDefaults := by
  constructor
  · intro merge
    refine ⟨?_, ?_⟩
    · intro name
      exact (env_merged_iff inspected name).mp (merge.env name)
    · have command := merge.cmd
      rw [effective, present_or_image] at command
      exact (cmd_merged_iff inspected).mp command
  · rintro ⟨environment, command⟩
    have shared :
        old.host.networkMode.startsWith "container:" = false →
          (replacement old image imageId oldDefaults newDefaults).hostname = old.hostname
          ∧ (replacement old image imageId oldDefaults newDefaults).domainname
            = old.domainname := by
      intro apart
      simp [replacement, apart]
    exact {
      env name := (env_merged_iff inspected name).mpr (environment name)
      labels key other := labels_merged inspected other
      cmd := by
        rw [effective, present_or_image]
        exact (cmd_merged_iff inspected).mpr command
      entrypoint := by
        rw [effective, present_or]
        exact entrypoint_merged inspected
      workingDir := by
        rw [effective, present_or]
        exact workingDir_merged inspected
      image := rfl
      hostname apart := (shared apart).1
      domainname apart := (shared apart).2
      others := rfl
      networkMode := rfl
      hostOthers := rfl }

/-- A container of `image` that has its own entrypoint, command and environment, as inspected. -/
def worker (image : Defaults) (entrypoint cmd : Option Value) (env : List String) : Config where
  image := "worker"
  labels := image.labels
  env
  cmd
  entrypoint
  workingDir := image.workingDir
  hostname := some (.text "worker")
  domainname := some (.text "")
  others := [("User", .text "")]
  host := ⟨"bridge", some (.list ["0", "0"]), []⟩

/-- An image with an entrypoint and a default command. -/
def workerImage (version : String) : Defaults where
  labels := [("org.opencontainers.image.version", version)]
  env := ["PATH=/" ++ version]
  cmd := some (.list ["serve", version])
  entrypoint := some (.list ["run"])
  workingDir := some (.text "/app")

/-- A container created with the image's own entrypoint and no command runs none, and its
replacement runs the new image's.
-/
theorem replacement_fills_cleared_command
    : Inspected (workerImage "1") (worker (workerImage "1") (some (.list ["run"])) none [])
        (worker (workerImage "1") (some (.list ["run"])) (some .null) ["PATH=/1"])
      ∧ ¬ThreeWay (worker (workerImage "1") (some (.list ["run"])) (some .null) ["PATH=/1"])
          "new" (workerImage "1") (workerImage "2")
          (effective (workerImage "2")
            (replacement
              (worker (workerImage "1") (some (.list ["run"])) (some .null) ["PATH=/1"])
              "new" "id" (workerImage "1") (workerImage "2"))) := by
  refine ⟨⟨by decide, ?_, by decide +kernel, by decide, by decide, by decide⟩, ?_⟩
  · intro key
    rw [effective, lookup_mergeLabels]
    exact (Option.or_self).symm
  · intro merge
    exact absurd merge.cmd (by decide +kernel)

/-- A wrapper around the image's command keeps the wrapper and takes the new image's command. -/
theorem replacement_merge_iff_wrapper
    : ThreeWay (worker (workerImage "1") (some (.list ["wrap"])) (some (.list ["serve", "1"]))
          ["SLOTS=2", "PATH=/1"])
        "new" (workerImage "1") (workerImage "2")
        (effective (workerImage "2")
          (replacement
            (worker (workerImage "1") (some (.list ["wrap"])) (some (.list ["serve", "1"]))
              ["SLOTS=2", "PATH=/1"])
            "new" "id" (workerImage "1") (workerImage "2"))) := by
  have inspected :
      Inspected (workerImage "1")
        (worker (workerImage "1") (some (.list ["wrap"])) (some (.list ["serve", "1"]))
          ["SLOTS=2"])
        (worker (workerImage "1") (some (.list ["wrap"])) (some (.list ["serve", "1"]))
          ["SLOTS=2", "PATH=/1"]) := by
    refine ⟨by decide, ?_, by decide +kernel, by decide, by decide, by decide⟩
    intro key
    rw [effective, lookup_mergeLabels]
    exact (Option.or_self).symm
  apply (replacement_merge_iff inspected).mpr
  refine ⟨?_, .inr (by decide)⟩
  intro name
  exact settled_of_nodup (by decide +kernel) (by decide +kernel)

end Transcriber.Updater
