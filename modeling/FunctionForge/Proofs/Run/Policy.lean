import FunctionForge.Proofs.Run.Names

/-!
# Policies for duplicates

Every service of a run finds the registry that the services before it leave (`stages`).  If later
things take the place of earlier ones, no service notices the ones before it
(`result_of_overwrite`).  If the first thing of a name stays, a service is handed only models whose
names are new, and reports only files whose paths are new; so neither a name nor a path comes twice
in a run (`nodup_flatMap_stages`).  As long as no model has the name of a file's path, the files
that are reported are the first ones of each path that were rendered (`kept_stages_eq_firsts`).
-/

namespace FunctionForge.Run

open Model (Entity)

variable {ε : Type} {generator : Generator ε} {registry : Registry Artifact} {turns : List Turn}
  {turn : Turn}

/-- The files of a report; there are none if a service fails. -/
def filesOf : Except (RunError ε) ServiceReport → List GeneratedFile
  | .ok report => report.files
  | .error _ => []

/-- A service of a run, with the registry that it finds. -/
structure Stage where
  turn : Turn
  registry : Registry Artifact

namespace Stage

variable {stage : Stage} {name : String}

/-- What the service comes to. -/
def result (stage : Stage) (generator : Generator ε) : Except (RunError ε) ServiceReport :=
  (stage.turn.outcome generator stage.registry).result

/-- The registry that the service leaves. -/
def next (stage : Stage) (generator : Generator ε) : Registry Artifact :=
  (stage.turn.outcome generator stage.registry).registry

/-- The models that the generator is handed. -/
def handed (stage : Stage) : List Entity :=
  stage.turn.admitted stage.registry

/-- The files that are rendered, whether they are kept or not. -/
def rendered (stage : Stage) (generator : Generator ε) : List GeneratedFile :=
  filesOf (render generator stage.turn.files stage.turn.target stage.handed)

/-- The files that are reported. -/
def kept (stage : Stage) (generator : Generator ε) : List GeneratedFile :=
  filesOf (stage.result generator)

/-- A service asks for its models first, and then for its files. -/
theorem kept_eq : stage.kept generator =
    (admitFiles (admitModels stage.registry stage.turn.models).registry
      (stage.rendered generator)).items := by
  rw [kept, rendered, result, Turn.outcome, result_runService]
  change filesOf (keep _ (render generator _ _ stage.handed)).1 = _
  cases render generator stage.turn.files stage.turn.target stage.handed with
  | error cause => rfl
  | ok report => rfl

/-- What a service records are the names of the models that it is handed, and the paths of the files
that it renders. -/
theorem mem_names_next_iff : name ∈ (stage.next generator).names ↔
    name ∈ stage.registry.names ∨ name ∈ stage.handed.map Entity.name ∨
      name ∈ (stage.rendered generator).map fun file => file.path.text := by
  have hmodels : name ∈ (admitModels stage.registry stage.turn.models).registry.names ↔
      name ∈ stage.registry.names ∨ name ∈ stage.handed.map Entity.name := by
    rw [List.mem_map]
    exact Registry.mem_names_submitAll_iff_kept
  rw [next, Turn.outcome, registry_runService, ← or_assoc, ← hmodels, rendered]
  change name ∈ (keep _ (render generator _ _ stage.handed)).2.names ↔ _
  cases render generator stage.turn.files stage.turn.target stage.handed with
  | error cause => exact (or_iff_left List.not_mem_nil).symm
  | ok report =>
    rw [List.mem_map]
    exact Registry.mem_names_submitAll_iff

theorem mem_names_next_of_mem (h : name ∈ stage.registry.names) :
    name ∈ (stage.next generator).names :=
  mem_names_next_iff.mpr (Or.inl h)

theorem mem_names_next_of_handed (h : name ∈ stage.handed.map Entity.name) :
    name ∈ (stage.next generator).names :=
  mem_names_next_iff.mpr (Or.inr (Or.inl h))

theorem mem_names_next_of_kept (h : name ∈ (stage.kept generator).map fun file => file.path.text) :
    name ∈ (stage.next generator).names := by
  obtain ⟨file, hf, rfl⟩ := List.mem_map.mp h
  refine Turn.mem_names_outcome_iff.mpr (Or.inr (Or.inr ?_))
  rw [kept, result] at hf
  cases hr : (stage.turn.outcome generator stage.registry).result with
  | error cause =>
    rw [hr] at hf
    exact absurd hf List.not_mem_nil
  | ok report =>
    rw [hr] at hf
    exact ⟨report, rfl, file, hf, rfl⟩

theorem mode_next : (stage.next generator).mode = stage.registry.mode :=
  Turn.mode_outcome

/-! ### Later things take the place of earlier ones -/

section

variable (hmode : stage.registry.mode = .overwrite)
include hmode

theorem handed_of_overwrite : stage.handed = stage.turn.models :=
  Registry.items_submitAll_of_overwrite hmode

/-- Nothing is left out, so that the registry does not show. -/
theorem result_eq_render_of_overwrite : stage.result generator =
    render generator stage.turn.files stage.turn.target stage.turn.models := by
  have hnext : (admitModels stage.registry stage.turn.models).registry.mode = .overwrite :=
    Registry.mode_submitAll.trans hmode
  rw [result, Turn.outcome, result_runService]
  change (keep _ (render generator _ _ stage.handed)).1 = _
  rw [handed_of_overwrite hmode]
  cases render generator stage.turn.files stage.turn.target stage.turn.models with
  | error cause => rfl
  | ok report =>
    have hall : (admitFiles (admitModels stage.registry stage.turn.models).registry
        report.files).items = report.files := Registry.items_submitAll_of_overwrite hnext
    change Except.ok { report with files := (admitFiles _ report.files).items } = _
    exact congrArg (fun files => Except.ok { report with files }) hall

theorem kept_of_overwrite : stage.kept generator = stage.rendered generator := by
  rw [kept, rendered, result_eq_render_of_overwrite hmode, handed_of_overwrite hmode]

end

/-! ### The first thing of a name stays -/

theorem nodup_handed : (stage.handed.map Entity.name).Nodup := by
  rw [handed, Turn.admitted_eq_filter]
  exact nodup_names_serviceModels.sublist (List.filter_sublist.map _)

section

variable (hmode : stage.registry.mode = .once)
include hmode

theorem handed_new (h : name ∈ stage.handed.map Entity.name) : name ∉ stage.registry.names := by
  obtain ⟨entity, hm, rfl⟩ := List.mem_map.mp h
  rw [handed, Turn.admitted_eq_filter, List.mem_filter, Registry.shouldGenerate_of_once hmode] at hm
  exact of_decide_eq_true hm.2

/-- The first file of each path is kept, if its path is neither recorded nor the name of one of the
models. -/
theorem kept_of_once : stage.kept generator =
    (firsts (fun file => file.path.text) (stage.rendered generator)).filter fun file =>
      file.path.text ∉ (admitModels stage.registry stage.turn.models).registry.names := by
  rw [kept_eq]
  exact Registry.items_submitAll_of_once (Registry.mode_submitAll.trans hmode)

theorem nodup_kept : ((stage.kept generator).map fun file => file.path.text).Nodup := by
  rw [kept_of_once hmode]
  exact (nodup_map_firsts _).sublist (List.filter_sublist.map _)

theorem kept_new (h : name ∈ (stage.kept generator).map fun file => file.path.text) :
    name ∉ stage.registry.names := by
  obtain ⟨file, hm, rfl⟩ := List.mem_map.mp h
  rw [kept_of_once hmode, List.mem_filter] at hm
  have hfree := of_decide_eq_true hm.2
  exact fun hold => hfree (Registry.mem_names_submitAll_iff.mpr (Or.inl hold))

/-- If no model that is handed out has the name of a path, only the paths that were recorded before
count. -/
theorem kept_eq_filter_firsts
    (hfree : ∀ entity ∈ stage.handed, ∀ file ∈ stage.rendered generator,
      entity.name ≠ file.path.text) :
    stage.kept generator =
      (firsts (fun file => file.path.text) (stage.rendered generator)).filter fun file =>
        file.path.text ∉ stage.registry.names := by
  rw [kept_of_once hmode]
  refine List.filter_congr fun file hm => ?_
  -- What the models of the service add are the names that are handed out.
  have hsame : file.path.text ∈ (admitModels stage.registry stage.turn.models).registry.names ↔
      file.path.text ∈ stage.registry.names := by
    refine Registry.mem_names_submitAll_iff_kept.trans (or_iff_left ?_)
    rintro ⟨entity, he, heq⟩
    exact hfree entity he file (mem_of_mem_firsts hm) heq
  simp only [hsame]

end

end Stage

open Stage

theorem result_outcome_of_overwrite (h : registry.mode = .overwrite) :
    (turn.outcome generator registry).result =
      render generator turn.files turn.target turn.models :=
  @result_eq_render_of_overwrite _ generator ⟨turn, registry⟩ h

/-! ### Runs -/

/-- The services of a run, each with the registry that the ones before it leave. -/
def stages (generator : Generator ε) : Registry Artifact → List Turn → List Stage
  | _, [] => []
  | registry, turn :: rest =>
    ⟨turn, registry⟩ :: stages generator (Stage.next ⟨turn, registry⟩ generator) rest

theorem map_turn_stages : (stages generator registry turns).map Stage.turn = turns := by
  induction turns generalizing registry with
  | nil => rfl
  | cons turn rest ih => rw [stages, List.map_cons, ih]

theorem mode_of_mem_stages {stage : Stage} (h : stage ∈ stages generator registry turns) :
    stage.registry.mode = registry.mode := by
  induction turns generalizing registry with
  | nil => exact absurd h List.not_mem_nil
  | cons turn rest ih =>
    rw [stages, List.mem_cons] at h
    rcases h with rfl | h
    · rfl
    · exact (ih h).trans mode_next

/-- If later things take the place of earlier ones, a service comes to what it comes to without the
services before it. -/
theorem result_of_overwrite {stage : Stage} {other : Registry Artifact}
    (hmode : stage.registry.mode = .overwrite) (hother : other.mode = .overwrite) :
    stage.result generator = (stage.turn.outcome generator other).result := by
  rw [result_eq_render_of_overwrite hmode, result_outcome_of_overwrite hother]

/-- What every service gives out once, only if it is new, and records then, is given out once in a
run. -/
theorem nodup_flatMap_stages (f : Stage → List String)
    (hnodup : ∀ stage : Stage, stage.registry.mode = .once → (f stage).Nodup)
    (hnew : ∀ stage : Stage, stage.registry.mode = .once →
      ∀ name ∈ f stage, name ∉ stage.registry.names)
    (hrecorded : ∀ stage : Stage, ∀ name ∈ f stage, name ∈ (stage.next generator).names)
    (hmode : registry.mode = .once) :
    ((stages generator registry turns).flatMap f).Nodup ∧
      ∀ name ∈ (stages generator registry turns).flatMap f, name ∉ registry.names := by
  induction turns generalizing registry with
  | nil => exact ⟨List.nodup_nil, fun _ h => absurd h List.not_mem_nil⟩
  | cons turn rest ih =>
    have hnext : (Stage.next ⟨turn, registry⟩ generator).mode = .once := mode_next.trans hmode
    obtain ⟨hrest, hlater⟩ := ih hnext
    rw [stages, List.flatMap_cons]
    constructor
    · -- What the first service gives out is recorded when the others have their turns.
      refine List.nodup_append'.mpr ⟨hnodup _ hmode, hrest, fun name hf hr => ?_⟩
      exact hlater name hr (hrecorded _ name hf)
    · intro name hm
      rcases List.mem_append.mp hm with hf | hr
      · exact hnew ⟨turn, registry⟩ hmode name hf
      · exact fun hold => hlater name hr (mem_names_next_of_mem hold)

/-- No two models that are handed out in a run have one name. -/
theorem nodup_handed_stages (hmode : registry.mode = .once) :
    (((stages generator registry turns).flatMap Stage.handed).map Entity.name).Nodup := by
  rw [List.map_flatMap]
  exact (nodup_flatMap_stages _ (fun _ _ => nodup_handed) (fun _ h _ => handed_new h)
    (fun _ _ => mem_names_next_of_handed) hmode).1

/-- No two files that are reported in a run have one path. -/
theorem nodup_kept_stages (hmode : registry.mode = .once) :
    (((stages generator registry turns).flatMap (Stage.kept · generator)).map
      fun file => file.path.text).Nodup := by
  rw [List.map_flatMap]
  exact (nodup_flatMap_stages _ (fun _ => nodup_kept) (fun _ h _ => kept_new h)
    (fun _ _ => mem_names_next_of_kept) hmode).1

/-- If no model that is handed out has the name of a path, the files that are kept are the first
ones of each path that were rendered, as far as their paths were not recorded at the beginning. -/
theorem kept_stages_eq_firsts (hmode : registry.mode = .once)
    (hfree : ∀ entity ∈ (stages generator registry turns).flatMap Stage.handed,
      ∀ file ∈ (stages generator registry turns).flatMap fun stage => stage.rendered generator,
        entity.name ≠ file.path.text) :
    ((stages generator registry turns).flatMap fun stage => stage.kept generator) =
      (firsts (fun file => file.path.text)
        ((stages generator registry turns).flatMap fun stage => stage.rendered generator)).filter
          fun file => file.path.text ∉ registry.names := by
  induction turns generalizing registry with
  | nil => rfl
  | cons turn rest ih =>
    let stage : Stage := ⟨turn, registry⟩
    have hnext : (stage.next generator).mode = .once := mode_next.trans hmode
    rw [stages] at hfree ⊢
    simp only [List.flatMap_cons, List.mem_append] at hfree ⊢
    have hhere := fun entity he file hf => hfree entity (Or.inl he) file (Or.inl hf)
    have hthere := fun entity he file hf => hfree entity (Or.inr he) file (Or.inr hf)
    rw [@kept_eq_filter_firsts ε generator stage hmode hhere, ih hnext hthere, firsts_append,
      List.filter_append, List.filter_filter]
    congr 1
    refine List.filter_congr fun file hm => ?_
    -- A path of a later file is recorded by the first service only if a file of it has that path.
    have hnames : file.path.text ∈ (stage.next generator).names ↔ file.path.text ∈ registry.names ∨
        file.path.text ∈ (stage.rendered generator).map fun other => other.path.text := by
      refine mem_names_next_iff.trans (or_congr_right (or_iff_right ?_))
      intro hname
      obtain ⟨entity, he, heq⟩ := List.mem_map.mp hname
      exact hfree entity (Or.inl he) file (Or.inr (mem_of_mem_firsts hm)) heq
    rw [← Bool.decide_and]
    simp only [stage, hnames, not_or]

/-- With a registry in which nothing is recorded, the first file of each path is kept. -/
theorem kept_stages_fresh
    (hfree : ∀ entity ∈ (stages generator (.fresh .once) turns).flatMap Stage.handed,
      ∀ file ∈ (stages generator (.fresh .once) turns).flatMap (Stage.rendered · generator),
        entity.name ≠ file.path.text) :
    (stages generator (.fresh .once) turns).flatMap (Stage.kept · generator) =
      firsts (fun file => file.path.text)
        ((stages generator (.fresh .once) turns).flatMap (Stage.rendered · generator)) := by
  rw [kept_stages_eq_firsts rfl hfree, List.filter_eq_self.mpr]
  exact fun file _ => decide_eq_true List.not_mem_nil

/-- What is recorded when a service has its turn are the names that one of the services before it
takes. -/
theorem mem_names_of_stages_eq {before after : List Stage} {stage : Stage} {name : String}
    (h : stages generator registry turns = before ++ stage :: after) :
    name ∈ stage.registry.names ↔ name ∈ registry.names ∨
      ∃ earlier ∈ before, earlier.turn.Takes generator earlier.registry name := by
  induction turns generalizing registry before with
  | nil => exact absurd h (by simp [stages])
  | cons turn rest ih =>
    rw [stages] at h
    cases before with
    | nil =>
      obtain ⟨rfl, -⟩ := List.cons.inj h
      simp
    | cons first before =>
      -- The first service adds what it takes, and the others start from what it leaves.
      obtain ⟨rfl, hrest⟩ := List.cons.inj h
      rw [ih hrest, Stage.next, Turn.mem_names_outcome_iff, or_assoc, List.exists_mem_cons_iff]

/-- If the first thing of a name stays, a model of a service is left out exactly if one of the
services before it takes its name. -/
theorem not_mem_handed_iff {before after : List Stage} {stage : Stage} {entity : Entity}
    (h : stages generator (.fresh .once) turns = before ++ stage :: after)
    (hm : entity ∈ stage.turn.models) :
    entity ∉ stage.handed ↔
      ∃ earlier ∈ before, earlier.turn.Takes generator earlier.registry entity.name := by
  have hstage : stage ∈ stages generator (.fresh .once) turns := by
    rw [h]
    exact List.mem_append_right _ List.mem_cons_self
  have hmode : stage.registry.mode = .once := mode_of_mem_stages hstage
  have hfresh : entity.name ∉ (Registry.fresh .once : Registry Artifact).names := List.not_mem_nil
  rw [Stage.handed, Turn.admitted_eq_filter, List.mem_filter, and_iff_right hm, Bool.not_eq_true,
    Registry.shouldGenerate_eq_false_iff, and_iff_right hmode, mem_names_of_stages_eq h,
    or_iff_right hfresh]

end FunctionForge.Run
