import FunctionForge.Config.Resolve
import FunctionForge.Proofs.Result

/-!
# Namespaces of models

Code sees the models of its service if it stands in their namespace, inside of it, or in a file
that imports it.  The namespace of the models is imported if that of the functions is another one,
so that the functions and the errors always see the models.  The interface of the service and the
wrappers may have a namespace of their own, which is not asked for: they see the models exactly if
the import is made for the functions, or if the imports that are given are enough
(`sees_models_iff`).  An interface with a namespace of its own does not see models that stand
together with the functions (`not_sees_models_shop`).
-/

namespace FunctionForge.Config

open Files (Path)

/-! ### Seeing a namespace -/

/-- A namespace is another one or stands inside of it. -/
def IsWithin (inner outer : String) : Prop :=
  inner = outer ∨ Text.startsWith (outer ++ ".") inner = true

/-- What is written in a file with these imports can name the classes of a namespace. -/
def Sees (written seen : String) (imports : List String) : Prop :=
  IsWithin written seen ∨ seen ∈ imports

instance (inner outer : String) : Decidable (IsWithin inner outer) :=
  inferInstanceAs (Decidable (_ ∨ _))

instance (written seen : String) (imports : List String) : Decidable (Sees written seen imports) :=
  inferInstanceAs (Decidable (_ ∨ _))

variable {index version : Nat} {run settings : Settings} {base : Path} {service : Service}
  {target : ServiceTarget} {model : ModelTarget} {function : FunctionTarget}

/-- A namespace is imported for the models exactly if it has been or the functions stand in another
one. -/
theorem mem_imports_seeModels_iff : model.rootNamespace ∈ (seeModels function model).imports ↔
    function.rootNamespace ≠ model.rootNamespace ∨ model.rootNamespace ∈ function.imports := by
  rw [seeModels]
  simp only [List.contains_iff_mem]
  split_ifs with hseen
  · rcases hseen with heq | himports
    · rw [heq, ne_eq, eq_self, not_true, false_or]
    · exact iff_of_true himports (Or.inr himports)
  · rw [not_or] at hseen
    exact iff_of_true (List.mem_append_right _ List.mem_cons_self) (Or.inl hseen.1)

/-! ### Targets of a service -/

theorem demand_eq_ok {α : Type} {key : String} {given : Option α} {value : α}
    (h : demand index key given = .ok value) : given = some value := by
  cases given with
  | none => exact absurd h nofun
  | some other => rw [Except.ok.inj h]

theorem ModelBlock.rootNamespace_of_resolve {block : ModelBlock}
    (h : block.resolve index settings version base = .ok model) :
    block.rootNamespace = some model.rootNamespace := by
  obtain ⟨rootNamespace, hroot, h⟩ := bind_eq_ok.mp h
  obtain ⟨folder, -, h⟩ := bind_eq_ok.mp h
  obtain rfl := Except.ok.inj h
  exact demand_eq_ok hroot

theorem FunctionBlock.namespaces_of_resolve {block : FunctionBlock}
    (h : block.resolve index settings version base = .ok function) :
    block.rootNamespace = some function.rootNamespace ∧
      function.interfaceNamespace = block.interfaceNamespace.getD function.rootNamespace ∧
      function.imports = layered block.imports settings.imports [] := by
  obtain ⟨name, -, h⟩ := bind_eq_ok.mp h
  obtain ⟨rootNamespace, hroot, h⟩ := bind_eq_ok.mp h
  obtain ⟨folder, -, h⟩ := bind_eq_ok.mp h
  obtain rfl := Except.ok.inj h
  exact ⟨demand_eq_ok hroot, rfl, rfl⟩

/-- The targets of a service with models and functions come from its blocks, and the functions see
the models. -/
theorem exists_targets_of_resolve {modelBlock : ModelBlock} {functionBlock : FunctionBlock}
    (h : service.resolve index run base = .ok target) (hm : service.model = some modelBlock)
    (hf : service.function = some functionBlock) : ∃ version model function,
      modelBlock.resolve index (service.settings.over run) version base = .ok model ∧
      functionBlock.resolve index (service.settings.over run) version base = .ok function ∧
      target.model = some model ∧ target.function = some (seeModels function model) := by
  obtain ⟨version, -, h⟩ := bind_eq_ok.mp h
  obtain ⟨apiPath, -, h⟩ := bind_eq_ok.mp h
  obtain ⟨modelTarget, hmodelTarget, h⟩ := bind_eq_ok.mp h
  obtain ⟨functionTarget, hfunctionTarget, h⟩ := bind_eq_ok.mp h
  rw [hm, Option.mapM_some] at hmodelTarget
  rw [hf, Option.mapM_some] at hfunctionTarget
  obtain ⟨model, hmodel, rfl⟩ := map_eq_ok.mp hmodelTarget
  obtain ⟨function, hfunction, rfl⟩ := map_eq_ok.mp hfunctionTarget
  obtain rfl := Except.ok.inj h
  exact ⟨version, model, function, hmodel, hfunction, rfl, rfl⟩

/-! ### Services with models and functions -/

/-- The functions of a service see its models.  Its interface sees them exactly if the functions
stand in another namespace than the models, or if the imports that are given are enough. -/
theorem sees_models_iff {modelBlock : ModelBlock} {functionBlock : FunctionBlock}
    (h : service.resolve index run base = .ok target) (hm : service.model = some modelBlock)
    (hf : service.function = some functionBlock) :
    ∃ model function, target.model = some model ∧ target.function = some function ∧
      modelBlock.rootNamespace = some model.rootNamespace ∧
      functionBlock.rootNamespace = some function.rootNamespace ∧
      function.interfaceNamespace =
        functionBlock.interfaceNamespace.getD function.rootNamespace ∧
      Sees function.rootNamespace model.rootNamespace function.imports ∧
      (Sees function.interfaceNamespace model.rootNamespace function.imports ↔
        function.rootNamespace ≠ model.rootNamespace ∨
          Sees function.interfaceNamespace model.rootNamespace
            (layered functionBlock.imports (service.settings.over run).imports [])) := by
  obtain ⟨version, model, given, hmodel, hfunction, htm, htf⟩ := exists_targets_of_resolve h hm hf
  obtain ⟨hroot, hinterface, himports⟩ := FunctionBlock.namespaces_of_resolve hfunction
  refine ⟨model, seeModels given model, htm, htf, ModelBlock.rootNamespace_of_resolve hmodel, hroot,
    hinterface, ?_, ?_⟩
  · rw [Sees, mem_imports_seeModels_iff]
    by_cases heq : given.rootNamespace = model.rootNamespace
    · exact Or.inl (Or.inl heq)
    · exact Or.inr (Or.inl heq)
  · rw [Sees, mem_imports_seeModels_iff, Sees, himports]
    exact or_left_comm

/-! ### A shop -/

/-- A shop whose models and functions share a namespace, while the interface has one of its own. -/
def shopService (interfaceNamespace : String) : Service where
  apiPath := some "shop.yml"
  settings := .none
  model := some ⟨some "Shop", some "out", none, none, [], [], none⟩
  function := some
    ⟨some "Shop", some "Shop", some "out", none, none, some interfaceNamespace, none, none, none⟩

/-- An interface outside of the shop sees its models if the run imports their namespace. -/
theorem sees_models_shop :
    let run : Settings := { Settings.none with imports := some ["Shop"] }
    ∃ target model function, (shopService "Contracts").resolve 0 run .here = .ok target ∧
      target.model = some model ∧ target.function = some function ∧
      Sees function.rootNamespace "Shop" function.imports ∧
      Sees function.interfaceNamespace "Shop" function.imports := by
  intro run
  obtain ⟨target, h⟩ : ∃ target,
      (shopService "Contracts").resolve 0 run .here = .ok target := ⟨_, rfl⟩
  obtain ⟨model, function, hm, hf, hroot, -, -, hfunction, hiff⟩ := sees_models_iff h rfl rfl
  have hshop : "Shop" = model.rootNamespace := Option.some.inj hroot
  rw [← hshop] at hfunction hiff
  exact ⟨target, model, function, h, hm, hf, hfunction,
    hiff.mpr (Or.inr (Or.inr List.mem_cons_self))⟩

/-- An interface outside of the shop does not see its models. -/
theorem not_sees_models_shop :
    ∃ target model function, (shopService "Contracts").resolve 0 .none .here =
        .ok target ∧ target.model = some model ∧ target.function = some function ∧
      function.interfaceNamespace = "Contracts" ∧ model.rootNamespace = "Shop" ∧
      function.imports = [] ∧
      ¬Sees function.interfaceNamespace model.rootNamespace function.imports :=
  ⟨_, _, _, rfl, rfl, rfl, rfl, rfl, rfl, by decide⟩

end FunctionForge.Config
