import FunctionForge.Proofs.Model.Causes
import FunctionForge.Proofs.Model.Coverage
import FunctionForge.Proofs.Reference.Shadowing

/-!
# Schemas with one class name

Two schemas may have the same class name.  Aliases are kept by class name, so the last bare
primitive of a name stands for every reference to a schema of that name (`resolve_eq_own_iff`).
Models of the same name are told from each other: the later one is a failure (`collided_iff`).  So
it goes unnoticed that a schema is taken for another one exactly if a bare primitive has its class
name and no two schemas get models of that name (`resolve_eq_own_iff_and_collided_iff`).
-/

namespace FunctionForge

open Document (Schema SchemaOrRef)
open Model (Entity Options addEntity addSchema eligible? resolveEntity resolveModels)
open Naming (ClassNaming refName)
open Reference.Bundle (localRef refName_localRef)

/-! ### Aliases -/

/-- The body of a bare primitive that is admitted. -/
def aliasBody? (admits : String → Bool) (entry : String × SchemaOrRef) : Option Schema :=
  entry.2.schema?.filter fun schema => admits entry.1 && schema.isPrimitive

/-- A body is that of the last bare primitive with a class name. -/
def LastAlias (schemas : Fields SchemaOrRef) (naming : ClassNaming) (admits : String → Bool)
    (name : String) (body : Schema) : Prop :=
  ∃ before entry after, schemas = before ++ entry :: after ∧
    aliasBody? admits entry = some body ∧ naming.className entry.1 = name ∧
    ∀ later ∈ after, naming.className later.1 = name → aliasBody? admits later = none

namespace KnownTypes

variable {schemas : Fields SchemaOrRef} {naming : ClassNaming} {admits : String → Bool}

/-- A bare primitive is entered under its class name, and takes the place of what is there. -/
theorem aliases_add (known : KnownTypes) (entry : String × SchemaOrRef) :
    (add admits known entry).aliases =
      match aliasBody? admits entry with
      | some body => known.aliases.insert (known.naming.className entry.1) body
      | none => known.aliases := by
  obtain ⟨key, schema⟩ := entry
  cases schema with
  | ref path => rfl
  | inline schema =>
    simp only [add, aliasBody?, SchemaOrRef.schema?, Option.filter_some]
    split_ifs
    · rfl
    · rfl

theorem scan_concat (entry : String × SchemaOrRef) :
    scan (schemas ++ [entry]) naming admits = add admits (scan schemas naming admits) entry := by
  rw [scan, List.foldl_append]
  rfl

/-- The aliases are the bare primitives that are admitted, by their class names. -/
theorem aliases_scan : (scan schemas naming admits).aliases =
    Fields.ofList (schemas.filterMap fun entry =>
      (aliasBody? admits entry).map (naming.className entry.1, ·)) := by
  induction schemas using List.reverseRecOn with
  | nil => rfl
  | append_singleton schemas entry ih =>
    rw [scan_concat, aliases_add, naming_scan, List.filterMap_append, ih]
    cases hb : aliasBody? admits entry with
    | none =>
      rw [List.filterMap_cons_none (by rw [hb]; rfl), List.filterMap_nil, List.append_nil]
    | some body =>
      rw [List.filterMap_cons_some (by rw [hb]; rfl), List.filterMap_nil, Fields.ofList_concat]

/-- The alias of a class name is the last bare primitive of it. -/
theorem get?_aliases_scan_iff {name : String} {body : Schema} :
    (scan schemas naming admits).aliases.get? name = some body ↔
      LastAlias schemas naming admits name body := by
  rw [aliases_scan, Fields.get?_ofList_eq_some_iff]
  constructor
  · rintro ⟨before, after, heq, hlast⟩
    obtain ⟨start, rest, rfl, rfl, hrest⟩ := List.filterMap_eq_append_iff.mp heq
    obtain ⟨skipped, entry, tail, rfl, -, hentry, rfl⟩ := List.filterMap_eq_cons_iff.mp hrest
    obtain ⟨other, hb, hpair⟩ := Option.map_eq_some_iff.mp hentry
    obtain ⟨hname, rfl⟩ := Prod.mk.inj hpair
    refine ⟨start ++ skipped, entry, tail, by rw [List.append_assoc], hb, hname, ?_⟩
    -- A later primitive of the name would be a later pair of the table.
    intro later hm hl
    by_contra hne
    obtain ⟨found, hf⟩ := Option.ne_none_iff_exists'.mp hne
    refine hlast (naming.className later.1, found) (List.mem_filterMap.mpr ⟨later, hm, ?_⟩) hl
    rw [hf, Option.map_some]
  · rintro ⟨before, entry, after, rfl, hb, rfl, hlast⟩
    refine ⟨_, _, by rw [List.filterMap_append, List.filterMap_cons_some (by rw [hb]; rfl)], ?_⟩
    intro pair hm hname
    obtain ⟨later, hl, hp⟩ := List.mem_filterMap.mp hm
    obtain ⟨found, hf, rfl⟩ := Option.map_eq_some_iff.mp hp
    exact absurd (hf.symm.trans (hlast later hl hname)) nofun

end KnownTypes

/-- What a reference to a schema stands for if no other one has its class name. -/
def ResolvedRef.own (naming : ClassNaming) (key : String) (schema : Schema) : ResolvedRef :=
  if schema.isPrimitive then .alias schema else .entity (naming.className key)

section

variable {schemas : Fields SchemaOrRef} {naming : ClassNaming} {admits : String → Bool}
  {key : String} {schema : Schema}

/-- A reference stands for its own schema exactly if the last bare primitive of the class name is
that schema, or there is none and the schema is none either. -/
theorem resolve_eq_own_iff (hd : schemas.keys.Nodup) (hk : schemas.get? key = some (.inline schema))
    (ha : admits key = true) (hs : '/' ∉ key.toList) :
    (KnownTypes.scan schemas naming admits).resolve (localRef key) = .own naming key schema ↔
      ∀ body, LastAlias schemas naming admits (naming.className key) body →
        schema.isPrimitive = true ∧ body = schema := by
  simp only [← KnownTypes.get?_aliases_scan_iff]
  rw [KnownTypes.resolve, KnownTypes.naming_scan, refName_localRef hs,
    KnownTypes.followRedirects_of_leadsTo hd (.here key) hk, ResolvedRef.own]
  cases hb : (KnownTypes.scan schemas naming admits).aliases.get? (naming.className key) with
  | none =>
    have hprimitive : ¬schema.isPrimitive = true := by
      intro hp
      have halias := @KnownTypes.isAlias_scan schemas naming admits key schema
        (Fields.mem_of_get? hk) ha hp
      rw [KnownTypes.isAlias, Fields.has, hb] at halias
      cases halias
    simp [hprimitive]
  | some body =>
    by_cases hp : schema.isPrimitive = true
    · simp [hp]
    · simp [hp]

end

/-! ### Collisions -/

namespace Model

variable {known : KnownTypes} {options : Options} {models : Resolution Entity} {name : String}

/-- A schema gets a model, and that has a class name. -/
def HasModel (known : KnownTypes) (options : Options) (name : String)
    (entry : String × SchemaOrRef) : Prop :=
  ∃ schema entity, eligible? options entry = some schema ∧
    resolveEntity known entry.1 schema = .ok entity ∧ known.naming.className entry.1 = name

/-- It is reported of a schema with a class name that the name is taken. -/
def Collided (naming : ClassNaming) (failures : List DefinitionError) (name : String) : Prop :=
  ∃ failure ∈ failures, failure.cause.kind = .nameCollision ∧
    naming.className failure.location = name

theorem collided_concat {naming : ClassNaming} {failures : List DefinitionError}
    {failure : DefinitionError} :
    Collided naming (failures ++ [failure]) name ↔ Collided naming failures name ∨
      failure.cause.kind = .nameCollision ∧ naming.className failure.location = name := by
  simp only [Collided, List.mem_append, List.mem_singleton, or_and_right, exists_or,
    exists_eq_left]

theorem rawName_of_resolveEntity {rawName : String} {schema : Schema} {entity : Entity}
    (h : resolveEntity known rawName schema = .ok entity) : entity.rawName = rawName := by
  rw [resolveEntity] at h
  split_ifs at h
  · obtain ⟨model, hm, rfl⟩ := map_eq_ok.mp h
    unfold resolveObject at hm
    cases hi : inheritance known schema with
    | error cause =>
      rw [hi] at hm
      cases hm
    | ok inherited =>
      rw [hi] at hm
      obtain ⟨found, -, hm⟩ := bind_eq_ok.mp hm
      obtain ⟨properties, -, hm⟩ := bind_eq_ok.mp hm
      obtain rfl := Except.ok.inj hm
      rfl
  · split at h
    · rename_i interface hi
      obtain rfl := Except.ok.inj h
      unfold resolveInterface at hi
      cases hd : schema.discriminator with
      | none =>
        rw [hd] at hi
        cases hi
      | some discriminator =>
        rw [hd] at hi
        obtain ⟨members, -, hi⟩ := bind_eq_ok.mp hi
        obtain rfl := Except.ok.inj hi
        rfl
    · cases h

/-! ### One schema -/

/-- A model of a new name is added; for one of a name that is taken there is a failure. -/
theorem addEntity_cases (models : Resolution Entity) (entity : Entity) :
    (∃ first ∈ models.items, first.name = entity.name ∧ addEntity models entity =
      ⟨models.items, models.failures ++
        [⟨entity.rawName, .nameCollision entity.name first.rawName⟩]⟩) ∨
    (¬∃ item ∈ models.items, item.name = entity.name) ∧
      addEntity models entity = ⟨models.items ++ [entity], models.failures⟩ := by
  rw [addEntity]
  cases hf : models.items.find? fun other => other.name == entity.name with
  | some first =>
    have hname : first.name = entity.name := by simpa using List.find?_some hf
    exact Or.inl ⟨first, List.mem_of_find?_eq_some hf, hname, rfl⟩
  | none =>
    refine Or.inr ⟨?_, rfl⟩
    rintro ⟨item, hm, hname⟩
    exact List.find?_eq_none.mp hf item hm (by simpa using hname)

theorem exists_name_addEntity_iff (entity : Entity) :
    (∃ item ∈ (addEntity models entity).items, item.name = name) ↔
      (∃ item ∈ models.items, item.name = name) ∨ entity.name = name := by
  rcases addEntity_cases models entity with ⟨first, hm, hname, hadd⟩ | ⟨-, hadd⟩
  · rw [hadd]
    exact (or_iff_left_of_imp fun hn => ⟨first, hm, hname.trans hn⟩).symm
  · rw [hadd]
    simp only [List.mem_append, List.mem_singleton, or_and_right, exists_or, exists_eq_left]

/-- A model collides if there is one of its name already. -/
theorem collided_addEntity {naming : ClassNaming} {entity : Entity}
    (h : naming.className entity.rawName = entity.name) :
    Collided naming (addEntity models entity).failures name ↔ Collided naming models.failures name ∨
      (∃ item ∈ models.items, item.name = name) ∧ entity.name = name := by
  rcases addEntity_cases models entity with ⟨first, hm, hname, hadd⟩ | ⟨hfree, hadd⟩
  · have htaken : entity.name = name → ∃ item ∈ models.items, item.name = name :=
      fun hn => ⟨first, hm, hname.trans hn⟩
    rw [hadd, collided_concat, h, and_iff_right_of_imp htaken]
    exact or_congr_right (and_iff_right rfl)
  · rw [hadd]
    refine (or_iff_left ?_).symm
    rintro ⟨hm, rfl⟩
    exact hfree hm

/-- No second model of a name is added. -/
theorem nodup_names_addEntity (hd : (models.items.map Entity.name).Nodup) (entity : Entity) :
    ((addEntity models entity).items.map Entity.name).Nodup := by
  rcases addEntity_cases models entity with ⟨first, -, -, hadd⟩ | ⟨hfree, hadd⟩
  · rwa [hadd]
  · rw [hadd, List.map_append, List.map_singleton]
    refine List.nodup_append.mpr ⟨hd, List.nodup_singleton _, fun name hm other ho => ?_⟩
    obtain ⟨item, hi, rfl⟩ := List.mem_map.mp hm
    rw [List.mem_singleton.mp ho]
    exact fun heq => hfree ⟨item, hi, heq⟩

/-- A schema without a model adds at most a failure of its own; any other one adds its model. -/
theorem addSchema_cases (models : Resolution Entity) (entry : String × SchemaOrRef) :
    ((∀ name, ¬HasModel known options name entry) ∧
      (addSchema known options models entry).items = models.items ∧
      ∀ name, Collided known.naming (addSchema known options models entry).failures name ↔
        Collided known.naming models.failures name) ∨
    ∃ entity, addSchema known options models entry = addEntity models entity ∧
      known.naming.className entity.rawName = entity.name ∧
      ∀ name, HasModel known options name entry ↔ entity.name = name := by
  rw [addSchema]
  cases he : eligible? options entry with
  | none =>
    refine Or.inl ⟨?_, rfl, fun _ => Iff.rfl⟩
    rintro name ⟨schema, entity, hs, -, -⟩
    cases he.symm.trans hs
  | some schema =>
    simp only
    cases hr : resolveEntity known entry.1 schema with
    | error failure =>
      refine Or.inl ⟨?_, rfl, fun name => ?_⟩
      · rintro name ⟨other, entity, hs, hok, -⟩
        obtain rfl := Option.some.inj (he.symm.trans hs)
        cases hr.symm.trans hok
      · rw [collided_concat]
        -- A schema that fails on its own does not fail because of a name.
        have hkind := not_collision_of_resolveEntity hr
        exact or_iff_left fun hc => hkind hc.1
    | ok entity =>
      have hname := name_of_resolveEntity hr
      refine Or.inr ⟨entity, rfl, by rw [rawName_of_resolveEntity hr, hname], fun name => ?_⟩
      rw [hname]
      constructor
      · rintro ⟨_, _, -, -, hn⟩
        exact hn
      · exact fun hn => ⟨schema, entity, he, hr, hn⟩

theorem exists_name_addSchema (entry : String × SchemaOrRef) :
    (∃ item ∈ (addSchema known options models entry).items, item.name = name) ↔
      (∃ item ∈ models.items, item.name = name) ∨ HasModel known options name entry := by
  rcases addSchema_cases models entry with ⟨hnone, hitems, -⟩ | ⟨entity, hadd, -, hmodel⟩
  · rw [hitems, or_iff_left (hnone name)]
  · rw [hadd, hmodel, exists_name_addEntity_iff]

theorem collided_addSchema (entry : String × SchemaOrRef) :
    Collided known.naming (addSchema known options models entry).failures name ↔
      Collided known.naming models.failures name ∨
        (∃ item ∈ models.items, item.name = name) ∧ HasModel known options name entry := by
  rcases addSchema_cases models entry with ⟨hnone, -, hfailures⟩ | ⟨entity, hadd, hraw, hmodel⟩
  · rw [hfailures, or_iff_left fun hc => hnone name hc.2]
  · rw [hadd, hmodel, collided_addEntity hraw]

/-! ### All schemas -/

/-- There is a model of a name if one of the components comes to one. -/
theorem exists_name_foldl {entries : Fields SchemaOrRef} :
    (∃ item ∈ (List.foldl (addSchema known options) .none entries).items, item.name = name) ↔
      ∃ entry ∈ entries, HasModel known options name entry := by
  induction entries using List.reverseRecOn with
  | nil => simp [Resolution.none]
  | append_singleton entries entry ih =>
    rw [List.foldl_append, List.foldl_cons, List.foldl_nil, exists_name_addSchema, ih]
    simp [or_and_right, exists_or]

/-- The names of models are distinct. -/
theorem nodup_names_foldl {entries : Fields SchemaOrRef} :
    ((List.foldl (addSchema known options) .none entries).items.map Entity.name).Nodup := by
  induction entries using List.reverseRecOn with
  | nil => exact List.nodup_nil
  | append_singleton entries entry ih =>
    rw [List.foldl_append, List.foldl_cons, List.foldl_nil]
    rcases addSchema_cases (List.foldl (addSchema known options) .none entries) entry with
      ⟨-, hitems, -⟩ | ⟨entity, hadd, -, -⟩
    · rwa [hitems]
    · rw [hadd]
      exact nodup_names_addEntity ih entity

/-- A collision is reported unless no two schemas get a model of the class name. -/
theorem collided_foldl {entries : Fields SchemaOrRef} :
    Collided known.naming (List.foldl (addSchema known options) .none entries).failures name ↔
      ¬entries.Pairwise fun first second =>
        ¬(HasModel known options name first ∧ HasModel known options name second) := by
  induction entries using List.reverseRecOn with
  | nil => simp [Resolution.none, Collided]
  | append_singleton entries entry ih =>
    -- The last schema collides exactly if an earlier one has given the name to its model.
    have hlast : (∀ first ∈ entries, ∀ second ∈ [entry],
        ¬(HasModel known options name first ∧ HasModel known options name second)) ↔
        ¬((∃ first ∈ entries, HasModel known options name first) ∧
          HasModel known options name entry) := by
      simp only [List.forall_mem_singleton]
      exact ⟨fun h ⟨⟨first, hm, hf⟩, hl⟩ => h first hm ⟨hf, hl⟩,
        fun h first hm hc => h ⟨⟨first, hm, hc.1⟩, hc.2⟩⟩
    rw [List.foldl_append, List.foldl_cons, List.foldl_nil, collided_addSchema, ih,
      exists_name_foldl, List.pairwise_append, hlast,
      and_iff_right (List.pairwise_singleton _ entry), not_and_or, not_not]

variable {schemas : Fields SchemaOrRef}

theorem nodup_names :
    ((resolveModels schemas options).models.items.map Entity.name).Nodup := by
  -- Linking does not change names.
  have hnames : (resolveModels schemas options).models.items.map Entity.name =
      (List.foldl (addSchema (resolveModels schemas options).known options) .none
        schemas).items.map Entity.name := by
    rw [resolveModels]
    simp only [List.map_map]
    exact List.map_congr_left fun entity _ => name_linkInterfaces _ entity
  rw [hnames]
  exact nodup_names_foldl

/-- A collision is reported exactly if two schemas get models of the class name. -/
theorem collided_iff :
    Collided options.naming (resolveModels schemas options).models.failures name ↔
      ∃ first second, [first, second].Sublist schemas ∧
        HasModel (resolveModels schemas options).known options name first ∧
        HasModel (resolveModels schemas options).known options name second := by
  have hfold := @collided_foldl (resolveModels schemas options).known options name schemas
  rw [List.pairwise_iff_forall_sublist] at hfold
  simp only [not_forall, not_not, exists_prop] at hfold
  have hnaming : (resolveModels schemas options).known.naming = options.naming :=
    KnownTypes.naming_scan
  rw [hnaming] at hfold
  exact hfold

end Model

/-! ### References and collisions -/

open Model (Collided HasModel)

/-- A reference to a component that is given in place and admitted stands for the component itself
exactly if no other bare primitive takes its class name, and a collision of the name is reported
exactly if two components get models of it. -/
theorem resolve_eq_own_iff_and_collided_iff {schemas : Fields SchemaOrRef} {options : Options}
    {key : String} {schema : Schema} (hd : schemas.keys.Nodup)
    (hk : schemas.get? key = some (.inline schema)) (ha : options.admits key = true)
    (hs : '/' ∉ key.toList) :
    let resolution := resolveModels schemas options
    let name := options.naming.className key
    (resolution.known.resolve (localRef key) = .own options.naming key schema ↔
      ∀ body, LastAlias schemas options.naming options.admits name body →
        schema.isPrimitive = true ∧ body = schema) ∧
    (Collided options.naming resolution.models.failures name ↔
      ∃ first second, [first, second].Sublist schemas ∧
        HasModel resolution.known options name first ∧
        HasModel resolution.known options name second) :=
  ⟨resolve_eq_own_iff hd hk ha hs, Model.collided_iff⟩

/-- A schema of a type. -/
def bare (type : Document.SchemaType) : Schema :=
  { Schema.blank with types := some (.single type) }

/-- An identifier and two classes of one name. -/
def ownerSchemas : Fields SchemaOrRef :=
  [("pet-id", .inline (bare .string)), ("Owner", .inline (bare .object)),
    ("owner", .inline (bare .object))]

/-- Two classes of one name are a collision. -/
theorem collided_ownerSchemas :
    let resolution := resolveModels ownerSchemas .plain
    resolution.known.resolve (localRef "owner") = .entity "Owner" ∧
      Collided .plain resolution.models.failures "Owner" := by
  have hname : ClassNaming.plain.className "owner" = "Owner" := by decide +kernel
  have hname' : ClassNaming.plain.className "Owner" = "Owner" := by decide +kernel
  obtain ⟨hresolve, hcollided⟩ := @resolve_eq_own_iff_and_collided_iff ownerSchemas .plain "owner"
    (bare .object) (by decide +kernel) rfl (by decide +kernel) (by decide +kernel)
  have hplain : Options.plain.naming = ClassNaming.plain := rfl
  rw [hplain, hname] at hresolve hcollided
  constructor
  · refine (hresolve.mpr fun body hb => ?_).trans (by rw [ResolvedRef.own, hname]; rfl)
    have hnone : ((KnownTypes.scan ownerSchemas .plain Options.plain.admits).aliases.get?
        "Owner").isNone = true := by decide +kernel
    rw [KnownTypes.get?_aliases_scan_iff.mpr hb] at hnone
    exact absurd hnone nofun
  · exact hcollided.mpr ⟨("Owner", .inline (bare .object)), ("owner", .inline (bare .object)),
      List.sublist_cons_self _ _, ⟨_, _, rfl, rfl, hname'⟩, ⟨_, _, rfl, rfl, hname⟩⟩

/-- Two identifiers of one class name. -/
def identifierSchemas : Fields SchemaOrRef :=
  [("pet-id", .inline (bare .string)), ("pet_id", .inline (bare .integer))]

/-- Of two bare primitives with one class name the last one stands for both, and nothing fails. -/
theorem resolve_identifierSchemas :
    let resolution := resolveModels identifierSchemas .plain
    resolution.known.resolve (localRef "pet-id") = .alias (bare .integer) ∧
      resolution.models.failures = [] := by
  constructor
  · rfl
  · decide +kernel

end FunctionForge
