import FunctionForge.Endpoint.Content
import FunctionForge.Model.Entity
import FunctionForge.Proofs.Fields
import FunctionForge.Proofs.Result

/-!
# The members that values select

`Selects` says which value selects a member of a union: the last one that the discriminator maps to
its name, or its name if there is none.  An interface, and the body of a request, is made of a union
exactly if every member is admissible, and then of the same cases (`resolveInterface_eq_ok_iff`,
`resolveUnion_eq_ok_iff`).  In both, a value is mapped to the class of the last member that it
selects (`get?_mapping_eq_some_iff_lastSelected`), so that a value is lost if a later one is mapped
to the same member.  Nothing is lost if the discriminator maps one value to a name at most, and no
member without a value has a name that is the value of another one (`get?_mapping_of_faithful`).
-/

namespace FunctionForge

open Document (Discriminator Schema SchemaOrRef)
open Naming (refName)

/-- The name of the class that a reference stands for if it does not lead to an alias. -/
def KnownTypes.entityName (known : KnownTypes) (path : String) : String :=
  known.naming.className (known.followRedirects (refName path))

/-- A reference stands for a class exactly if the name of that class is not the name of an alias. -/
theorem KnownTypes.resolve_eq_entity_iff {known : KnownTypes} {path name : String} :
    known.resolve path = .entity name ↔
      known.isAlias (known.entityName path) = false ∧ known.entityName path = name := by
  rw [resolve, isAlias, Fields.has, entityName]
  cases known.aliases.get? (known.naming.className (known.followRedirects (refName path))) with
  | none => simp
  | some body => simp

namespace Union

variable {mapping : Fields String} {member value : String}

/-! ### Values of members -/

/-- A value selects a member of a union. -/
inductive Selects (mapping : Fields String) (member : String) : String → Prop
  | declared {before after : Fields String} {value target : String}
      (h : mapping = before ++ (value, target) :: after) (ht : refName target = member)
      (hlast : ∀ pair ∈ after, refName pair.2 ≠ member) : Selects mapping member value
  | undeclared (h : ∀ pair ∈ mapping, refName pair.2 ≠ member) : Selects mapping member member

theorem get?_valuesByMember_eq_none_iff :
    (valuesByMember mapping).get? member = none ↔ ∀ pair ∈ mapping, refName pair.2 ≠ member := by
  rw [valuesByMember, Fields.get?_ofList_eq_none_iff, List.forall_mem_map]

/-- Of the values that a discriminator maps to a member, the last one counts. -/
theorem get?_valuesByMember_eq_some_iff :
    (valuesByMember mapping).get? member = some value ↔
      ∃ before target after, mapping = before ++ (value, target) :: after ∧
        refName target = member ∧ ∀ pair ∈ after, refName pair.2 ≠ member := by
  rw [valuesByMember, Fields.get?_ofList_eq_some_iff]
  constructor
  · rintro ⟨before, after, heq, hlast⟩
    obtain ⟨start, rest, rfl, rfl, hrest⟩ := List.map_eq_append_iff.mp heq
    obtain ⟨pair, tail, rfl, hpair, rfl⟩ := List.map_eq_cons_iff.mp hrest
    obtain ⟨hname, rfl⟩ := Prod.mk.inj hpair
    refine ⟨start, pair.2, tail, rfl, hname, fun later hm => ?_⟩
    exact hlast (refName later.2, later.1) (List.mem_map_of_mem hm)
  · rintro ⟨before, target, after, rfl, rfl, hlast⟩
    exact ⟨_, _, List.map_append, List.forall_mem_map.mpr hlast⟩

/-- The value that selects a member is the declared one, or else its name. -/
theorem selects_iff : Selects mapping member value ↔ selectingValue mapping member = value := by
  rw [selectingValue]
  constructor
  · intro h
    cases h with
    | declared h ht hlast =>
      rw [get?_valuesByMember_eq_some_iff.mpr ⟨_, _, _, h, ht, hlast⟩, Option.getD_some]
    | undeclared h => rw [get?_valuesByMember_eq_none_iff.mpr h, Option.getD_none]
  · intro h
    cases hv : (valuesByMember mapping).get? member with
    | none =>
      rw [hv, Option.getD_none] at h
      rw [← h]
      exact .undeclared (get?_valuesByMember_eq_none_iff.mp hv)
    | some last =>
      rw [hv, Option.getD_some] at h
      obtain ⟨before, target, after, heq, ht, hlast⟩ := get?_valuesByMember_eq_some_iff.mp hv
      rw [← h]
      exact .declared heq ht hlast

/-! ### Members -/

/-- The references among the members of a union. -/
def memberPaths (members : List SchemaOrRef) : List String :=
  members.filterMap fun
    | .ref path => some path
    | .inline _ => none

theorem mem_memberPaths {members : List SchemaOrRef} {path : String} :
    path ∈ memberPaths members ↔ .ref path ∈ members := by
  rw [memberPaths, List.mem_filterMap]
  constructor
  · rintro ⟨schema, hm, heq⟩
    cases schema with
    | ref other =>
      rw [← Option.some.inj heq]
      exact hm
    | inline _ => exact absurd heq nofun
  · exact fun hm => ⟨.ref path, hm, rfl⟩

/-- The members of a union with the values that select them. -/
def cases (known : KnownTypes) (mapping : Fields String) (members : List SchemaOrRef) :
    List (String × String) :=
  (memberPaths members).map fun path =>
    (selectingValue mapping (refName path), known.entityName path)

/-- A reference is the last member that a value selects. -/
def LastSelected (mapping : Fields String) (members : List SchemaOrRef) (value path : String) :
    Prop :=
  ∃ before after, memberPaths members = before ++ path :: after ∧
    Selects mapping (refName path) value ∧ ∀ later ∈ after, ¬Selects mapping (refName later) value

/-- A value stands for the class of the last member that it selects. -/
theorem get?_ofList_cases_iff {known : KnownTypes} {members : List SchemaOrRef} {name : String} :
    (Fields.ofList (cases known mapping members)).get? value = some name ↔
      ∃ path, LastSelected mapping members value path ∧ known.entityName path = name := by
  rw [Fields.get?_ofList_eq_some_iff, cases]
  constructor
  · rintro ⟨before, after, heq, hlast⟩
    obtain ⟨start, rest, hpaths, rfl, hrest⟩ := List.map_eq_append_iff.mp heq
    obtain ⟨path, tail, rfl, hpath, rfl⟩ := List.map_eq_cons_iff.mp hrest
    obtain ⟨hvalue, hname⟩ := Prod.mk.inj hpath
    refine ⟨path, ⟨start, tail, hpaths, selects_iff.mpr hvalue, fun later hm hs => ?_⟩, hname⟩
    exact List.forall_mem_map.mp hlast later hm (selects_iff.mp hs)
  · rintro ⟨path, ⟨before, after, hpaths, hs, hlast⟩, rfl⟩
    rw [hpaths, List.map_append, List.map_cons, selects_iff.mp hs]
    refine ⟨_, _, rfl, List.forall_mem_map.mpr fun later hm hv => ?_⟩
    exact hlast later hm (selects_iff.mpr hv)

/-- A value that selects a member has a last one that it selects. -/
theorem exists_lastSelected {members : List SchemaOrRef} {path : String}
    (hm : .ref path ∈ members) (hs : Selects mapping (refName path) value) :
    ∃ last, LastSelected mapping members value last := by
  -- Any table will do, as the values do not depend on the classes.
  let known := KnownTypes.empty
  cases hf : (Fields.ofList (cases known mapping members)).get? value with
  | none =>
    have hcase : (selectingValue mapping (refName path), known.entityName path) ∈
        cases known mapping members := List.mem_map_of_mem (mem_memberPaths.mpr hm)
    exact absurd (selects_iff.mp hs) (Fields.get?_ofList_eq_none_iff.mp hf _ hcase)
  | some name =>
    obtain ⟨last, hlast, -⟩ := get?_ofList_cases_iff.mp hf
    exact ⟨last, hlast⟩

end Union

open FunctionForge.Union

variable {known : KnownTypes} {discriminator : Discriminator} {schema : Schema}

/-! ### The two walks -/

/-- A member does not keep a union from being made: it is a reference to a class, or it does nothing
but require properties. -/
def Union.Admissible (known : KnownTypes) : SchemaOrRef → Prop
  | .ref path => known.isAlias (known.entityName path) = false
  | .inline schema => schema.isRequiredOnly = true

/-- The classes of admissible members are no aliases. -/
theorem Union.not_isAlias_of_admissible {mapping : Fields String} {members : List SchemaOrRef}
    (h : ∀ member ∈ members, Admissible known member) :
    ∀ name ∈ (cases known mapping members).map Prod.snd, known.isAlias name = false := by
  intro name hn
  obtain ⟨case, hc, rfl⟩ := List.mem_map.mp hn
  obtain ⟨path, hp, rfl⟩ := List.mem_map.mp hc
  exact h _ (mem_memberPaths.mp hp)

/-- Every admissible member has its case, and one that is not spoils all of them. -/
theorem Endpoint.unionCases_eq_ok_iff {members : List SchemaOrRef}
    {found : List (String × String)} :
    unionCases known discriminator members = .ok found ↔
      (∀ member ∈ members, Admissible known member) ∧
        found = cases known discriminator.mapping members := by
  induction members generalizing found with
  | nil =>
    rw [unionCases, Except.ok.injEq, eq_comm]
    exact (and_iff_right fun _ hm => absurd hm List.not_mem_nil).symm
  | cons member rest ih =>
    rw [List.forall_mem_cons]
    cases member with
    | ref path =>
      rw [unionCases, Admissible]
      -- A reference is admissible unless it stands for an alias.
      cases ha : known.isAlias (known.entityName path) with
      | true =>
        rcases hr : known.resolve path with body | name
        · simp
        · have hother := (KnownTypes.resolve_eq_entity_iff.mp hr).1
          rw [ha] at hother
          cases hother
      | false =>
        rw [KnownTypes.resolve_eq_entity_iff.mpr ⟨ha, rfl⟩, and_iff_right rfl]
        simp only [map_eq_ok, ih]
        constructor
        · rintro ⟨others, ⟨hall, rfl⟩, rfl⟩
          exact ⟨hall, rfl⟩
        · rintro ⟨hall, rfl⟩
          exact ⟨_, ⟨hall, rfl⟩, rfl⟩
    | inline schema =>
      rw [unionCases, Admissible]
      split_ifs with hs
      · rw [ih, and_iff_right hs]
        rfl
      · simp [hs]

/-- Members of an interface with further ones added. -/
def Model.Members.extend (members : Members) (cases : List (String × String)) : Members :=
  ⟨members.children ++ cases.map Prod.snd,
    cases.foldl (fun fields pair => fields.insert pair.1 pair.2) members.mapping⟩

/-- Every admissible member adds its case, and one that is not spoils all of them. -/
theorem Model.foldlM_addChild_eq_ok_iff {members : List SchemaOrRef} {before after : Members} :
    members.foldlM (addChild known discriminator) before = .ok after ↔
      (∀ member ∈ members, Admissible known member) ∧
        after = before.extend (cases known discriminator.mapping members) := by
  induction members generalizing before with
  | nil =>
    have hnil : before.extend (cases known discriminator.mapping []) = before := by
      simp [Members.extend, cases, memberPaths]
    rw [hnil]
    constructor
    · intro h
      exact ⟨fun _ hm => absurd hm List.not_mem_nil, (Except.ok.inj h).symm⟩
    · rintro ⟨-, rfl⟩
      rfl
  | cons member rest ih =>
    rw [List.foldlM_cons, List.forall_mem_cons, bind_eq_ok]
    cases member with
    | ref path =>
      rw [addChild, Admissible]
      cases ha : known.isAlias (known.entityName path) with
      | true =>
        rcases hr : known.resolve path with body | name
        · simp
        · have hother := (KnownTypes.resolve_eq_entity_iff.mp hr).1
          rw [ha] at hother
          cases hother
      | false =>
        rw [KnownTypes.resolve_eq_entity_iff.mpr ⟨ha, rfl⟩, and_iff_right rfl]
        simp only [Except.ok.injEq, exists_eq_left', ih, Members.extend, List.append_assoc]
        rfl
    | inline schema =>
      rw [addChild, Admissible]
      split_ifs with hs
      · simp only [Except.ok.injEq, exists_eq_left', ih, and_iff_right hs]
        rfl
      · simp [hs]

/-- The interface of a union whose members are these. -/
theorem Model.resolveInterface_eq_ok_iff {rawName : String} {model : InterfaceModel} :
    resolveInterface known rawName schema = .ok model ↔
      ∃ discriminator, schema.discriminator = some discriminator ∧
        (∀ member ∈ schema.oneOf, Admissible known member) ∧ model =
          { rawName
            name := known.naming.className rawName
            description := schema.description
            children := (cases known discriminator.mapping schema.oneOf).map Prod.snd
            discriminator := Naming.identifier discriminator.propertyName
            mapping := Fields.ofList (cases known discriminator.mapping schema.oneOf) } := by
  rw [resolveInterface]
  cases schema.discriminator with
  | none => exact ⟨nofun, fun ⟨_, hd, _⟩ => absurd hd nofun⟩
  | some discriminator =>
    simp only [Option.some.injEq, exists_eq_left', bind_eq_ok, foldlM_addChild_eq_ok_iff]
    constructor
    · rintro ⟨members, ⟨hall, rfl⟩, h⟩
      exact ⟨hall, (Except.ok.inj h).symm⟩
    · rintro ⟨hall, rfl⟩
      exact ⟨_, ⟨hall, rfl⟩, rfl⟩

/-- A union with a discriminator is made of its admissible members. -/
theorem Endpoint.resolveUnion_eq_ok_iff {summary : BodySummary} :
    resolveUnion known schema = .ok summary ↔
      ∃ discriminator, schema.discriminator = some discriminator ∧
        (∀ member ∈ schema.oneOf, Admissible known member) ∧
        summary = .union ((cases known discriminator.mapping schema.oneOf).map Prod.snd)
          (Fields.ofList (cases known discriminator.mapping schema.oneOf))
          discriminator.propertyName := by
  rw [resolveUnion]
  cases schema.discriminator with
  | none => exact ⟨nofun, fun ⟨_, hd, _⟩ => absurd hd nofun⟩
  | some discriminator =>
    simp only [Option.some.injEq, exists_eq_left', bind_eq_ok, unionCases_eq_ok_iff]
    constructor
    · rintro ⟨found, ⟨hall, rfl⟩, h⟩
      exact ⟨hall, (Except.ok.inj h).symm⟩
    · rintro ⟨hall, rfl⟩
      exact ⟨_, ⟨hall, rfl⟩, rfl⟩

theorem Model.mapping_of_resolveInterface (hd : schema.discriminator = some discriminator)
    {rawName : String} {model : InterfaceModel}
    (h : resolveInterface known rawName schema = .ok model) :
    model.mapping = Fields.ofList (cases known discriminator.mapping schema.oneOf) := by
  obtain ⟨other, ho, -, rfl⟩ := resolveInterface_eq_ok_iff.mp h
  obtain rfl := Option.some.inj (hd.symm.trans ho)
  rfl

/-- An interface is made that maps a value to a class exactly if all members are admissible and the
last one that the value selects has the class. -/
theorem Model.exists_interface_mapping_iff (hd : schema.discriminator = some discriminator)
    (rawName value name : String) :
    (∃ model, resolveInterface known rawName schema = .ok model ∧
      model.mapping.get? value = some name) ↔
    (∀ member ∈ schema.oneOf, Admissible known member) ∧
      ∃ path, LastSelected discriminator.mapping schema.oneOf value path ∧
        known.entityName path = name := by
  constructor
  · rintro ⟨model, hm, hget⟩
    obtain ⟨_, -, hall, -⟩ := resolveInterface_eq_ok_iff.mp hm
    rw [mapping_of_resolveInterface hd hm] at hget
    exact ⟨hall, get?_ofList_cases_iff.mp hget⟩
  · rintro ⟨hall, hlast⟩
    refine ⟨_, resolveInterface_eq_ok_iff.mpr ⟨discriminator, hd, hall, rfl⟩, ?_⟩
    exact get?_ofList_cases_iff.mpr hlast

theorem Endpoint.eq_union_of_resolveUnion (hd : schema.discriminator = some discriminator)
    {summary : BodySummary} (h : resolveUnion known schema = .ok summary) :
    summary = .union ((cases known discriminator.mapping schema.oneOf).map Prod.snd)
      (Fields.ofList (cases known discriminator.mapping schema.oneOf))
      discriminator.propertyName := by
  obtain ⟨other, ho, -, rfl⟩ := resolveUnion_eq_ok_iff.mp h
  obtain rfl := Option.some.inj (hd.symm.trans ho)
  rfl

/-- A value is mapped to the class of the last member that it selects. -/
theorem get?_mapping_eq_some_iff_lastSelected (hd : schema.discriminator = some discriminator) :
    (∀ rawName model, Model.resolveInterface known rawName schema = .ok model →
      ∀ value name, model.mapping.get? value = some name ↔
        ∃ path, LastSelected discriminator.mapping schema.oneOf value path ∧
          known.entityName path = name) ∧
    ∀ summary, Endpoint.resolveUnion known schema = .ok summary →
      ∃ candidates mapping, summary = .union candidates mapping discriminator.propertyName ∧
        ∀ value name, mapping.get? value = some name ↔
          ∃ path, LastSelected discriminator.mapping schema.oneOf value path ∧
            known.entityName path = name := by
  constructor
  · intro rawName model h value name
    rw [Model.mapping_of_resolveInterface hd h]
    exact get?_ofList_cases_iff
  · intro summary h
    exact ⟨_, _, Endpoint.eq_union_of_resolveUnion hd h, fun _ _ => get?_ofList_cases_iff⟩

/-- A union of one kind of pet, which each of some values selects. -/
def petUnion (values : List String) : Schema where
  __ := Schema.blank
  oneOf := [.ref "#/components/schemas/Cat"]
  discriminator := some ⟨"kind", values.map fun value => (value, "#/components/schemas/Cat")⟩

/-- A single value for a member is mapped to its class. -/
theorem get?_mapping_petUnion :
    (∃ model, Model.resolveInterface .empty "Pet" (petUnion ["cat"]) = .ok model ∧
      model.mapping.get? "cat" = some "Cat") ∧
    ∃ candidates mapping, Endpoint.resolveUnion .empty (petUnion ["cat"]) =
      .ok (.union candidates mapping "kind") ∧ mapping.get? "cat" = some "Cat" := by
  have hlast : ∃ path, LastSelected [("cat", "#/components/schemas/Cat")]
      (petUnion ["cat"]).oneOf "cat" path ∧ KnownTypes.empty.entityName path = "Cat" :=
    ⟨"#/components/schemas/Cat", ⟨[], [], rfl, selects_iff.mpr (by decide +kernel), nofun⟩,
      by decide +kernel⟩
  obtain ⟨hinterface, hunion⟩ :=
    @get?_mapping_eq_some_iff_lastSelected .empty _ (petUnion ["cat"]) rfl
  constructor
  · obtain ⟨model, hm⟩ : ∃ model,
        Model.resolveInterface .empty "Pet" (petUnion ["cat"]) = .ok model := ⟨_, rfl⟩
    exact ⟨model, hm, (hinterface "Pet" model hm "cat" "Cat").mpr hlast⟩
  · obtain ⟨summary, hs⟩ : ∃ summary,
        Endpoint.resolveUnion .empty (petUnion ["cat"]) = .ok summary := ⟨_, rfl⟩
    obtain ⟨candidates, mapping, rfl, hget⟩ := hunion summary hs
    exact ⟨candidates, mapping, hs, (hget "cat" "Cat").mpr hlast⟩

/-- Of two values for one member the first one is lost. -/
theorem mapping_petUnion :
    (Model.resolveInterface .empty "Pet" (petUnion ["cat", "kitten"])).map
      Model.InterfaceModel.mapping = .ok [("kitten", "Cat")] ∧
    Endpoint.resolveUnion .empty (petUnion ["cat", "kitten"]) =
      .ok (.union ["Cat"] [("kitten", "Cat")] "kind") := by
  decide +kernel

/-! ### Mappings that lose nothing -/

/-- Every value has a name of its own, and every name a value of its own; no member without a value
bears the value of another member as its name. -/
structure Faithful (mapping : Fields String) (members : List SchemaOrRef) : Prop where
  nodup_values : mapping.keys.Nodup
  nodup_names : (mapping.map fun pair => refName pair.2).Nodup
  undeclared : ∀ path, .ref path ∈ members →
    (∀ pair ∈ mapping, refName pair.2 ≠ refName path) → refName path ∉ mapping.keys

namespace Faithful

variable {mapping : Fields String} {members : List SchemaOrRef} {value target path : String}

theorem selects (h : Faithful mapping members) (hv : (value, target) ∈ mapping) :
    Selects mapping (refName target) value := by
  obtain ⟨before, after, rfl⟩ := List.append_of_mem hv
  refine .declared rfl rfl fun pair hm heq => ?_
  have hnames := h.nodup_names
  rw [List.map_append, List.map_cons] at hnames
  have hcons := (List.nodup_append.mp hnames).2.1
  exact (List.nodup_cons.mp hcons).1 (heq ▸ List.mem_map_of_mem hm)

theorem refName_eq_of_selects (h : Faithful mapping members) (hv : (value, target) ∈ mapping)
    (hm : .ref path ∈ members) (hs : Selects mapping (refName path) value) :
    refName path = refName target := by
  have hmember : ∀ member, member = refName path → Selects mapping member value →
      refName path = refName target := by
    intro member heq hs
    cases hs with
    | @declared before after _ other heq' ht _ =>
      have ho : (value, other) ∈ mapping := by rw [heq']; simp
      obtain ⟨-, rfl⟩ := Prod.mk.inj (List.inj_on_of_nodup_map h.nodup_values ho hv rfl)
      rw [← heq, ht]
    | undeclared hnone =>
      rw [heq] at hnone
      exact absurd (heq ▸ Fields.mem_keys_of_mem hv) (h.undeclared path hm hnone)
  exact hmember _ rfl hs

end Faithful

/-- If the mapping is faithful, every value that is declared for a member is mapped to its class. -/
theorem get?_mapping_of_faithful (hd : schema.discriminator = some discriminator)
    (h : Faithful discriminator.mapping schema.oneOf) {value target path : String}
    (hv : (value, target) ∈ discriminator.mapping) (hm : .ref path ∈ schema.oneOf)
    (hname : refName target = refName path) :
    (∀ rawName model, Model.resolveInterface known rawName schema = .ok model →
      model.mapping.get? value = some (known.entityName path)) ∧
    ∀ summary, Endpoint.resolveUnion known schema = .ok summary →
      ∃ candidates mapping, summary = .union candidates mapping discriminator.propertyName ∧
        mapping.get? value = some (known.entityName path) := by
  have hget : (Fields.ofList (cases known discriminator.mapping schema.oneOf)).get? value =
      some (known.entityName path) := by
    obtain ⟨last, hlast⟩ := exists_lastSelected hm (hname ▸ h.selects hv)
    have ⟨before, after, hpaths, hs, _⟩ := hlast
    have hmem : .ref last ∈ schema.oneOf := mem_memberPaths.mp (by rw [hpaths]; simp)
    have heq : refName last = refName path := (h.refName_eq_of_selects hv hmem hs).trans hname
    exact get?_ofList_cases_iff.mpr ⟨last, hlast, by rw [KnownTypes.entityName, heq]; rfl⟩
  constructor
  · intro rawName model hi
    rw [Model.mapping_of_resolveInterface hd hi, hget]
  · intro summary hu
    exact ⟨_, _, Endpoint.eq_union_of_resolveUnion hd hu, hget⟩

end FunctionForge
