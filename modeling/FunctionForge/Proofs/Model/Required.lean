import FunctionForge.Proofs.Model.Mentions
import FunctionForge.Proofs.Model.Shapes

/-!
# Required properties

A schema with `allOf` demands the properties that it requires itself and those that one of its
members in place requires (`Demands`).  Its class has the properties of the one member with a type
or with properties, and makes a property required exactly if that member requires it
(`isRequired_iff_of_allOf`).  A list of required properties in a member of its own, or next to
`allOf`, is without effect (`not_isRequired_dog`).
-/

namespace FunctionForge.Model

open Document (Schema SchemaOrRef)

variable {known : KnownTypes}

/-! ### Properties -/

theorem Property.name_isRequired_of_resolve {key : String} {required : Bool}
    {position : SchemaOrRef} {property : Property}
    (h : Property.resolve known key required position = .ok property) :
    property.name = key ∧ property.isRequired = required := by
  obtain ⟨nullable, description, hmade⟩ := Property.resolve_eq_ok h
  exact hmade.name_isRequired

/-- A property is required exactly if the schema with the properties says so. -/
theorem isRequired_of_resolveProperties {rawName : String} {body : Schema}
    {fields : Fields SchemaOrRef} {properties : List Property}
    (h : resolveProperties known rawName body fields = .ok properties) :
    List.Forall₂ (fun field property => property.name = field.1 ∧
      (property.isRequired = true ↔ field.1 ∈ body.required)) fields properties := by
  refine (resolveProperties_eq_ok_iff.mp h).imp fun field property hr => ?_
  obtain ⟨hname, hrequired⟩ := Property.name_isRequired_of_resolve hr
  refine ⟨hname, ?_⟩
  rw [hrequired, Schema.requires, List.contains_iff_mem]

/-! ### The body of a class -/

/-- The schema that a member of `allOf` gives to the body of a class: one in place with a type or
with properties. -/
def body? : SchemaOrRef → Option Schema
  | .ref _ => none
  | .inline schema =>
    if schema.types.isSome || !schema.properties.isEmpty then some schema else none

/-- A step adds the body that the member gives, and there is none yet if it gives one. -/
theorem body_of_addInherited {member : SchemaOrRef} {before after : Inheritance}
    (h : addInherited known before member = .ok after) :
    after.body.toList = before.body.toList ++ (body? member).toList := by
  cases member with
  | ref path =>
    obtain ⟨_, _, -, -, -, rfl⟩ | ⟨_, hm, -⟩ := addInherited_eq_ok h
    · exact (List.append_nil _).symm
    · exact absurd hm nofun
  | inline schema =>
    rw [addInherited] at h
    rw [body?]
    split_ifs at h ⊢ with hbody hsome
    · -- A second body is refused, so there was none before.
      obtain rfl := Except.ok.inj h
      have hnone : before.body = none := by simpa using hsome
      rw [hnone]
      rfl
    · obtain rfl := Except.ok.inj h
      exact (List.append_nil _).symm

theorem body_of_foldlM {members : List SchemaOrRef} {before after : Inheritance}
    (h : members.foldlM (addInherited known) before = .ok after) :
    after.body.toList = before.body.toList ++ members.filterMap body? := by
  induction members generalizing before with
  | nil =>
    obtain rfl := Except.ok.inj h
    exact (List.append_nil _).symm
  | cons member rest ih =>
    rw [List.foldlM_cons] at h
    obtain ⟨next, hnext, h⟩ := bind_eq_ok.mp h
    have hcons : (member :: rest).filterMap body? =
        (body? member).toList ++ rest.filterMap body? := by
      rw [List.filterMap_cons]
      cases body? member with
      | none => rfl
      | some schema => rfl
    rw [ih h, body_of_addInherited hnext, hcons, List.append_assoc]

/-- The body that a schema with `allOf` gives to its class; a blank one if no member gives one. -/
def holder (schema : Schema) : Schema :=
  (schema.allOf.filterMap body?).head?.getD .blank

theorem body_of_inheritance {schema : Schema} (hallOf : schema.allOf ≠ [])
    {inherited : Inheritance} (h : inheritance known schema = .ok inherited) :
    (schema.allOf.filterMap body?).length ≤ 1 ∧ inherited.body.getD .blank = holder schema := by
  rw [inheritance, if_neg (by simpa using hallOf)] at h
  have hbody : inherited.body.toList = schema.allOf.filterMap body? := body_of_foldlM h
  rw [holder, ← hbody]
  cases inherited.body with
  | none => exact ⟨Nat.zero_le _, rfl⟩
  | some body => exact ⟨Nat.le_refl _, rfl⟩

theorem mem_allOf_of_body? {member : SchemaOrRef} {schema : Schema}
    (h : body? member = some schema) : member = .inline schema := by
  cases member with
  | ref path => exact absurd h nofun
  | inline own =>
    rw [body?] at h
    split_ifs at h
    rw [Option.some.inj h]

/-- The body is one of the members, unless there is none. -/
theorem inline_holder_mem {schema : Schema} {name : String} (h : name ∈ (holder schema).required) :
    .inline (holder schema) ∈ schema.allOf := by
  rw [holder] at h ⊢
  cases hbodies : schema.allOf.filterMap body? with
  | nil =>
    rw [hbodies] at h
    exact absurd h List.not_mem_nil
  | cons body rest =>
    have hmem : body ∈ schema.allOf.filterMap body? := hbodies ▸ List.mem_cons_self
    obtain ⟨member, hm, hb⟩ := List.mem_filterMap.mp hmem
    rwa [mem_allOf_of_body? hb] at hm

/-! ### Demanded properties -/

/-- A schema with `allOf` demands a property: in its own list of required properties or in that of a
member in place. -/
def Demands (schema : Schema) (name : String) : Prop :=
  name ∈ schema.required ∨ ∃ member, .inline member ∈ schema.allOf ∧ name ∈ member.required

theorem demands_of_holder {schema : Schema} {name : String}
    (h : name ∈ (holder schema).required) : Demands schema name :=
  Or.inr ⟨holder schema, inline_holder_mem h, h⟩

/-- Properties that are required by one list are those of a longer list exactly if no name among
them is in the longer list alone. -/
theorem forall_isRequired_iff {fields : Fields SchemaOrRef} {properties : List Property}
    {required : List String} {demands : String → Prop}
    (h : List.Forall₂ (fun field property => property.name = field.1 ∧
      (property.isRequired = true ↔ field.1 ∈ required)) fields properties)
    (hsub : ∀ name ∈ required, demands name) :
    (∀ property ∈ properties, (property.isRequired = true ↔ demands property.name)) ↔
      ∀ name ∈ fields.keys, demands name → name ∈ required := by
  induction h with
  | nil => exact iff_of_true (List.forall_mem_nil _) (List.forall_mem_nil _)
  | @cons field property rest more hfirst _ ih =>
    obtain ⟨hname, hrequired⟩ := hfirst
    have hkeys : Fields.keys (field :: rest) = field.1 :: Fields.keys rest := rfl
    rw [List.forall_mem_cons, ih, hkeys, List.forall_mem_cons, hname, hrequired]
    refine and_congr_left fun _ => ?_
    -- What is required is demanded anyway, so that only the way back says something.
    constructor
    · exact Iff.mpr
    · exact fun hback => ⟨hsub field.1, hback⟩

/-- The class of a schema with `allOf` has the properties of the one member that may hold some, and
requires those that this member requires, all of which are demanded.  They are all the demanded ones
exactly if no property of the class is demanded elsewhere alone. -/
theorem isRequired_iff_of_allOf {rawName : String} {schema : Schema} {model : ObjectModel}
    (hallOf : schema.allOf ≠ []) (h : resolveObject known rawName schema = .ok model) :
    (schema.allOf.filterMap body?).length ≤ 1 ∧
      List.Forall₂ (fun field property => property.name = field.1 ∧
        (property.isRequired = true ↔ field.1 ∈ (holder schema).required))
        (holder schema).properties model.properties ∧
      (∀ name ∈ (holder schema).required, Demands schema name) ∧
      ((∀ property ∈ model.properties,
          (property.isRequired = true ↔ Demands schema property.name)) ↔
        ∀ name ∈ Fields.keys (holder schema).properties, Demands schema name →
          name ∈ (holder schema).required) := by
  obtain ⟨inherited, properties, hi, hp, -, rfl, -⟩ := resolveObject_eq_ok h
  obtain ⟨hone, hbody⟩ := body_of_inheritance hallOf hi
  rw [hbody] at hp
  have hall := isRequired_of_resolveProperties hp
  have hdemands : ∀ name ∈ (holder schema).required, Demands schema name := fun _ =>
    demands_of_holder
  exact ⟨hone, hall, hdemands, forall_isRequired_iff hall hdemands⟩

/-! ### The name of a dog -/

/-- A dog is an animal with a name; `own` is required where the name is declared, `others` in a
member that does nothing else. -/
def dogSchema (own others : List String) : Schema :=
  { Schema.blank with allOf := [
      .ref "#/components/schemas/Animal",
      .inline { Schema.blank with
        properties := [("name", .inline { Schema.blank with types := some (.single .string) })]
        required := own },
      .inline { Schema.blank with required := others }] }

/-- A name that is required where it is declared is required in the class. -/
theorem isRequired_iff_of_allOf_dog :
    ∃ model, resolveObject .empty "Dog" (dogSchema ["name"] ["name"]) = .ok model ∧
      model.properties.map (fun property => (property.name, property.isRequired)) =
        [("name", true)] ∧
      ∀ property ∈ model.properties,
        (property.isRequired = true ↔ Demands (dogSchema ["name"] ["name"]) property.name) := by
  have hproperties :
      (resolveObject .empty "Dog" (dogSchema ["name"] ["name"])).toOption.map (fun model =>
        model.properties.map fun property => (property.name, property.isRequired)) =
        some [("name", true)] := by
    decide +kernel
  obtain ⟨model, hmodel, hlist⟩ := Option.map_eq_some_iff.mp hproperties
  have hok := eq_ok_of_toOption hmodel
  obtain ⟨-, -, -, hiff⟩ := isRequired_iff_of_allOf (List.cons_ne_nil _ _) hok
  refine ⟨model, hok, hlist, hiff.mpr fun name hname _ => ?_⟩
  rwa [show Fields.keys (holder (dogSchema ["name"] ["name"])).properties = ["name"] from rfl]
    at hname

/-- A name that is required in a member of its own is demanded, but not required in the class. -/
theorem not_isRequired_dog :
    ∃ model, resolveObject .empty "Dog" (dogSchema [] ["name"]) = .ok model ∧
      ∃ property ∈ model.properties, property.name = "name" ∧ property.isRequired = false ∧
        Demands (dogSchema [] ["name"]) property.name := by
  have hdemands : Demands (dogSchema [] ["name"]) "name" := by
    refine Or.inr ⟨{ Schema.blank with required := ["name"] }, ?_, List.mem_singleton_self _⟩
    exact List.mem_cons_of_mem _ (List.mem_cons_of_mem _ (List.mem_singleton_self _))
  have hproperties :
      (resolveObject .empty "Dog" (dogSchema [] ["name"])).toOption.map (fun model =>
        model.properties.map fun property => (property.name, property.isRequired)) =
        some [("name", false)] := by
    decide +kernel
  obtain ⟨model, hmodel, hlist⟩ := Option.map_eq_some_iff.mp hproperties
  obtain ⟨property, hproperty, hpair⟩ := List.map_eq_singleton_iff.mp hlist
  obtain ⟨hname, hrequired⟩ := Prod.mk.inj hpair
  refine ⟨model, eq_ok_of_toOption hmodel, property, ?_, hname, hrequired, hname ▸ hdemands⟩
  rw [hproperty]
  exact List.mem_singleton_self _

end FunctionForge.Model
