import FunctionForge.Model.Entity
import FunctionForge.Proofs.Document.References
import FunctionForge.Proofs.Model.Properties
import FunctionForge.Proofs.Redirects

/-!
# The class names in a model

`Entity.mentions` lists the names of generated classes that a model is made of besides its own:
those in the types of its properties, its parent, and the children of an interface.  Each of them is
what a reference in the schema of the model stands for (`names_of_resolveEntity`).  References to
bare primitives leave no name behind, since the body of an alias has a scalar type
(`KnownTypes.isPrimitive_of_resolve`).
-/

namespace FunctionForge

open Document (AdditionalProperties Discriminator Schema SchemaOrRef)

namespace KnownTypes

/-- A name is that of the class that one of these references stands for. -/
def Names (known : KnownTypes) (refs : List String) (name : String) : Prop :=
  ∃ path ∈ refs, known.resolve path = .entity name

theorem Names.mono {known : KnownTypes} {refs refs' : List String} {name : String}
    (h : known.Names refs name) (hsub : refs ⊆ refs') : known.Names refs' name := by
  obtain ⟨path, hp, hr⟩ := h
  exact ⟨path, hsub hp, hr⟩

/-- The bodies of all aliases are bare primitives. -/
def AliasesPrimitive (known : KnownTypes) : Prop :=
  ∀ name body, known.aliases.get? name = some body → body.isPrimitive = true

/-- Only bare primitives become aliases. -/
theorem aliasesPrimitive_add {known : KnownTypes} (admits : String → Bool)
    (h : known.AliasesPrimitive) (entry : String × SchemaOrRef) :
    (add admits known entry).AliasesPrimitive := by
  intro name body hb
  unfold add at hb
  split at hb
  · exact h name body hb
  · split_ifs at hb with hc
    · rw [Fields.get?_insert] at hb
      split_ifs at hb with hn
      · rw [Bool.and_eq_true] at hc
        rw [← Option.some.inj hb]
        exact hc.2
      · exact h name body hb
    · exact h name body hb

theorem aliasesPrimitive_scan (schemas : Fields SchemaOrRef) (naming : Naming.ClassNaming)
    (admits : String → Bool) : (scan schemas naming admits).AliasesPrimitive := by
  have hfold : ∀ (entries : Fields SchemaOrRef) (known : KnownTypes), known.AliasesPrimitive →
      (List.foldl (add admits) known entries).AliasesPrimitive := by
    intro entries
    induction entries with
    | nil => exact fun _ h => h
    | cons entry rest ih => exact fun known h => ih _ (aliasesPrimitive_add admits h entry)
  exact hfold schemas _ fun name body hb => absurd hb nofun

/-- What an alias stands for is a bare primitive. -/
theorem isPrimitive_of_resolve {known : KnownTypes} (h : known.AliasesPrimitive) {path : String}
    {body : Schema} (hr : known.resolve path = .alias body) : body.isPrimitive = true := by
  rw [resolve] at hr
  split at hr
  · rename_i found hf
    obtain rfl := ResolvedRef.alias.inj hr
    exact h _ _ hf
  · exact absurd hr nofun

end KnownTypes

/-- A bare primitive is neither a list nor an object. -/
theorem primaryType_of_isPrimitive {schema : Schema} (h : schema.isPrimitive = true) :
    schema.primaryType ≠ some .array ∧ schema.primaryType ≠ some .object := by
  rw [Schema.isPrimitive, Bool.and_eq_true, Schema.isScalarTyped] at h
  constructor
  · intro hp
    rw [hp] at h
    exact absurd h.1 nofun
  · intro hp
    rw [hp] at h
    exact absurd h.1 nofun

namespace Model

variable {known : KnownTypes} {name : String}

/-! ### Properties -/

/-- An element that is of a class was given by a reference to it. -/
theorem names_of_elementType? {nullable : Bool} {schema : SchemaOrRef} {type : TypeRef}
    (h : elementType? known nullable schema = some type) (hn : type.entityName? = some name) :
    known.Names schema.references name := by
  obtain ⟨scalar, rfl⟩ | ⟨path, className, rfl, hr, rfl⟩ := elementType?_eq_some h
  · exact absurd hn nofun
  · obtain rfl := Option.some.inj hn
    exact ⟨path, List.mem_singleton_self _, hr⟩

theorem names_of_ofList {site : PropertySite} {schema : Schema} {property : Property}
    (h : Property.ofList known site schema = .ok property)
    (hn : property.typeRef.entityName? = some name) : known.Names schema.references name := by
  obtain ⟨items, item, hi, ht, rfl⟩ := Property.ofList_eq_ok h
  exact (names_of_elementType? ht hn).mono (Schema.references_items hi)

theorem names_of_ofMap {site : PropertySite} {schema : Schema} {property : Property}
    (h : Property.ofMap known site schema = .ok property)
    (hn : property.typeRef.entityName? = some name) : known.Names schema.references name := by
  obtain ⟨values, value, ha, ht, rfl⟩ := Property.ofMap_eq_ok h
  exact (names_of_elementType? ht hn).mono (Schema.references_additional ha)

/-- There is no class in the type of a scalar. -/
theorem entityName?_of_ofScalar {site : PropertySite} {schema : Schema} {property : Property}
    (h : Property.ofScalar site schema = .ok property) : property.typeRef.entityName? = none := by
  obtain ⟨type, defaultValue, table, -, -, -, rfl⟩ := Property.ofScalar_eq_ok h
  rfl

/-- A class in the type of a property comes from a reference in its schema. -/
theorem names_of_ofSchema {site : PropertySite} {schema : Schema} {property : Property}
    (h : Property.ofSchema known site schema = .ok property)
    (hn : property.typeRef.entityName? = some name) : known.Names schema.references name := by
  unfold Property.ofSchema at h
  split at h
  · exact names_of_ofList h hn
  · exact names_of_ofMap h hn
  · rw [entityName?_of_ofScalar h] at hn
    exact absurd hn nofun

theorem names_of_ofRef (hk : known.AliasesPrimitive) {site : PropertySite} {path : String}
    {property : Property} (h : Property.ofRef known site path = .ok property)
    (hn : property.typeRef.entityName? = some name) : known.Names [path] name := by
  unfold Property.ofRef at h
  split at h
  · rename_i body hr
    -- The body of an alias is a bare primitive, so the property is a scalar.
    obtain ⟨harray, hobject⟩ := primaryType_of_isPrimitive (KnownTypes.isPrimitive_of_resolve hk hr)
    unfold Property.ofSchema at h
    split at h
    · rename_i hp
      exact absurd hp harray
    · rename_i hp
      exact absurd hp hobject
    · rw [entityName?_of_ofScalar h] at hn
      exact absurd hn nofun
  · rename_i className hr
    obtain rfl := Except.ok.inj h
    obtain rfl := Option.some.inj hn
    exact ⟨path, List.mem_singleton_self _, hr⟩

/-- A wrapped reference is one of the references at its position. -/
theorem mem_references_of_wrappedRef? {position : SchemaOrRef} {path : String}
    (h : wrappedRef? position = some path) : path ∈ position.references := by
  cases position with
  | ref own =>
    obtain rfl := Option.some.inj h
    exact List.mem_singleton_self _
  | inline schema =>
    simp only [wrappedRef?] at h
    split at h
    · rename_i own _ hall
      obtain rfl := Option.some.inj h
      exact Schema.references_allOf (by rw [hall]; exact List.mem_singleton_self _)
        (List.mem_singleton_self _)
    · rename_i own _ hany
      obtain rfl := Option.some.inj h
      exact Schema.references_anyOf (by rw [hany]; exact List.mem_singleton_self _)
        (List.mem_singleton_self _)
    · cases h

/-- The class that a property is made of is what a reference in its schema stands for. -/
theorem names_of_resolve (hk : known.AliasesPrimitive) {key : String} {required : Bool}
    {schema : SchemaOrRef} {property : Property}
    (h : Property.resolve known key required schema = .ok property)
    (hn : property.typeRef.entityName? = some name) : known.Names schema.references name := by
  obtain ⟨body, rfl, -, hs⟩ | ⟨path, description, hw, hr⟩ := Property.resolve_cases h
  · exact names_of_ofSchema hs hn
  · refine (names_of_ofRef hk hr hn).mono fun _ hm => ?_
    rw [List.mem_singleton.mp hm]
    exact mem_references_of_wrappedRef? hw

/-- The properties of a class are those of its fields, one by one. -/
theorem resolveProperties_eq_ok_iff {rawName : String} {body : Schema}
    {fields : Fields SchemaOrRef} {properties : List Property} :
    resolveProperties known rawName body fields = .ok properties ↔
      List.Forall₂ (fun field property =>
        Property.resolve known field.1 (body.requires field.1) field.2 = .ok property)
        fields properties := by
  induction fields generalizing properties with
  | nil =>
    rw [List.forall₂_nil_left_iff, resolveProperties]
    exact ⟨fun h => (Except.ok.inj h).symm, fun h => congrArg _ h.symm⟩
  | cons field rest ih =>
    obtain ⟨key, position⟩ := field
    rw [resolveProperties, List.forall₂_cons_left_iff]
    cases Property.resolve known key (body.requires key) position with
    | error cause => exact iff_of_false nofun fun ⟨_, _, h, _⟩ => absurd h nofun
    | ok first =>
      simp only [map_eq_ok, ih]
      constructor
      · rintro ⟨others, ho, rfl⟩
        exact ⟨first, others, rfl, ho, rfl⟩
      · rintro ⟨property, others, hfirst, ho, rfl⟩
        obtain rfl := Except.ok.inj hfirst
        exact ⟨others, ho, rfl⟩

/-- A class in the types of properties comes from a reference in one of their schemas. -/
theorem names_of_resolveProperties (hk : known.AliasesPrimitive) {rawName : String} {body : Schema}
    {fields : Fields SchemaOrRef} {properties : List Property}
    (h : resolveProperties known rawName body fields = .ok properties) {property : Property}
    (hp : property ∈ properties) (hn : property.typeRef.entityName? = some name) :
    known.Names (Document.referencesInFields fields) name := by
  obtain ⟨field, hm, hr⟩ := exists_mem_of_forall₂ (resolveProperties_eq_ok_iff.mp h) hp
  exact (names_of_resolve hk hr hn).mono (Document.references_subset_of_mem_fields hm)

/-! ### Classes -/

/-- A member of `allOf` gives a class its parent, if it has none, or its body, if it has none, or it
is passed over. -/
theorem addInherited_eq_ok {member : SchemaOrRef} {before after : Inheritance}
    (h : addInherited known before member = .ok after) :
    (∃ path name, member = .ref path ∧ before.parent = none ∧
      known.resolve path = .entity name ∧ after = { before with parent := some name }) ∨
    ∃ part, member = .inline part ∧
      (after = before ∨ before.body = none ∧ after = { before with body := some part }) := by
  cases member with
  | ref path =>
    rw [addInherited] at h
    split_ifs at h with hparent
    split at h
    · rename_i name hr
      exact Or.inl ⟨path, name, rfl, by simpa using hparent, hr, (Except.ok.inj h).symm⟩
    · cases h
  | inline part =>
    rw [addInherited] at h
    split_ifs at h with _ hbody
    · exact Or.inr ⟨part, rfl, Or.inr ⟨by simpa using hbody, (Except.ok.inj h).symm⟩⟩
    · exact Or.inr ⟨part, rfl, Or.inl (Except.ok.inj h).symm⟩

/-- What a class inherits comes from its schema: the parent is what a reference stands for, and the
body is the schema itself or a member of `allOf`. -/
structure Inherited (known : KnownTypes) (schema : Schema) (inherited : Inheritance) : Prop where
  parent : ∀ name, inherited.parent = some name → known.Names schema.references name
  body : ∀ body, inherited.body = some body → body = schema ∨ .inline body ∈ schema.allOf

theorem Inherited.references_subset {schema body : Schema} {inherited : Inheritance}
    (h : Inherited known schema inherited) (hb : inherited.body = some body) :
    body.references ⊆ schema.references := by
  rcases h.body body hb with rfl | hm
  · exact fun _ => id
  · exact Schema.references_allOf hm

/-- The parent is one of the references of a schema, and the body is its own or that of a member. -/
theorem inherited_of_inheritance {schema : Schema} {inherited : Inheritance}
    (h : inheritance known schema = .ok inherited) : Inherited known schema inherited := by
  rw [inheritance] at h
  split_ifs at h
  · obtain rfl := Except.ok.inj h
    exact ⟨nofun, fun body hb => Or.inl (Option.some.inj hb).symm⟩
  · -- Each member adds a parent that it refers to, a body that it is, or nothing.
    refine foldlM_invariant (P := Inherited known schema) h ⟨nofun, nofun⟩ ?_
    intro before member hm after hb hstep
    obtain ⟨path, className, rfl, -, hr, rfl⟩ | ⟨part, rfl, rfl | ⟨-, rfl⟩⟩ :=
      addInherited_eq_ok hstep
    · refine ⟨fun name hn => ?_, hb.body⟩
      obtain rfl := Option.some.inj hn
      exact ⟨path, Schema.references_allOf hm (List.mem_singleton_self _), hr⟩
    · exact hb
    · refine ⟨hb.parent, fun body hbody => ?_⟩
      obtain rfl := Option.some.inj hbody
      exact Or.inr hm

/-- The names of classes that a class is made of. -/
def ObjectModel.mentions (model : ObjectModel) : List String :=
  model.properties.filterMap (fun property => property.typeRef.entityName?) ++ model.parent.toList

/-- The class of a schema takes its parent from what is inherited, and its properties from the body;
there is one exactly if the inheritance is clear and every property can be made. -/
theorem resolveObject_eq_ok_iff {rawName : String} {schema : Schema} {model : ObjectModel} :
    resolveObject known rawName schema = .ok model ↔
      ∃ inherited properties, inheritance known schema = .ok inherited ∧
        resolveProperties known rawName (inherited.body.getD .blank)
          (inherited.body.getD .blank).properties = .ok properties ∧
        model = {
          rawName
          name := known.naming.className rawName
          description := schema.description.or (inherited.body.getD .blank).description
          properties
          parent := inherited.parent
          interfaces := []
          capabilities := Capability.ofProperties properties } := by
  unfold resolveObject
  cases hi : inheritance known schema with
  | error cause =>
    constructor
    · exact fun h => absurd h nofun
    · rintro ⟨inherited, properties, h, -⟩
      exact absurd h nofun
  | ok inherited =>
    constructor
    · intro h
      obtain ⟨found, hf, h⟩ := bind_eq_ok.mp h
      obtain rfl := Except.ok.inj hf
      obtain ⟨properties, hp, h⟩ := bind_eq_ok.mp h
      exact ⟨inherited, properties, rfl, hp, (Except.ok.inj h).symm⟩
    · rintro ⟨found, properties, hf, hp, rfl⟩
      obtain rfl := Except.ok.inj hf
      exact bind_eq_ok.mpr ⟨inherited, rfl, bind_eq_ok.mpr ⟨properties, hp, rfl⟩⟩

theorem resolveObject_eq_ok {rawName : String} {schema : Schema} {model : ObjectModel}
    (h : resolveObject known rawName schema = .ok model) :
    ∃ inherited properties, inheritance known schema = .ok inherited ∧
      resolveProperties known rawName (inherited.body.getD .blank)
        (inherited.body.getD .blank).properties = .ok properties ∧
      model.name = known.naming.className rawName ∧ model.properties = properties ∧
      model.parent = inherited.parent := by
  obtain ⟨inherited, properties, hi, hp, rfl⟩ := resolveObject_eq_ok_iff.mp h
  exact ⟨inherited, properties, hi, hp, rfl, rfl, rfl⟩

/-- A class mentions what the references of its schema stand for. -/
theorem names_of_resolveObject (hk : known.AliasesPrimitive) {rawName : String} {schema : Schema}
    {model : ObjectModel} (h : resolveObject known rawName schema = .ok model)
    (hn : name ∈ model.mentions) : known.Names schema.references name := by
  obtain ⟨inherited, properties, hi, hp, -, hproperties, hparent⟩ := resolveObject_eq_ok h
  have hinherited := inherited_of_inheritance hi
  rw [ObjectModel.mentions, hproperties, hparent] at hn
  rcases List.mem_append.mp hn with hn | hn
  · obtain ⟨property, hm, hname⟩ := List.mem_filterMap.mp hn
    have hnames := names_of_resolveProperties hk hp hm hname
    -- Without a body there are no properties, so there is nothing to mention.
    cases hb : inherited.body with
    | none =>
      rw [hb] at hnames
      obtain ⟨path, hpath, -⟩ := hnames
      exact absurd hpath List.not_mem_nil
    | some body =>
      rw [hb] at hnames
      refine hnames.mono fun r hr => hinherited.references_subset hb ?_
      rw [Schema.references_eq]
      exact List.mem_append_left _ hr
  · exact hinherited.parent name (Option.mem_toList.mp hn)

/-! ### Interfaces -/

/-- The names of classes that an interface is made of. -/
def InterfaceModel.mentions (model : InterfaceModel) : List String :=
  model.children ++ model.mapping.values

/-- An interface mentions what the references of its schema stand for. -/
theorem names_of_resolveInterface {rawName : String} {schema : Schema} {model : InterfaceModel}
    (h : resolveInterface known rawName schema = .ok model) (hn : name ∈ model.mentions) :
    known.Names schema.references name := by
  unfold resolveInterface at h
  cases hd : schema.discriminator with
  | none =>
    rw [hd] at h
    exact absurd h nofun
  | some discriminator =>
    rw [hd] at h
    simp only at h
    obtain ⟨members, hm, h⟩ := bind_eq_ok.mp h
    obtain rfl := Except.ok.inj h
    -- The children and the mapping grow by the class of the same reference.
    have hinv := foldlM_invariant (P := fun members : Members =>
      ∀ name ∈ members.children ++ members.mapping.values, known.Names schema.references name) hm
      (fun name hname => absurd hname List.not_mem_nil) ?_
    · exact hinv name hn
    intro before member hmember after hbefore hstep name hname
    cases member with
    | ref path =>
      rw [addChild] at hstep
      split at hstep
      · exact absurd hstep nofun
      · rename_i child hr
        obtain rfl := Except.ok.inj hstep
        have hchild : known.Names schema.references child :=
          ⟨path, Schema.references_oneOf hmember (List.mem_singleton_self _), hr⟩
        rcases List.mem_append.mp hname with hname | hname
        · rcases List.mem_append.mp hname with hname | hname
          · exact hbefore name (List.mem_append_left _ hname)
          · rwa [List.mem_singleton.mp hname]
        · rcases Fields.mem_values_insert hname with rfl | hname
          · exact hchild
          · exact hbefore name (List.mem_append_right _ hname)
    | inline part =>
      rw [addChild] at hstep
      split_ifs at hstep
      obtain rfl := Except.ok.inj hstep
      exact hbefore name hname

/-! ### Models -/

/-- The names of classes that a model is made of. -/
def Entity.mentions : Entity → List String
  | .object model => model.mentions
  | .interface model => model.mentions

/-- Each class that a model is made of is what a reference in its schema stands for. -/
theorem names_of_resolveEntity (hk : known.AliasesPrimitive) {rawName : String} {schema : Schema}
    {entity : Entity} (h : resolveEntity known rawName schema = .ok entity)
    (hn : name ∈ entity.mentions) : known.Names schema.references name := by
  rw [resolveEntity] at h
  split_ifs at h
  · obtain ⟨model, hm, rfl⟩ := map_eq_ok.mp h
    exact names_of_resolveObject hk hm hn
  · split at h
    · rename_i interface hi
      obtain rfl := Except.ok.inj h
      exact names_of_resolveInterface hi hn
    · exact absurd h nofun

end Model

end FunctionForge
