import FunctionForge.Proofs.Model.Accounts

/-!
# Leaving out one schema

If no other schema could get a model of its class name, leaving out a schema takes away what comes
of it, and nothing else (`resolveModels_excluding`): its model or its failure, and its class name
from the interfaces of the other classes.  The proof looks at two runs over the schemas side by
side.  From the schema on, one of them has its model or failure among the others (`SetApart`).  This
stays so, since the schemas after it do not ask for its name; linking interfaces is the only step
that looks at all models at once.
-/

namespace FunctionForge.Model

open Document (Schema SchemaOrRef)
open Naming (ClassNaming)

/-- Options that leave out one more schema. -/
def Options.excluding (options : Options) (key : String) : Options :=
  { options with excludes := options.excludes ++ [key] }

/-- A class without an interface. -/
def Entity.withoutInterface (name : String) : Entity → Entity
  | .object model => .object { model with interfaces := model.interfaces.filter (· ≠ name) }
  | .interface model => .interface model

variable {known : KnownTypes} {options : Options} {schemas : Fields SchemaOrRef} {key : String}
  {schema : Schema}

/-! ### Which schemas get models -/

theorem admits_excluding {name : String} (h : name ≠ key) :
    (options.excluding key).admits name = options.admits name := by
  simp [Options.admits, Options.excluding, h]

theorem not_admits_excluding (options : Options) (key : String) :
    (options.excluding key).admits key = false := by
  simp [Options.admits, Options.excluding]

/-- No other schema is left out. -/
theorem eligible?_excluding {entry : String × SchemaOrRef} (h : entry.1 ≠ key) :
    eligible? (options.excluding key) entry = eligible? options entry := by
  rw [eligible?, eligible?, admits_excluding h]

/-- The schema itself is left out, whatever it is. -/
theorem eligible?_excluding_self (options : Options) (given : SchemaOrRef) :
    eligible? (options.excluding key) (key, given) = none := by
  rw [eligible?, not_admits_excluding]
  cases given with
  | ref path => rfl
  | inline schema => rfl

/-- A schema that is no bare primitive is left out of the aliases in any case. -/
theorem scan_excluding (hd : schemas.keys.Nodup) (hk : (key, .inline schema) ∈ schemas)
    (hp : schema.isPrimitive = false) :
    KnownTypes.scan schemas options.naming (options.excluding key).admits =
      KnownTypes.scan schemas options.naming options.admits := by
  refine List.foldl_ext _ _ _ fun known entry hm => ?_
  obtain ⟨name, given⟩ := entry
  cases given with
  | ref path => rfl
  | inline body =>
    rw [KnownTypes.add, KnownTypes.add]
    by_cases hname : name = key
    · subst hname
      have hsame := (Fields.get?_of_mem hd hk).symm.trans (Fields.get?_of_mem hd hm)
      rw [SchemaOrRef.inline.inj (Option.some.inj hsame)] at hp
      simp only [hp, Bool.and_false]
    · simp only [admits_excluding hname]

/-! ### One schema apart -/

/-- A filter that takes out the middle of a list leaves its two ends. -/
theorem filter_apart {α : Type} {p : α → Bool} {front apart back : List α}
    (hapart : ∀ a ∈ apart, p a = false) (hfree : ∀ a ∈ front ++ back, p a = true) :
    (front ++ (apart ++ back)).filter p = front ++ back := by
  have hgone : apart.filter p = [] :=
    List.filter_eq_nil_iff.mpr fun a ha => Bool.eq_false_iff.mp (hapart a ha)
  rw [List.filter_append, List.filter_append, hgone, List.nil_append, ← List.filter_append]
  exact List.filter_eq_self.mpr hfree

/-- What a schema comes to by itself, if it gets a model. -/
def ownResult? (known : KnownTypes) (options : Options) (entry : String × SchemaOrRef) :
    Option (Except DefinitionError Entity) :=
  (eligible? options entry).map (resolveEntity known entry.1)

/-- Two runs have come to the same, but for what one schema has come to in the first of them. -/
structure SetApart (own : Option (Except DefinitionError Entity))
    (models models' : Resolution Entity) : Prop where
  items : ∃ front back, models.items = front ++ ((own.bind Except.toOption).toList ++ back) ∧
    models'.items = front ++ back
  failures : ∃ front back, models.failures = front ++ ((own.bind error?).toList ++ back) ∧
    models'.failures = front ++ back

namespace SetApart

variable {own : Option (Except DefinitionError Entity)} {models models' : Resolution Entity}

theorem of_append (hi : models.items = models'.items ++ (own.bind Except.toOption).toList)
    (hf : models.failures = models'.failures ++ (own.bind error?).toList) :
    SetApart own models models' :=
  ⟨⟨models'.items, [], by rw [List.append_nil, hi], (List.append_nil _).symm⟩,
    ⟨models'.failures, [], by rw [List.append_nil, hf], (List.append_nil _).symm⟩⟩

/-- The model that is set apart is among those of the first run. -/
theorem mem_items (h : SetApart own models models') {entity : Entity}
    (he : entity ∈ (own.bind Except.toOption).toList) : entity ∈ models.items := by
  obtain ⟨front, back, hi, -⟩ := h.items
  rw [hi]
  exact List.mem_append_right _ (List.mem_append_left _ he)

/-- A model that is not asked for is not found. -/
theorem find?_eq (h : SetApart own models models') {name : String}
    (hfree : ∀ entity, own = some (.ok entity) → entity.name ≠ name) :
    models.items.find? (fun item => item.name == name) =
      models'.items.find? fun item => item.name == name := by
  obtain ⟨front, back, hi, hi'⟩ := h.items
  have hown : (own.bind Except.toOption).toList.find? (fun item => item.name == name) = none := by
    rw [List.find?_eq_none]
    intro entity hm
    obtain ⟨result, hr, hok⟩ := Option.bind_eq_some_iff.mp (Option.mem_toList.mp hm)
    rw [eq_ok_of_toOption hok] at hr
    simpa using hfree entity hr
  rw [hi, hi', List.find?_append, List.find?_append, List.find?_append, hown, Option.none_or]

theorem addItem (h : SetApart own models models') (entity : Entity) :
    SetApart own { models with items := models.items ++ [entity] }
      { models' with items := models'.items ++ [entity] } := by
  obtain ⟨front, back, hi, hi'⟩ := h.items
  exact ⟨⟨front, back ++ [entity], by simp [hi], by simp [hi']⟩, h.failures⟩

theorem addFailure (h : SetApart own models models') (failure : DefinitionError) :
    SetApart own { models with failures := models.failures ++ [failure] }
      { models' with failures := models'.failures ++ [failure] } := by
  obtain ⟨front, back, hf, hf'⟩ := h.failures
  exact ⟨h.items, ⟨front, back ++ [failure], by simp [hf], by simp [hf']⟩⟩

/-- A schema that gets no model of the name adds the same to both. -/
theorem addSchema (h : SetApart own models models') {entry : String × SchemaOrRef}
    (hfree : ∀ entity, own = some (.ok entity) → ¬HasModel known options entity.name entry) :
    SetApart own (Model.addSchema known options models entry)
      (Model.addSchema known options models' entry) := by
  rw [Model.addSchema, Model.addSchema]
  cases he : eligible? options entry with
  | none => exact h
  | some schema =>
    dsimp only
    cases hr : resolveEntity known entry.1 schema with
    | error failure => exact h.addFailure failure
    | ok entity =>
      -- Neither run has a model of this name that the other one does not have.
      have hfind := @find?_eq own models models' h entity.name fun other ho hname =>
        hfree other ho ⟨schema, entity, he, hr, (name_of_resolveEntity hr).symm.trans hname.symm⟩
      dsimp only
      rw [addEntity, addEntity, hfind]
      cases models'.items.find? fun item => item.name == entity.name with
      | none => exact h.addItem entity
      | some first => exact h.addFailure _

/-- The runs stay side by side as long as no further schema asks for the name. -/
theorem foldl_addSchema (h : SetApart own models models') {entries : Fields SchemaOrRef}
    (hfree : ∀ entity, own = some (.ok entity) →
      ∀ entry ∈ entries, ¬HasModel known options entity.name entry) :
    SetApart own (List.foldl (Model.addSchema known options) models entries)
      (List.foldl (Model.addSchema known options) models' entries) := by
  induction entries generalizing models models' with
  | nil => exact h
  | cons entry rest ih =>
    exact ih (h.addSchema fun entity ho => hfree entity ho entry List.mem_cons_self)
      fun entity ho other hm => hfree entity ho other (List.mem_cons_of_mem _ hm)

end SetApart

/-- A schema whose name is not taken adds what it comes to by itself. -/
theorem setApart_addSchema (models : Resolution Entity) {entry : String × SchemaOrRef}
    (hfree : ∀ item ∈ models.items, item.name ≠ known.naming.className entry.1) :
    SetApart (ownResult? known options entry) (addSchema known options models entry) models := by
  rw [addSchema, ownResult?]
  cases eligible? options entry with
  | none => exact .of_append (List.append_nil _).symm (List.append_nil _).symm
  | some schema =>
    dsimp only [Option.map_some]
    cases hr : resolveEntity known entry.1 schema with
    | error failure => exact .of_append (List.append_nil _).symm rfl
    | ok entity =>
      rcases addEntity_cases models entity with ⟨first, hm, hname, -⟩ | ⟨-, hadd⟩
      · exact absurd (hname.trans (name_of_resolveEntity hr)) (hfree first hm)
      · dsimp only
        rw [hadd]
        exact .of_append rfl (List.append_nil _).symm

/-! ### Linking -/

/-- The interfaces among some models that have a class as a child. -/
def interfacesOf (entities : List Entity) (model : ObjectModel) : List String :=
  ((entities.filterMap Entity.interface?).filter fun interface =>
    interface.children.contains model.name).map InterfaceModel.name

theorem linkInterfaces_object (entities : List Entity) (model : ObjectModel) :
    linkInterfaces entities (.object model) =
      .object { model with interfaces := interfacesOf entities model } := rfl

/-- Linking changes no interface. -/
@[simp]
theorem interface?_linkInterfaces (entities : List Entity) (entity : Entity) :
    (linkInterfaces entities entity).interface? = entity.interface? := by
  cases entity with
  | object model => rfl
  | interface model => rfl

theorem interfacesOf_append (front back : List Entity) (model : ObjectModel) :
    interfacesOf (front ++ back) model = interfacesOf front model ++ interfacesOf back model := by
  rw [interfacesOf, List.filterMap_append, List.filter_append, List.map_append]
  rfl

/-- A class is linked with interfaces that are among the models. -/
theorem exists_of_mem_interfacesOf {entities : List Entity} {model : ObjectModel} {name : String}
    (h : name ∈ interfacesOf entities model) :
    ∃ entity ∈ entities, entity.interface?.isSome = true ∧ entity.name = name := by
  obtain ⟨interface, hm, rfl⟩ := List.mem_map.mp h
  obtain ⟨entity, he, hi⟩ := List.mem_filterMap.mp (List.mem_of_mem_filter hm)
  cases entity with
  | object other => exact absurd hi nofun
  | interface other =>
    obtain rfl := Option.some.inj hi
    exact ⟨_, he, rfl, rfl⟩

/-- Without the only model of a name, a class loses the interface of that name. -/
theorem linkInterfaces_apart {front apart back : List Entity} {name : String}
    (hapart : ∀ entity ∈ apart, entity.name = name)
    (hfree : ∀ item ∈ front ++ back, item.name ≠ name) (entity : Entity) :
    linkInterfaces (front ++ back) entity =
      (linkInterfaces (front ++ (apart ++ back)) entity).withoutInterface name := by
  cases entity with
  | interface model => rfl
  | object model =>
    have hfilter : (interfacesOf (front ++ (apart ++ back)) model).filter (· ≠ name) =
        interfacesOf (front ++ back) model := by
      rw [interfacesOf_append, interfacesOf_append, interfacesOf_append]
      -- What is apart has the name that is left out, and what stands around it does not.
      refine filter_apart (fun other ho => ?_) fun other ho => ?_
      · obtain ⟨item, hm, -, rfl⟩ := exists_of_mem_interfacesOf ho
        simpa using hapart item hm
      · rw [← interfacesOf_append] at ho
        obtain ⟨item, hm, -, rfl⟩ := exists_of_mem_interfacesOf ho
        simpa using hfree item hm
    rw [linkInterfaces_object, linkInterfaces_object, Entity.withoutInterface, hfilter]

/-- Without a model that is no interface, the classes keep their interfaces. -/
theorem linkInterfaces_apart_of_object {front apart back : List Entity}
    (hapart : ∀ entity ∈ apart, entity.interface? = none) (entity : Entity) :
    linkInterfaces (front ++ (apart ++ back)) entity = linkInterfaces (front ++ back) entity := by
  cases entity with
  | interface model => rfl
  | object model =>
    have hgone : interfacesOf apart model = [] := by
      refine List.eq_nil_iff_forall_not_mem.mpr fun other ho => ?_
      obtain ⟨item, hm, hi, -⟩ := exists_of_mem_interfacesOf ho
      rw [hapart item hm] at hi
      exact absurd hi nofun
    rw [linkInterfaces_object, linkInterfaces_object, interfacesOf_append, interfacesOf_append,
      hgone, List.nil_append, ← interfacesOf_append]

/-- Models with the interfaces of all classes. -/
def linkAll (models : Resolution Entity) : Resolution Entity :=
  { models with items := models.items.map (linkInterfaces models.items) }

namespace SetApart

variable {own : Option (Except DefinitionError Entity)} {models models' : Resolution Entity}
  {name : String}

/-- Without the model that is set apart, the rest has been linked with all models nonetheless. -/
theorem filter_linkAll (h : SetApart own models models')
    (hown : ∀ entity ∈ (own.bind Except.toOption).toList, entity.rawName = key)
    (hfree : ∀ item ∈ models'.items, item.rawName ≠ key) :
    (linkAll models).items.filter (·.rawName ≠ key) =
      models'.items.map (linkInterfaces models.items) := by
  obtain ⟨front, back, hi, hi'⟩ := h.items
  rw [hi'] at hfree ⊢
  have hitems : models.items.filter (·.rawName ≠ key) = front ++ back := by
    rw [hi]
    refine filter_apart (fun entity he => ?_) fun item hm => ?_
    · simpa using hown entity he
    · simpa using hfree item hm
  -- Linking changes no name, so the filter can be put before it.
  have hraw : (fun item : Entity => decide (item.rawName ≠ key)) ∘ linkInterfaces models.items =
      fun item => decide (item.rawName ≠ key) := by
    funext item
    rw [Function.comp_apply, rawName_linkInterfaces]
  rw [linkAll, List.filter_map, hraw, hitems]

/-- The models without that of the schema are the others, without the interface of its name. -/
theorem items_linkAll (h : SetApart own models models')
    (hown : ∀ entity ∈ (own.bind Except.toOption).toList, entity.rawName = key ∧ entity.name = name)
    (hfree : ∀ item ∈ models'.items, item.rawName ≠ key ∧ item.name ≠ name) :
    (linkAll models').items =
      ((linkAll models).items.filter (·.rawName ≠ key)).map (Entity.withoutInterface name) := by
  rw [h.filter_linkAll (fun entity he => (hown entity he).1) fun item hm => (hfree item hm).1]
  obtain ⟨front, back, hi, hi'⟩ := h.items
  rw [hi'] at hfree
  rw [linkAll, hi, hi', List.map_map]
  exact List.map_congr_left fun item _ => linkInterfaces_apart
    (fun entity he => (hown entity he).2) (fun other hm => (hfree other hm).2) item

/-- If the schema has no interface, the classes keep all of theirs. -/
theorem items_linkAll_of_object (h : SetApart own models models')
    (hown : ∀ entity ∈ (own.bind Except.toOption).toList,
      entity.rawName = key ∧ entity.interface? = none)
    (hfree : ∀ item ∈ models'.items, item.rawName ≠ key) :
    (linkAll models').items = (linkAll models).items.filter (·.rawName ≠ key) := by
  rw [h.filter_linkAll (fun entity he => (hown entity he).1) hfree]
  obtain ⟨front, back, hi, hi'⟩ := h.items
  rw [linkAll, hi, hi']
  exact List.map_congr_left fun item _ =>
    (linkInterfaces_apart_of_object (fun entity he => (hown entity he).2) item).symm

end SetApart

/-! ### Two runs -/

/-- Another schema is treated as if nothing were left out. -/
theorem addSchema_excluding (models : Resolution Entity) {entry : String × SchemaOrRef}
    (h : entry.1 ≠ key) : addSchema known (options.excluding key) models entry =
      addSchema known options models entry := by
  rw [addSchema, addSchema, eligible?_excluding h]

/-- The run that leaves out a schema is one over the others. -/
theorem foldl_addSchema_excluding {before after : Fields SchemaOrRef} (given : SchemaOrRef)
    (hkeys : ∀ entry ∈ before ++ after, entry.1 ≠ key) :
    List.foldl (addSchema known (options.excluding key)) .none (before ++ (key, given) :: after) =
      List.foldl (addSchema known options) .none (before ++ after) := by
  have hskip (models : Resolution Entity) :
      addSchema known (options.excluding key) models (key, given) = models := by
    rw [addSchema, eligible?_excluding_self]
  rw [List.foldl_append, List.foldl_cons, hskip, ← List.foldl_append]
  exact List.foldl_ext _ _ _ fun models entry hm => addSchema_excluding models (hkeys entry hm)

/-- The two runs come to the same, but for what the schema comes to. -/
theorem setApart_foldl {before after : Fields SchemaOrRef} {entry : String × SchemaOrRef}
    (hfree : ∀ other ∈ before ++ after,
      ¬HasModel known options (known.naming.className entry.1) other) :
    SetApart (ownResult? known options entry)
      (List.foldl (addSchema known options) .none (before ++ entry :: after))
      (List.foldl (addSchema known options) .none (before ++ after)) := by
  rw [List.foldl_append, List.foldl_cons, List.foldl_append]
  refine (setApart_addSchema _ fun item hm hname => ?_).foldl_addSchema fun entity ho other hm => ?_
  · obtain ⟨other, ho, hmodel⟩ := exists_name_foldl.mp ⟨item, hm, hname⟩
    exact hfree other (List.mem_append_left _ ho) hmodel
  · obtain ⟨schema, -, hr⟩ := Option.map_eq_some_iff.mp ho
    rw [name_of_resolveEntity hr]
    exact hfree other (List.mem_append_right _ hm)

/-- The model that is set apart has the class name of its schema. -/
theorem named_of_ownResult? {given : SchemaOrRef} {entity : Entity}
    (h : entity ∈ ((ownResult? known options (key, given)).bind Except.toOption).toList) :
    entity.rawName = key ∧ entity.name = known.naming.className key := by
  obtain ⟨result, ho, hok⟩ := Option.bind_eq_some_iff.mp (Option.mem_toList.mp h)
  obtain ⟨schema, -, hr⟩ := Option.map_eq_some_iff.mp ho
  rw [eq_ok_of_toOption hok] at hr
  exact ⟨rawName_of_resolveEntity hr, name_of_resolveEntity hr⟩

/-- The models of the other schemas have other names. -/
theorem named_of_foldl {entries : Fields SchemaOrRef} {name : String}
    (hkeys : ∀ entry ∈ entries, entry.1 ≠ key)
    (hfree : ∀ entry ∈ entries, ¬HasModel known options name entry) {item : Entity}
    (h : item ∈ (List.foldl (addSchema known options) .none entries).items) :
    item.rawName ≠ key ∧ item.name ≠ name := by
  constructor
  · rcases exists_entry_of_foldl h with hm | ⟨other, body, hm, hr⟩
    · exact absurd hm List.not_mem_nil
    · rw [rawName_of_resolveEntity hr]
      exact hkeys _ hm
  · intro hname
    obtain ⟨entry, hm, hmodel⟩ := exists_name_foldl.mp ⟨item, h, hname⟩
    exact hfree entry hm hmodel

/-- Leaving out a schema that is no bare primitive takes away its model or its failure and the
interface of its name, and nothing else, if no other schema could get a model of its name. -/
theorem resolveModels_excluding (hd : schemas.keys.Nodup) (hk : (key, .inline schema) ∈ schemas)
    (hp : schema.isPrimitive = false)
    (hname : ∀ other body, (other, .inline body) ∈ schemas → options.admits other = true →
      body.isPrimitive = false →
        options.naming.className other = options.naming.className key → other = key) :
    let before := resolveModels schemas options
    let after := resolveModels schemas (options.excluding key)
    let rest := before.models.items.filter (·.rawName ≠ key)
    let own := ownResult? before.known options (key, .inline schema)
    after.known = before.known ∧
    after.models.items = rest.map (Entity.withoutInterface (options.naming.className key)) ∧
    ((∀ item ∈ before.models.items, item.rawName = key → item.interface? = none) →
      after.models.items = rest) ∧
    ∃ failures failures',
      before.models.failures = failures ++ ((own.bind error?).toList ++ failures') ∧
      after.models.failures = failures ++ failures' := by
  intro before after rest own
  obtain ⟨front, back, rfl⟩ := List.append_of_mem hk
  have hkeys : ∀ entry ∈ front ++ back, entry.1 ≠ key :=
    fun entry hm => Fields.ne_of_nodup_middle hd hm
  have hnaming : before.known.naming = options.naming := KnownTypes.naming_scan
  -- No model of another schema has the class name, so that neither run ever finds one of it.
  have hfree : ∀ entry ∈ front ++ back,
      ¬HasModel before.known options (before.known.naming.className key) entry := by
    rintro ⟨other, given⟩ hm ⟨body, entity, he, -, hother⟩
    obtain ⟨rfl, hadmits, hbody, -⟩ := eligible?_eq_some_iff.mp he
    rw [hnaming] at hother
    have hgiven : (other, .inline body) ∈ front ++ (key, .inline schema) :: back := by
      rw [List.mem_append, List.mem_cons]
      exact (List.mem_append.mp hm).imp_right Or.inr
    exact hkeys _ hm (hname other body hgiven hadmits hbody hother)
  have hknown : after.known = before.known := scan_excluding hd hk hp
  have hafter : after.models =
      linkAll (List.foldl (addSchema before.known options) .none (front ++ back)) := by
    rw [← foldl_addSchema_excluding _ hkeys, ← hknown]
    rfl
  have hapart : SetApart own _ _ := setApart_foldl hfree
  have hrest (item : Entity) := @named_of_foldl _ _ _ _ _ hkeys hfree item
  rw [hafter, ← hnaming]
  refine ⟨hknown, hapart.items_linkAll (fun _ => named_of_ownResult?) hrest, fun hobject => ?_,
    hapart.failures⟩
  -- Linking keeps what a model is, so the schema has no interface before it either.
  refine hapart.items_linkAll_of_object (fun entity he => ?_) fun item hm => (hrest item hm).1
  have hraw := (named_of_ownResult? he).1
  have hlinked := hobject _ (List.mem_map_of_mem (hapart.mem_items he))
  rw [rawName_linkInterfaces, interface?_linkInterfaces] at hlinked
  exact ⟨hraw, hlinked hraw⟩

/-! ### Companions -/

/-- A cat, and a union that it is the only member of. -/
def companionSchemas : Fields SchemaOrRef :=
  [("Cat", .inline (bare .object)), ("Companion", .inline { Schema.blank with
    oneOf := [.ref "#/components/schemas/Cat"]
    discriminator := some ⟨"kind", []⟩ })]

/-- Without the union, the cat is there as before, but for the interface of the union. -/
theorem resolveModels_excluding_companion :
    let cat (interfaces : List String) : Entity :=
      .object ⟨"Cat", "Cat", none, [], none, interfaces, []⟩
    let before := resolveModels companionSchemas .plain
    let after := resolveModels companionSchemas (Options.plain.excluding "Companion")
    before.models.items.map Entity.rawName = ["Cat", "Companion"] ∧
      before.models.items.head? = some (cat ["Companion"]) ∧ after.models.items = [cat []] ∧
      after.known = before.known := by
  intro cat before after
  have hother : ClassNaming.plain.className "Cat" ≠ ClassNaming.plain.className "Companion" := by
    decide +kernel
  obtain ⟨hknown, hitems, -, -⟩ := @resolveModels_excluding .plain companionSchemas "Companion" _
    (by decide +kernel) (List.mem_cons_of_mem _ (List.mem_singleton_self _)) (by decide +kernel)
    fun other body hm _ _ hname => by
      rcases List.mem_cons.mp hm with heq | hm
      · obtain ⟨rfl, -⟩ := Prod.mk.inj heq
        exact absurd hname hother
      · exact (Prod.mk.inj (List.mem_singleton.mp hm)).1
  refine ⟨by decide +kernel, by decide +kernel, ?_, hknown⟩
  rw [hitems]
  decide +kernel

end FunctionForge.Model
