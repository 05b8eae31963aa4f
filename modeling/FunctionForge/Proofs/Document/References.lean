import FunctionForge.Document.Schema
import Mathlib.Control.Basic

/-!
# The references of a schema

`references` lists the references in a schema in the order in which `mapReferencesM` comes to them,
and `mapReferences` replaces them by a pure function.

`Visits visit x refs a` says that the step `x` goes through `refs` with `visit`, in order, and then
gives `a`.  Such steps compose (`Visits.bind`), so a traversal whose every reference is visited and
replaced by a pure function is a loop over the references followed by the pure replacement
(`SchemaOrRef.visits`).  Whatever a traversal does to a state is thereby a property of a list.
-/

namespace FunctionForge.Document

/-! ### Listing -/

mutual

/-- The references in the place of a schema. -/
def SchemaOrRef.references : SchemaOrRef → List String
  | .ref path => [path]
  | .inline schema => schema.references

/-- The references in what a schema says of further properties. -/
def AdditionalProperties.references : AdditionalProperties → List String
  | .allowed _ => []
  | .values schema => schema.references

/-- The references in a schema. -/
def Schema.references : Schema → List String
  | ⟨_, _, _, _, _, properties, _, additionalProperties, items, allOf, oneOf, anyOf, _, _⟩ =>
    referencesInFields properties ++ (referencesInOption items ++
      ((match additionalProperties with
        | none => []
        | some additional => additional.references) ++
        (referencesInList allOf ++ (referencesInList oneOf ++ referencesInList anyOf))))

/-- The references in the properties of a schema. -/
def referencesInFields : List (String × SchemaOrRef) → List String
  | [] => []
  | (_, schema) :: rest => schema.references ++ referencesInFields rest

/-- The references in the items of a schema. -/
def referencesInOption : Option SchemaOrRef → List String
  | none => []
  | some schema => schema.references

/-- The references in the members of a union or an intersection. -/
def referencesInList : List SchemaOrRef → List String
  | [] => []
  | schema :: rest => schema.references ++ referencesInList rest

end

/-! ### The references of the parts of a schema -/

theorem Schema.references_eq (schema : Schema) : schema.references =
    referencesInFields schema.properties ++ (referencesInOption schema.items ++
      (schema.additionalProperties.elim [] AdditionalProperties.references ++
        (referencesInList schema.allOf ++ (referencesInList schema.oneOf ++
          referencesInList schema.anyOf)))) := by
  obtain ⟨_, _, _, _, _, properties, _, additionalProperties, items, allOf, oneOf, anyOf, _, _⟩ :=
    schema
  cases additionalProperties with
  | none => rfl
  | some additional => rfl

theorem references_subset_of_mem_fields {field : String × SchemaOrRef}
    {fields : List (String × SchemaOrRef)} (h : field ∈ fields) :
    field.2.references ⊆ referencesInFields fields := by
  induction fields with
  | nil => exact absurd h List.not_mem_nil
  | cons first rest ih =>
    intro r hr
    rcases List.mem_cons.mp h with rfl | h
    · exact List.mem_append_left _ hr
    · exact List.mem_append_right _ (ih h hr)

theorem references_subset_of_mem {member : SchemaOrRef} {members : List SchemaOrRef}
    (h : member ∈ members) : member.references ⊆ referencesInList members := by
  induction members with
  | nil => exact absurd h List.not_mem_nil
  | cons first rest ih =>
    intro r hr
    rcases List.mem_cons.mp h with rfl | h
    · exact List.mem_append_left _ hr
    · exact List.mem_append_right _ (ih h hr)

section

variable {schema : Schema} {part : SchemaOrRef}

theorem Schema.references_items (h : schema.items = some part) :
    part.references ⊆ schema.references := by
  intro r hr
  rw [Schema.references_eq, h]
  exact List.mem_append_right _ (List.mem_append_left _ hr)

theorem Schema.references_additional (h : schema.additionalProperties = some (.values part)) :
    part.references ⊆ schema.references := by
  intro r hr
  rw [Schema.references_eq, h]
  exact List.mem_append_right _ (List.mem_append_right _ (List.mem_append_left _ hr))

theorem Schema.references_allOf (h : part ∈ schema.allOf) :
    part.references ⊆ schema.references := by
  intro r hr
  simp only [Schema.references_eq, List.mem_append]
  exact Or.inr (Or.inr (Or.inr (Or.inl (references_subset_of_mem h hr))))

theorem Schema.references_oneOf (h : part ∈ schema.oneOf) :
    part.references ⊆ schema.references := by
  intro r hr
  simp only [Schema.references_eq, List.mem_append]
  exact Or.inr (Or.inr (Or.inr (Or.inr (Or.inl (references_subset_of_mem h hr)))))

theorem Schema.references_anyOf (h : part ∈ schema.anyOf) :
    part.references ⊆ schema.references := by
  intro r hr
  simp only [Schema.references_eq, List.mem_append]
  exact Or.inr (Or.inr (Or.inr (Or.inr (Or.inr (references_subset_of_mem h hr)))))

end

/-! ### Replacing references -/

/-- A schema in its place with every reference replaced. -/
def SchemaOrRef.mapReferences (f : String → String) (schema : SchemaOrRef) : SchemaOrRef :=
  Id.run (schema.mapReferencesM fun path => pure (f path))

/-- A schema with every reference replaced. -/
def Schema.mapReferences (f : String → String) (schema : Schema) : Schema :=
  Id.run (schema.mapReferencesM fun path => pure (f path))

@[simp]
theorem SchemaOrRef.mapReferences_ref (f : String → String) (path : String) :
    (SchemaOrRef.ref path).mapReferences f = .ref (f path) := rfl

/-! ### Visiting -/

section Visits

variable {m : Type → Type} [Monad m] {α β : Type} {visit : String → m Unit}

/-- The step `x` goes through references with `visit`, in order, and gives `a`. -/
def Visits (visit : String → m Unit) (x : m α) (refs : List String) (a : α) : Prop :=
  x = (fun _ => a) <$> forM refs visit

variable [LawfulMonad m]

namespace Visits

theorem of_eq_map {x : m α} {path : String} {a : α} (h : x = (fun _ => a) <$> visit path) :
    Visits visit x [path] a := by
  rw [Visits, h, List.forM_cons, List.forM_nil, bind_pure_comp, Functor.map_map]

theorem pure (a : α) : Visits visit (pure a) [] a := by
  rw [Visits, List.forM_nil, map_pure]

/-- One visit after the other. -/
theorem bind {x : m α} {refs refs' : List String} {a : α} {k : α → m β} {b : β}
    (hx : Visits visit x refs a) (hk : Visits visit (k a) refs' b) :
    Visits visit (x >>= k) (refs ++ refs') b := by
  rw [Visits] at hx hk ⊢
  rw [hx, bind_map_left, hk, List.forM_append, map_bind]

theorem map {x : m α} {refs : List String} {a : α} (f : α → β) (hx : Visits visit x refs a) :
    Visits visit (f <$> x) refs (f a) := by
  rw [Visits] at hx ⊢
  rw [hx, Functor.map_map]

theorem bind_pure {x : m α} {refs : List String} {a : α} (f : α → β)
    (hx : Visits visit x refs a) : Visits visit (x >>= fun a => Pure.pure (f a)) refs (f a) := by
  rw [bind_pure_comp]
  exact hx.map f

end Visits

end Visits

/-! ### Visiting the references of a schema -/

section

variable {m : Type → Type} [Monad m] [LawfulMonad m] {visit : String → m Unit}
  {f : String → m String} {g : String → String}

mutual

/-- If every reference is visited and replaced by a pure function, so are those of a schema in its
place. -/
theorem SchemaOrRef.visits (h : ∀ path, Visits visit (f path) [path] (g path)) :
    ∀ schema : SchemaOrRef,
      Visits visit (schema.mapReferencesM f) schema.references (schema.mapReferences g)
  | .ref path => (h path).bind_pure SchemaOrRef.ref
  | .inline schema => (schema.visits h).bind_pure SchemaOrRef.inline

theorem AdditionalProperties.visits (h : ∀ path, Visits visit (f path) [path] (g path)) :
    ∀ additional : AdditionalProperties,
      Visits visit (additional.mapReferencesM f) additional.references
        (Id.run (additional.mapReferencesM fun path => pure (g path)))
  | .allowed b => Visits.pure (AdditionalProperties.allowed b)
  | .values schema => (schema.visits h).bind_pure AdditionalProperties.values

/-- A traversal goes through the references of a schema, and replaces them as the pure function
does. -/
theorem Schema.visits (h : ∀ path, Visits visit (f path) [path] (g path)) :
    ∀ schema : Schema,
      Visits visit (schema.mapReferencesM f) schema.references (schema.mapReferences g)
  | ⟨_, _, _, _, _, properties, _, none, items, allOf, oneOf, anyOf, _, _⟩ =>
    (visits_fields h properties).bind <| (visits_option h items).bind <| (Visits.pure none).bind <|
      (visits_list h allOf).bind <| (visits_list h oneOf).bind <|
        (visits_list h anyOf).bind_pure _
  | ⟨_, _, _, _, _, properties, _, some additional, items, allOf, oneOf, anyOf, _, _⟩ =>
    (visits_fields h properties).bind <| (visits_option h items).bind <|
      ((additional.visits h).map some).bind <|
        (visits_list h allOf).bind <| (visits_list h oneOf).bind <|
          (visits_list h anyOf).bind_pure _

theorem visits_fields (h : ∀ path, Visits visit (f path) [path] (g path)) :
    ∀ properties : List (String × SchemaOrRef),
      Visits visit (mapReferencesInFields f properties) (referencesInFields properties)
        (Id.run (mapReferencesInFields (fun path => pure (g path)) properties))
  | [] => Visits.pure _
  | (_, schema) :: rest => (schema.visits h).bind <| (visits_fields h rest).bind_pure _

theorem visits_option (h : ∀ path, Visits visit (f path) [path] (g path)) :
    ∀ items : Option SchemaOrRef,
      Visits visit (mapReferencesInOption f items) (referencesInOption items)
        (Id.run (mapReferencesInOption (fun path => pure (g path)) items))
  | none => Visits.pure _
  | some schema => (schema.visits h).bind_pure some

theorem visits_list (h : ∀ path, Visits visit (f path) [path] (g path)) :
    ∀ members : List SchemaOrRef,
      Visits visit (mapReferencesInList f members) (referencesInList members)
        (Id.run (mapReferencesInList (fun path => pure (g path)) members))
  | [] => Visits.pure _
  | schema :: rest => (schema.visits h).bind <| (visits_list h rest).bind_pure _

end

end

/-! ### The references after a replacement -/

mutual

theorem SchemaOrRef.references_mapReferences (g : String → String) :
    ∀ schema : SchemaOrRef, (schema.mapReferences g).references = schema.references.map g
  | .ref _ => rfl
  | .inline schema => schema.references_mapReferences g

theorem AdditionalProperties.references_mapReferences (g : String → String) :
    ∀ additional : AdditionalProperties,
      (Id.run (additional.mapReferencesM fun path => pure (g path))).references =
        additional.references.map g
  | .allowed _ => rfl
  | .values schema => schema.references_mapReferences g

/-- The references of a replaced schema are the replaced references. -/
theorem Schema.references_mapReferences (g : String → String) :
    ∀ schema : Schema, (schema.mapReferences g).references = schema.references.map g
  | ⟨_, _, _, _, _, properties, _, none, items, allOf, oneOf, anyOf, _, _⟩ => by
    simp only [Schema.references, List.map_append, List.map_nil]
    rw [← references_mapFields g properties, ← references_mapOption g items,
      ← references_mapList g allOf, ← references_mapList g oneOf, ← references_mapList g anyOf]
    rfl
  | ⟨_, _, _, _, _, properties, _, some additional, items, allOf, oneOf, anyOf, _, _⟩ => by
    simp only [Schema.references, List.map_append]
    rw [← references_mapFields g properties, ← references_mapOption g items,
      ← additional.references_mapReferences g, ← references_mapList g allOf,
      ← references_mapList g oneOf, ← references_mapList g anyOf]
    rfl

theorem references_mapFields (g : String → String) :
    ∀ properties : List (String × SchemaOrRef),
      referencesInFields (Id.run (mapReferencesInFields (fun path => pure (g path)) properties)) =
        (referencesInFields properties).map g
  | [] => rfl
  | (_, schema) :: rest => by
    rw [referencesInFields, List.map_append, ← schema.references_mapReferences g,
      ← references_mapFields g rest]
    rfl

theorem references_mapOption (g : String → String) :
    ∀ items : Option SchemaOrRef,
      referencesInOption (Id.run (mapReferencesInOption (fun path => pure (g path)) items)) =
        (referencesInOption items).map g
  | none => rfl
  | some schema => schema.references_mapReferences g

theorem references_mapList (g : String → String) :
    ∀ members : List SchemaOrRef,
      referencesInList (Id.run (mapReferencesInList (fun path => pure (g path)) members)) =
        (referencesInList members).map g
  | [] => rfl
  | schema :: rest => by
    rw [referencesInList, List.map_append, ← schema.references_mapReferences g,
      ← references_mapList g rest]
    rfl

end

/-! ### The parts of a replaced schema -/

/-- In a list of schemas every one is changed alone. -/
theorem mapReferencesInList_eq (g : String → String) (members : List SchemaOrRef) :
    Id.run (mapReferencesInList (fun path => pure (g path)) members) =
      members.map (SchemaOrRef.mapReferences g) := by
  induction members with
  | nil => rfl
  | cons member rest ih =>
    rw [List.map_cons, ← ih]
    rfl

/-- The alternatives of a changed schema are the changed alternatives. -/
theorem Schema.oneOf_mapReferences (g : String → String) (schema : Schema) :
    (schema.mapReferences g).oneOf = schema.oneOf.map (SchemaOrRef.mapReferences g) := by
  rw [← mapReferencesInList_eq]
  obtain ⟨_, _, _, _, _, _, _, additional, _, _, _, _, _, _⟩ := schema
  cases additional with
  | none => rfl
  | some additional => rfl

/-- A discriminator keeps its references. -/
theorem Schema.discriminator_mapReferences (g : String → String) (schema : Schema) :
    (schema.mapReferences g).discriminator = schema.discriminator := by
  obtain ⟨_, _, _, _, _, _, _, additional, _, _, _, _, _, _⟩ := schema
  cases additional with
  | none => rfl
  | some additional => rfl

end FunctionForge.Document
