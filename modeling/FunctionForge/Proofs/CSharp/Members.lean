import FunctionForge.CSharp.ModelSource
import FunctionForge.Proofs.Model.Enumerations
import FunctionForge.Proofs.Model.Interfaces
import FunctionForge.Proofs.Model.Required

/-!
# Members of a class

A class has a member for each of its properties, and more for the values that a property may have:
one for each value, and one for the list of them.  The properties of a class are made one by one,
and whether there is a class depends on each of them alone (`exists_resolveObject_iff`).  Thus the
members for one property are distinct, for its constants are compared with each other, but those for
two properties need not be: the members are distinct exactly if no two names of properties come to
one identifier, and no two properties share the name of a constant (`distinctMembers_iff`).
-/

namespace FunctionForge.CSharp

open Document (Schema SchemaOrRef)
open Model (Inheritance ObjectModel Options Property constantNames inheritance resolveModels
  resolveObject)

variable {known : KnownTypes}

/-- The members of a class are distinct: those for its properties, and those for the values that its
properties may have. -/
structure DistinctMembers (model : ObjectModel) : Prop where
  members : (model.properties.map memberName).Nodup
  constants : (model.properties.flatMap constantNames).Nodup

/-- Two properties share no name of a constant or of a list of values. -/
def Apart (one other : Property) : Prop :=
  (constantNames one).Disjoint (constantNames other)

/-- The schema that has the properties of a class. -/
def source (inherited : Inheritance) : Schema :=
  inherited.body.getD .blank

/-- Each property is made of a field of a schema, in the place of the field. -/
def MadeFrom (known : KnownTypes) (body : Schema) (properties : List Property) : Prop :=
  List.Forall₂ (fun field property =>
    Property.resolve known field.1 (body.requires field.1) field.2 = .ok property)
    body.properties properties

theorem map_memberName_of_forall₂ {requires : String → Bool} {fields : Fields SchemaOrRef}
    {properties : List Property}
    (h : List.Forall₂ (fun field property =>
      Property.resolve known field.1 (requires field.1) field.2 = .ok property)
      fields properties) :
    properties.map memberName = fields.keys.map Naming.identifier := by
  induction h with
  | nil => rfl
  | @cons field property rest more hfirst _ ih =>
    obtain ⟨hname, -⟩ := Property.name_isRequired_of_resolve hfirst
    rw [List.map_cons, ih, memberName, hname]
    rfl

/-- The members for one property are distinct, so only those for two properties can be the same. -/
theorem nodup_flatMap_constantNames_iff {body : Schema} {properties : List Property}
    (h : MadeFrom known body properties) :
    (properties.flatMap constantNames).Nodup ↔ properties.Pairwise Apart := by
  rw [List.nodup_flatMap]
  refine and_iff_right fun property hp => ?_
  obtain ⟨field, -, hr⟩ := exists_mem_of_forall₂ h hp
  exact Model.nodup_constantNames_of_resolve hr

/-- There is a class exactly if its inheritance is clear and each of its properties can be made by
itself. -/
theorem exists_resolveObject_iff {rawName : String} {schema : Schema} :
    (∃ model, resolveObject known rawName schema = .ok model) ↔
      ∃ inherited, inheritance known schema = .ok inherited ∧
        ∀ field ∈ (source inherited).properties, ∃ property,
          Property.resolve known field.1 ((source inherited).requires field.1) field.2 =
            .ok property := by
  constructor
  · rintro ⟨model, h⟩
    obtain ⟨inherited, properties, hi, hp, -⟩ := Model.resolveObject_eq_ok_iff.mp h
    exact ⟨inherited, hi, exists_forall₂_iff.mp ⟨_, Model.resolveProperties_eq_ok_iff.mp hp⟩⟩
  · rintro ⟨inherited, hi, hall⟩
    obtain ⟨properties, hp⟩ := exists_forall₂_iff.mpr hall
    exact ⟨_, Model.resolveObject_eq_ok_iff.mpr
      ⟨inherited, properties, hi, Model.resolveProperties_eq_ok_iff.mpr hp, rfl⟩⟩

/-- The members of a class are distinct exactly if the names of its properties come to distinct
identifiers and no two of its properties share the name of a constant; and whether there is a class
does not depend on that, for its properties are made one by one. -/
theorem distinctMembers_iff (schemas : Fields SchemaOrRef) (options : Options) :
    let resolution := resolveModels schemas options
    (∀ model, .object model ∈ resolution.models.items →
      ∃ schema inherited, (model.rawName, .inline schema) ∈ schemas ∧
        inheritance resolution.known schema = .ok inherited ∧
        MadeFrom resolution.known (source inherited) model.properties ∧
        (DistinctMembers model ↔
          ((Fields.keys (source inherited).properties).map Naming.identifier).Nodup ∧
            model.properties.Pairwise Apart)) ∧
    ∀ rawName schema, (∃ model, resolveObject resolution.known rawName schema = .ok model) ↔
      ∃ inherited, inheritance resolution.known schema = .ok inherited ∧
        ∀ field ∈ (source inherited).properties, ∃ property,
          Property.resolve resolution.known field.1 ((source inherited).requires field.1) field.2 =
            .ok property := by
  intro resolution
  refine ⟨fun model hm => ?_, fun rawName schema => exists_resolveObject_iff⟩
  obtain ⟨schema, made, hentry, -, hmade, -, hproperties⟩ := Model.exists_entry_of_object hm
  obtain ⟨inherited, properties, hi, hp, rfl⟩ := Model.resolveObject_eq_ok_iff.mp hmade
  -- Linking changes no property, so the class has those that its schema came to.
  have hfrom : MadeFrom resolution.known (source inherited) model.properties := by
    rw [hproperties]
    exact Model.resolveProperties_eq_ok_iff.mp hp
  refine ⟨schema, inherited, hentry, hi, hfrom, ?_⟩
  rw [← nodup_flatMap_constantNames_iff hfrom, ← map_memberName_of_forall₂ hfrom]
  exact ⟨fun h => ⟨h.members, h.constants⟩, fun h => ⟨h.1, h.2⟩⟩

/-! ### An account -/

/-- An account has the identifier of a user, which is a text, and a number under another name. -/
def accountSchema (name : String) : Schema :=
  { Schema.blank with
    types := some (.single .object)
    properties := [
      ("user_id", .inline { Schema.blank with types := some (.single .string) }),
      (name, .inline { Schema.blank with types := some (.single .integer) })] }

/-- The class of an account, of which no member is required. -/
def account (name : String) : ObjectModel :=
  let property (name : String) (type : ScalarType) (marked : Bool) : Property :=
    ⟨name, .scalar type marked, false, false, false, false, true, some .null, none, none⟩
  ⟨"Account", "Account", none, [property "user_id" .string false, property name .int false], none,
    [], []⟩

/-- The age of a user is another member than the identifier. -/
theorem distinctMembers_account :
    .object (account "age") ∈
        (resolveModels [("Account", .inline (accountSchema "age"))] .plain).models.items ∧
      DistinctMembers (account "age") := by
  have hm : .object (account "age") ∈
      (resolveModels [("Account", .inline (accountSchema "age"))] .plain).models.items := by
    decide +kernel
  refine ⟨hm, ?_⟩
  obtain ⟨hall, -⟩ := distinctMembers_iff [("Account", .inline (accountSchema "age"))] .plain
  obtain ⟨schema, inherited, hentry, hi, -, hiff⟩ := hall (account "age") hm
  obtain rfl : schema = accountSchema "age" := by simpa [account] using hentry
  obtain rfl : (⟨none, some (accountSchema "age")⟩ : Inheritance) = inherited := Except.ok.inj hi
  have hnone : ∀ property ∈ (account "age").properties, constantNames property = [] := by
    decide
  refine hiff.mpr ⟨by decide +kernel, List.pairwise_of_forall_mem_list fun one hone other _ => ?_⟩
  rw [Apart, hnone one hone]
  exact List.disjoint_nil_left _

/-- A number that is called `userId` is the same member, and yet the account is a class and nothing
fails. -/
theorem not_distinctMembers_account :
    (resolveModels [("Account", .inline (accountSchema "userId"))] .plain).models =
        ⟨[.object (account "userId")], []⟩ ∧
      (account "userId").properties.map memberName = ["UserId", "UserId"] ∧
      ¬DistinctMembers (account "userId") := by
  have hmembers : (account "userId").properties.map memberName = ["UserId", "UserId"] := by
    decide +kernel
  refine ⟨by decide +kernel, hmembers, fun h => ?_⟩
  have hnodup := h.members
  rw [hmembers] at hnodup
  exact absurd hnodup (by decide)

end FunctionForge.CSharp
