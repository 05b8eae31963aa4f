import FunctionForge.Proofs.Redirects

/-!
# Renaming classes

What is written around the identifiers of classes is the same for all of them, so that another
naming renames all classes by one function (`ClassNaming.decorate`) that keeps different names apart
(`decorate_injective`).  The table of a document with a naming is the renamed table of the document
with plain names (`scan_rename`), and a reference stands for the same in both up to the renaming
(`resolve_rename`).

`Renames` is all that the models and the endpoints of a document need to know of two such tables.
-/

namespace FunctionForge

open Document (Schema SchemaOrRef)
open Naming (ClassNaming)

/-! ### Names -/

namespace Naming.ClassNaming

/-- A name with what is written around it. -/
def decorate (naming : ClassNaming) (name : String) : String :=
  naming.lead ++ name ++ naming.trail

theorem className_plain (name : String) : plain.className name = identifier name := by
  simp [className, plain]

/-- A class name is the decorated plain one. -/
theorem decorate_className_plain (naming : ClassNaming) (name : String) :
    naming.decorate (plain.className name) = naming.className name := by
  rw [className_plain]
  rfl

theorem decorate_injective (naming : ClassNaming) : Function.Injective naming.decorate := by
  intro name other h
  have hlist : (naming.decorate name).toList = (naming.decorate other).toList := by rw [h]
  simp only [decorate, String.toList_append, List.append_assoc, List.append_cancel_left_eq,
    List.append_cancel_right_eq] at hlist
  exact String.toList_inj.mp hlist

end Naming.ClassNaming

/-! ### Types -/

namespace TypeRef

/-- A type with its class renamed. -/
def rename (f : String → String) : TypeRef → TypeRef
  | .scalar type nullable => .scalar type nullable
  | .entity name => .entity (f name)
  | .list item => .list (item.rename f)
  | .map value => .map (value.rename f)

variable (f : String → String) (type : TypeRef)

@[simp]
theorem isScalar_rename : (type.rename f).isScalar = type.isScalar := by
  cases type with
  | scalar _ _ | entity _ | list _ | map _ => rfl

@[simp]
theorem isMap_rename : (type.rename f).isMap = type.isMap := by
  cases type with
  | scalar _ _ | entity _ | list _ | map _ => rfl

/-- Types are the same after renaming only if they are the same. -/
theorem rename_injective {f : String → String} (hf : Function.Injective f) :
    Function.Injective (rename f) := by
  intro type
  -- The renaming keeps the form of a type, so only names are left to compare.
  induction type with
  | scalar scalar nullable =>
    intro other h
    cases other with
    | scalar _ _ => exact h
    | entity _ | list _ | map _ => exact absurd h nofun
  | entity name =>
    intro other h
    cases other with
    | entity other => rw [hf (TypeRef.entity.inj h)]
    | scalar _ _ | list _ | map _ => exact absurd h nofun
  | list item ih =>
    intro other h
    cases other with
    | list other => rw [ih (TypeRef.list.inj h)]
    | scalar _ _ | entity _ | map _ => exact absurd h nofun
  | map value ih =>
    intro other h
    cases other with
    | map other => rw [ih (TypeRef.map.inj h)]
    | scalar _ _ | entity _ | list _ => exact absurd h nofun

end TypeRef

/-! ### References -/

/-- What a reference stands for, with its class renamed. -/
def ResolvedRef.rename (f : String → String) : ResolvedRef → ResolvedRef
  | .alias body => .alias body
  | .entity name => .entity (f name)

/-- In the second table, classes have the names of the first one renamed. -/
structure Renames (f : String → String) (known known' : KnownTypes) : Prop where
  className : ∀ name, known'.naming.className name = f (known.naming.className name)
  resolve : ∀ path, known'.resolve path = (known.resolve path).rename f

namespace KnownTypes

/-- A table with another naming, in which the aliases are found under their new names. -/
def rename (naming : ClassNaming) (known : KnownTypes) : KnownTypes :=
  ⟨naming, known.aliases.mapKeys naming.decorate, known.redirects⟩

variable {naming : ClassNaming}

theorem add_rename (admits : String → Bool) {known : KnownTypes} (h : known.naming = .plain)
    (entry : String × SchemaOrRef) :
    add admits (known.rename naming) entry = (add admits known entry).rename naming := by
  obtain ⟨name, schema⟩ := entry
  cases schema with
  | ref path => rfl
  | inline schema =>
    simp only [add]
    split_ifs
    · have hname : naming.className name = naming.decorate (known.naming.className name) := by
        rw [h, ClassNaming.decorate_className_plain]
      simp only [rename, hname, Fields.mapKeys_insert naming.decorate_injective]
    · rfl

/-- The table of a document with a naming is the renamed table with plain names. -/
theorem scan_rename (schemas : Fields SchemaOrRef) (naming : ClassNaming)
    (admits : String → Bool) :
    scan schemas naming admits = (scan schemas .plain admits).rename naming := by
  have hfold : ∀ (entries : Fields SchemaOrRef) (known : KnownTypes), known.naming = .plain →
      List.foldl (add admits) (known.rename naming) entries =
        (List.foldl (add admits) known entries).rename naming := by
    intro entries
    induction entries with
    | nil => exact fun _ _ => rfl
    | cons entry rest ih =>
      intro known h
      rw [List.foldl_cons, List.foldl_cons, add_rename admits h]
      exact ih _ ((naming_add known entry).trans h)
  exact hfold schemas ⟨.plain, [], []⟩ rfl

/-- A reference stands for the same in a renamed table, up to the renaming. -/
theorem resolve_rename {known : KnownTypes} (h : known.naming = .plain) (path : String) :
    (known.rename naming).resolve path = (known.resolve path).rename naming.decorate := by
  have hname (name : String) :
      naming.className name = naming.decorate (known.naming.className name) := by
    rw [h, ClassNaming.decorate_className_plain]
  have hfollow (name : String) :
      (known.rename naming).followRedirects name = known.followRedirects name := rfl
  have hget (name : String) : (known.rename naming).aliases.get? (naming.decorate name) =
      known.aliases.get? name := Fields.get?_mapKeys naming.decorate_injective _ name
  have hnaming : (known.rename naming).naming = naming := rfl
  simp only [resolve, hfollow, hnaming, hname, hget]
  cases known.aliases.get? (known.naming.className
      (known.followRedirects (Naming.refName path))) with
  | some body => rfl
  | none => rfl

theorem renames_rename {known : KnownTypes} (h : known.naming = .plain) (naming : ClassNaming) :
    Renames naming.decorate known (known.rename naming) where
  className name := by
    rw [h, ClassNaming.decorate_className_plain]
    rfl
  resolve := resolve_rename h

end KnownTypes

end FunctionForge
