import FunctionForge.Document.Load
import FunctionForge.Proofs.Fields
import FunctionForge.Proofs.Result

/-!
# What is loaded

`Yields` says that a reading gives nothing but results with a property.  The names of the components
in a document that has been loaded are distinct (`nodup_of_load`), since a map is read by inserting
one entry after the other.
-/

namespace FunctionForge

open Document (ApiDocument Components LoadError SchemaOrRef)
open Files (FileTree Path)

namespace Markup

variable {α β γ : Type} {P : α → Prop} {Q : β → Prop}

/-- A reading gives nothing but results with a property. -/
def Yields (P : α → Prop) (reading : Reading α) : Prop :=
  ∀ source jumps result, (reading.run source).run jumps = some result → P result.1

namespace Yields

theorem trivial (reading : Reading α) : Yields (fun _ => True) reading :=
  fun _ _ _ _ => .intro

theorem pure {a : α} (h : P a) : Yields P (Pure.pure a : Reading α) := by
  intro source jumps result hr
  obtain rfl := Option.some.inj hr
  exact h

/-- What one reading yields may be relied on by the next. -/
theorem bind {reading : Reading α} {k : α → Reading β} (h : Yields P reading)
    (hk : ∀ a, P a → Yields Q (k a)) : Yields Q (reading >>= k) := by
  intro source jumps result hr
  obtain ⟨first, hf, hr⟩ := Option.bind_eq_some_iff.mp hr
  exact hk first.1 (h source jumps first hf) source first.2 result hr

/-- One reading after another, whatever the first one gives. -/
theorem andThen {reading : Reading α} {k : α → Reading β} (hk : ∀ a, Yields Q (k a)) :
    Yields Q (reading >>= k) :=
  (trivial reading).bind fun a _ => hk a

theorem fail : Yields P (failure : Reading α) := by
  intro source jumps result hr
  exact absurd hr nofun

theorem map {reading : Reading α} (h : Yields P reading) {f : α → β} (hf : ∀ a, P a → Q (f a)) :
    Yields Q (f <$> reading) :=
  h.bind fun a ha => pure (hf a ha)

/-- The results of a list have the property of the item in their place. -/
theorem mapM {R : γ → α → Prop} {read : γ → Reading α} (h : ∀ item, Yields (R item) (read item))
    (items : List γ) : Yields (List.Forall₂ R items) (items.mapM read) := by
  induction items with
  | nil => exact pure .nil
  | cons item rest ih =>
    rw [List.mapM_cons]
    refine (h item).bind fun first hfirst => ?_
    exact ih.bind fun others hothers => pure (.cons hfirst hothers)

theorem optional {read : Place → Reading α} {place : Place} (h : ∀ place, Yields P (read place)) :
    Yields (fun found => ∀ a, found = some a → P a) (place.optional read) := by
  have hsome (place : Place) :
      Yields (fun found => ∀ a, found = some a → P a) (some <$> read place) :=
    (h place).map fun a ha b hb => Option.some.inj hb ▸ ha
  refine andThen fun place => ?_
  split
  · refine andThen fun absent => ?_
    split_ifs
    · exact pure nofun
    · exact hsome place
  · exact hsome place

/-- A map is read to fields of distinct names. -/
theorem fields (read : Place → Reading α) (place : Place) :
    Yields (fun fields => fields.keys.Nodup) (place.fields read) :=
  andThen fun _ => andThen fun pairs => pure (Fields.nodup_keys_ofList pairs)

theorem partDefaulted {record : Record Place} {name : String} {value : α}
    {read : Place → Reading α} (hv : P value) (h : ∀ place, Yields P (read place)) :
    Yields P (record.defaulted name value read) := by
  -- A part that is missing has the default.
  rw [Record.defaulted]
  split
  · exact h _
  · exact pure hv

theorem partOptional {record : Record Place} {name : String} {P : Option α → Prop}
    {read : Place → Reading (Option α)} (hn : P none) (h : ∀ place, Yields P (read place)) :
    Yields P (record.optional name read) := by
  rw [Record.optional]
  split
  · exact h _
  · exact pure hn
  · exact fail

end Yields

end Markup

namespace Document

open Markup (Place Yields)

theorem yields_components (place : Place) :
    Yields (fun components => components.schemas.keys.Nodup) (Decode.components place) := by
  refine .andThen fun record => ?_
  have hschemas : Yields (fun schemas => (Fields.keys schemas).Nodup)
      (record.defaulted "schemas" [] (Place.fields Decode.schemaOrRef)) :=
    Yields.partDefaulted List.nodup_nil (Yields.fields Decode.schemaOrRef)
  refine hschemas.bind fun schemas hd => ?_
  exact .andThen fun _ => .andThen fun _ => .andThen fun _ => .pure hd

/-- The schemas of a document that has been read have distinct names. -/
theorem yields_apiDocument (place : Place) :
    Yields (fun document => document.schemas.keys.Nodup) (Decode.apiDocument place) := by
  refine .andThen fun record => .andThen fun _ => .andThen fun _ => .andThen fun _ => ?_
  refine (Yields.partOptional nofun fun place => Yields.optional yields_components).bind
    fun components hd => .pure ?_
  cases components with
  | none => exact List.nodup_nil
  | some components => exact hd components rfl

/-- The components of a document that has been loaded have distinct names. -/
theorem nodup_of_load {files : FileTree} {path : Path} {document : ApiDocument}
    (h : load files path = .ok document) : document.schemas.keys.Nodup := by
  obtain ⟨text, -, h⟩ := bind_eq_ok.mp h
  obtain ⟨found, hf, h⟩ := bind_eq_ok.mp h
  split_ifs at h
  obtain rfl := Except.ok.inj h
  rw [Format.read] at hf
  split at hf
  · rename_i source _
    split at hf
    · rename_i result hread
      obtain rfl := Except.ok.inj hf
      obtain ⟨first, hfirst, hread⟩ := Option.bind_eq_some_iff.mp hread
      obtain rfl := Option.some.inj hread
      exact yields_apiDocument _ source source.jumps first hfirst
    · exact absurd hf nofun
  · exact absurd hf nofun

end Document

end FunctionForge
