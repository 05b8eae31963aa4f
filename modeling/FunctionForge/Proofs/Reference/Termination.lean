import FunctionForge.Proofs.Files.Reading
import FunctionForge.Proofs.Reference.Imports
import Mathlib.Data.Set.Card
import Mathlib.Data.Set.Finite.List
import Mathlib.Order.CompletePartialOrder

/-!
# Bundling comes to an end

Bundling marks what it imports from, and imports from nothing that is marked.  It can only mark a
file that it can load and a pointer that is written in a reference, and if only finitely many paths
can be loaded, there are finitely many of both: a pointer leads to one of the parts of a file's
value (`mem_subvalues_of_pointed`), so all references that are ever visited are written in the
document or in one of these parts.  Hence every run of visits comes to an end (`exists_visited`).

The paths that can be loaded from a tree are shorter than the limit, and so finitely many
(`finite_loadable`), however many spellings they have and however the files refer to each other.
-/

namespace FunctionForge

/-! ### The parts of a value -/

namespace Value

mutual

/-- A value and all values in it. -/
def subvalues : Value → List Value
  | .array items => .array items :: subvaluesOfItems items
  | .object members => .object members :: subvaluesOfMembers members
  | .null => [.null]
  | .bool b => [.bool b]
  | .number n => [.number n]
  | .string s => [.string s]

/-- The items of an array and all values in them. -/
def subvaluesOfItems : List Value → List Value
  | [] => []
  | item :: rest => subvalues item ++ subvaluesOfItems rest

/-- The members of an object and all values in them. -/
def subvaluesOfMembers : List (String × Value) → List Value
  | [] => []
  | (_, value) :: rest => subvalues value ++ subvaluesOfMembers rest

end

theorem self_mem_subvalues (value : Value) : value ∈ value.subvalues := by
  cases value with
  | array items => exact List.mem_cons_self
  | object members => exact List.mem_cons_self
  | null => exact List.mem_singleton_self _
  | bool b => exact List.mem_singleton_self _
  | number n => exact List.mem_singleton_self _
  | string s => exact List.mem_singleton_self _

mutual

/-- The parts of a part are parts. -/
theorem subvalues_trans {inner part : Value} : ∀ {value : Value}, inner ∈ value.subvalues →
    part ∈ inner.subvalues → part ∈ value.subvalues
  | .array items, hi, hp => by
    rcases List.mem_cons.mp hi with rfl | hi
    · exact hp
    · exact List.mem_cons_of_mem _ (subvaluesOfItems_trans hi hp)
  | .object members, hi, hp => by
    rcases List.mem_cons.mp hi with rfl | hi
    · exact hp
    · exact List.mem_cons_of_mem _ (subvaluesOfMembers_trans hi hp)
  | .null, hi, hp => by rwa [List.mem_singleton.mp hi] at hp
  | .bool _, hi, hp => by rwa [List.mem_singleton.mp hi] at hp
  | .number _, hi, hp => by rwa [List.mem_singleton.mp hi] at hp
  | .string _, hi, hp => by rwa [List.mem_singleton.mp hi] at hp

theorem subvaluesOfItems_trans {inner part : Value} : ∀ {items : List Value},
    inner ∈ subvaluesOfItems items → part ∈ inner.subvalues → part ∈ subvaluesOfItems items
  | _ :: _, hi, hp => by
    rcases List.mem_append.mp hi with hi | hi
    · exact List.mem_append_left _ (subvalues_trans hi hp)
    · exact List.mem_append_right _ (subvaluesOfItems_trans hi hp)

theorem subvaluesOfMembers_trans {inner part : Value} : ∀ {members : List (String × Value)},
    inner ∈ subvaluesOfMembers members → part ∈ inner.subvalues → part ∈ subvaluesOfMembers members
  | _ :: _, hi, hp => by
    rcases List.mem_append.mp hi with hi | hi
    · exact List.mem_append_left _ (subvalues_trans hi hp)
    · exact List.mem_append_right _ (subvaluesOfMembers_trans hi hp)

end

theorem mem_subvaluesOfItems {item : Value} {items : List Value} (h : item ∈ items) :
    item ∈ subvaluesOfItems items := by
  induction items with
  | nil => exact absurd h List.not_mem_nil
  | cons first rest ih =>
    rcases List.mem_cons.mp h with rfl | h
    · exact List.mem_append_left _ (self_mem_subvalues item)
    · exact List.mem_append_right _ (ih h)

theorem mem_subvaluesOfMembers {name : String} {value : Value} {members : List (String × Value)}
    (h : (name, value) ∈ members) : value ∈ subvaluesOfMembers members := by
  induction members with
  | nil => exact absurd h List.not_mem_nil
  | cons first rest ih =>
    rcases List.mem_cons.mp h with rfl | h
    · exact List.mem_append_left _ (self_mem_subvalues value)
    · exact List.mem_append_right _ (ih h)

end Value

namespace Reference

open Document (LoadError SchemaOrRef ApiDocument)
open Files (FileTree Path)
open Markup (Tree)

theorem mem_subvalues_of_step {name : String} {value part : Value}
    (h : step? name value = some part) : part ∈ value.subvalues := by
  unfold step? at h
  split at h
  · exact List.mem_cons_of_mem _ (Value.mem_subvaluesOfMembers (Fields.mem_of_get? h))
  · obtain ⟨n, -, h⟩ := Option.bind_eq_some_iff.mp h
    exact List.mem_cons_of_mem _ (Value.mem_subvaluesOfItems (List.mem_of_getElem? h))
  · exact absurd h nofun

/-- A pointer leads to a part of a value. -/
theorem mem_subvalues_of_steps {parts : List String} {value part : Value}
    (h : parts.foldlM (fun value part => step? (unescape part) value) value = some part) :
    part ∈ value.subvalues := by
  induction parts generalizing value with
  | nil =>
    obtain rfl := Option.some.inj h
    exact value.self_mem_subvalues
  | cons name rest ih =>
    rw [List.foldlM_cons] at h
    obtain ⟨inner, hs, h⟩ := Option.bind_eq_some_iff.mp h
    exact Value.subvalues_trans (mem_subvalues_of_step hs) (ih h)

namespace Bundle

/-- A pointer leads to a part of a value. -/
theorem mem_subvalues_of_pointed {value target : Value} {pointer : String}
    (h : pointed? value pointer = some target) : target ∈ value.subvalues := by
  rw [pointed?] at h
  split_ifs at h
  · obtain rfl := Option.some.inj h
    exact value.self_mem_subvalues
  · rw [follow?] at h
    split at h
    · exact mem_subvalues_of_steps h
    · cases h

/-! ### The references that a file may hold -/

variable {load : Path → Except LoadError Value}

/-- The references of a schema, if a value is one. -/
def targetReferences (target : Value) : List String :=
  match SchemaOrRef.ofTree? (Tree.ofValue target) with
  | some schema => schema.references
  | none => []

/-- The references of all schemas that a file's value may hold. -/
def fileReferences (load : Path → Except LoadError Value) (file : Path) : List String :=
  match load file with
  | .ok value => value.subvalues.flatMap targetReferences
  | .error _ => []

/-- The references of a schema in a file are among those that the file may hold. -/
theorem references_subset_fileReferences {file : Path} {value : Value} {pointer : String}
    {schema : SchemaOrRef} (hv : load file = .ok value)
    (hs : schemaAt? value pointer = some schema) :
    schema.references ⊆ fileReferences load file := by
  obtain ⟨target, ht, hd⟩ := Option.bind_eq_some_iff.mp hs
  intro r hr
  rw [fileReferences, hv]
  refine List.mem_flatMap.mpr ⟨target, mem_subvalues_of_pointed ht, ?_⟩
  rwa [targetReferences, hd]

/-- The paths that can be loaded. -/
def loadable (load : Path → Except LoadError Value) : Set Path :=
  {file | ∃ value, load file = .ok value}

/-- The references of a document and of all files. -/
def allReferences (load : Path → Except LoadError Value) (document : ApiDocument) : Set String :=
  {r | r ∈ document.references} ∪ ⋃ file ∈ loadable load, {r | r ∈ fileReferences load file}

/-- What bundling may mark. -/
def possibleMarks (load : Path → Except LoadError Value) (document : ApiDocument) :
    Set (String × String) :=
  (Path.plainText '' loadable load) ×ˢ ((fun r => (parts r).2) '' allReferences load document)

/-- Finitely many loadable paths make finitely many marks. -/
theorem finite_possibleMarks (hfin : (loadable load).Finite) (document : ApiDocument) :
    (possibleMarks load document).Finite := by
  have hrefs : (allReferences load document).Finite :=
    (List.finite_toSet _).union (hfin.biUnion fun _ _ => List.finite_toSet _)
  exact (hfin.image _).prod (hrefs.image _)

/-! ### Runs -/

/-- What bundling may still mark. -/
def unmarked (load : Path → Except LoadError Value) (document : ApiDocument) (st : Bundling) :
    Set (String × String) :=
  possibleMarks load document \ {mark | mark ∈ st.resolver.imported}

theorem unmarked_subset {document : ApiDocument} {st st' : Bundling}
    (h : ∀ mark ∈ st.resolver.imported, mark ∈ st'.resolver.imported) :
    unmarked load document st' ⊆ unmarked load document st :=
  fun mark hm => ⟨hm.1, fun hk => hm.2 (h mark hk)⟩

/-- An arrival marks something that was not marked. -/
theorem unmarked_ssubset {document : ApiDocument} {origin : Origin} {path : String}
    {st st' : Bundling} {arrival : Arrival} (hp : path ∈ allReferences load document)
    (he : Entered load origin path st (.ok (some arrival)) st') :
    unmarked load document st' ⊂ unmarked load document st ∧
      {r | r ∈ arrival.schema.references} ⊆ allReferences load document := by
  cases he with
  | @arrived file name value schema documents hf hn hk hv hs =>
    obtain ⟨spelling, hplain, hload⟩ := hv
    have hmark : key file path ∈ unmarked load document st :=
      ⟨⟨⟨spelling, ⟨value, hload⟩, hplain⟩, ⟨path, hp, rfl⟩⟩, hk⟩
    refine ⟨⟨unmarked_subset fun _ => List.mem_cons_of_mem _, fun hsub => ?_⟩, fun r hr => ?_⟩
    · exact (hsub hmark).2 List.mem_cons_self
    · refine Or.inr (Set.mem_iUnion₂.mpr ⟨spelling, ⟨value, hload⟩, ?_⟩)
      exact references_subset_fileReferences hload hs hr

/-- If only finitely many paths can be loaded, every run of visits comes to an end. -/
theorem exists_visited (hfin : (loadable load).Finite) {document : ApiDocument} {origin : Origin}
    {refs : List String} {st : Bundling} (hr : Remembers load st)
    (hrefs : ∀ path ∈ refs, path ∈ allReferences load document) :
    ∃ r st', Visited load origin refs st r st' := by
  have hmarks := finite_possibleMarks hfin document
  -- The outer induction is on how much may still be marked, the inner one on the references.
  induction hn : (unmarked load document st).ncard using Nat.strong_induction_on
    generalizing origin refs st with
  | _ n ih =>
    have hle : (unmarked load document st).ncard ≤ n := hn.le
    clear hn
    induction refs generalizing st with
    | nil => exact ⟨_, _, .nil⟩
    | cons path rest ihrest =>
      have hpath := hrefs path List.mem_cons_self
      have hothers : ∀ other ∈ rest, other ∈ allReferences load document := fun other hm =>
        hrefs other (List.mem_cons_of_mem _ hm)
      obtain ⟨found, st₁, hex, hen, hr₁⟩ := exists_entered origin path hr
      rcases found with cause | _ | arrival
      · exact ⟨_, _, .refused hex⟩
      · obtain ⟨rfl, -⟩ := settled_of_entered hen
        obtain ⟨r, st₂, hrest⟩ := ihrest hr hothers hle
        exact ⟨r, st₂, .settled hex hrest⟩
      · obtain ⟨hless, hinner⟩ := unmarked_ssubset hpath hen
        have hlt := Set.ncard_lt_ncard hless (hmarks.subset Set.sdiff_subset)
        obtain ⟨r, st₂, hi⟩ := ih _ (lt_of_lt_of_le hlt hle) hr₁ (fun _ hm => hinner hm) rfl
        cases r with
        | error cause => exact ⟨_, _, .failed hex hi⟩
        | ok done =>
          obtain ⟨hp, hs⟩ := Visited.progress hi hr₁
          obtain ⟨hprogress, -⟩ := progress_of_arrived hen hp hs
          -- What the import has marked leaves less for the rest of the references.
          have hfewer := Set.ncard_le_ncard (unmarked_subset hprogress.marks)
            (hmarks.subset Set.sdiff_subset)
          obtain ⟨r, st₃, hrest⟩ := ihrest hprogress.remembers hothers (hfewer.trans hle)
          exact ⟨r, st₃, .imported hex hi hrest⟩

end Bundle

/-! ### Trees -/

theorem length_le_utf8ByteSize (text : List Char) :
    text.length ≤ (String.ofList text).utf8ByteSize := by
  induction text with
  | nil => exact Nat.zero_le _
  | cons c rest ih =>
    have hc : String.ofList (c :: rest) = String.singleton c ++ String.ofList rest := by
      rw [← String.toList_inj, String.toList_append]
      simp
    rw [hc, String.utf8ByteSize_append, String.utf8ByteSize_singleton, List.length_cons]
    have := c.utf8Size_pos
    omega

/-- Only short paths can be loaded, and there are finitely many of these. -/
theorem finite_loadable (files : FileTree) :
    (Bundle.loadable (Document.loadValue files)).Finite := by
  have hchar : Finite Char :=
    Finite.of_injective (fun c : Char => c.val.toFin) fun a b h =>
      Char.ext (UInt32.toFin_inj.mp h)
  have htexts := List.finite_length_lt Char FileTree.pathLimit
  refine (htexts.preimage (f := fun path : Path => path.text.toList) ?_).subset ?_
  · intro a _ b _ h
    obtain ⟨a⟩ := a
    obtain ⟨b⟩ := b
    exact congrArg Files.Path.mk (String.toList_inj.mp h)
  · rintro path ⟨value, hv⟩
    have hlen := length_le_utf8ByteSize path.text.toList
    rw [String.ofList_toList] at hlen
    exact lt_of_le_of_lt hlen (Document.short_of_loadValue hv)

end Reference

end FunctionForge
