import FunctionForge.Fields
import Mathlib.Data.List.Induction
import Mathlib.Data.List.Nodup

/-!
# Looking up and inserting fields

What `insert` does to the look-up and to the names of fields: the inserted name gets the new value
and every other name keeps its own (`get?_insert`), a new name goes to the end
(`insert_of_not_mem`), and names that are distinct stay so (`nodup_keys_insert`).  In a map that is
made of pairs, a name has the value of its last pair (`get?_ofList_eq_some_iff`).
-/

namespace FunctionForge.Fields

variable {α β : Type}

@[simp]
theorem get?_nil (name : String) : get? ([] : Fields α) name = none := rfl

theorem get?_cons (key : String) (value : α) (rest : Fields α) (name : String) :
    get? ((key, value) :: rest) name = if name = key then some value else get? rest name := by
  unfold get?
  rw [List.lookup_cons]
  by_cases h : name = key
  · simp [h]
  · have hb : (name == key) = false := by simpa using h
    rw [hb, if_neg h]

/-! ### Names -/

@[simp]
theorem keys_nil : keys ([] : Fields α) = [] := rfl

@[simp]
theorem keys_cons (key : String) (value : α) (rest : Fields α) :
    keys ((key, value) :: rest) = key :: keys rest := rfl

theorem mem_keys_of_mem {fields : Fields α} {name : String} {value : α}
    (h : (name, value) ∈ fields) : name ∈ fields.keys :=
  List.mem_map_of_mem (f := Prod.fst) h

/-- A value that is found stands among the fields under its name. -/
theorem mem_of_get? {fields : Fields α} {name : String} {value : α}
    (h : fields.get? name = some value) : (name, value) ∈ fields := by
  induction fields with
  | nil => simp at h
  | cons field rest ih =>
    obtain ⟨key, old⟩ := field
    rw [get?_cons] at h
    split_ifs at h with hk
    · obtain rfl := Option.some.inj h
      rw [hk]
      exact List.mem_cons_self
    · exact List.mem_cons_of_mem _ (ih h)

/-- Nothing is found under a name exactly if no field has it. -/
theorem get?_eq_none_iff {fields : Fields α} {name : String} :
    fields.get? name = none ↔ name ∉ fields.keys := by
  induction fields with
  | nil => simp
  | cons field rest ih =>
    obtain ⟨key, old⟩ := field
    rw [get?_cons, keys_cons, List.mem_cons, not_or]
    split_ifs with hk
    · simp [hk]
    · simp [hk, ih]

theorem has_iff_mem_keys {fields : Fields α} {name : String} :
    fields.has name = true ↔ name ∈ fields.keys := by
  rw [has, Option.isSome_iff_ne_none, Ne, get?_eq_none_iff, not_not]

theorem has_eq_false_iff {fields : Fields α} {name : String} :
    fields.has name = false ↔ name ∉ fields.keys := by
  rw [← has_iff_mem_keys, Bool.not_eq_true]

theorem exists_get?_of_mem_keys {fields : Fields α} {name : String} (h : name ∈ fields.keys) :
    ∃ value, fields.get? name = some value := by
  rw [← has_iff_mem_keys, has, Option.isSome_iff_exists] at h
  exact h

/-- In a map with distinct names, a name has the value that it is listed with. -/
theorem get?_of_mem {fields : Fields α} (hd : fields.keys.Nodup) {name : String} {value : α}
    (h : (name, value) ∈ fields) : fields.get? name = some value := by
  obtain ⟨other, ho⟩ := exists_get?_of_mem_keys (mem_keys_of_mem h)
  obtain ⟨-, rfl⟩ := Prod.mk.inj (List.inj_on_of_nodup_map hd (mem_of_get? ho) h rfl)
  exact ho

/-- The names before and after a field of a map with distinct names are others. -/
theorem ne_of_nodup_middle {front back : Fields α} {name : String} {value : α}
    (hd : (front ++ (name, value) :: back).keys.Nodup) {field : String × α}
    (hm : field ∈ front ++ back) : field.1 ≠ name := by
  rw [keys, List.map_append, List.map_cons, List.nodup_middle, ← List.map_append,
    List.nodup_cons] at hd
  intro heq
  exact hd.1 (List.mem_map.mpr ⟨field, hm, heq⟩)

/-! ### Inserting -/

/-- An inserted value is found under its name, and nothing changes under the others. -/
theorem get?_insert (fields : Fields α) (name : String) (value : α) (key : String) :
    (fields.insert name value).get? key = if key = name then some value else fields.get? key := by
  induction fields with
  | nil => rw [insert, get?_cons]
  | cons field rest ih =>
    obtain ⟨first, old⟩ := field
    rw [insert]
    -- Either the first field has the inserted name, or the insertion goes on behind it.
    split_ifs with hf hk hk
    · rw [get?_cons, hf, if_pos hk]
    · rw [get?_cons, get?_cons, hf, if_neg hk, if_neg hk]
    · have hne : key ≠ first := fun h => hf (by rw [← h, hk])
      rw [get?_cons, if_neg hne, ih, if_pos hk]
    · rw [get?_cons, get?_cons, ih, if_neg hk]

theorem mem_keys_insert {fields : Fields α} {name key : String} {value : α} :
    key ∈ (fields.insert name value).keys ↔ key = name ∨ key ∈ fields.keys := by
  rw [← not_iff_not, ← get?_eq_none_iff, get?_insert, not_or, ← get?_eq_none_iff]
  split_ifs with h
  · simp [h]
  · simp [h]

/-- Inserting brings in no value but the inserted one. -/
theorem mem_values_insert {fields : Fields α} {name : String} {value other : α}
    (h : other ∈ (fields.insert name value).values) : other = value ∨ other ∈ fields.values := by
  induction fields with
  | nil => exact Or.inl (List.mem_singleton.mp h)
  | cons field rest ih =>
    obtain ⟨first, old⟩ := field
    rw [insert] at h
    split_ifs at h
    · rcases List.mem_cons.mp h with rfl | h
      · exact Or.inl rfl
      · exact Or.inr (List.mem_cons_of_mem _ h)
    · rcases List.mem_cons.mp h with rfl | h
      · exact Or.inr List.mem_cons_self
      · exact (ih h).imp_right (List.mem_cons_of_mem _)

theorem mem_values_foldl_insert {pairs : List (String × α)} {fields : Fields α} {value : α}
    (h : value ∈ (pairs.foldl (fun fields pair => insert fields pair.1 pair.2) fields).values) :
    value ∈ fields.values ∨ value ∈ pairs.map Prod.snd := by
  induction pairs generalizing fields with
  | nil => exact Or.inl h
  | cons pair rest ih =>
    rw [List.foldl_cons] at h
    rcases ih h with h | h
    · rcases mem_values_insert h with rfl | h
      · exact Or.inr List.mem_cons_self
      · exact Or.inl h
    · exact Or.inr (List.mem_cons_of_mem _ h)

/-- The values of a map that is made of pairs are among those of the pairs. -/
theorem values_ofList_subset (pairs : List (String × α)) :
    (ofList pairs).values ⊆ pairs.map Prod.snd :=
  fun _ h => (mem_values_foldl_insert h).resolve_left List.not_mem_nil

/-- A new name goes to the end. -/
theorem insert_of_not_mem {fields : Fields α} {name : String} (value : α)
    (h : name ∉ fields.keys) : fields.insert name value = fields ++ [(name, value)] := by
  induction fields with
  | nil => rfl
  | cons field rest ih =>
    obtain ⟨key, old⟩ := field
    rw [keys_cons, List.mem_cons, not_or] at h
    rw [insert, if_neg (Ne.symm h.1), ih h.2, List.cons_append]

/-- Inserting keeps the names distinct. -/
theorem nodup_keys_insert {fields : Fields α} (hd : fields.keys.Nodup) (name : String) (value : α) :
    (fields.insert name value).keys.Nodup := by
  induction fields with
  | nil => exact List.nodup_singleton name
  | cons field rest ih =>
    obtain ⟨first, old⟩ := field
    rw [keys_cons, List.nodup_cons] at hd
    rw [insert]
    split_ifs with hf
    · exact List.nodup_cons.mpr hd
    · rw [keys_cons, List.nodup_cons, mem_keys_insert, not_or]
      exact ⟨⟨hf, hd.1⟩, ih hd.2⟩

theorem nodup_keys_ofList (pairs : List (String × α)) : (ofList pairs).keys.Nodup := by
  have hfold : ∀ (pairs : List (String × α)) (fields : Fields α), fields.keys.Nodup →
      (pairs.foldl (fun fields pair => insert fields pair.1 pair.2) fields).keys.Nodup := by
    intro pairs
    induction pairs with
    | nil => exact fun _ hd => hd
    | cons pair rest ih => exact fun fields hd => ih _ (nodup_keys_insert hd pair.1 pair.2)
  exact hfold pairs [] List.nodup_nil

/-! ### Maps made of pairs -/

theorem ofList_concat (pairs : List (String × α)) (pair : String × α) :
    ofList (pairs ++ [pair]) = (ofList pairs).insert pair.1 pair.2 := by
  rw [ofList, List.foldl_append]
  rfl

/-- A name that no pair has is not found, and only such a one. -/
theorem get?_ofList_eq_none_iff {pairs : List (String × α)} {name : String} :
    (ofList pairs).get? name = none ↔ ∀ pair ∈ pairs, pair.1 ≠ name := by
  induction pairs using List.reverseRecOn with
  | nil => simp [ofList]
  | append_singleton pairs pair ih =>
    rw [ofList_concat, get?_insert]
    split_ifs with h
    · exact ⟨nofun, fun hall => absurd h.symm (hall pair (by simp))⟩
    · have hne : pair.1 ≠ name := fun hn => h hn.symm
      rw [ih]
      constructor
      · intro hall other hm
        rcases List.mem_append.mp hm with hm | hm
        · exact hall other hm
        · rwa [List.mem_singleton.mp hm]
      · exact fun hall other hm => hall other (List.mem_append_left _ hm)

/-- A name has the value of its last pair. -/
theorem get?_ofList_eq_some_iff {pairs : List (String × α)} {name : String} {value : α} :
    (ofList pairs).get? name = some value ↔
      ∃ before after, pairs = before ++ (name, value) :: after ∧ ∀ pair ∈ after, pair.1 ≠ name := by
  induction pairs using List.reverseRecOn with
  | nil => simp [ofList]
  | append_singleton pairs pair ih =>
    rw [ofList_concat, get?_insert]
    split_ifs with h
    · constructor
      · intro hv
        obtain rfl := Option.some.inj hv
        exact ⟨pairs, [], by rw [h], by simp⟩
      · rintro ⟨before, after, heq, hafter⟩
        -- The pair of the name that comes last is the one at the end.
        rcases List.eq_nil_or_concat after with rfl | ⟨after, last, rfl⟩
        · have hlast := (List.append_inj' heq rfl).2
          rw [List.singleton_inj.mp hlast]
        · rw [List.concat_eq_append, ← List.cons_append, ← List.append_assoc] at heq
          have hlast := List.singleton_inj.mp (List.append_inj' heq rfl).2
          exact absurd (hlast ▸ h.symm) (hafter last (by simp))
    · rw [ih]
      constructor
      · rintro ⟨before, after, rfl, hafter⟩
        refine ⟨before, after ++ [pair], by simp, ?_⟩
        intro other hm
        rcases List.mem_append.mp hm with hm | hm
        · exact hafter other hm
        · rw [List.mem_singleton.mp hm]
          exact fun hn => h hn.symm
      · rintro ⟨before, after, heq, hafter⟩
        rcases List.eq_nil_or_concat after with rfl | ⟨after, last, rfl⟩
        · have hlast := List.singleton_inj.mp (List.append_inj' heq rfl).2
          exact absurd (by rw [hlast]) h
        · rw [List.concat_eq_append, ← List.cons_append, ← List.append_assoc] at heq
          have hinit := (List.append_inj' heq rfl).1
          exact ⟨before, after, hinit, fun other hm => hafter other (by simp [hm])⟩

/-! ### Changing values -/

@[simp]
theorem keys_mapValues (f : α → β) (fields : Fields α) :
    (fields.mapValues f).keys = fields.keys := by
  simp [keys, mapValues, Function.comp_def]

/-- Changing the values changes what is found, and not where. -/
theorem get?_mapValues (f : α → β) (fields : Fields α) (name : String) :
    (fields.mapValues f).get? name = (fields.get? name).map f := by
  induction fields with
  | nil => rfl
  | cons field rest ih =>
    obtain ⟨key, value⟩ := field
    change get? ((key, f value) :: mapValues f rest) name = _
    rw [get?_cons, get?_cons, ih]
    split_ifs with h
    · rfl
    · rfl

theorem mapValues_insert (f : α → β) (fields : Fields α) (name : String) (value : α) :
    (fields.insert name value).mapValues f = (fields.mapValues f).insert name (f value) := by
  induction fields with
  | nil => rfl
  | cons field rest ih =>
    obtain ⟨key, old⟩ := field
    change mapValues f (insert ((key, old) :: rest) name value) =
      insert ((key, f old) :: mapValues f rest) name (f value)
    rw [insert, insert]
    split_ifs
    · rfl
    · rw [← ih]
      rfl

theorem mapValues_ofList (f : α → β) (pairs : List (String × α)) :
    (ofList pairs).mapValues f = ofList (pairs.map fun pair => (pair.1, f pair.2)) := by
  induction pairs using List.reverseRecOn with
  | nil => rfl
  | append_singleton pairs pair ih =>
    rw [List.map_append, List.map_singleton, ofList_concat, ofList_concat, mapValues_insert, ih]

/-! ### Changing names -/

/-- Changes every name. -/
def mapKeys (f : String → String) (fields : Fields α) : Fields α :=
  List.map (fun (name, value) => (f name, value)) fields

section

variable {f : String → String} (hf : Function.Injective f)
include hf

theorem get?_mapKeys (fields : Fields α) (name : String) :
    (fields.mapKeys f).get? (f name) = fields.get? name := by
  induction fields with
  | nil => rfl
  | cons field rest ih =>
    obtain ⟨key, value⟩ := field
    change get? ((f key, value) :: mapKeys f rest) (f name) = _
    rw [get?_cons, get?_cons, ih]
    simp only [hf.eq_iff]

/-- Names that are changed one to one may be changed before or after an insertion. -/
theorem mapKeys_insert (fields : Fields α) (name : String) (value : α) :
    (fields.insert name value).mapKeys f = (fields.mapKeys f).insert (f name) value := by
  induction fields with
  | nil => rfl
  | cons field rest ih =>
    obtain ⟨key, old⟩ := field
    change mapKeys f (insert ((key, old) :: rest) name value) =
      insert ((f key, old) :: mapKeys f rest) (f name) value
    rw [insert, insert]
    simp only [hf.eq_iff]
    split_ifs
    · rfl
    · rw [← ih]
      rfl

end

end FunctionForge.Fields
