import FunctionForge.Proofs.Fields
import FunctionForge.Proofs.Firsts
import FunctionForge.Registry

/-!
# What registries refuse

A registry of the mode `once` refuses the names that are recorded in it
(`shouldGenerate_eq_false_iff`).  All items that are submitted to a registry are recorded
afterwards, whether they were admitted or not (`mem_names_submitAll_iff`).  Every name that they add
to it is that of an item that was admitted (`mem_names_submitAll_iff_kept`).  Either all items are
admitted (`items_submitAll_of_overwrite`), or the first of each name that is not recorded yet
(`items_submitAll_of_once`).
-/

namespace FunctionForge.Registry

variable {φ β : Type} {registry : Registry φ} {name key : String} {print : φ}

/-- The names that are recorded. -/
def names (registry : Registry φ) : List String :=
  registry.generated.keys

/-! ### One item -/

theorem shouldGenerate_eq_false_iff :
    registry.shouldGenerate name = false ↔ registry.mode = .once ∧ name ∈ registry.names := by
  rw [shouldGenerate, Bool.or_eq_false_iff, Bool.not_eq_false', Fields.has_iff_mem_keys]
  refine and_congr_left fun _ => ?_
  cases registry.mode with
  | overwrite => exact ⟨nofun, nofun⟩
  | once => exact ⟨fun _ => rfl, fun _ => rfl⟩

theorem shouldGenerate_of_overwrite (h : registry.mode = .overwrite) :
    registry.shouldGenerate name = true := by
  rw [shouldGenerate, h]
  rfl

theorem shouldGenerate_of_once (h : registry.mode = .once) :
    registry.shouldGenerate name = decide (name ∉ registry.names) := by
  have hrefused : registry.shouldGenerate name = false ↔ name ∈ registry.names := by
    rw [shouldGenerate_eq_false_iff]
    exact and_iff_right h
  by_cases hm : name ∈ registry.names
  · rw [hrefused.mpr hm, eq_comm, decide_eq_false_iff_not]
    exact not_not_intro hm
  · rw [Bool.of_not_eq_false (mt hrefused.mp hm), eq_comm, decide_eq_true_eq]
    exact hm

theorem recordWith_of_shouldGenerate (h : registry.shouldGenerate key = true) :
    registry.recordWith key print =
      { registry with generated := registry.generated.insert key (some print) } := by
  rw [recordWith, if_pos]
  rw [shouldGenerate, Bool.or_eq_true] at h
  rcases h with h | h
  · rw [h, Bool.or_true]
  · -- What is not recorded has no fingerprint.
    rw [Bool.not_eq_true', Fields.has_eq_false_iff, ← Fields.get?_eq_none_iff] at h
    rw [fingerprint?, h]
    rfl

theorem fst_submit : (registry.submit key print).1 = registry.shouldGenerate key := by
  rw [submit]
  split_ifs with h
  · exact h.symm
  · exact (Bool.of_not_eq_true h).symm

@[simp]
theorem mode_submit : (registry.submit key print).2.mode = registry.mode := by
  rw [submit]
  split_ifs with h
  · rw [recordWith_of_shouldGenerate h]
  · rfl

/-- What is submitted is recorded afterwards, admitted or not. -/
theorem mem_names_submit_iff :
    name ∈ (registry.submit key print).2.names ↔ name ∈ registry.names ∨ key = name := by
  rw [submit]
  split_ifs with h
  · rw [recordWith_of_shouldGenerate h, or_comm, eq_comm]
    exact Fields.mem_keys_insert
  · rw [Bool.not_eq_true, shouldGenerate_eq_false_iff] at h
    refine ⟨Or.inl, fun hm => hm.elim id ?_⟩
    rintro rfl
    exact h.2

theorem shouldGenerate_congr {other : Registry φ} (hmode : registry.mode = other.mode)
    (hnames : name ∈ registry.names ↔ name ∈ other.names) :
    registry.shouldGenerate name = other.shouldGenerate name := by
  rw [Bool.eq_iff_iff, ← not_iff_not, Bool.not_eq_true, Bool.not_eq_true,
    shouldGenerate_eq_false_iff, shouldGenerate_eq_false_iff, hmode, hnames]

/-! ### Lists -/

variable [DecidableEq φ] {label : β → String} {fingerprint : β → φ} {items : List β}

@[simp]
theorem mode_submitAll :
    (submitAll label fingerprint registry items).registry.mode = registry.mode := by
  induction items generalizing registry with
  | nil => rfl
  | cons item rest ih =>
    rw [submitAll]
    exact ih.trans mode_submit

/-- What a list adds to a registry are its names. -/
theorem mem_names_submitAll_iff :
    name ∈ (submitAll label fingerprint registry items).registry.names ↔
      name ∈ registry.names ∨ ∃ item ∈ items, label item = name := by
  induction items generalizing registry with
  | nil => simp [submitAll]
  | cons item rest ih =>
    rw [submitAll]
    change name ∈ (submitAll label fingerprint (registry.submit _ _).2 rest).registry.names ↔ _
    rw [ih, mem_names_submit_iff, or_assoc, List.exists_mem_cons_iff]

/-- What a list adds to a registry are the names of the items that are admitted. -/
theorem mem_names_submitAll_iff_kept :
    name ∈ (submitAll label fingerprint registry items).registry.names ↔
      name ∈ registry.names ∨
        ∃ item ∈ (submitAll label fingerprint registry items).items, label item = name := by
  induction items generalizing registry with
  | nil => simp [submitAll]
  | cons item rest ih =>
    rw [submitAll]
    change name ∈ (submitAll label fingerprint (registry.submit _ _).2 rest).registry.names ↔
      _ ∨ ∃ other ∈ if (registry.submit _ _).1 then _ else _, _
    rw [ih, mem_names_submit_iff, or_assoc, fst_submit]
    split_ifs with h
    · rw [List.exists_mem_cons_iff]
    · -- A name that is refused is there already.
      rw [Bool.not_eq_true, shouldGenerate_eq_false_iff] at h
      refine or_congr_right' fun hnot => or_iff_right ?_
      rintro rfl
      exact hnot h.2

theorem items_submitAll_cons (item : β) (rest : List β) :
    (submitAll label fingerprint registry (item :: rest)).items =
      if registry.shouldGenerate (label item) then
        item :: (submitAll label fingerprint
          (registry.submit (label item) (fingerprint item)).2 rest).items
      else (submitAll label fingerprint
        (registry.submit (label item) (fingerprint item)).2 rest).items := by
  rw [← @fst_submit _ registry (label item) (fingerprint item)]
  rfl

/-- A registry in which later things take the place of earlier ones admits everything. -/
theorem items_submitAll_of_overwrite (h : registry.mode = .overwrite) :
    (submitAll label fingerprint registry items).items = items := by
  induction items generalizing registry with
  | nil => rfl
  | cons item rest ih =>
    rw [items_submitAll_cons, if_pos (shouldGenerate_of_overwrite h), ih (mode_submit.trans h)]

/-- A registry in which the first thing of a name stays admits the first item of each name that is
not recorded yet. -/
theorem items_submitAll_of_once (h : registry.mode = .once) :
    (submitAll label fingerprint registry items).items =
      (firsts label items).filter fun item => label item ∉ registry.names := by
  induction items generalizing registry with
  | nil => rfl
  | cons item rest ih =>
    -- Of the rest, those of the name of `item` are refused too, be `item` admitted or not.
    have hrest : (submitAll label fingerprint
          (registry.submit (label item) (fingerprint item)).2 rest).items =
        ((firsts label rest).filter fun other => label other ≠ label item).filter
          fun other => label other ∉ registry.names := by
      rw [ih (mode_submit.trans h), List.filter_filter]
      refine List.filter_congr fun other _ => ?_
      rw [← Bool.decide_and]
      simp only [mem_names_submit_iff, not_or, ne_eq, eq_comm]
    rw [items_submitAll_cons, firsts_cons, hrest, List.filter_cons, shouldGenerate_of_once h]

/-- Items of distinct names are admitted unless the registry refuses them at the beginning. -/
theorem items_submitAll_of_nodup (hd : (items.map label).Nodup) :
    (submitAll label fingerprint registry items).items =
      items.filter fun item => registry.shouldGenerate (label item) := by
  cases h : registry.mode with
  | overwrite =>
    rw [items_submitAll_of_overwrite h, List.filter_eq_self.mpr]
    exact fun item _ => shouldGenerate_of_overwrite h
  | once =>
    rw [items_submitAll_of_once h, firsts_of_nodup hd]
    exact List.filter_congr fun item _ => (shouldGenerate_of_once h).symm

end FunctionForge.Registry
