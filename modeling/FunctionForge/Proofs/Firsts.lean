import Mathlib.Data.List.Nodup

/-!
# First items

Of the items of a list that have one key, `firsts` keeps the first.  An item is kept exactly if no
item of its key stands before it (`mem_firsts_iff`).  So every key of the list keeps one item
(`mem_map_firsts_iff`), and no key keeps two (`nodup_map_firsts`).  What a list adds to the first
items of another are its own first items, as far as their keys are new (`firsts_append`).
-/

namespace FunctionForge

variable {α : Type} {key : α → String}

/-- The first item of each key. -/
def firsts (key : α → String) (items : List α) : List α :=
  items.eraseDupsBy fun a b => key a == key b

/-- Leaving out some keys before or after makes no difference. -/
theorem firsts_filter (p : String → Bool) (items : List α) :
    firsts key (items.filter fun item => p (key item)) =
      (firsts key items).filter fun item => p (key item) := by
  -- What follows an item loses those of its key, so it is the length that gets less.
  induction h : items.length using Nat.strongRecOn generalizing items p with
  | ind n ih =>
    cases items with
    | nil => rfl
    | cons item rest =>
      unfold firsts at ih ⊢
      have hshort (q : α → Bool) : (rest.filter q).length < n := by
        have hle := List.length_filter_le q rest
        rw [List.length_cons] at h
        omega
      rw [List.eraseDupsBy_cons, List.filter_cons, List.filter_cons,
        ← ih _ (hshort _) p _ rfl, List.filter_filter]
      by_cases hp : p (key item) = true
      · rw [if_pos hp, if_pos hp, List.eraseDupsBy_cons, List.filter_filter]
        simp only [Bool.and_comm]
      · rw [if_neg hp, if_neg hp]
        -- Only items of other keys are left over anyway.
        have hsame : (rest.filter fun other => p (key other)) =
            rest.filter fun other => p (key other) && decide ((key other == key item) = false) := by
          refine List.filter_congr fun other _ => ?_
          by_cases hk : key other = key item
          · simp [hk, hp]
          · simp [hk]
        rw [hsame]

@[simp]
theorem firsts_nil : firsts key [] = [] := rfl

theorem firsts_cons (item : α) (rest : List α) :
    firsts key (item :: rest) =
      item :: (firsts key rest).filter fun other => key other ≠ key item := by
  rw [← firsts_filter (fun name => decide (name ≠ key item))]
  unfold firsts
  rw [List.eraseDupsBy_cons]
  simp only [beq_eq_false_iff_ne]

/-- An item is kept if no item of its key stands before it. -/
theorem mem_firsts_iff {items : List α} {item : α} : item ∈ firsts key items ↔
    ∃ before after, items = before ++ item :: after ∧ ∀ other ∈ before, key other ≠ key item := by
  induction items with
  | nil => simp
  | cons first rest ih =>
    rw [firsts_cons, List.mem_cons, List.mem_filter, ih]
    constructor
    · rintro (rfl | ⟨⟨before, after, rfl, hnone⟩, hne⟩)
      · exact ⟨[], rest, rfl, by simp⟩
      · refine ⟨first :: before, after, rfl, List.forall_mem_cons.mpr ⟨?_, hnone⟩⟩
        exact fun heq => absurd heq.symm (by simpa using hne)
    · rintro ⟨before, after, heq, hnone⟩
      cases before with
      | nil =>
        obtain ⟨rfl, rfl⟩ := List.cons.inj heq
        exact Or.inl rfl
      | cons other before =>
        obtain ⟨rfl, rfl⟩ := List.cons.inj heq
        obtain ⟨hfirst, hnone⟩ := List.forall_mem_cons.mp hnone
        exact Or.inr ⟨⟨before, after, rfl, hnone⟩, by simpa using fun heq => hfirst heq.symm⟩

theorem mem_of_mem_firsts {items : List α} {item : α} (h : item ∈ firsts key items) :
    item ∈ items := by
  obtain ⟨before, after, rfl, -⟩ := mem_firsts_iff.mp h
  exact List.mem_append_right before List.mem_cons_self

/-- Every key of a list has a first item. -/
theorem mem_map_firsts_iff {items : List α} {name : String} :
    name ∈ (firsts key items).map key ↔ name ∈ items.map key := by
  induction items with
  | nil => rfl
  | cons first rest ih =>
    rw [firsts_cons, List.map_cons, List.map_cons, List.mem_cons, List.mem_cons, ← ih]
    -- An item that is left out has the key of the first one.
    refine or_congr_right' fun hne => ?_
    simp only [List.mem_map, List.mem_filter]
    constructor
    · rintro ⟨item, ⟨hm, -⟩, rfl⟩
      exact ⟨item, hm, rfl⟩
    · rintro ⟨item, hm, rfl⟩
      exact ⟨item, ⟨hm, by simpa using hne⟩, rfl⟩

/-- No key has two first items. -/
theorem nodup_map_firsts (items : List α) : ((firsts key items).map key).Nodup := by
  induction items with
  | nil => exact List.nodup_nil
  | cons first rest ih =>
    rw [firsts_cons, List.map_cons, List.nodup_cons]
    constructor
    · simp
    · exact ih.sublist (List.filter_sublist.map key)

theorem firsts_append (before after : List α) :
    firsts key (before ++ after) =
      firsts key before ++ (firsts key after).filter fun item => key item ∉ before.map key := by
  induction before with
  | nil => simp
  | cons first before ih =>
    rw [List.cons_append, firsts_cons, ih, firsts_cons, List.filter_append, List.filter_filter,
      List.cons_append]
    congr 2
    refine List.filter_congr fun item _ => ?_
    rw [← Bool.decide_and]
    simp only [List.map_cons, List.mem_cons, not_or, ne_eq]

/-- The first images are the images of the first items. -/
theorem firsts_map {β : Type} (f : β → α) (items : List β) :
    firsts key (items.map f) = (firsts (fun item => key (f item)) items).map f := by
  induction items with
  | nil => rfl
  | cons first rest ih =>
    rw [List.map_cons, firsts_cons, firsts_cons, List.map_cons, ih, List.filter_map]
    rfl

/-- The first items have every key once, where it first comes. -/
theorem map_firsts (items : List α) : (firsts key items).map key = (items.map key).eraseDups := by
  have hkeys : firsts id (items.map key) = (firsts key items).map key := firsts_map key items
  exact hkeys.symm

/-- The items of a list of distinct keys are all kept. -/
theorem firsts_of_nodup {items : List α} (h : (items.map key).Nodup) :
    firsts key items = items := by
  induction items with
  | nil => rfl
  | cons first rest ih =>
    rw [List.map_cons, List.nodup_cons] at h
    rw [firsts_cons, ih h.2, List.filter_eq_self.mpr]
    intro other hm
    have hne : key other ≠ key first := fun heq => h.1 (heq ▸ List.mem_map_of_mem hm)
    simpa using hne

end FunctionForge
