import FunctionForge.KnownTypes
import FunctionForge.Proofs.Fields
import FunctionForge.Proofs.Text.Cut
import Mathlib.Data.List.Perm.Subperm

/-!
# Where redirects lead

`LeadsTo` says to which components a component leads that is nothing but a reference, and
`followRedirects` finds the last of them (`followRedirects_of_leadsTo`): a chain that ends does not
come to a schema twice, so it is no longer than the table of redirects.  The table has the redirects
of the components (`redirects_scan`) and the bodies of the bare primitives that are admitted
(`isAlias_scan`).
-/

namespace FunctionForge

open Document (Schema SchemaOrRef)
open Naming (ClassNaming refName)

/-! ### Chains of references -/

/-- Going along references from component to component leads from one to another. -/
inductive LeadsTo (schemas : Fields SchemaOrRef) : String → String → Prop
  | here (key : String) : LeadsTo schemas key key
  | step {key path last : String} (h : schemas.get? key = some (.ref path))
      (rest : LeadsTo schemas (refName path) last) : LeadsTo schemas key last

theorem not_mem_refName (path : String) : '/' ∉ (refName path).toList := by
  rw [refName, String.toList_ofList]
  exact Text.not_mem_afterLast '/' path.toList

/-- A chain of references ends at its start, or at a name without slashes. -/
theorem LeadsTo.eq_or_not_mem {schemas : Fields SchemaOrRef} {key last : String}
    (h : LeadsTo schemas key last) : last = key ∨ '/' ∉ last.toList := by
  induction h with
  | here key => exact Or.inl rfl
  | @step key path last _ _ ih =>
    rcases ih with rfl | hs
    · exact Or.inr (not_mem_refName path)
    · exact Or.inr hs

/-- A reference to itself leads nowhere else. -/
theorem LeadsTo.eq_of_self {schemas : Fields SchemaOrRef} {key path last : String}
    (hk : schemas.get? key = some (.ref path)) (hself : refName path = key)
    (h : LeadsTo schemas key last) : last = key := by
  induction h with
  | here => rfl
  | step hk' _ ih =>
    obtain rfl := SchemaOrRef.ref.inj (Option.some.inj (hk.symm.trans hk'))
    exact (ih (hself.symm ▸ hk) rfl).trans hself

namespace KnownTypes

/-- A chain of so many redirects that ends. -/
inductive Chain (redirects : Fields String) (last : String) : Nat → String → Prop
  | here (h : redirects.get? last = none) : Chain redirects last 0 last
  | step {n : Nat} {name next : String} (h : redirects.get? name = some next)
      (rest : Chain redirects last n next) : Chain redirects last (n + 1) name

variable {redirects : Fields String} {name last : String}

/-- From one name, there is one way to the end. -/
theorem Chain.length_unique {n m : Nat} (h : Chain redirects last n name)
    (h' : Chain redirects last m name) : n = m := by
  induction h generalizing m with
  | here hl =>
    cases h' with
    | here _ => rfl
    | step hn _ => exact absurd (hl.symm.trans hn) nofun
  | step hn _ ih =>
    cases h' with
    | here hl => exact absurd (hn.symm.trans hl) nofun
    | step hn' rest' =>
      obtain rfl := Option.some.inj (hn.symm.trans hn')
      rw [ih rest']

/-- A chain that ends comes to as many different names as it is long. -/
theorem Chain.exists_names {n : Nat} (h : Chain redirects last n name) :
    ∃ names : List String, names.length = n ∧ names.Nodup ∧ names ⊆ redirects.keys ∧
      ∀ other ∈ names, ∃ m, m ≤ n ∧ Chain redirects last m other := by
  induction h with
  | here _ =>
    exact ⟨[], rfl, List.nodup_nil, List.nil_subset _, fun _ hm => absurd hm List.not_mem_nil⟩
  | @step n name next hn rest ih =>
    obtain ⟨names, hlen, hnodup, hkeys, hall⟩ := ih
    refine ⟨name :: names, by rw [List.length_cons, hlen], ?_, ?_, ?_⟩
    -- A name that came up again would start two chains of different lengths.
    · refine List.nodup_cons.mpr ⟨fun hm => ?_, hnodup⟩
      obtain ⟨m, hle, hm⟩ := hall name hm
      have := (Chain.step hn rest).length_unique hm
      omega
    · exact List.cons_subset.mpr ⟨Fields.mem_keys_of_mem (Fields.mem_of_get? hn), hkeys⟩
    · intro other hm
      rcases List.mem_cons.mp hm with rfl | hm
      · exact ⟨n + 1, le_rfl, .step hn rest⟩
      · obtain ⟨m, hle, hc⟩ := hall other hm
        exact ⟨m, by omega, hc⟩

/-- A chain does not come to a name twice, so it is no longer than the table. -/
theorem Chain.le_length {n : Nat} (h : Chain redirects last n name) : n ≤ redirects.length := by
  obtain ⟨names, hlen, hnodup, hkeys, -⟩ := h.exists_names
  have hle := (hnodup.subperm hkeys).length_le
  rwa [hlen, Fields.keys, List.length_map] at hle

/-- The loop goes to the end of a chain if nothing on it has been seen before. -/
theorem followFrom_of_chain {n fuel : Nat} {seen : List String} (h : Chain redirects last n name)
    (hfuel : n < fuel) (hseen : ∀ other ∈ seen, ∀ m, Chain redirects last m other → n < m) :
    followFrom redirects fuel seen name = last := by
  induction h generalizing fuel seen with
  | here hl =>
    obtain ⟨fuel, rfl⟩ : ∃ k, fuel = k + 1 := ⟨fuel - 1, by omega⟩
    rw [followFrom, hl]
  | @step n name next hn rest ih =>
    obtain ⟨fuel, rfl⟩ : ∃ k, fuel = k + 1 := ⟨fuel - 1, by omega⟩
    -- What has been seen starts longer chains, so this name has not been seen.
    have hnot : ¬seen.contains name = true := by
      rw [List.contains_iff_mem]
      exact fun hm => absurd (hseen name hm _ (.step hn rest)) (lt_irrefl _)
    rw [followFrom, hn]
    simp only [if_neg hnot]
    refine ih (by omega) fun other hm m hc => ?_
    rcases List.mem_cons.mp hm with rfl | hm
    · have := (Chain.step hn rest).length_unique hc
      omega
    · have := hseen other hm m hc
      omega

/-! ### The table -/

section

variable {schemas : Fields SchemaOrRef} {naming : ClassNaming} {admits : String → Bool}

/-- What the table says of the redirect of a component. -/
def redirect? (entry : Option SchemaOrRef) : Option String :=
  match entry with
  | some (.ref path) => some (refName path)
  | _ => none

theorem redirect?_ref (path : String) : redirect? (some (.ref path)) = some (refName path) := rfl

theorem redirect?_inline (schema : Schema) : redirect? (some (.inline schema)) = none := rfl

theorem naming_add (known : KnownTypes) (entry : String × SchemaOrRef) :
    (add admits known entry).naming = known.naming := by
  unfold add
  split
  · rfl
  · split_ifs
    · rfl
    · rfl

theorem naming_foldl_add (known : KnownTypes) :
    (List.foldl (add admits) known schemas).naming = known.naming := by
  induction schemas generalizing known with
  | nil => rfl
  | cons entry rest ih => rw [List.foldl_cons, ih, naming_add]

@[simp]
theorem naming_scan : (scan schemas naming admits).naming = naming :=
  naming_foldl_add _

/-- A reference adds its redirect, and a schema in place adds none. -/
theorem redirects_add (known : KnownTypes) (entry : String × SchemaOrRef) (key : String) :
    (add admits known entry).redirects.get? key =
      if key = entry.1 then (redirect? (some entry.2)).or (known.redirects.get? key)
      else known.redirects.get? key := by
  obtain ⟨name, schema⟩ := entry
  cases schema with
  | ref path =>
    change (known.redirects.insert name (refName path)).get? key = _
    rw [Fields.get?_insert]
    rfl
  | inline schema =>
    have hr : (add admits known (name, .inline schema)).redirects = known.redirects := by
      simp only [add]
      split_ifs
      · rfl
      · rfl
    rw [hr, redirect?_inline, Option.none_or, ite_self]

/-- If the keys differ, the table says of each component where it redirects to. -/
theorem redirects_foldl_add (hd : schemas.keys.Nodup) (known : KnownTypes) (key : String) :
    (List.foldl (add admits) known schemas).redirects.get? key =
      (redirect? (schemas.get? key)).or (known.redirects.get? key) := by
  induction schemas generalizing known with
  | nil => rfl
  | cons entry rest ih =>
    obtain ⟨name, schema⟩ := entry
    rw [Fields.keys_cons, List.nodup_cons] at hd
    -- The names are distinct, so no later component takes the place of this redirect.
    rw [List.foldl_cons, ih hd.2, redirects_add, Fields.get?_cons]
    split_ifs with hk
    · rw [hk, Fields.get?_eq_none_iff.mpr hd.1]
      rfl
    · rfl

/-- The redirects of the table are those of the components. -/
theorem redirects_scan (hd : schemas.keys.Nodup) (key : String) :
    (scan schemas naming admits).redirects.get? key = redirect? (schemas.get? key) := by
  rw [scan, redirects_foldl_add hd, Fields.get?_nil, Option.or_none]

theorem exists_chain_of_leadsTo (naming : ClassNaming) (admits : String → Bool)
    (hd : schemas.keys.Nodup) {start last : String} (h : LeadsTo schemas start last)
    (hl : redirect? (schemas.get? last) = none) :
    ∃ n, Chain (scan schemas naming admits).redirects last n start := by
  induction h with
  | here key => exact ⟨0, .here (by rw [redirects_scan hd, hl])⟩
  | step hk _ ih =>
    obtain ⟨n, hc⟩ := ih hl
    exact ⟨n + 1, .step (by rw [redirects_scan hd, hk, redirect?_ref]) hc⟩

/-- The table follows references to a component that is given in place. -/
theorem followRedirects_of_leadsTo (hd : schemas.keys.Nodup) {start last : String}
    (h : LeadsTo schemas start last) {schema : Schema}
    (hl : schemas.get? last = some (.inline schema)) :
    (scan schemas naming admits).followRedirects start = last := by
  obtain ⟨n, hc⟩ := exists_chain_of_leadsTo naming admits hd h (by rw [hl, redirect?_inline])
  exact followFrom_of_chain hc (Nat.lt_succ_of_le hc.le_length)
    fun _ hm => absurd hm List.not_mem_nil

/-! ### Aliases -/

/-- An alias stays one. -/
theorem isAlias_add_of_isAlias {known : KnownTypes} {name : String} (h : known.isAlias name = true)
    (entry : String × SchemaOrRef) : (add admits known entry).isAlias name = true := by
  unfold add
  split
  · exact h
  · split_ifs
    · rw [isAlias, Fields.has_iff_mem_keys] at h ⊢
      exact Fields.mem_keys_insert.mpr (Or.inr h)
    · exact h

theorem isAlias_foldl_add {known : KnownTypes} {name : String} (h : known.isAlias name = true) :
    (List.foldl (add admits) known schemas).isAlias name = true := by
  induction schemas generalizing known with
  | nil => exact h
  | cons entry rest ih => exact ih (isAlias_add_of_isAlias h entry)

/-- A bare primitive that is admitted is an alias. -/
theorem isAlias_scan {key : String} {schema : Schema} (h : (key, .inline schema) ∈ schemas)
    (ha : admits key = true) (hp : schema.isPrimitive = true) :
    (scan schemas naming admits).isAlias (naming.className key) = true := by
  obtain ⟨before, after, rfl⟩ := List.append_of_mem h
  rw [scan, List.foldl_append, List.foldl_cons]
  refine isAlias_foldl_add ?_
  have hc : (admits key && schema.isPrimitive) = true := by rw [ha, hp, Bool.and_self]
  rw [add]
  simp only [hc, if_true]
  rw [isAlias, Fields.has_iff_mem_keys, naming_foldl_add]
  exact Fields.mem_keys_insert.mpr (Or.inl rfl)

end

end KnownTypes

end FunctionForge
