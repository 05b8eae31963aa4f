import FunctionForge.Fields
import Mathlib.Data.List.Forall2

/-!
# Steps that may fail

What can be said of a computation that may fail if it does not: a step that is bound comes to a
result that the rest is applied to (`bind_eq_ok`), every result of a list comes from one of its
items (`exists_mem_of_mapM`) and stands in its place (`mapM_eq_ok_iff`), and what one step of a
loop preserves holds at its end (`foldlM_invariant`).  A loop commutes with a change of its state if
every step does (`foldlM_map`).  If a computation fails, then for a cause for which one of its steps
can (`FailsOnly`).
-/

namespace FunctionForge

variable {ε α β : Type}

/-- Two steps succeed if the first one does and the second one does with its result. -/
theorem bind_eq_ok {x : Except ε α} {k : α → Except ε β} {b : β} :
    (x >>= k) = .ok b ↔ ∃ a, x = .ok a ∧ k a = .ok b := by
  cases x with
  | error cause => simp [bind, Except.bind]
  | ok a => simp [bind, Except.bind]

/-- Two steps fail if the first one does, or the second one with the result of the first. -/
theorem bind_eq_error {x : Except ε α} {k : α → Except ε β} {cause : ε} :
    (x >>= k) = .error cause ↔ x = .error cause ∨ ∃ a, x = .ok a ∧ k a = .error cause := by
  cases x with
  | error other => simp [bind, Except.bind]
  | ok a => simp [bind, Except.bind]

theorem map_eq_ok {x : Except ε α} {f : α → β} {b : β} :
    x.map f = .ok b ↔ ∃ a, x = .ok a ∧ f a = b := by
  cases x with
  | error cause => simp [Except.map]
  | ok a => simp [Except.map]

theorem map_eq_error {x : Except ε α} {f : α → β} {cause : ε} :
    x.map f = .error cause ↔ x = .error cause := by
  cases x with
  | error other => simp [Except.map]
  | ok a => simp [Except.map]

theorem eq_ok_of_toOption {x : Except ε α} {a : α} (h : x.toOption = some a) : x = .ok a := by
  cases x with
  | error cause => exact absurd h nofun
  | ok b => rw [Option.some.inj h]

/-! ### Causes of failure -/

/-- If a step fails, then for a cause of which something holds. -/
def FailsOnly (P : ε → Prop) (step : Except ε α) : Prop :=
  ∀ cause, step = .error cause → P cause

namespace FailsOnly

variable {P : ε → Prop}

theorem ok (a : α) : FailsOnly P (.ok a : Except ε α) := nofun

theorem error {cause : ε} (h : P cause) : FailsOnly P (.error cause : Except ε α) := by
  intro other ho
  rwa [← Except.error.inj ho]

theorem map {step : Except ε α} (h : FailsOnly P step) (f : α → β) : FailsOnly P (step.map f) := by
  cases step with
  | error cause => exact error (h cause rfl)
  | ok a => exact ok (f a)

/-- Two steps fail only for the causes of either. -/
theorem bind {step : Except ε α} {next : α → Except ε β} (h : FailsOnly P step)
    (hnext : ∀ a, FailsOnly P (next a)) : FailsOnly P (step >>= next) := by
  cases step with
  | error cause => exact error (h cause rfl)
  | ok a => exact hnext a

theorem foldlM {step : β → α → Except ε β} (h : ∀ b a, FailsOnly P (step b a))
    (items : List α) (init : β) : FailsOnly P (items.foldlM step init) := by
  induction items generalizing init with
  | nil => exact ok init
  | cons item rest ih =>
    rw [List.foldlM_cons]
    exact (h init item).bind ih

end FailsOnly

/-! ### Lists of results -/

/-- What a result without a value says is wrong. -/
def error? : Except ε α → Option ε
  | .ok _ => none
  | .error cause => some cause

/-- Every result of a list is a value or an error. -/
theorem length_toOption_add_length_error? (results : List (Except ε α)) :
    (results.filterMap Except.toOption).length + (results.filterMap error?).length =
      results.length := by
  induction results with
  | nil => rfl
  | cons result rest ih =>
    cases result with
    | ok a =>
      simp only [List.filterMap_cons, Except.toOption, error?, List.length_cons]
      omega
    | error cause =>
      simp only [List.filterMap_cons, Except.toOption, error?, List.length_cons]
      omega

/-- What stands in a list that is related to another one is related to an item of that. -/
theorem exists_mem_of_forall₂ {R : α → β → Prop} {items : List α} {out : List β}
    (h : List.Forall₂ R items out) {b : β} (hb : b ∈ out) : ∃ a ∈ items, R a b := by
  induction h with
  | nil => exact absurd hb List.not_mem_nil
  | @cons item first rest more hfirst _ ih =>
    rcases List.mem_cons.mp hb with rfl | hb
    · exact ⟨item, List.mem_cons_self, hfirst⟩
    · obtain ⟨a, ha, hab⟩ := ih hb
      exact ⟨a, List.mem_cons_of_mem _ ha, hab⟩

/-- A list has results exactly if each of its items has one. -/
theorem exists_forall₂_iff {R : α → β → Prop} {items : List α} :
    (∃ out, List.Forall₂ R items out) ↔ ∀ a ∈ items, ∃ b, R a b := by
  induction items with
  | nil => exact iff_of_true ⟨[], .nil⟩ (List.forall_mem_nil _)
  | cons item rest ih =>
    rw [List.forall_mem_cons, ← ih]
    constructor
    · rintro ⟨out, h⟩
      obtain ⟨b, more, hb, hmore, -⟩ := List.forall₂_cons_left_iff.mp h
      exact ⟨⟨b, hb⟩, ⟨more, hmore⟩⟩
    · rintro ⟨⟨b, hb⟩, ⟨out, hout⟩⟩
      exact ⟨b :: out, .cons hb hout⟩

theorem eq_singleton_of_forall₂ {R : α → β → Prop} {item : α} {out : List β}
    (h : List.Forall₂ R [item] out) : ∃ b, R item b ∧ out = [b] := by
  obtain ⟨b, rest, hb, hrest, rfl⟩ := List.forall₂_cons_left_iff.mp h
  exact ⟨b, hb, by rw [List.forall₂_nil_left_iff.mp hrest]⟩

/-- The results of a list are those of its items, one by one. -/
theorem mapM_eq_ok_iff {f : α → Except ε β} {items : List α} {out : List β} :
    items.mapM f = .ok out ↔ List.Forall₂ (fun a b => f a = .ok b) items out := by
  induction items generalizing out with
  | nil =>
    rw [List.mapM_nil, List.forall₂_nil_left_iff]
    exact ⟨fun h => (Except.ok.inj h).symm, fun h => congrArg _ h.symm⟩
  | cons item rest ih =>
    rw [List.mapM_cons, List.forall₂_cons_left_iff]
    simp only [bind_eq_ok, ih]
    constructor
    · rintro ⟨first, hf, more, hm, heq⟩
      exact ⟨first, more, hf, hm, (Except.ok.inj heq).symm⟩
    · rintro ⟨first, more, hf, hm, rfl⟩
      exact ⟨first, hf, more, hm, rfl⟩

/-- The results of fields are those of their values, under the same names. -/
theorem mapValuesM_eq_ok_iff {f : α → Except ε β} {fields : Fields α} {out : Fields β} :
    fields.mapValuesM f = .ok out ↔
      List.Forall₂ (fun a b => b.1 = a.1 ∧ f a.2 = .ok b.2) fields out := by
  induction fields generalizing out with
  | nil =>
    rw [List.forall₂_nil_left_iff]
    exact ⟨fun h => (Except.ok.inj h).symm, fun h => congrArg _ h.symm⟩
  | cons field rest ih =>
    obtain ⟨name, value⟩ := field
    rw [Fields.mapValuesM, List.forall₂_cons_left_iff]
    simp only [bind_eq_ok, ih]
    constructor
    · rintro ⟨first, hf, more, hm, heq⟩
      exact ⟨(name, first), more, ⟨rfl, hf⟩, hm, (Except.ok.inj heq).symm⟩
    · rintro ⟨⟨other, first⟩, more, ⟨hname, hf⟩, hm, rfl⟩
      obtain rfl : other = name := hname
      exact ⟨first, hf, more, hm, rfl⟩

/-- A list whose items all stay as they are stays as it is. -/
theorem mapM_eq_self {f : α → Except ε α} {items : List α} (h : ∀ a ∈ items, f a = .ok a) :
    items.mapM f = .ok items :=
  mapM_eq_ok_iff.mpr (List.forall₂_same.mpr h)

theorem mapValuesM_eq_self {f : α → Except ε α} {fields : Fields α}
    (h : ∀ field ∈ fields, f field.2 = .ok field.2) : fields.mapValuesM f = .ok fields :=
  mapValuesM_eq_ok_iff.mpr (List.forall₂_same.mpr fun field hm => ⟨rfl, h field hm⟩)

theorem exists_mem_of_mapM {f : α → Except ε β} {items : List α} {out : List β}
    (h : items.mapM f = .ok out) {b : β} (hb : b ∈ out) : ∃ a ∈ items, f a = .ok b :=
  exists_mem_of_forall₂ (mapM_eq_ok_iff.mp h) hb

theorem exists_mem_of_mapValuesM {f : α → Except ε β} {fields : Fields α} {out : Fields β}
    (h : fields.mapValuesM f = .ok out) {b : β} (hb : b ∈ out.values) :
    ∃ a ∈ fields.values, f a = .ok b := by
  obtain ⟨entry', hm, rfl⟩ := List.mem_map.mp hb
  obtain ⟨entry, he, -, hf⟩ := exists_mem_of_forall₂ (mapValuesM_eq_ok_iff.mp h) hm
  exact ⟨entry.2, List.mem_map_of_mem he, hf⟩

/-- What holds at the start of a loop and is preserved by its steps holds at its end. -/
theorem foldlM_invariant {P : β → Prop} {f : β → α → Except ε β} {items : List α} {init out : β}
    (h : items.foldlM f init = .ok out) (hinit : P init)
    (hstep : ∀ b, ∀ a ∈ items, ∀ b', P b → f b a = .ok b' → P b') : P out := by
  induction items generalizing init with
  | nil =>
    obtain rfl := Except.ok.inj h
    exact hinit
  | cons item rest ih =>
    rw [List.foldlM_cons] at h
    obtain ⟨next, hn, h⟩ := bind_eq_ok.mp h
    exact ih h (hstep init item List.mem_cons_self next hinit hn) fun b a ha =>
      hstep b a (List.mem_cons_of_mem _ ha)

/-- A change of the state of a loop with which every step commutes commutes with the loop. -/
theorem foldlM_map {γ : Type} {f : β → α → Except ε β} {g : γ → α → Except ε γ} {r : β → γ}
    (h : ∀ b a, g (r b) a = (f b a).map r) (items : List α) (init : β) :
    items.foldlM g (r init) = (items.foldlM f init).map r := by
  induction items generalizing init with
  | nil => rfl
  | cons item rest ih =>
    rw [List.foldlM_cons, List.foldlM_cons, h]
    cases f init item with
    | error cause => rfl
    | ok next => exact ih next

end FunctionForge
