import FunctionForge.Proofs.Redirects

/-!
# Redirects that go round in a cycle

Redirects lead from every schema either to one that is no redirect or round in a cycle.  Following
them comes to rest at the end or at the first schema on a cycle (`RestsAt`), and there is only one
such schema (`RestsAt.unique`).  The names that have been seen on the way are distinct and in the
table (`Trail`), so that the loop stops within as many rounds as there are redirects
(`exists_trail_followFrom`), and where it stops is where the redirects come to rest
(`restsAt_followFrom`).
-/

namespace FunctionForge

namespace KnownTypes

open Document (SchemaOrRef)
open Naming (ClassNaming refName)

variable {redirects : Fields String} {start name next last : String}

/-! ### Where redirects lead -/

/-- Where so many redirects lead from a schema; nowhere if there are not as many. -/
def after (redirects : Fields String) : Nat → String → Option String
  | 0, name => some name
  | n + 1, name => (redirects.get? name).bind (after redirects n)

/-- Redirects lead from a schema back to it. -/
def OnCycle (redirects : Fields String) (name : String) : Prop :=
  ∃ n, 0 < n ∧ after redirects n name = some name

/-- Redirects from `start` first come to `last` of all schemas that do not redirect further or are
on a cycle. -/
def RestsAt (redirects : Fields String) (start last : String) : Prop :=
  ∃ n, after redirects n start = some last ∧
    (redirects.get? last = none ∨ OnCycle redirects last) ∧
      ∀ m < n, ∀ name, after redirects m start = some name → ¬OnCycle redirects name

/-- A number of steps may be taken in two parts. -/
theorem after_add (m n : Nat) (name : String) :
    after redirects (m + n) name = (after redirects m name).bind (after redirects n) := by
  induction m generalizing name with
  | zero => rw [Nat.zero_add]; rfl
  | succ m ih =>
    rw [Nat.succ_add, after, after, Option.bind_assoc]
    exact congrArg _ (funext ih)

theorem after_add_of_eq {m : Nat} (h : after redirects m start = some name) (n : Nat) :
    after redirects (m + n) start = after redirects n name := by
  rw [after_add, h, Option.bind_some]

theorem after_sub_of_le {m n : Nat} (hle : m ≤ n) (h : after redirects m start = some name) :
    after redirects (n - m) name = after redirects n start := by
  rw [← after_add_of_eq h, Nat.add_sub_cancel' hle]

theorem after_one (name : String) : after redirects 1 name = redirects.get? name := by
  rw [after]
  exact Option.bind_fun_some _

theorem after_eq_none_of_get?_eq_none (h : redirects.get? name = none) {n : Nat} (hpos : 0 < n) :
    after redirects n name = none := by
  obtain ⟨n, rfl⟩ := Nat.exists_eq_add_one.mpr hpos
  rw [after, h, Option.bind_none]

/-! ### Cycles -/

/-- A way round a cycle may be gone any number of times. -/
theorem after_mul_of_eq_self {n : Nat} (h : after redirects n name = some name) (k : Nat) :
    after redirects (k * n) name = some name := by
  induction k with
  | zero => rw [Nat.zero_mul]; rfl
  | succ k ih => rw [Nat.succ_mul, after_add_of_eq ih, h]

/-- What a cycle leads to is on the same cycle. -/
theorem after_eq_self_of_after {n m : Nat} (h : after redirects n name = some name)
    (hm : after redirects m name = some next) : after redirects n next = some next := by
  rw [← after_add_of_eq hm, Nat.add_comm, after_add_of_eq h, hm]

/-- From what a cycle leads to, it leads back. -/
theorem exists_after_of_onCycle (h : OnCycle redirects name) {m : Nat}
    (hm : after redirects m name = some next) : ∃ n, after redirects n next = some name := by
  obtain ⟨n, hpos, hn⟩ := h
  -- Going round often enough passes `next`.
  have hle : m ≤ m * n := Nat.le_mul_of_pos_right m hpos
  exact ⟨m * n - m, (after_sub_of_le hle hm).trans (after_mul_of_eq_self hn m)⟩

theorem OnCycle.get?_ne_none (h : OnCycle redirects name) : redirects.get? name ≠ none := by
  obtain ⟨n, hpos, hn⟩ := h
  intro hnone
  rw [after_eq_none_of_get?_eq_none hnone hpos] at hn
  exact absurd hn nofun

/-- A schema on a cycle is the target of a redirect. -/
theorem OnCycle.exists_get? (h : OnCycle redirects name) :
    ∃ other, redirects.get? other = some name := by
  obtain ⟨n, hpos, hn⟩ := h
  obtain ⟨n, rfl⟩ := Nat.exists_eq_add_one.mpr hpos
  rw [after_add] at hn
  obtain ⟨other, -, hother⟩ := Option.bind_eq_some_iff.mp hn
  exact ⟨other, (after_one other).symm.trans hother⟩

/-! ### Coming to rest -/

/-- Redirects come to rest at one name only. -/
theorem RestsAt.unique {other : String} (h : RestsAt redirects start last)
    (ho : RestsAt redirects start other) : last = other := by
  obtain ⟨n, hn, hrest, hfirst⟩ := h
  obtain ⟨m, hm, horest, hofirst⟩ := ho
  -- Where the redirects come to rest earlier, they end or there would be a cycle before the later.
  have hearly {i j : Nat} {one two : String} (hi : after redirects i start = some one)
      (hj : after redirects j start = some two)
      (hone : redirects.get? one = none ∨ OnCycle redirects one)
      (hbefore : ∀ k < j, ∀ name, after redirects k start = some name → ¬OnCycle redirects name) :
      ¬i < j := by
    intro hlt
    rcases hone with hnone | hcycle
    · rw [← after_sub_of_le hlt.le hi, after_eq_none_of_get?_eq_none hnone (by omega)] at hj
      exact absurd hj nofun
    · exact hbefore i hlt one hi hcycle
  obtain rfl : n = m := by
    have := hearly hn hm hrest hofirst
    have := hearly hm hn horest hfirst
    omega
  exact Option.some.inj (hn.symm.trans hm)

/-- What does not redirect further, or is on a cycle, is at rest. -/
theorem restsAt_self (h : redirects.get? last = none ∨ OnCycle redirects last) :
    RestsAt redirects last last :=
  ⟨0, rfl, h, fun _ hm => absurd hm (Nat.not_lt_zero _)⟩

/-- What has come to rest stays where it is. -/
theorem RestsAt.restsAt_last (h : RestsAt redirects start last) : RestsAt redirects last last := by
  obtain ⟨_, _, hrest, _⟩ := h
  exact restsAt_self hrest

/-- A redirect that is on no cycle comes to rest where its target does. -/
theorem RestsAt.of_get? (h : RestsAt redirects next last) (hget : redirects.get? name = some next)
    (hcycle : ¬OnCycle redirects name) : RestsAt redirects name last := by
  obtain ⟨n, hn, hrest, hfirst⟩ := h
  have hstep (m : Nat) : after redirects (m + 1) name = after redirects m next := by
    rw [after, hget, Option.bind_some]
  refine ⟨n + 1, (hstep n).trans hn, hrest, fun m hm other hother => ?_⟩
  cases m with
  | zero => exact Option.some.inj hother ▸ hcycle
  | succ m => exact hfirst m (by omega) other ((hstep m).symm.trans hother)

/-! ### The loop -/

/-- Following redirects from `start` has come to a schema; the ones before have been seen, the
latest first. -/
inductive Trail (redirects : Fields String) (start : String) : List String → String → Prop
  | start : Trail redirects start [] start
  | step {seen : List String} {name next : String} (h : Trail redirects start seen name)
      (hget : redirects.get? name = some next) (hnew : name ∉ seen) :
      Trail redirects start (name :: seen) next

namespace Trail

variable {seen : List String}

theorem after_length (h : Trail redirects start seen name) :
    after redirects seen.length start = some name := by
  induction h with
  | start => rfl
  | step _ hget _ ih => rw [List.length_cons, after_add_of_eq ih, after_one, hget]

/-- The names on a trail are those that were passed on the way to its end. -/
theorem mem_iff (h : Trail redirects start seen name) {other : String} :
    other ∈ seen ↔ ∃ n < seen.length, after redirects n start = some other := by
  induction h with
  | start => simp
  | @step seen name next h _ _ ih =>
    rw [List.mem_cons, ih, List.length_cons]
    constructor
    · rintro (rfl | ⟨n, hn, ho⟩)
      · exact ⟨seen.length, by omega, h.after_length⟩
      · exact ⟨n, by omega, ho⟩
    · rintro ⟨n, hn, ho⟩
      rcases Nat.lt_succ_iff_lt_or_eq.mp hn with hlt | rfl
      · exact Or.inr ⟨n, hlt, ho⟩
      · exact Or.inl (Option.some.inj (ho.symm.trans h.after_length))

/-- No schema has been seen twice. -/
theorem ne_of_lt (h : Trail redirects start seen name) {m n : Nat} (hlt : m < n)
    (hn : n < seen.length) {other : String} (hm : after redirects m start = some other) :
    after redirects n start ≠ some other := by
  induction h with
  | start => exact absurd hn (Nat.not_lt_zero _)
  | @step seen name next h _ hnew ih =>
    rcases Nat.lt_succ_iff_lt_or_eq.mp hn with hn | rfl
    · exact ih hn
    · intro ho
      obtain rfl := Option.some.inj (h.after_length.symm.trans ho)
      exact hnew (h.mem_iff.mpr ⟨m, hlt, hm⟩)

theorem nodup (h : Trail redirects start seen name) : seen.Nodup := by
  induction h with
  | start => exact List.nodup_nil
  | step _ _ hnew ih => exact List.nodup_cons.mpr ⟨hnew, ih⟩

theorem subset_keys (h : Trail redirects start seen name) : seen ⊆ redirects.keys := by
  induction h with
  | start => exact List.nil_subset _
  | step _ hget _ ih =>
    exact List.cons_subset.mpr ⟨Fields.mem_keys_of_mem (Fields.mem_of_get? hget), ih⟩

theorem length_le (h : Trail redirects start seen name) : seen.length ≤ redirects.length := by
  have hle := (h.nodup.subperm h.subset_keys).length_le
  rwa [Fields.keys, List.length_map] at hle

/-- A trail that cannot go on has come to where the redirects come to rest, or to it once more. -/
theorem restsAt (h : Trail redirects start seen last)
    (hstop : redirects.get? last = none ∨ last ∈ seen) : RestsAt redirects start last := by
  rcases hstop with hnone | hm
  · refine ⟨seen.length, h.after_length, Or.inl hnone, fun m hm name hname hcycle => ?_⟩
    obtain ⟨n, hpos, hn⟩ := hcycle
    -- A cycle on the way would go through the end.
    have hlast := (after_sub_of_le hm.le hname).trans h.after_length
    exact OnCycle.get?_ne_none ⟨n, hpos, after_eq_self_of_after hn hlast⟩ hnone
  · obtain ⟨n, hn, hlast⟩ := h.mem_iff.mp hm
    have hround := (after_sub_of_le hn.le hlast).trans h.after_length
    refine ⟨n, hlast, Or.inr ⟨_, by omega, hround⟩, fun m hm name hname hcycle => ?_⟩
    -- A schema of the cycle before `last` would come again before `last` does.
    obtain ⟨k, hk⟩ :=
      exists_after_of_onCycle hcycle ((after_sub_of_le hm.le hname).trans hlast)
    refine h.ne_of_lt (n := m + (seen.length - n)) (by omega) (by omega) hname ?_
    rw [after_add_of_eq hname, after_eq_self_of_after hround hk]

end Trail

/-- The loop stops where a trail cannot go on. -/
theorem exists_trail_followFrom {fuel : Nat} {seen : List String}
    (h : Trail redirects start seen name) (hfuel : redirects.length < fuel + seen.length) :
    ∃ rest, Trail redirects start rest (followFrom redirects fuel seen name) ∧
      (redirects.get? (followFrom redirects fuel seen name) = none ∨
        followFrom redirects fuel seen name ∈ rest) := by
  induction fuel generalizing seen name with
  | zero =>
    have := h.length_le
    omega
  | succ fuel ih =>
    rw [followFrom]
    cases hget : redirects.get? name with
    | none => exact ⟨seen, h, Or.inl hget⟩
    | some next =>
      by_cases hseen : seen.contains name = true
      · simp only [if_pos hseen]
        exact ⟨seen, h, Or.inr (List.contains_iff_mem.mp hseen)⟩
      · simp only [if_neg hseen]
        have hnew : name ∉ seen := fun hm => hseen (List.contains_iff_mem.mpr hm)
        exact ih (h.step hget hnew) (by rw [List.length_cons]; omega)

/-- With a round for each redirect, the loop stops where the redirects come to rest. -/
theorem restsAt_followFrom {fuel : Nat} (hfuel : redirects.length < fuel) (start : String) :
    RestsAt redirects start (followFrom redirects fuel [] start) := by
  have hstart : Trail redirects start [] start := .start
  obtain ⟨rest, htrail, hstop⟩ := exists_trail_followFrom hstart hfuel
  exact htrail.restsAt hstop

theorem restsAt_followRedirects (known : KnownTypes) (start : String) :
    RestsAt known.redirects start (known.followRedirects start) :=
  restsAt_followFrom (Nat.lt_succ_self _) start

/-! ### The table -/

/-- Naming and filter are only for aliases. -/
theorem redirects_foldl_add_congr {schemas : Fields SchemaOrRef} {admits admits' : String → Bool}
    {known known' : KnownTypes} (h : known.redirects = known'.redirects) :
    (List.foldl (add admits) known schemas).redirects =
      (List.foldl (add admits') known' schemas).redirects := by
  induction schemas generalizing known known' with
  | nil => exact h
  | cons entry rest ih =>
    refine ih ?_
    obtain ⟨name, schema⟩ := entry
    -- Only a reference adds a redirect, and it does so whatever is admitted.
    cases schema with
    | ref path => exact congrArg (·.insert name (refName path)) h
    | inline schema =>
      rw [add, add]
      dsimp only
      split_ifs
      all_goals exact h

theorem redirects_scan_congr (schemas : Fields SchemaOrRef) (naming naming' : ClassNaming)
    (admits admits' : String → Bool) :
    (scan schemas naming admits).redirects = (scan schemas naming' admits').redirects :=
  redirects_foldl_add_congr rfl

/-- References to schemas whose redirects come to rest at one mean the same. -/
theorem resolve_eq_of_followRedirects {known : KnownTypes} {path other : String}
    (h : known.followRedirects (refName path) = known.followRedirects (refName other)) :
    known.resolve path = known.resolve other := by
  rw [resolve, resolve, h]

/-- All tables of some components have the same redirects. Following them ends, the more so with
more rounds, where the redirects come to rest: at a schema that does not redirect further, or else
at the first one on a cycle. Following them from there leads nowhere else. A reference to a schema
that redirects, but not in a cycle, means what a reference to its target does. -/
theorem exists_redirects_scan (schemas : Fields SchemaOrRef) : ∃ redirects : Fields String,
    (schemas.keys.Nodup → ∀ name, redirects.get? name = redirect? (schemas.get? name)) ∧
      ∀ naming admits, (scan schemas naming admits).redirects = redirects ∧
        (∀ start,
          (∀ fuel, redirects.length < fuel → followFrom redirects fuel [] start =
              (scan schemas naming admits).followRedirects start) ∧
            RestsAt redirects start ((scan schemas naming admits).followRedirects start) ∧
            (scan schemas naming admits).followRedirects
                ((scan schemas naming admits).followRedirects start) =
              (scan schemas naming admits).followRedirects start) ∧
        ∀ name next, redirects.get? name = some next → ¬OnCycle redirects name →
          (scan schemas naming admits).followRedirects name =
              (scan schemas naming admits).followRedirects next ∧
            ∀ path other, refName path = name → refName other = next →
              (scan schemas naming admits).resolve path =
                (scan schemas naming admits).resolve other := by
  refine ⟨(scan schemas .plain fun _ => true).redirects, fun hd name => redirects_scan hd name,
    fun naming admits => ?_⟩
  rw [redirects_scan_congr schemas .plain naming (fun _ => true) admits]
  have hrests := restsAt_followRedirects (scan schemas naming admits)
  refine ⟨rfl, fun start => ⟨fun fuel hfuel => ?_, hrests start, ?_⟩,
    fun name next hget hcycle => ?_⟩
  · exact (restsAt_followFrom hfuel start).unique (hrests start)
  · exact (hrests _).unique (hrests start).restsAt_last
  · have hsame := (hrests name).unique ((hrests next).of_get? hget hcycle)
    refine ⟨hsame, ?_⟩
    rintro path other rfl rfl
    exact resolve_eq_of_followRedirects hsame

/-- Hints are kept under names that lead into a cycle. -/
def hintSchemas : Fields SchemaOrRef :=
  [("Hint", .ref "#/components/schemas/Note"), ("Note", .ref "#/components/schemas/Text"),
    ("Text", .ref "#/components/schemas/Note")]

/-- A reference to a hint means a note, although notes are never given in place. -/
theorem exists_redirects_scan_hint :
    (scan hintSchemas .plain fun _ => true).followRedirects "Hint" = "Note" ∧
      (scan hintSchemas .plain fun _ => true).resolve "#/components/schemas/Hint" =
        (scan hintSchemas .plain fun _ => true).resolve "#/components/schemas/Note" := by
  obtain ⟨redirects, -, hall⟩ := exists_redirects_scan hintSchemas
  obtain ⟨hredirects, hstart, hsame⟩ := hall .plain fun _ => true
  have htable : redirects = [("Hint", "Note"), ("Note", "Text"), ("Text", "Note")] := by
    rw [← hredirects]
    decide +kernel
  subst htable
  have hcycle : ¬OnCycle [("Hint", "Note"), ("Note", "Text"), ("Text", "Note")] "Hint" := by
    intro h
    obtain ⟨other, hother⟩ := h.exists_get?
    have hm : "Hint" ∈ ["Note", "Text", "Note"] :=
      List.mem_map_of_mem (f := Prod.snd) (Fields.mem_of_get? hother)
    exact absurd hm (by decide)
  refine ⟨?_, (hsame "Hint" "Note" (by decide) hcycle).2 _ _ (by decide +kernel)
    (by decide +kernel)⟩
  rw [← (hstart "Hint").1 4 (by decide)]
  decide

end KnownTypes

end FunctionForge
