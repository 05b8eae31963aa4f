import FunctionForge.Proofs.Reference.Visit
import FunctionForge.Proofs.Result

/-!
# Runs of bundling

`Visited` says what visiting a list of references comes to, without a bound on how deep imports may
be nested.  It holds exactly of the outcomes that all large enough bounds lead to
(`visited_of_exec`, `exec_of_visited`), so what is true of bundling is proved by induction on it.

`resolve_of_bundles` and `exists_bundles_of_resolve` say what this means for resolving a document:
the outcome of visiting its references, finished by merging what was imported, is the outcome of
resolving it, whatever the bound that is tried first.
-/

namespace FunctionForge.Reference

open Document (ApiDocument Components LoadError SchemaOrRef Visits)
open Files (Path)

namespace Bundle

variable {load : Path → Except LoadError Value}

/-- What visiting references that stand somewhere comes to. -/
inductive Visited (load : Path → Except LoadError Value) :
    Origin → List String → Bundling → Except ResolveError Unit → Bundling → Prop
  | nil {origin : Origin} {st : Bundling} : Visited load origin [] st (.ok ()) st
  /-- There is nothing new where the first reference leads. -/
  | settled {origin : Origin} {path : String} {rest : List String} {st st₁ st₂ : Bundling}
      {r : Except ResolveError Unit} (he : exec (enter load origin path) st = some (.ok none, st₁))
      (hr : Visited load origin rest st₁ r st₂) : Visited load origin (path :: rest) st r st₂
  | refused {origin : Origin} {path : String} {rest : List String} {st st₁ : Bundling}
      {cause : ResolveError} (he : exec (enter load origin path) st = some (.error cause, st₁)) :
      Visited load origin (path :: rest) st (.error cause) st₁
  /-- What the first reference leads to has been imported with all that it refers to. -/
  | imported {origin : Origin} {path : String} {rest : List String} {st st₁ st₂ st₃ : Bundling}
      {arrival : Arrival} {r : Except ResolveError Unit}
      (he : exec (enter load origin path) st = some (.ok (some arrival), st₁))
      (hi : Visited load (originIn arrival.file) arrival.schema.references st₁ (.ok ()) st₂)
      (hr : Visited load origin rest (st₂.withImport arrival.name arrival.bundled) r st₃) :
      Visited load origin (path :: rest) st r st₃
  /-- Something that the import of the first reference refers to cannot be imported. -/
  | failed {origin : Origin} {path : String} {rest : List String} {st st₁ st₂ : Bundling}
      {arrival : Arrival} {cause : ResolveError}
      (he : exec (enter load origin path) st = some (.ok (some arrival), st₁))
      (hi : Visited load (originIn arrival.file) arrival.schema.references st₁ (.error cause) st₂) :
      Visited load origin (path :: rest) st (.error cause) st₂

/-! ### One visit -/

section

variable {fuel : Nat} {origin : Origin} {path : String} {rest : List String} {st st₁ st₂ : Bundling}
  {arrival : Arrival} {cause : ResolveError}

theorem exec_visit_of_settled (he : exec (enter load origin path) st = some (.ok none, st₁)) :
    exec (visit load (fuel + 1) origin path) st = some (.ok (), st₁) := by
  rw [visit, exec_bind_of_ok he]
  rfl

theorem exec_visit_of_refused (he : exec (enter load origin path) st = some (.error cause, st₁)) :
    exec (visit load (fuel + 1) origin path) st = some (.error cause, st₁) := by
  rw [visit, exec_bind_of_error he]

/-- Where something is imported, its own references are visited before it is added. -/
theorem exec_visit_of_arrived
    (he : exec (enter load origin path) st = some (.ok (some arrival), st₁)) :
    exec (visit load (fuel + 1) origin path) st =
      exec (forM arrival.schema.references (visit load fuel (originIn arrival.file)) >>=
        fun _ => addImport arrival.name arrival.bundled) st₁ := by
  rw [visit, exec_bind_of_ok he]

theorem exec_visit_of_imported
    (he : exec (enter load origin path) st = some (.ok (some arrival), st₁))
    (hi : exec (forM arrival.schema.references (visit load fuel (originIn arrival.file))) st₁ =
      some (.ok (), st₂)) :
    exec (visit load (fuel + 1) origin path) st =
      some (.ok (), st₂.withImport arrival.name arrival.bundled) := by
  rw [exec_visit_of_arrived he, exec_bind_of_ok hi, exec_addImport]

theorem exec_visit_of_failed
    (he : exec (enter load origin path) st = some (.ok (some arrival), st₁))
    (hi : exec (forM arrival.schema.references (visit load fuel (originIn arrival.file))) st₁ =
      some (.error cause, st₂)) :
    exec (visit load (fuel + 1) origin path) st = some (.error cause, st₂) := by
  rw [exec_visit_of_arrived he, exec_bind_of_error hi]

end

/-! ### Bounds that are large enough -/

/-- A run of visits starts as the first of them does. -/
theorem visited_cons_of_exec {fuel : Nat} {origin : Origin} {path : String} {rest : List String}
    {st st' : Bundling} {r : Except ResolveError Unit}
    (hinner : ∀ (arrival : Arrival) st₁ r₁ st₂, exec (forM arrival.schema.references
      (visit load fuel (originIn arrival.file))) st₁ = some (r₁, st₂) →
        Visited load (originIn arrival.file) arrival.schema.references st₁ r₁ st₂)
    (hrest : ∀ st₁, exec (forM rest (visit load (fuel + 1) origin)) st₁ = some (r, st') →
      Visited load origin rest st₁ r st')
    (h : exec (forM (path :: rest) (visit load (fuel + 1) origin)) st = some (r, st')) :
    Visited load origin (path :: rest) st r st' := by
  rw [List.forM_cons] at h
  cases he : exec (enter load origin path) st with
  | none =>
    rw [visit, exec_bind, exec_bind, he] at h
    cases h
  | some outcome =>
    obtain ⟨result, st₁⟩ := outcome
    rcases result with cause | found
    · rw [exec_bind_of_error (exec_visit_of_refused he), Option.some.injEq, Prod.mk.injEq] at h
      obtain ⟨rfl, rfl⟩ := h
      exact .refused he
    rcases found with _ | arrival
    · rw [exec_bind_of_ok (exec_visit_of_settled he)] at h
      exact .settled he (hrest st₁ h)
    -- The bound is spent on what the arrival refers to; the rest has the whole of it again.
    cases hi : exec (forM arrival.schema.references (visit load fuel (originIn arrival.file)))
        st₁ with
    | none =>
      rw [exec_bind, exec_visit_of_arrived he, exec_bind, hi] at h
      cases h
    | some inner =>
      obtain ⟨result, st₂⟩ := inner
      have hv := hinner arrival st₁ result st₂ hi
      rcases result with cause | done
      · rw [exec_bind_of_error (exec_visit_of_failed he hi), Option.some.injEq,
          Prod.mk.injEq] at h
        obtain ⟨rfl, rfl⟩ := h
        exact .failed he hv
      · rw [exec_bind_of_ok (exec_visit_of_imported he hi)] at h
        exact .imported he hv (hrest _ h)

/-- Whatever a bound leads to is an outcome. -/
theorem visited_of_exec {fuel : Nat} {origin : Origin} {refs : List String} {st st' : Bundling}
    {r : Except ResolveError Unit}
    (h : exec (forM refs (visit load fuel origin)) st = some (r, st')) :
    Visited load origin refs st r st' := by
  -- The bound decreases on the way into a file, the list on the way to its end.
  induction fuel generalizing origin refs st r st' with
  | zero =>
    cases refs with
    | nil =>
      obtain ⟨rfl, rfl⟩ := Prod.mk.inj (Option.some.inj h)
      exact .nil
    | cons path rest =>
      rw [List.forM_cons, exec_bind] at h
      exact absurd h nofun
  | succ fuel ih =>
    induction refs generalizing st with
    | nil =>
      obtain ⟨rfl, rfl⟩ := Prod.mk.inj (Option.some.inj h)
      exact .nil
    | cons path rest ihrest => exact visited_cons_of_exec (fun _ _ _ _ => ih) (fun _ => ihrest) h

/-- All bounds that are large enough lead to an outcome. -/
theorem exec_of_visited {origin : Origin} {refs : List String} {st st' : Bundling}
    {r : Except ResolveError Unit} (h : Visited load origin refs st r st') :
    ∃ bound, ∀ fuel, bound ≤ fuel →
      exec (forM refs (visit load fuel origin)) st = some (r, st') := by
  induction h with
  | nil => exact ⟨0, fun _ _ => rfl⟩
  | settled he _ ih =>
    obtain ⟨bound, ih⟩ := ih
    refine ⟨bound + 1, fun fuel hfuel => ?_⟩
    obtain ⟨n, rfl⟩ : ∃ n, fuel = n + 1 := ⟨fuel - 1, by omega⟩
    rw [List.forM_cons, exec_bind_of_ok (exec_visit_of_settled he), ih _ (by omega)]
  | refused he =>
    refine ⟨1, fun fuel hfuel => ?_⟩
    obtain ⟨n, rfl⟩ : ∃ n, fuel = n + 1 := ⟨fuel - 1, by omega⟩
    rw [List.forM_cons, exec_bind_of_error (exec_visit_of_refused he)]
  | imported he _ _ ihi ihr =>
    obtain ⟨inner, ihi⟩ := ihi
    obtain ⟨outer, ihr⟩ := ihr
    -- The bound has to be large enough for the import and for the rest.
    refine ⟨max inner outer + 1, fun fuel hfuel => ?_⟩
    obtain ⟨n, rfl⟩ : ∃ n, fuel = n + 1 := ⟨fuel - 1, by omega⟩
    rw [List.forM_cons, exec_bind_of_ok (exec_visit_of_imported he (ihi n (by omega))),
      ihr _ (by omega)]
  | failed he _ ih =>
    obtain ⟨bound, ih⟩ := ih
    refine ⟨bound + 1, fun fuel hfuel => ?_⟩
    obtain ⟨n, rfl⟩ : ∃ n, fuel = n + 1 := ⟨fuel - 1, by omega⟩
    rw [List.forM_cons, exec_bind_of_error (exec_visit_of_failed he (ih n (by omega)))]

/-! ### Documents -/

/-- A document with the imported schemas among its components. -/
def merged (imports : Fields SchemaOrRef) (document : ApiDocument) : ApiDocument :=
  if imports.isEmpty then document
  else
    let components := document.components.getD .none
    let schemas := (mergeImports imports components.schemas).1
    { document with components := some { components with schemas } }

/-- Where the references of a document stand. -/
def documentOrigin (folder : Path) : Origin := ⟨folder, none⟩

section

variable {resolver : Resolver} {fuel : Nat} {document : ApiDocument} {st : Bundling}

/-- Bundling is a loop over the references of a document, and then the imports are merged. -/
theorem bundleSchemas_eq (resolver : Resolver) (fuel : Nat) (document : ApiDocument) :
    exec (bundleSchemas load fuel document) ⟨resolver, [], []⟩ =
      exec (forM document.references (visit load fuel (documentOrigin resolver.folder)) >>=
        fun _ => do
          let bundled := document.mapReferences (rewritten (documentOrigin resolver.folder))
          let bundling ← getThe Bundling
          if bundling.imports.isEmpty then return bundled
          let components := bundled.components.getD .none
          let (schemas, notices) := mergeImports bundling.imports components.schemas
          set { bundling with notices := bundling.notices ++ notices }
          return { bundled with components := some { components with schemas } })
        ⟨resolver, [], []⟩ := by
  have hv := ApiDocument.visits (fun schema => schema.visits (@visits_importRef load fuel
    (documentOrigin resolver.folder))) document
  rw [bundleSchemas, exec_getThe_bind]
  change exec (document.mapSchemasM (fun schema => schema.mapReferencesM
    (importRef load fuel (documentOrigin resolver.folder))) >>= _) _ = _
  rw [hv, bind_map_left]
  rfl

/-- If no visit fails, the imports are merged into the rewritten document. -/
theorem exec_bundleSchemas_of_ok
    (h : exec (forM document.references (visit load fuel (documentOrigin resolver.folder)))
      ⟨resolver, [], []⟩ = some (.ok (), st)) :
    ∃ notices, exec (bundleSchemas load fuel document) ⟨resolver, [], []⟩ =
      some (.ok (merged st.imports
        (document.mapReferences (rewritten (documentOrigin resolver.folder)))),
        { st with notices }) := by
  rw [bundleSchemas_eq, exec_bind_of_ok h, exec_getThe_bind, merged]
  by_cases hi : st.imports.isEmpty = true
  · exact ⟨st.notices, by simp only [hi, if_true]; rfl⟩
  · exact ⟨_, by simp only [if_neg hi]; rfl⟩

theorem exec_bundleSchemas_of_error {cause : ResolveError}
    (h : exec (forM document.references (visit load fuel (documentOrigin resolver.folder)))
      ⟨resolver, [], []⟩ = some (.error cause, st)) :
    exec (bundleSchemas load fuel document) ⟨resolver, [], []⟩ = some (.error cause, st) := by
  rw [bundleSchemas_eq, exec_bind_of_error h]

theorem exec_bundleSchemas_of_none
    (h : exec (forM document.references (visit load fuel (documentOrigin resolver.folder)))
      ⟨resolver, [], []⟩ = none) :
    exec (bundleSchemas load fuel document) ⟨resolver, [], []⟩ = none := by
  rw [bundleSchemas_eq, exec_bind, h, Option.bind_none]

end

/-- A run of visits has one outcome. -/
theorem Visited.unique {origin : Origin} {refs : List String} {st st₁ st₂ : Bundling}
    {r₁ r₂ : Except ResolveError Unit} (h₁ : Visited load origin refs st r₁ st₁)
    (h₂ : Visited load origin refs st r₂ st₂) : r₁ = r₂ ∧ st₁ = st₂ := by
  obtain ⟨n₁, hn₁⟩ := exec_of_visited h₁
  obtain ⟨n₂, hn₂⟩ := exec_of_visited h₂
  have h := hn₁ (max n₁ n₂) (Nat.le_max_left _ _)
  rw [hn₂ (max n₁ n₂) (Nat.le_max_right _ _), Option.some.injEq, Prod.mk.injEq] at h
  exact ⟨h.1.symm, h.2.symm⟩

end Bundle

namespace Resolver

open Reference.Bundle

variable {resolver : Resolver} {load : Path → Except LoadError Value} {document : ApiDocument}
  {r : Except ResolveError Unit} {st : Bundling}

/-- The run of visits that resolves a document. -/
def Bundles (resolver : Resolver) (load : Path → Except LoadError Value) (document : ApiDocument)
    (r : Except ResolveError Unit) (st : Bundling) : Prop :=
  Visited load (documentOrigin resolver.folder) document.references ⟨resolver, [], []⟩ r st

/-- The document that is left when its references have been visited. -/
def finished (folder : Path) (document : ApiDocument) (r : Except ResolveError Unit)
    (st : Bundling) : Except ResolveError ApiDocument :=
  r.bind fun _ =>
    inlineComponents
      (merged st.imports (document.mapReferences (rewritten (documentOrigin folder))))

/-- A loop that ends within the bound decides how the document is resolved. -/
theorem resolveWithin_of_exec {limit : Nat}
    (h : exec (forM document.references (visit load limit (documentOrigin resolver.folder)))
      ⟨resolver, [], []⟩ = some (r, st)) :
    ∃ resolved, resolver.resolveWithin load document limit = some resolved ∧
      resolved.result = finished resolver.folder document r st ∧
      resolved.resolver = st.resolver := by
  change ∃ resolved, (exec (resolveDocument load limit document) ⟨resolver, [], []⟩).map _ = _ ∧ _
  rw [resolveDocument]
  cases r with
  | error cause =>
    rw [exec_bind_of_error (exec_bundleSchemas_of_error h)]
    exact ⟨_, rfl, rfl, rfl⟩
  | ok done =>
    obtain ⟨notices, hb⟩ := exec_bundleSchemas_of_ok h
    rw [exec_bind_of_ok hb]
    exact ⟨_, rfl, rfl, rfl⟩

/-- What is resolved within a bound has been bundled, as it is without a bound. -/
theorem bundles_of_resolveWithin {limit : Nat} {resolved : ResolvedDocument}
    (h : resolver.resolveWithin load document limit = some resolved) :
    ∃ r st, resolver.Bundles load document r st ∧
      resolved.result = finished resolver.folder document r st ∧
      resolved.resolver = st.resolver := by
  -- If the loop did not end within the bound, nothing would have been resolved within it.
  cases hx : exec (forM document.references
      (visit load limit (documentOrigin resolver.folder))) ⟨resolver, [], []⟩ with
  | none =>
    have hn : exec (resolveDocument load limit document) ⟨resolver, [], []⟩ = none := by
      rw [resolveDocument, exec_bind, exec_bundleSchemas_of_none hx, Option.bind_none]
    change (exec (resolveDocument load limit document) ⟨resolver, [], []⟩).map _ = _ at h
    rw [hn] at h
    exact absurd h nofun
  | some outcome =>
    obtain ⟨r, st⟩ := outcome
    obtain ⟨found, hf, hresult, hresolver⟩ := resolveWithin_of_exec hx
    rw [h, Option.some.injEq] at hf
    subst hf
    exact ⟨r, st, visited_of_exec hx, hresult, hresolver⟩

/-- Raising the bound until the loop ends comes to a bound within which it does. -/
theorem exists_resolveWithin_of_resolveFrom {limit : Nat} {resolved : ResolvedDocument}
    (h : resolver.resolveFrom load document limit = some resolved) :
    ∃ n, resolver.resolveWithin load document n = some resolved := by
  refine resolveFrom.partial_correctness resolver load document
    (fun _ resolved => ∃ n, resolver.resolveWithin load document n = some resolved)
    (fun again ih limit resolved h => ?_) limit resolved h
  cases hw : resolver.resolveWithin load document limit with
  | some found =>
    rw [hw] at h
    exact ⟨limit, hw.trans h⟩
  | none =>
    rw [hw] at h
    exact ih _ _ h

/-- Doubling comes to a bound that is large enough. -/
theorem isSome_resolveFrom {bound limit : Nat} (hl : 0 < limit)
    (h : ∀ n, bound ≤ n → (resolver.resolveWithin load document n).isSome = true) :
    (resolver.resolveFrom load document limit).isSome = true := by
  induction hn : bound - limit using Nat.strongRecOn generalizing limit with
  | _ n ih =>
    rw [resolveFrom]
    cases hw : resolver.resolveWithin load document limit with
    | some resolved => rfl
    | none =>
      have hlt : limit < bound := by
        refine Nat.lt_of_not_le fun hge => ?_
        have hdeep := h limit hge
        rw [hw] at hdeep
        exact absurd hdeep nofun
      exact ih (bound - 2 * limit) (by omega) (by omega) rfl

/-- The outcome of visiting the references of a document is the outcome of resolving it. -/
theorem resolve_of_bundles (h : resolver.Bundles load document r st) :
    (resolver.resolve load document).result = finished resolver.folder document r st ∧
      (resolver.resolve load document).resolver = st.resolver := by
  obtain ⟨bound, hb⟩ := exec_of_visited h
  have hsome : (resolver.resolveFrom load document firstLimit).isSome = true := by
    refine isSome_resolveFrom (by decide) fun n (hn : bound ≤ n) => ?_
    obtain ⟨resolved, hw, -⟩ := resolveWithin_of_exec (hb n hn)
    rw [hw, Option.isSome_some]
  obtain ⟨resolved, hf⟩ := Option.isSome_iff_exists.mp hsome
  obtain ⟨n, hw⟩ := exists_resolveWithin_of_resolveFrom hf
  obtain ⟨r', st', hv, hresult, hresolver⟩ := bundles_of_resolveWithin hw
  obtain ⟨rfl, rfl⟩ := Visited.unique hv h
  rw [resolve, hf, Option.getD_some]
  exact ⟨hresult, hresolver⟩

/-- What has been resolved without an error is the outcome of visiting all references. -/
theorem exists_bundles_of_resolve {result : ApiDocument}
    (h : (resolver.resolve load document).result = .ok result) :
    ∃ st, resolver.Bundles load document (.ok ()) st ∧
      (resolver.resolve load document).resolver = st.resolver ∧
      inlineComponents (merged st.imports
        (document.mapReferences (rewritten (documentOrigin resolver.folder)))) = .ok result := by
  rw [resolve] at h ⊢
  cases hf : resolver.resolveFrom load document firstLimit with
  | none =>
    rw [hf] at h
    exact absurd h nofun
  | some resolved =>
    rw [hf, Option.getD_some] at h
    obtain ⟨n, hw⟩ := exists_resolveWithin_of_resolveFrom hf
    obtain ⟨r, st, hv, hresult, hresolver⟩ := bundles_of_resolveWithin hw
    rw [h] at hresult
    cases r with
    | error cause => exact absurd hresult nofun
    | ok done => exact ⟨st, hv, hresolver, hresult.symm⟩

/-- Any bound that is large enough tells what resolving a document comes to. -/
theorem resolve_of_resolveWithin {limit : Nat} {resolved : ResolvedDocument}
    (h : resolver.resolveWithin load document limit = some resolved) :
    (resolver.resolve load document).result = resolved.result ∧
      (resolver.resolve load document).resolver = resolved.resolver := by
  obtain ⟨r, st, hb, hresult, hresolver⟩ := bundles_of_resolveWithin h
  rw [hresult, hresolver]
  exact resolve_of_bundles hb

theorem exists_resolve_eq_ok {limit : Nat}
    (h : (resolver.resolveWithin load document limit).map (fun r => r.result.isOk) = some true) :
    ∃ result, (resolver.resolve load document).result = .ok result := by
  obtain ⟨resolved, hw, hok⟩ := Option.map_eq_some_iff.mp h
  rw [(resolve_of_resolveWithin hw).1]
  cases hr : resolved.result with
  | error cause =>
    rw [hr] at hok
    exact absurd hok nofun
  | ok result => exact ⟨result, rfl⟩

theorem exists_resolve_and_imported {limit : Nat} {marks : List (String × String)}
    (h : ((resolver.resolveWithin load document limit).map fun r =>
      (r.result.isOk, r.resolver.imported)) = some (true, marks)) :
    (∃ result, (resolver.resolve load document).result = .ok result) ∧
      (resolver.resolve load document).resolver.imported = marks := by
  obtain ⟨resolved, hw, heq⟩ := Option.map_eq_some_iff.mp h
  obtain ⟨hok, hmarks⟩ := Prod.mk.inj heq
  refine ⟨@exists_resolve_eq_ok _ _ _ limit ?_, by rw [(resolve_of_resolveWithin hw).2, hmarks]⟩
  rw [hw, Option.map_some, hok]

/-- What a bound that is large enough tells of a resolved document is true of it. -/
theorem exists_resolve_of_resolveWithin {limit : Nat} {p : ApiDocument → Bool}
    (h : ((resolver.resolveWithin load document limit).bind fun r => r.result.toOption.map p) =
      some true) : ∃ result, (resolver.resolve load document).result = .ok result ∧
        p result = true := by
  obtain ⟨resolved, hw, h⟩ := Option.bind_eq_some_iff.mp h
  obtain ⟨result, hresult, hp⟩ := Option.map_eq_some_iff.mp h
  exact ⟨result, (resolve_of_resolveWithin hw).1.trans (eq_ok_of_toOption hresult), hp⟩

end Resolver

end FunctionForge.Reference
