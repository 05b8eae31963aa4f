import FunctionForge.Proofs.NameClashes

/-!
# What becomes of each schema

Every component that is eligible for a model comes to one result: its model, or a failure
(`Account`).  Looking at a component adds its result, and nothing else, to what there is
(`addSchema_of_eligible`), and the result only depends on the models before it: it is a collision
exactly if the component has a model whose name is taken by one of them (`Settled`).  So the models
and the failures of a document are those of one list of accounts, in the order of the components
(`exists_accountsFor`).
-/

namespace FunctionForge.Model

open Document (Schema SchemaOrRef)

variable {known : KnownTypes} {options : Options} {schemas : Fields SchemaOrRef} {key : String}
  {schema : Schema}

/-! ### Eligible schemas -/

/-- A component gets a model: it is admitted, and given in place by a schema that is neither a bare
primitive nor a list. -/
structure Eligible (options : Options) (schemas : Fields SchemaOrRef) (key : String)
    (schema : Schema) : Prop where
  given : (key, .inline schema) ∈ schemas
  admitted : options.admits key = true
  not_primitive : schema.isPrimitive = false
  not_list : schema.primaryType ≠ some .array

/-- A component is eligible if it is given in place, is admitted, and is neither a scalar nor a
list. -/
theorem eligible?_eq_some_iff {entry : String × SchemaOrRef} :
    eligible? options entry = some schema ↔
      entry.2 = .inline schema ∧ options.admits entry.1 = true ∧ schema.isPrimitive = false ∧
        schema.primaryType ≠ some .array := by
  obtain ⟨key, given⟩ := entry
  cases given with
  | ref path =>
    constructor
    · intro h
      cases h
    · rintro ⟨h, -⟩
      cases h
  | inline body =>
    simp only [eligible?]
    split_ifs with hc
    · simp only [Bool.and_eq_true, Bool.not_eq_true', bne_iff_ne] at hc
      constructor
      · intro h
        obtain rfl := Option.some.inj h
        exact ⟨rfl, hc.1.1, hc.1.2, hc.2⟩
      · rintro ⟨h, -⟩
        rw [SchemaOrRef.inline.inj h]
    · constructor
      · intro h
        cases h
      · rintro ⟨h, ha, hp, hl⟩
        obtain rfl := SchemaOrRef.inline.inj h
        exact absurd (by simp [ha, hp, hl]) hc

/-- The components that get models. -/
def eligibleEntries (options : Options) (schemas : Fields SchemaOrRef) : List (String × Schema) :=
  schemas.filterMap fun entry => (eligible? options entry).map (entry.1, ·)

theorem eligibleEntries_concat (options : Options) (schemas : Fields SchemaOrRef)
    (entry : String × SchemaOrRef) : eligibleEntries options (schemas ++ [entry]) =
      eligibleEntries options schemas ++ ((eligible? options entry).map (entry.1, ·)).toList := by
  rw [eligibleEntries, List.filterMap_append, List.filterMap_cons, List.filterMap_nil]
  cases eligible? options entry with
  | none => rfl
  | some schema => rfl

/-- The eligible entries are those of the eligible components. -/
theorem mem_eligibleEntries_iff :
    (key, schema) ∈ eligibleEntries options schemas ↔ Eligible options schemas key schema := by
  rw [eligibleEntries, List.mem_filterMap]
  constructor
  · rintro ⟨⟨name, given⟩, hm, h⟩
    obtain ⟨body, he, hpair⟩ := Option.map_eq_some_iff.mp h
    obtain ⟨rfl, rfl⟩ := Prod.mk.inj hpair
    obtain ⟨rfl, ha, hp, hl⟩ := eligible?_eq_some_iff.mp he
    exact ⟨hm, ha, hp, hl⟩
  · rintro ⟨hm, ha, hp, hl⟩
    refine ⟨(key, .inline schema), hm, ?_⟩
    rw [eligible?_eq_some_iff.mpr ⟨rfl, ha, hp, hl⟩]
    rfl

/-- The eligible entries keep the order of the components. -/
theorem keys_eligibleEntries_sublist (options : Options) (schemas : Fields SchemaOrRef) :
    ((eligibleEntries options schemas).map Prod.fst).Sublist schemas.keys := by
  induction schemas with
  | nil => exact List.Sublist.refl []
  | cons entry rest ih =>
    rw [Fields.keys_cons, eligibleEntries]
    cases he : eligible? options entry with
    | none =>
      rw [List.filterMap_cons_none (by rw [he]; rfl)]
      exact ih.cons _
    | some schema =>
      rw [List.filterMap_cons_some (by rw [he]; rfl)]
      exact ih.cons_cons _

/-! ### One schema -/

/-- A component with what it comes to. -/
structure Account where
  key : String
  schema : Schema
  result : Except DefinitionError Entity

namespace Account

/-- The model of a component. -/
def item? (account : Account) : Option Entity :=
  account.result.toOption

/-- Why a component has no model. -/
def failure? (account : Account) : Option DefinitionError :=
  match account.result with
  | .ok _ => none
  | .error failure => some failure

end Account

/-- The models and the failures of components. -/
def ofAccounts (accounts : List Account) : Resolution Entity :=
  ⟨accounts.filterMap Account.item?, accounts.filterMap Account.failure?⟩

theorem ofAccounts_concat_ok (accounts : List Account) (key : String) (schema : Schema)
    (item : Entity) : ofAccounts (accounts ++ [⟨key, schema, .ok item⟩]) =
      ⟨(ofAccounts accounts).items ++ [item], (ofAccounts accounts).failures⟩ := by
  simp [ofAccounts, Account.item?, Account.failure?, Except.toOption]

theorem ofAccounts_concat_error (accounts : List Account) (key : String) (schema : Schema)
    (failure : DefinitionError) : ofAccounts (accounts ++ [⟨key, schema, .error failure⟩]) =
      ⟨(ofAccounts accounts).items, (ofAccounts accounts).failures ++ [failure]⟩ := by
  simp [ofAccounts, Account.item?, Account.failure?, Except.toOption]

/-- What a component comes to if others have got models before it. -/
inductive Settled (known : KnownTypes) (items : List Entity) (key : String) (schema : Schema) :
    Except DefinitionError Entity → Prop
  | modelled {entity : Entity} (h : resolveEntity known key schema = .ok entity)
      (hfree : ¬∃ item ∈ items, item.name = entity.name) :
      Settled known items key schema (.ok entity)
  | taken {entity first : Entity} (h : resolveEntity known key schema = .ok entity)
      (hm : first ∈ items) (hname : first.name = entity.name) :
      Settled known items key schema (.error ⟨key, .nameCollision entity.name first.rawName⟩)
  | failed {failure : DefinitionError} (h : resolveEntity known key schema = .error failure) :
      Settled known items key schema (.error failure)

/-- A component adds what it comes to, and nothing else. -/
theorem addSchema_of_eligible (accounts : List Account) {entry : String × SchemaOrRef}
    (h : eligible? options entry = some schema) :
    ∃ result, Settled known (ofAccounts accounts).items entry.1 schema result ∧
      addSchema known options (ofAccounts accounts) entry =
        ofAccounts (accounts ++ [⟨entry.1, schema, result⟩]) := by
  rw [addSchema, h]
  simp only
  cases hr : resolveEntity known entry.1 schema with
  | error failure => exact ⟨_, .failed hr, (ofAccounts_concat_error _ _ _ _).symm⟩
  | ok entity =>
    simp only
    -- A model that was made is added, or its name is taken by one that stands for it.
    rcases addEntity_cases (ofAccounts accounts) entity with
      ⟨first, hm, hname, hadd⟩ | ⟨hfree, hadd⟩
    · refine ⟨_, .taken hr hm hname, ?_⟩
      rw [hadd, ofAccounts_concat_error, rawName_of_resolveEntity hr]
    · exact ⟨_, .modelled hr hfree, hadd.trans (ofAccounts_concat_ok _ _ _ _).symm⟩

namespace Settled

variable {items : List Entity} {result : Except DefinitionError Entity}

theorem named (h : Settled known items key schema result) {item : Entity} (hr : result = .ok item) :
    item.rawName = key ∧ item.name = known.naming.className key := by
  cases h with
  | modelled h hfree =>
    obtain rfl := Except.ok.inj hr
    exact ⟨rawName_of_resolveEntity h, name_of_resolveEntity h⟩
  | taken _ _ _ => exact absurd hr nofun
  | failed _ => exact absurd hr nofun

theorem located (h : Settled known items key schema result) {failure : DefinitionError}
    (hr : result = .error failure) : IsAt key schema failure := by
  cases h with
  | modelled _ _ => exact absurd hr nofun
  | taken _ _ _ =>
    obtain rfl := Except.error.inj hr
    exact Or.inl rfl
  | failed h =>
    obtain rfl := Except.error.inj hr
    exact isAt_of_resolveEntity h

/-- A component collides with a model exactly if that has the name of its own. -/
theorem collision_iff (h : Settled known items key schema result)
    (hd : (items.map Entity.name).Nodup) {name first : String} :
    (∃ failure, result = .error failure ∧ failure.cause = .nameCollision name first) ↔
      (∃ entity, resolveEntity known key schema = .ok entity ∧ entity.name = name) ∧
        ∃ item ∈ items, item.rawName = first ∧ item.name = name := by
  cases h with
  | @modelled entity h hfree =>
    refine ⟨fun ⟨_, hr, _⟩ => absurd hr nofun, ?_⟩
    rintro ⟨⟨other, ho, rfl⟩, item, hm, -, hname⟩
    obtain rfl := Except.ok.inj (h.symm.trans ho)
    exact absurd ⟨item, hm, hname⟩ hfree
  | @taken entity other h hm hname =>
    constructor
    · rintro ⟨failure, hr, hcause⟩
      obtain rfl := Except.error.inj hr
      obtain ⟨rfl, rfl⟩ := Cause.nameCollision.inj hcause
      exact ⟨⟨entity, h, rfl⟩, other, hm, rfl, hname⟩
    · rintro ⟨⟨found, hf, rfl⟩, item, hi, rfl, hn⟩
      obtain rfl := Except.ok.inj (h.symm.trans hf)
      -- The names of the models are distinct, so only one of them can be in the way.
      obtain rfl := List.inj_on_of_nodup_map hd hi hm (hn.trans hname.symm)
      exact ⟨_, rfl, rfl⟩
  | @failed failure h =>
    constructor
    · rintro ⟨other, hr, hcause⟩
      obtain rfl := Except.error.inj hr
      exact absurd (by rw [hcause]; rfl) (not_collision_of_resolveEntity h)
    · rintro ⟨⟨entity, ho, -⟩, -⟩
      exact absurd (h.symm.trans ho) nofun

end Settled

/-! ### All schemas -/

/-- There is an account for each component that gets a model, and it comes to what it does after
those before it. -/
structure Ledger (known : KnownTypes) (options : Options) (schemas : Fields SchemaOrRef)
    (accounts : List Account) : Prop where
  entries : (accounts.map fun account => (account.key, account.schema)) =
    eligibleEntries options schemas
  settled : ∀ before account after, accounts = before ++ account :: after →
    Settled known (ofAccounts before).items account.key account.schema account.result

theorem Ledger.concat {accounts : List Account} (h : Ledger known options schemas accounts)
    {entry : String × SchemaOrRef} {result : Except DefinitionError Entity}
    (he : eligible? options entry = some schema)
    (hs : Settled known (ofAccounts accounts).items entry.1 schema result) :
    Ledger known options (schemas ++ [entry]) (accounts ++ [⟨entry.1, schema, result⟩]) := by
  constructor
  · rw [List.map_append, h.entries, eligibleEntries_concat, he]
    rfl
  · intro before account after heq
    rcases List.eq_nil_or_concat after with rfl | ⟨rest, last, rfl⟩
    · obtain ⟨rfl, hlast⟩ := List.append_inj' heq rfl
      rw [← (List.cons.inj hlast).1]
      exact hs
    · rw [List.concat_eq_append, ← List.cons_append, ← List.append_assoc] at heq
      exact h.settled before account rest (List.append_inj' heq rfl).1

/-- Each account has been settled with the models that were there at its time. -/
theorem Ledger.exists_settled {accounts : List Account} (h : Ledger known options schemas accounts)
    {account : Account} (hm : account ∈ accounts) :
    ∃ items, Settled known items account.key account.schema account.result := by
  obtain ⟨before, after, heq⟩ := List.append_of_mem hm
  exact ⟨_, h.settled before account after heq⟩

/-- An account is a collision exactly if its model has the name of a model before it. -/
theorem Ledger.collision_iff {before after : List Account} {account : Account}
    (h : Ledger known options schemas (before ++ account :: after))
    (hd : ((ofAccounts (before ++ account :: after)).items.map Entity.name).Nodup)
    {name first : String} :
    (∃ failure, account.result = .error failure ∧ failure.cause = .nameCollision name first) ↔
      (∃ entity, resolveEntity known account.key account.schema = .ok entity ∧
        entity.name = name) ∧
      ∃ item ∈ (ofAccounts before).items, item.rawName = first ∧ item.name = name := by
  rw [ofAccounts, List.filterMap_append, List.map_append] at hd
  exact (h.settled before account after rfl).collision_iff (List.nodup_append.mp hd).1

/-- The models and the failures of components are those of their accounts. -/
theorem exists_ledger (known : KnownTypes) (options : Options) (schemas : Fields SchemaOrRef) :
    ∃ accounts, Ledger known options schemas accounts ∧
      List.foldl (addSchema known options) .none schemas = ofAccounts accounts := by
  -- What the last component comes to depends on the models of all before it.
  induction schemas using List.reverseRecOn with
  | nil => exact ⟨[], ⟨rfl, fun before account after h => absurd h.symm (by simp)⟩, rfl⟩
  | append_singleton schemas entry ih =>
    obtain ⟨accounts, hledger, hfold⟩ := ih
    rw [List.foldl_append, List.foldl_cons, List.foldl_nil, hfold]
    cases he : eligible? options entry with
    | none =>
      refine ⟨accounts, ⟨?_, hledger.settled⟩, by rw [addSchema, he]⟩
      rw [hledger.entries, eligibleEntries_concat, he, Option.map_none, Option.toList_none,
        List.append_nil]
    | some schema =>
      obtain ⟨result, hs, hadd⟩ := addSchema_of_eligible accounts he
      exact ⟨_, hledger.concat he hs, hadd⟩

/-! ### Linking -/

@[simp]
theorem rawName_linkInterfaces (entities : List Entity) (entity : Entity) :
    (linkInterfaces entities entity).rawName = entity.rawName := by
  cases entity with
  | object model => rfl
  | interface model => rfl

/-- An account with a change made to the model. -/
def Account.mapItem (f : Entity → Entity) (account : Account) : Account :=
  { account with result := account.result.map f }

@[simp]
theorem Account.item?_mapItem (f : Entity → Entity) (account : Account) :
    (account.mapItem f).item? = account.item?.map f := by
  obtain ⟨key, schema, result⟩ := account
  cases result with
  | ok item => rfl
  | error failure => rfl

@[simp]
theorem Account.failure?_mapItem (f : Entity → Entity) (account : Account) :
    (account.mapItem f).failure? = account.failure? := by
  obtain ⟨key, schema, result⟩ := account
  cases result with
  | ok item => rfl
  | error failure => rfl

/-- Changing the models of accounts changes no failure. -/
theorem ofAccounts_map (f : Entity → Entity) (accounts : List Account) :
    ofAccounts (accounts.map (Account.mapItem f)) =
      ⟨(ofAccounts accounts).items.map f, (ofAccounts accounts).failures⟩ := by
  simp [ofAccounts, List.filterMap_map, List.map_filterMap]

/-! ### Documents -/

/-- The accounts of a document. -/
structure AccountsFor (schemas : Fields SchemaOrRef) (options : Options)
    (resolution : ModelResolution) (accounts : List Account) : Prop where
  /-- A component that gets a model has exactly one account. -/
  complete : ∀ key schema, Eligible options schemas key schema →
    ∃! account, account ∈ accounts ∧ account.key = key
  /-- No other component has an account. -/
  eligible : ∀ account ∈ accounts, Eligible options schemas account.key account.schema
  /-- The accounts are in the order of the components. -/
  order : (accounts.map Account.key).Sublist schemas.keys
  /-- What there is are the models and the failures of the accounts, in their order. -/
  models : resolution.models = ofAccounts accounts
  /-- A model is named after its component. -/
  named : ∀ account ∈ accounts, ∀ item, account.result = .ok item →
    item.rawName = account.key ∧ item.name = options.naming.className account.key
  /-- A failure is at the place of its component, or at that of one of its properties. -/
  located : ∀ account ∈ accounts, ∀ failure, account.result = .error failure →
    IsAt account.key account.schema failure
  /-- No two models have the same name. -/
  distinct : (resolution.models.items.map Entity.name).Nodup
  /-- A component collides exactly if it has a model of a name that an earlier one has. -/
  collision : ∀ before account after, accounts = before ++ account :: after → ∀ name first,
    (∃ failure, account.result = .error failure ∧ failure.cause = .nameCollision name first) ↔
      (∃ entity, resolveEntity resolution.known account.key account.schema = .ok entity ∧
        entity.name = name) ∧
      ∃ item ∈ (ofAccounts before).items, item.rawName = first ∧ item.name = name

section

variable {accounts : List Account}

theorem keys_sublist_of_entries (h : (accounts.map fun account => (account.key, account.schema)) =
    eligibleEntries options schemas) : (accounts.map Account.key).Sublist schemas.keys := by
  have hkeys := keys_eligibleEntries_sublist options schemas
  rwa [← h, List.map_map] at hkeys

theorem eligible_of_entries (h : (accounts.map fun account => (account.key, account.schema)) =
    eligibleEntries options schemas) {account : Account} (hm : account ∈ accounts) :
    Eligible options schemas account.key account.schema := by
  rw [← mem_eligibleEntries_iff, ← h]
  exact List.mem_map_of_mem hm

/-- If the keys differ, each eligible component has one account. -/
theorem existsUnique_of_entries (hd : schemas.keys.Nodup)
    (h : (accounts.map fun account => (account.key, account.schema)) =
      eligibleEntries options schemas) (he : Eligible options schemas key schema) :
    ∃! account, account ∈ accounts ∧ account.key = key := by
  rw [← mem_eligibleEntries_iff, ← h] at he
  obtain ⟨account, hm, hpair⟩ := List.mem_map.mp he
  have hkey := (Prod.mk.inj hpair).1
  refine ⟨account, ⟨hm, hkey⟩, fun other ho => ?_⟩
  exact List.inj_on_of_nodup_map ((keys_sublist_of_entries h).nodup hd) ho.1 hm
    (ho.2.trans hkey.symm)

end

/-- Every component that is eligible for a model has one account, which is its model or a failure,
and these are all models and all failures of a document. -/
theorem exists_accountsFor (schemas : Fields SchemaOrRef) (options : Options)
    (hd : schemas.keys.Nodup) :
    ∃ accounts, AccountsFor schemas options (resolveModels schemas options) accounts := by
  obtain ⟨ledger, hledger, hfold⟩ :=
    exists_ledger (resolveModels schemas options).known options schemas
  have hnaming : (resolveModels schemas options).known.naming = options.naming :=
    KnownTypes.naming_scan
  -- Linking changes nothing of an account but the interfaces of its class.
  let link := Account.mapItem (linkInterfaces (ofAccounts ledger).items)
  have hentries : ((ledger.map link).map fun account => (account.key, account.schema)) =
      eligibleEntries options schemas := by
    rw [List.map_map, ← hledger.entries]
    rfl
  have hmodels : (resolveModels schemas options).models = ofAccounts (ledger.map link) := by
    rw [ofAccounts_map, ← hfold]
    rfl
  refine ⟨ledger.map link, ⟨fun key schema => existsUnique_of_entries hd hentries,
    fun account => eligible_of_entries hentries, keys_sublist_of_entries hentries, hmodels, ?_, ?_,
    nodup_names, ?_⟩⟩
  · intro account hm item hr
    obtain ⟨original, ho, rfl⟩ := List.mem_map.mp hm
    obtain ⟨items, hs⟩ := hledger.exists_settled ho
    obtain ⟨entity, he, rfl⟩ := map_eq_ok.mp hr
    rw [rawName_linkInterfaces, name_linkInterfaces, ← hnaming]
    exact hs.named he
  · intro account hm failure hr
    obtain ⟨original, ho, rfl⟩ := List.mem_map.mp hm
    obtain ⟨items, hs⟩ := hledger.exists_settled ho
    exact hs.located (map_eq_error.mp hr)
  · intro before account after heq name first
    obtain ⟨start, rest, hsplit, rfl, hrest⟩ := List.map_eq_append_iff.mp heq
    obtain ⟨original, tail, rfl, rfl, rfl⟩ := List.map_eq_cons_iff.mp hrest
    have hnodup : ((ofAccounts ledger).items.map Entity.name).Nodup := hfold ▸ nodup_names_foldl
    rw [hsplit] at hledger hnodup
    rw [ofAccounts_map]
    simp only [link, Account.mapItem, map_eq_error, List.mem_map, exists_exists_and_eq_and,
      rawName_linkInterfaces, name_linkInterfaces]
    exact hledger.collision_iff hnodup

/-! ### Tags -/

/-- Three tags of one class name, of which the first one has a property without a type, and what
gets no model: a list, a bare primitive, a reference, and what is left out. -/
def tagSchemas : Fields SchemaOrRef :=
  [("pet-tag", .inline { bare .object with properties := [("size", .inline .blank)] }),
    ("Tags", .inline (bare .array)), ("pet_tag", .inline (bare .object)),
    ("Code", .inline (bare .string)), ("Label", .ref "#/components/schemas/pet_tag"),
    ("PetTag", .inline (bare .object)), ("Draft", .inline (bare .object)),
    ("Owner", .inline (bare .object))]

/-- A tag that fails does not take the name of the tags after it. -/
theorem exists_accountsFor_tags :
    let resolution := resolveModels tagSchemas ⟨.plain, ["Draft"], []⟩
    tagSchemas.keys.Nodup ∧
      resolution.models.items.map Entity.rawName = ["pet_tag", "Owner"] ∧
      resolution.models.failures =
        [⟨"pet-tag.size", .noType⟩, ⟨"PetTag", .nameCollision "PetTag" "pet_tag"⟩] ∧
      ∃ before account after,
        AccountsFor tagSchemas ⟨.plain, ["Draft"], []⟩ resolution (before ++ account :: after) ∧
          account.result = .error ⟨"PetTag", .nameCollision "PetTag" "pet_tag"⟩ ∧
          ∃ item ∈ (ofAccounts before).items, item.rawName = "pet_tag" := by
  intro resolution
  have hd : tagSchemas.keys.Nodup := by decide +kernel
  have hfailures : resolution.models.failures =
      [⟨"pet-tag.size", .noType⟩, ⟨"PetTag", .nameCollision "PetTag" "pet_tag"⟩] := by
    decide +kernel
  refine ⟨hd, by decide +kernel, hfailures, ?_⟩
  obtain ⟨accounts, h⟩ := exists_accountsFor tagSchemas ⟨.plain, ["Draft"], []⟩ hd
  have hm : (⟨"PetTag", .nameCollision "PetTag" "pet_tag"⟩ : DefinitionError) ∈
      (ofAccounts accounts).failures := by
    rw [← h.models, hfailures]
    exact List.mem_cons_of_mem _ (List.mem_singleton_self _)
  obtain ⟨account, ha, hf⟩ := List.mem_filterMap.mp hm
  have hr : account.result = .error ⟨"PetTag", .nameCollision "PetTag" "pet_tag"⟩ := by
    rw [Account.failure?] at hf
    split at hf
    · exact absurd hf nofun
    · rename_i failure hr
      rw [hr, Option.some.inj hf]
  obtain ⟨before, after, rfl⟩ := List.append_of_mem ha
  obtain ⟨-, item, hi, hraw, -⟩ := (h.collision before account after rfl _ _).mp ⟨_, hr, rfl⟩
  exact ⟨before, account, after, h, hr, item, hi, hraw⟩

end FunctionForge.Model
