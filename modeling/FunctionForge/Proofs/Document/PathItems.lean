import FunctionForge.Proofs.Document.Loading
import FunctionForge.Proofs.Endpoint.Mentions

/-!
# The operations of a path

A path is read from a sequence of keys with what they hold.  A key that names a method, in any case,
holds an operation; `summary`, `description` and `parameters`, in exactly this case, hold what all
operations share; every other key is passed over (`ofPathEntries_erase`).  `Holds` says so of one
key, and `assembled` of all of them: the operations in the order of their keys, and of the other
parts the last one.  The keys come to this path unless two of them name the same method
(`ofEntries?_eq`), and its operations come to endpoints and failures in this order
(`pathItem_of_entries`).
-/

namespace FunctionForge.Document

open Endpoint (resolveEndpoints)
open Markup (Place Reading Source Yields)
open PathItem (Entry)

/-! ### Keys -/

/-- A key names a method, in any case. -/
def HttpMethod.IsKey (method : HttpMethod) (key : String) : Prop :=
  Text.sameIgnoringCase key method.text = true

instance (method : HttpMethod) (key : String) : Decidable (method.IsKey key) :=
  inferInstanceAs (Decidable (_ = true))

/-- A key names a method in any case. -/
theorem HttpMethod.ofKey?_eq_some_iff {key : String} {method : HttpMethod} :
    ofKey? key = some method ↔ method.IsKey key := by
  have hnames : ∀ entry ∈ byKey, entry.1 = entry.2.lowerText := by decide +kernel
  have hdistinct : (Fields.keys byKey).Nodup := by decide
  have hall : (method.lowerText, method) ∈ byKey := by
    cases method <;> decide +kernel
  rw [IsKey, Text.sameIgnoringCase, beq_iff_eq]
  constructor
  · intro h
    exact hnames _ (Fields.mem_of_get? h)
  · intro h
    have hmem : (Text.asciiLower key, method) ∈ byKey := by
      rw [h]
      exact hall
    exact Fields.get?_of_mem hdistinct hmem

/-- The keys of what all operations of a path share. -/
def sharedKeys : List String :=
  ["summary", "description", "parameters"]

theorem HttpMethod.ofKey?_eq_none_iff {key : String} :
    ofKey? key = none ↔ ∀ method : HttpMethod, ¬method.IsKey key := by
  rw [Option.eq_none_iff_forall_ne_some]
  exact forall_congr' fun method => not_congr ofKey?_eq_some_iff

/-- The keys of what is shared name no method. -/
theorem HttpMethod.ofKey?_of_mem_sharedKeys {key : String} (h : key ∈ sharedKeys) :
    ofKey? key = none := by
  have hnone : ∀ name ∈ sharedKeys, ofKey? name = none := by decide +kernel
  exact hnone key h

/-- A key holds a part of a path. -/
def IsPart (key : String) : Prop :=
  key ∈ sharedKeys ∨ ∃ method : HttpMethod, method.IsKey key

theorem not_isPart_iff {key : String} : ¬IsPart key ↔
    HttpMethod.ofKey? key = none ∧ key ≠ "summary" ∧ key ≠ "description" ∧ key ≠ "parameters" := by
  rw [IsPart, not_or, not_exists, ← HttpMethod.ofKey?_eq_none_iff, and_comm]
  simp [sharedKeys]

/-- What a key holds is of the kind that the key stands for. -/
inductive Holds (key : String) : Entry → Prop where
  | operation {method : HttpMethod} (operation : Operation) (h : method.IsKey key) :
    Holds key (.operation method operation)
  | summary (text : Option String) (h : key = "summary") : Holds key (.summary text)
  | description (text : Option String) (h : key = "description") : Holds key (.description text)
  | parameters (parameters : List (Referable Parameter)) (h : key = "parameters") :
    Holds key (.parameters parameters)
  | other (h : ¬IsPart key) : Holds key .other

/-- A key is read to what it holds. -/
theorem yields_pathEntry (key : String) (place : Place) :
    Yields (Holds key) (Decode.pathEntry key place) := by
  rw [Decode.pathEntry]
  split
  · rename_i method hm
    have hkey : method.IsKey key := HttpMethod.ofKey?_eq_some_iff.mp hm
    exact (Yields.trivial _).map fun operation _ => .operation operation hkey
  · rename_i hm
    split_ifs with hs hd hp
    · exact (Yields.trivial _).map fun text _ => .summary text hs
    · exact (Yields.trivial _).map fun text _ => .description text hd
    · exact (Yields.trivial _).map fun parameters _ => .parameters parameters hp
    · exact Yields.pure (.other (not_isPart_iff.mpr ⟨hm, hs, hd, hp⟩))

/-- Nothing is read of other keys. -/
theorem pathEntry_of_not_isPart {key : String} (h : ¬IsPart key) (place : Place) :
    Decode.pathEntry key place = pure .other := by
  obtain ⟨hm, hs, hd, hp⟩ := not_isPart_iff.mp h
  rw [Decode.pathEntry, hm]
  simp only [if_neg hs, if_neg hd, if_neg hp]

/-! ### Entries -/

namespace PathItem

/-- The operation that an entry gives, with its method. -/
def Entry.operation? : Entry → Option (HttpMethod × Operation)
  | .operation method given => some (method, given)
  | _ => none

/-- The summary that an entry gives. -/
def Entry.summaryText : Entry → Option String
  | .summary text => text
  | _ => none

/-- The description that an entry gives. -/
def Entry.descriptionText : Entry → Option String
  | .description text => text
  | _ => none

/-- The parameters of all operations that an entry gives. -/
def Entry.sharedParameters : Entry → List (Referable Parameter)
  | .parameters given => given
  | _ => []

end PathItem

/-- What the last of the same keys holds. -/
def lastWith (key : String) (declared : List (String × Entry)) : Option Entry :=
  declared.reverse.lookup key

theorem lastWith_concat (key : String) (declared : List (String × Entry))
    (pair : String × Entry) : lastWith key (declared ++ [pair]) =
      if key = pair.1 then some pair.2 else lastWith key declared := by
  rw [lastWith, List.reverse_append, List.reverse_singleton]
  exact Fields.get?_cons pair.1 pair.2 declared.reverse key

/-- The operations among entries, in order. -/
def operationsOf (declared : List (String × Entry)) : List (HttpMethod × Operation) :=
  declared.filterMap fun pair => pair.2.operation?

/-- The path that is declared by entries: its operations in order, and of each other part what the
last entry with its key holds. -/
def assembled (declared : List (String × Entry)) : PathItem where
  summary := (lastWith "summary" declared).bind Entry.summaryText
  description := (lastWith "description" declared).bind Entry.descriptionText
  parameters := ((lastWith "parameters" declared).map Entry.sharedParameters).getD []
  operations := operationsOf declared

/-- A method without an operation is none of those of the item. -/
theorem PathItem.operation?_eq_none_iff {item : PathItem} {method : HttpMethod} :
    item.operation? method = none ↔ method ∉ item.operations.map Prod.fst := by
  rw [operation?, List.lookup_eq_none_iff]
  simp only [List.mem_map, not_exists, not_and, bne_iff_ne]
  exact forall₂_congr fun pair _ => ne_comm

/-- If the methods of a path are distinct, a method has the operation that it is listed with. -/
theorem PathItem.operation?_eq_some_iff {item : PathItem} {method : HttpMethod}
    {operation : Operation} (hd : (item.operations.map Prod.fst).Nodup) :
    item.operation? method = some operation ↔ (method, operation) ∈ item.operations := by
  have hmem {found : Operation} (h : item.operation? method = some found) :
      (method, found) ∈ item.operations := by
    obtain ⟨before, after, hsplit, -⟩ := List.lookup_eq_some_iff.mp h
    rw [hsplit]
    exact List.mem_append_right _ List.mem_cons_self
  refine ⟨hmem, fun h => ?_⟩
  cases hfound : item.operation? method with
  | none => exact absurd (List.mem_map_of_mem h) (operation?_eq_none_iff.mp hfound)
  | some found =>
    obtain ⟨-, rfl⟩ := Prod.mk.inj (List.inj_on_of_nodup_map hd (hmem hfound) h rfl)
    rfl

theorem operationsOf_concat (declared : List (String × Entry)) (pair : String × Entry) :
    operationsOf (declared ++ [pair]) = operationsOf declared ++ pair.2.operation?.toList := by
  rw [operationsOf, List.filterMap_append]
  cases h : pair.2.operation? with
  | none => simp [operationsOf, h]
  | some entry => simp [operationsOf, h]

/-- A further key that holds nothing shared changes at most the operations. -/
theorem assembled_concat_of_not_mem {declared : List (String × Entry)} {pair : String × Entry}
    (h : pair.1 ∉ sharedKeys) : assembled (declared ++ [pair]) =
      { assembled declared with operations := operationsOf (declared ++ [pair]) } := by
  have hlast : ∀ name ∈ sharedKeys,
      lastWith name (declared ++ [pair]) = lastWith name declared := by
    intro name hm
    rw [lastWith_concat, if_neg]
    rintro rfl
    exact h hm
  rw [assembled, hlast _ (by decide), hlast _ (by decide), hlast _ (by decide), assembled]

/-- One more entry leads to the path that is declared with it, unless it is an operation whose
method has one. -/
theorem add?_assembled {declared : List (String × Entry)} {pair : String × Entry}
    (h : Holds pair.1 pair.2) (hd : ((operationsOf declared).map Prod.fst).Nodup) :
    (assembled declared).add? pair.2 =
      if ((operationsOf (declared ++ [pair])).map Prod.fst).Nodup
      then some (assembled (declared ++ [pair])) else none := by
  obtain ⟨key, entry⟩ := pair
  cases h with
  | @operation method given hkey =>
    have hnew : ((operationsOf (declared ++ [(key, .operation method given)])).map Prod.fst).Nodup ↔
        method ∉ (operationsOf declared).map Prod.fst := by
      rw [operationsOf_concat, List.map_append, List.nodup_append_comm]
      exact List.nodup_cons.trans (and_iff_left hd)
    have hfree : ((assembled declared).operation? method).isSome = true ↔
        method ∈ (operationsOf declared).map Prod.fst := by
      rw [← not_iff_not, Bool.not_eq_true, Option.isSome_eq_false_iff, Option.isNone_iff_eq_none]
      exact PathItem.operation?_eq_none_iff
    have hshared : key ∉ sharedKeys := fun hs =>
      HttpMethod.ofKey?_eq_none_iff.mp (HttpMethod.ofKey?_of_mem_sharedKeys hs) method hkey
    rw [assembled_concat_of_not_mem hshared, PathItem.add?]
    -- A method that has an operation already is both refused and repeated.
    by_cases hm : method ∈ (operationsOf declared).map Prod.fst
    · rw [if_pos (hfree.mpr hm), if_neg (mt hnew.mp (not_not_intro hm))]
    · rw [if_neg (mt hfree.mp hm), if_pos (hnew.mpr hm), operationsOf_concat]
      rfl
  | summary text hs =>
    subst hs
    simp [assembled, lastWith_concat, operationsOf_concat, PathItem.add?, Entry.operation?,
      Entry.summaryText, hd]
  | description text hs =>
    subst hs
    simp [assembled, lastWith_concat, operationsOf_concat, PathItem.add?, Entry.operation?,
      Entry.descriptionText, hd]
  | parameters given hs =>
    subst hs
    simp [assembled, lastWith_concat, operationsOf_concat, PathItem.add?, Entry.operation?,
      Entry.sharedParameters, hd]
  | other hp =>
    have hsame : operationsOf (declared ++ [(key, .other)]) = operationsOf declared := by
      rw [operationsOf_concat]
      exact List.append_nil _
    rw [assembled_concat_of_not_mem fun hm => hp (.inl hm), hsame, if_pos hd]
    rfl

/-- The entries of a path come to the one that they declare, unless two of them are operations of
one method. -/
theorem ofEntries?_eq {declared : List (String × Entry)}
    (h : ∀ pair ∈ declared, Holds pair.1 pair.2) :
    PathItem.ofEntries? (declared.map Prod.snd) =
      if ((operationsOf declared).map Prod.fst).Nodup then some (assembled declared) else none := by
  -- Entries are added at the end, so the induction is on all but the last one.
  induction declared using List.reverseRecOn with
  | nil => rfl
  | append_singleton declared pair ih =>
    obtain ⟨hbefore, hpair⟩ := List.forall_mem_append.mp h
    have hlast : Holds pair.1 pair.2 := hpair pair List.mem_cons_self
    have hfold : PathItem.ofEntries? ((declared ++ [pair]).map Prod.snd) =
        PathItem.ofEntries? (declared.map Prod.snd) >>= fun item => item.add? pair.2 := by
      simp [PathItem.ofEntries?, List.foldlM_append]
    rw [hfold, ih hbefore]
    by_cases hd : ((operationsOf declared).map Prod.fst).Nodup
    · rw [if_pos hd]
      exact add?_assembled hlast hd
    · have hrepeats : ¬((operationsOf (declared ++ [pair])).map Prod.fst).Nodup := by
        rw [operationsOf_concat, List.map_append]
        exact fun hall => hd hall.of_append_left
      rw [if_neg hd, if_neg hrepeats]
      rfl

/-- The method of what a key holds is the one that the key names. -/
theorem Holds.method_eq {key : String} {entry : Entry} (h : Holds key entry) :
    entry.operation?.map Prod.fst = HttpMethod.ofKey? key := by
  cases h with
  | operation given hkey => exact (HttpMethod.ofKey?_eq_some_iff.mpr hkey).symm
  | summary text hs =>
    subst hs
    exact (HttpMethod.ofKey?_of_mem_sharedKeys (by decide)).symm
  | description text hs =>
    subst hs
    exact (HttpMethod.ofKey?_of_mem_sharedKeys (by decide)).symm
  | parameters given hs =>
    subst hs
    exact (HttpMethod.ofKey?_of_mem_sharedKeys (by decide)).symm
  | other hp => exact (not_isPart_iff.mp hp).1.symm

/-- The methods of the operations are those that keys name, in order. -/
theorem methods_operationsOf {declared : List (String × Entry)}
    (h : ∀ pair ∈ declared, Holds pair.1 pair.2) : (operationsOf declared).map Prod.fst =
      (declared.map Prod.fst).filterMap HttpMethod.ofKey? := by
  rw [operationsOf, List.map_filterMap, List.filterMap_map]
  exact List.filterMap_congr fun pair hm => (h pair hm).method_eq

/-- Methods repeat exactly if two keys name the same one. -/
theorem not_nodup_methods_iff {keys : List String} :
    ¬(keys.filterMap HttpMethod.ofKey?).Nodup ↔
      ∃ (method : HttpMethod) (first second : String), [first, second].Sublist keys ∧
        method.IsKey first ∧ method.IsKey second := by
  rw [List.Nodup, List.pairwise_filterMap, List.pairwise_iff_forall_sublist]
  simp only [HttpMethod.ofKey?_eq_some_iff]
  push Not
  constructor
  · rintro ⟨first, second, hsub, method, hfirst, _, hsecond, rfl⟩
    exact ⟨method, first, second, hsub, hfirst, hsecond⟩
  · rintro ⟨method, first, second, hsub, hfirst, hsecond⟩
    exact ⟨first, second, hsub, method, hfirst, method, hsecond, rfl⟩

/-- An operation belongs to the key that names its method. -/
theorem mem_operationsOf_iff {declared : List (String × Entry)} {method : HttpMethod}
    {operation : Operation} (h : ∀ pair ∈ declared, Holds pair.1 pair.2) :
    (method, operation) ∈ operationsOf declared ↔
      ∃ key, method.IsKey key ∧ (key, .operation method operation) ∈ declared := by
  rw [operationsOf, List.mem_filterMap]
  constructor
  · rintro ⟨⟨key, entry⟩, hm, hgiven⟩
    cases h _ hm with
    | operation given hkey =>
      obtain ⟨rfl, rfl⟩ := Prod.mk.inj (Option.some.inj hgiven)
      exact ⟨key, hkey, hm⟩
    | _ => exact absurd hgiven nofun
  · rintro ⟨key, -, hm⟩
    exact ⟨_, hm, rfl⟩

theorem holds_of_mem_zip {keys : List String} {values : List Entry}
    (h : List.Forall₂ Holds keys values) : ∀ pair ∈ keys.zip values, Holds pair.1 pair.2 :=
  fun _ hm => (List.forall₂_iff_zip.mp h).2 hm

/-- What keys hold comes to the path that is declared with them, unless two of them name the same
method. -/
theorem ofEntries?_zip {keys : List String} {values : List Entry}
    (h : List.Forall₂ Holds keys values) : PathItem.ofEntries? values =
      if (keys.filterMap HttpMethod.ofKey?).Nodup then some (assembled (keys.zip values))
      else none := by
  have hkeys : (keys.zip values).map Prod.fst = keys := List.map_fst_zip h.length_eq.le
  have hvalues : (keys.zip values).map Prod.snd = values := List.map_snd_zip h.length_eq.ge
  have hitem := ofEntries?_eq (holds_of_mem_zip h)
  rwa [hvalues, methods_operationsOf (holds_of_mem_zip h), hkeys] at hitem

/-! ### Sequences of keys -/

/-- Reads what each key of a path holds. -/
def readEntries (entries : List (String × Place)) : Reading (List Entry) :=
  entries.mapM fun (key, place) => Decode.pathEntry key place

theorem yields_readEntries (entries : List (String × Place)) :
    Yields (List.Forall₂ Holds (entries.map Prod.fst)) (readEntries entries) := by
  have hread : Yields (List.Forall₂ (fun entry => Holds entry.1) entries) (readEntries entries) :=
    Yields.mapM (fun (key, place) => yields_pathEntry key place) entries
  intro source jumps result hr
  exact List.forall₂_map_left_iff.mpr (hread source jumps result hr)

/-- Reads a path with these keys. -/
def ofPathEntries (entries : List (String × Place)) : Reading PathItem := do
  Reading.ofOption (PathItem.ofEntries? (← readEntries entries))

theorem pathItem_eq (place : Place) :
    Decode.pathItem place = place.entries >>= ofPathEntries := rfl

/-- A key that holds no part of a path is passed over. -/
theorem ofPathEntries_erase {key : String} (h : ¬IsPart key) (before after : List (String × Place))
    (place : Place) :
    ofPathEntries (before ++ (key, place) :: after) = ofPathEntries (before ++ after) := by
  have hother (front back : List Entry) :
      PathItem.ofEntries? (front ++ .other :: back) = PathItem.ofEntries? (front ++ back) := by
    rw [PathItem.ofEntries?, PathItem.ofEntries?, List.foldlM_append, List.foldlM_append]
    rfl
  -- What is passed over is read without a look at the document, so the other readings stay.
  simp only [ofPathEntries, readEntries, List.mapM_append, List.mapM_cons,
    pathEntry_of_not_isPart h place, bind_assoc, pure_bind, hother]

variable {entries : List (String × Place)} {source : Source} {jumps rest : Nat}
  {values : List Entry}

/-- If the keys can be read, the path has what they hold, unless two of them name the same
method. -/
theorem run_ofPathEntries
    (h : ((readEntries entries).run source).run jumps = some (values, rest)) :
    ((ofPathEntries entries).run source).run jumps =
      if ((entries.map Prod.fst).filterMap HttpMethod.ofKey?).Nodup
      then some (assembled ((entries.map Prod.fst).zip values), rest) else none := by
  have hrun : ((ofPathEntries entries).run source).run jumps =
      (((readEntries entries).run source).run jumps).bind fun result =>
        ((Reading.ofOption (PathItem.ofEntries? result.1)).run source).run result.2 := rfl
  rw [hrun, h, Option.bind_some, ofEntries?_zip (yields_readEntries entries source jumps _ h)]
  split_ifs
  · rfl
  · rfl

/-! ### Endpoints -/

/-- The operations of a path come to endpoints and failures in their order, between those of the
other paths. -/
theorem resolveEndpoints_middle (known : KnownTypes) (schemas : Fields SchemaOrRef) (path : String)
    (item : PathItem) (before after : Fields PathItem) :
    let resolved := item.operations.map fun (method, operation) =>
      Endpoint.resolve known schemas ⟨path, method, item.parameters, operation⟩
    resolveEndpoints known schemas (before ++ (path, item) :: after) =
      ⟨(resolveEndpoints known schemas before).items ++ resolved.filterMap Except.toOption ++
          (resolveEndpoints known schemas after).items,
        (resolveEndpoints known schemas before).failures ++ resolved.filterMap error? ++
          (resolveEndpoints known schemas after).failures⟩ := by
  simp [Endpoint.resolveEndpoints_eq, Endpoint.sites, Endpoint.sitesOfPath, Function.comp_def]

/-! ### Paths -/

/-- If the values of a sequence of keys can be read, the path that they declare can be read unless
two keys name the same method.  It has the operations of all keys that name a method, in order, each
of them with a method of its own, and as its other parts what the last of their keys holds, while
further keys change nothing.  Its operations come to endpoints and failures in the order of the
keys. -/
theorem pathItem_of_entries {entries : List (String × Place)} {values : List Entry}
    {source : Source} {jumps rest : Nat}
    (h : ((readEntries entries).run source).run jumps = some (values, rest)) :
    let keys := entries.map Prod.fst
    let declared := keys.zip values
    let outcome := ((ofPathEntries entries).run source).run jumps
    (∀ place, Decode.pathItem place = place.entries >>= ofPathEntries) ∧
      List.Forall₂ Holds keys values ∧
      (outcome = none ↔ ∃ (method : HttpMethod) (first second : String),
        [first, second].Sublist keys ∧ method.IsKey first ∧ method.IsKey second) ∧
      (∀ item left, outcome = some (item, left) →
        item = assembled declared ∧
          item.operations.map Prod.fst = keys.filterMap HttpMethod.ofKey? ∧
          (item.operations.map Prod.fst).Nodup ∧
          (∀ method operation, item.operation? method = some operation ↔
            ∃ key, method.IsKey key ∧ (key, .operation method operation) ∈ declared) ∧
          ∀ known schemas path before after,
            let resolved := (operationsOf declared).map fun (method, operation) =>
              Endpoint.resolve known schemas ⟨path, method, item.parameters, operation⟩
            resolveEndpoints known schemas (before ++ (path, item) :: after) =
              ⟨(resolveEndpoints known schemas before).items ++
                  resolved.filterMap Except.toOption ++
                  (resolveEndpoints known schemas after).items,
                (resolveEndpoints known schemas before).failures ++ resolved.filterMap error? ++
                  (resolveEndpoints known schemas after).failures⟩) ∧
      ∀ before after key place, ¬IsPart key →
        ofPathEntries (before ++ (key, place) :: after) = ofPathEntries (before ++ after) := by
  intro keys declared outcome
  have hread : List.Forall₂ Holds keys values := yields_readEntries entries source jumps _ h
  have hholds : ∀ pair ∈ declared, Holds pair.1 pair.2 := holds_of_mem_zip hread
  have hmethods : (operationsOf declared).map Prod.fst = keys.filterMap HttpMethod.ofKey? := by
    rw [methods_operationsOf hholds, List.map_fst_zip hread.length_eq.le]
  have houtcome : outcome = if (keys.filterMap HttpMethod.ofKey?).Nodup
      then some (assembled declared, rest) else none := run_ofPathEntries h
  refine ⟨pathItem_eq, hread, ?_, ?_, fun before after key place hkey =>
    ofPathEntries_erase hkey before after place⟩
  · -- The keys come to a path unless a method is named twice.
    rw [houtcome, ← not_nodup_methods_iff, ite_eq_right_iff]
    exact ⟨fun hnone hd => absurd (hnone hd) nofun, fun hrepeats hd => absurd hd hrepeats⟩
  · intro item left hsome
    rw [houtcome, Option.ite_none_right_eq_some] at hsome
    obtain ⟨hd, hitem⟩ := hsome
    obtain ⟨rfl, -⟩ := Prod.mk.inj (Option.some.inj hitem)
    rw [← hmethods] at hd
    refine ⟨rfl, hmethods, hd, fun method operation => ?_, fun known schemas path before after =>
      resolveEndpoints_middle known schemas path _ before after⟩
    rw [PathItem.operation?_eq_some_iff hd]
    exact mem_operationsOf_iff hholds

/-- The place of a text. -/
def wordPlace (text : String) : Place where
  node := .scalar {
    atom := some (.string text)
    text := some text
    isAbsent := some false
    isBlank := false
    natural := none }
  depth := 3

/-- The place of an operation of which only the name is given. -/
def operationPlace (operationId : String) : Place where
  node := .mapping false [((wordPlace "operationId").node, (wordPlace operationId).node)]
  depth := 3

/-- The keys of a path whose summary comes twice, with one key that is no part of it. -/
def petEntries : List (String × Place) :=
  [("put", operationPlace "replacePet"), ("summary", wordPlace "A pet"),
    ("x-internal", wordPlace "yes"), ("GET", operationPlace "showPet"),
    ("summary", wordPlace "One pet")]

/-- A document without anchors. -/
def petSource : Source where
  root := (wordPlace "pets").node
  anchors := []
  jumps := 0
  depth := 3
  listsRecords := false

/-- The path of a pet has two operations in the order of their keys, and none at all if one of them
is given once more, in another case. -/
theorem pathItem_of_entries_pets :
    (∃ values item operation,
      ((readEntries petEntries).run petSource).run 0 = some (values, 0) ∧
        ((ofPathEntries petEntries).run petSource).run 0 = some (item, 0) ∧
        item.operations.map Prod.fst = [.put, .get] ∧
        item.operation? .get = some operation ∧
        ("GET", .operation .get operation) ∈ (petEntries.map Prod.fst).zip values) ∧
      ((ofPathEntries (petEntries ++ [("Get", operationPlace "findPet")])).run petSource).run 0 =
        none := by
  constructor
  · have hread : (((readEntries petEntries).run petSource).run 0).map Prod.snd = some 0 := by
      decide +kernel
    have hmade : (((ofPathEntries petEntries).run petSource).run 0).map (fun made =>
        ((made.1.operation? .get).isSome, made.2)) = some (true, 0) := by decide +kernel
    obtain ⟨⟨values, rest⟩, hvalues, rfl⟩ := Option.map_eq_some_iff.mp hread
    obtain ⟨⟨item, left⟩, hitem, hleft⟩ := Option.map_eq_some_iff.mp hmade
    obtain ⟨hget, rfl⟩ := Prod.mk.inj hleft
    obtain ⟨operation, hoperation⟩ := Option.isSome_iff_exists.mp hget
    obtain ⟨-, -, -, hpath, -⟩ := pathItem_of_entries hvalues
    obtain ⟨-, hmethods, -, hdeclared, -⟩ := hpath item 0 hitem
    obtain ⟨key, hkey, hm⟩ := (hdeclared .get operation).mp hoperation
    have hnames : ∀ name ∈ petEntries.map Prod.fst, HttpMethod.get.IsKey name → name = "GET" := by
      decide +kernel
    obtain rfl : key = "GET" := hnames key (List.of_mem_zip hm).1 hkey
    exact ⟨values, item, operation, hvalues, hitem, hmethods.trans (by decide +kernel),
      hoperation, hm⟩
  · have hread : (((readEntries (petEntries ++ [("Get", operationPlace "findPet")])).run
        petSource).run 0).map Prod.snd = some 0 := by decide +kernel
    obtain ⟨⟨values, rest⟩, hvalues, rfl⟩ := Option.map_eq_some_iff.mp hread
    obtain ⟨-, -, houtcome, -, -⟩ := pathItem_of_entries hvalues
    refine houtcome.mpr ⟨.get, "GET", "Get", ?_, by decide +kernel, by decide +kernel⟩
    decide +kernel

end FunctionForge.Document
