import FunctionForge.Proofs.Registry

/-!
# Histories of registries

What a registry answers is a function of the calls that were made to it (`answers_ofCalls`): a name
is refused exactly if an earlier call was about it and the first thing of a name stays, and
something differs exactly if its fingerprint is not that of the artifact that stands under its name.
`standing?` reads that artifact off the calls: it is the first one that was recorded with the name
if the first thing of a name stays, and else the last one.

A name that is recorded alone has no fingerprint, and a later call may still give it one; but what
is submitted under such a name is refused if the first thing of a name stays, and nothing is
recorded of it.  So a submitted artifact counts as recorded only if it was admitted (`recording?`).
-/

namespace FunctionForge

namespace DuplicateMode

variable {β γ : Type}

/-- Which of an earlier and a later thing counts, if there are any. -/
def choose (mode : DuplicateMode) (earlier later : Option β) : Option β :=
  match mode with
  | .once => earlier.or later
  | .overwrite => later.or earlier

@[simp]
theorem choose_none (mode : DuplicateMode) (earlier : Option β) :
    mode.choose earlier none = earlier := by
  cases mode with
  | once => exact Option.or_none
  | overwrite => rfl

theorem map_choose (f : β → γ) (mode : DuplicateMode) (earlier later : Option β) :
    (mode.choose earlier later).map f = mode.choose (earlier.map f) (later.map f) := by
  cases mode with
  | once => exact Option.map_or
  | overwrite => exact Option.map_or

end DuplicateMode

namespace Registry

variable {α φ : Type}

/-! ### Calls -/

/-- A call that changes a registry. -/
inductive Call (α : Type) where
  /-- Records a name alone. -/
  | record (name : String)
  /-- Records a name with an artifact. -/
  | recordWith (name : String) (artifact : α)
  /-- Submits an artifact under a name. -/
  | submit (name : String) (artifact : α)
  deriving Repr, DecidableEq

namespace Call

/-- The name that a call is about. -/
def name : Call α → String
  | .record name | .recordWith name _ | .submit name _ => name

/-- What a call makes of a registry that compares artifacts by their fingerprints. -/
def apply (fingerprint : α → φ) (registry : Registry φ) : Call α → Registry φ
  | .record name => registry.record name
  | .recordWith name artifact => registry.recordWith name (fingerprint artifact)
  | .submit name artifact => (registry.submit name (fingerprint artifact)).2

/-- The artifact that a call records with a name, if the names of `taken` were recorded before. -/
def recording? (mode : DuplicateMode) (taken : List String) (key : String) : Call α → Option α
  | .record _ => none
  | .recordWith name artifact => if name = key then some artifact else none
  | .submit name artifact =>
    if name = key ∧ (mode = .overwrite ∨ key ∉ taken) then some artifact else none

variable {mode : DuplicateMode} {taken : List String} {key : String}

theorem recording?_of_ne {call : Call α} (h : call.name ≠ key) :
    call.recording? mode taken key = none := by
  cases call with
  | record name => rfl
  | recordWith name artifact => exact if_neg h
  | submit name artifact => exact if_neg fun hboth => h hboth.1

/-- Of the names that were recorded before, only that of the call counts. -/
theorem recording?_congr {others : List String} (h : key ∈ taken ↔ key ∈ others) (call : Call α) :
    call.recording? mode taken key = call.recording? mode others key := by
  cases call with
  | record name => rfl
  | recordWith name artifact => rfl
  | submit name artifact => simp only [recording?, h]

end Call

variable {mode : DuplicateMode} {name : String} {earlier calls : List (Call α)}

/-- The artifacts that are recorded with a name by calls after some earlier ones. -/
def recordingsAfter (mode : DuplicateMode) (name : String) (earlier : List (Call α)) :
    List (Call α) → List α
  | [] => []
  | call :: rest =>
    (call.recording? mode (earlier.map Call.name) name).toList ++
      recordingsAfter mode name (earlier ++ [call]) rest

/-- The artifact that stands under a name after some calls. -/
def standing? (mode : DuplicateMode) (name : String) (calls : List (Call α)) : Option α :=
  match mode with
  | .once => (recordingsAfter mode name [] calls).head?
  | .overwrite => (recordingsAfter mode name [] calls).getLast?

/-- The last call adds its artifact to the recordings, if it records one. -/
theorem recordingsAfter_concat (call : Call α) :
    recordingsAfter mode name earlier (calls ++ [call]) =
      recordingsAfter mode name earlier calls ++
        (call.recording? mode ((earlier ++ calls).map Call.name) name).toList := by
  induction calls generalizing earlier with
  | nil => simp [recordingsAfter]
  | cons first rest ih =>
    rw [List.cons_append, recordingsAfter, recordingsAfter, ih, List.append_assoc,
      List.append_assoc, List.singleton_append]

/-- What stands under a name after a call is chosen between what stood there and what the call
records. -/
theorem standing?_concat (call : Call α) :
    standing? mode name (calls ++ [call]) =
      mode.choose (standing? mode name calls)
        (call.recording? mode (calls.map Call.name) name) := by
  unfold standing?
  rw [recordingsAfter_concat, List.nil_append]
  cases mode with
  | once => simp [List.head?_append, DuplicateMode.choose]
  | overwrite =>
    rw [List.getLast?_append]
    cases call.recording? .overwrite (calls.map Call.name) name with
    | none => rfl
    | some artifact => rfl

/-- The calls that are about a name. -/
def callsOf (name : String) (calls : List (Call α)) : List (Call α) :=
  calls.filter fun call => call.name = name

theorem mem_names_callsOf_iff :
    name ∈ (callsOf name calls).map Call.name ↔ name ∈ calls.map Call.name := by
  simp [callsOf]

/-- Calls that are about other names do not count for what stands under a name. -/
theorem standing?_callsOf :
    standing? mode name (callsOf name calls) = standing? mode name calls := by
  induction calls using List.reverseRecOn with
  | nil => rfl
  | append_singleton calls call ih =>
    by_cases h : call.name = name
    · have hfilter : callsOf name (calls ++ [call]) = callsOf name calls ++ [call] := by
        simp [callsOf, h]
      rw [hfilter, standing?_concat, standing?_concat, ih,
        Call.recording?_congr mem_names_callsOf_iff]
    · have hfilter : callsOf name (calls ++ [call]) = callsOf name calls := by
        simp [callsOf, h]
      rw [hfilter, ih, standing?_concat, Call.recording?_of_ne h, DuplicateMode.choose_none]

/-! ### One call -/

variable {registry : Registry φ} {key : String} {print : φ}

theorem fingerprint?_eq_none_of_not_mem (h : name ∉ registry.names) :
    registry.fingerprint? name = none := by
  rw [fingerprint?, Fields.get?_eq_none_iff.mpr h]
  rfl

theorem fingerprint?_insert (print : Option φ) :
    fingerprint? { registry with generated := registry.generated.insert key print } name =
      if name = key then print else registry.fingerprint? name := by
  rw [fingerprint?, Fields.get?_insert]
  split_ifs with h
  · rfl
  · rfl

theorem mode_record : (registry.record key).mode = registry.mode := by
  rw [record]
  split_ifs
  · rfl
  · rfl

theorem mem_names_record_iff :
    name ∈ (registry.record key).names ↔ name ∈ registry.names ∨ key = name := by
  rw [record]
  split_ifs with h
  · rw [Fields.has_iff_mem_keys] at h
    exact (or_iff_left_of_imp fun heq => heq ▸ h).symm
  · rw [or_comm, eq_comm]
    exact Fields.mem_keys_insert

/-- A name that is recorded alone gets no fingerprint, and keeps the one that it has. -/
theorem fingerprint?_record :
    (registry.record key).fingerprint? name = registry.fingerprint? name := by
  rw [record]
  split_ifs with h
  · rfl
  · rw [fingerprint?_insert]
    split_ifs with heq
    · rw [heq, fingerprint?_eq_none_of_not_mem fun hm => h (Fields.has_iff_mem_keys.mpr hm)]
    · rfl

theorem mode_recordWith : (registry.recordWith key print).mode = registry.mode := by
  rw [recordWith]
  split_ifs
  · rfl
  · rfl

/-- Recording adds one name. -/
theorem mem_names_recordWith_iff :
    name ∈ (registry.recordWith key print).names ↔ name ∈ registry.names ∨ key = name := by
  rw [recordWith]
  split_ifs with h
  · rw [or_comm, eq_comm]
    exact Fields.mem_keys_insert
  · -- What has a fingerprint is recorded.
    have hm : key ∈ registry.names := by
      by_contra hm
      rw [fingerprint?_eq_none_of_not_mem hm] at h
      exact h rfl
    exact (or_iff_left_of_imp fun heq => heq ▸ hm).symm

/-- A fingerprint stays, unless later things take the place of earlier ones. -/
theorem fingerprint?_recordWith : (registry.recordWith key print).fingerprint? name =
    registry.mode.choose (registry.fingerprint? name)
      (if key = name then some print else none) := by
  rw [recordWith]
  by_cases heq : key = name
  · subst heq
    rw [if_pos rfl]
    split_ifs with h
    · -- The fingerprint is new, or it takes the place of the old one.
      rw [fingerprint?_insert, if_pos rfl]
      cases hmode : registry.mode with
      | overwrite => rfl
      | once =>
        rw [hmode, Bool.or_eq_true, Option.isNone_iff_eq_none] at h
        rw [h.resolve_right (by decide)]
        rfl
    · -- There is a fingerprint, and it stays.
      rw [Bool.or_eq_true, not_or, Option.isNone_iff_eq_none] at h
      obtain ⟨recorded, hrecorded⟩ := Option.ne_none_iff_exists'.mp h.1
      cases hmode : registry.mode with
      | overwrite => exact absurd (by rw [hmode]; rfl) h.2
      | once =>
        rw [hrecorded]
        rfl
  · rw [if_neg heq, DuplicateMode.choose_none]
    split_ifs
    · rw [fingerprint?_insert, if_neg (Ne.symm heq)]
    · rfl

theorem shouldGenerate_iff : registry.shouldGenerate name = true ↔
    registry.mode = .overwrite ∨ name ∉ registry.names := by
  rw [← not_iff_not, Bool.not_eq_true, shouldGenerate_eq_false_iff, not_or, not_not]
  refine and_congr_left fun _ => ?_
  cases registry.mode with
  | overwrite => exact ⟨nofun, fun h => absurd rfl h⟩
  | once => exact ⟨fun _ => nofun, fun _ => rfl⟩

/-- What is refused leaves no fingerprint. -/
theorem fingerprint?_submit : (registry.submit key print).2.fingerprint? name =
    registry.mode.choose (registry.fingerprint? name)
      (if key = name ∧ (registry.mode = .overwrite ∨ name ∉ registry.names) then some print
        else none) := by
  simp only [submit, ← shouldGenerate_iff]
  by_cases heq : key = name
  · subst heq
    simp only [true_and]
    split_ifs
    · rw [fingerprint?_recordWith, if_pos rfl]
    · rw [DuplicateMode.choose_none]
  · simp only [heq, false_and, if_false, DuplicateMode.choose_none]
    split_ifs
    · rw [fingerprint?_recordWith, if_neg heq, DuplicateMode.choose_none]
    · rfl

/-- Something differs from what is recorded with another fingerprint, and from nothing else. -/
theorem isDifferent_iff [DecidableEq φ] : registry.isDifferent name print = true ↔
    ∃ recorded, registry.fingerprint? name = some recorded ∧ print ≠ recorded := by
  unfold isDifferent
  cases registry.fingerprint? name with
  | none => simp
  | some recorded =>
    rw [bne_iff_ne]
    exact ⟨fun hne => ⟨recorded, rfl, hne.symm⟩, fun ⟨_, hr, hne⟩ => Option.some.inj hr ▸ hne.symm⟩

namespace Call

variable {fingerprint : α → φ}

theorem mode_apply (call : Call α) : (call.apply fingerprint registry).mode = registry.mode := by
  cases call with
  | record name => exact mode_record
  | recordWith name artifact => exact mode_recordWith
  | submit name artifact => exact mode_submit

theorem mem_names_apply_iff (call : Call α) : name ∈ (call.apply fingerprint registry).names ↔
    name ∈ registry.names ∨ call.name = name := by
  cases call with
  | record key => exact mem_names_record_iff
  | recordWith key artifact => exact mem_names_recordWith_iff
  | submit key artifact => exact mem_names_submit_iff

/-- The fingerprint of a name after a call is that of the artifact that the call records with the
name, or the one that the name had before. -/
theorem fingerprint?_apply (call : Call α) : (call.apply fingerprint registry).fingerprint? name =
    registry.mode.choose (registry.fingerprint? name)
      ((call.recording? registry.mode registry.names name).map fingerprint) := by
  cases call with
  | record key => exact fingerprint?_record.trans (DuplicateMode.choose_none _ _).symm
  | recordWith key artifact =>
    rw [recording?, apply_ite (Option.map fingerprint)]
    exact fingerprint?_recordWith
  | submit key artifact =>
    rw [recording?, apply_ite (Option.map fingerprint)]
    exact fingerprint?_submit

end Call

/-! ### All calls -/

/-- The registry after some calls, if nothing was recorded before. -/
def ofCalls (fingerprint : α → φ) (mode : DuplicateMode) (calls : List (Call α)) : Registry φ :=
  calls.foldl (Call.apply fingerprint) (.fresh mode)

variable {fingerprint : α → φ}

theorem ofCalls_concat (call : Call α) : ofCalls fingerprint mode (calls ++ [call]) =
    call.apply fingerprint (ofCalls fingerprint mode calls) :=
  List.foldl_concat _ _ _ _

theorem mode_ofCalls : (ofCalls fingerprint mode calls).mode = mode := by
  induction calls using List.reverseRecOn with
  | nil => rfl
  | append_singleton calls call ih => rw [ofCalls_concat, Call.mode_apply, ih]

/-- What is recorded are the names that the calls are about. -/
theorem mem_names_ofCalls_iff :
    name ∈ (ofCalls fingerprint mode calls).names ↔ name ∈ calls.map Call.name := by
  induction calls using List.reverseRecOn with
  | nil => rfl
  | append_singleton calls call ih =>
    rw [ofCalls_concat, Call.mem_names_apply_iff, ih, List.map_append, List.mem_append,
      List.map_singleton, List.mem_singleton, eq_comm (a := name)]

/-- The fingerprint of a name is that of the artifact that stands under it. -/
theorem fingerprint?_ofCalls : (ofCalls fingerprint mode calls).fingerprint? name =
    (standing? mode name calls).map fingerprint := by
  induction calls using List.reverseRecOn with
  | nil => cases mode with
    | once => rfl
    | overwrite => rfl
  | append_singleton calls call ih =>
    rw [ofCalls_concat, Call.fingerprint?_apply, mode_ofCalls,
      Call.recording?_congr mem_names_ofCalls_iff, ih, standing?_concat, DuplicateMode.map_choose]

/-- A name is refused exactly if a call was about it and the first thing of a name stays. -/
theorem shouldGenerate_ofCalls_eq_false_iff :
    (ofCalls fingerprint mode calls).shouldGenerate name = false ↔
      mode = .once ∧ name ∈ calls.map Call.name := by
  rw [shouldGenerate_eq_false_iff, mode_ofCalls, mem_names_ofCalls_iff]

/-- After any calls, a name is refused exactly if the first thing of a name stays and an earlier
call was about the name; what is submitted is admitted accordingly; and an artifact differs exactly
if one stands under its name, the first or the last one that was recorded with it, and has another
fingerprint.  Calls about other names make no difference to any of this. -/
theorem answers_ofCalls [DecidableEq φ] (fingerprint : α → φ) (mode : DuplicateMode)
    (calls : List (Call α)) (name : String) (artifact : α) :
    let registry := ofCalls fingerprint mode calls
    let own := ofCalls fingerprint mode (callsOf name calls)
    let print := fingerprint artifact
    (registry.shouldGenerate name = false ↔ mode = .once ∧ name ∈ calls.map Call.name) ∧
    (registry.submit name print).1 = registry.shouldGenerate name ∧
    (registry.isDifferent name print = true ↔
      ∃ recorded, standing? mode name calls = some recorded ∧ print ≠ fingerprint recorded) ∧
    own.shouldGenerate name = registry.shouldGenerate name ∧
    own.isDifferent name print = registry.isDifferent name print := by
  intro registry own print
  refine ⟨shouldGenerate_ofCalls_eq_false_iff, fst_submit, ?_, ?_, ?_⟩
  · rw [isDifferent_iff, fingerprint?_ofCalls]
    simp only [Option.map_eq_some_iff, exists_exists_and_eq_and]
  · -- Whether something is generated rests on the mode and on the names of the calls.
    refine shouldGenerate_congr (mode_ofCalls.trans mode_ofCalls.symm) ?_
    rw [mem_names_ofCalls_iff, mem_names_ofCalls_iff, mem_names_callsOf_iff]
  · rw [isDifferent, isDifferent, fingerprint?_ofCalls, fingerprint?_ofCalls, standing?_callsOf]

example : standing? .once "Pet" [.record "Pet", .submit "Pet" 1, .recordWith "Pet" 2,
    .submit "Pet" 3, .recordWith "Owner" 4, .recordWith "Pet" 5] = some 2 := by decide +kernel

end Registry

end FunctionForge
