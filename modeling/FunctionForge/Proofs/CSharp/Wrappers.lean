import FunctionForge.CSharp.WrapperSource
import FunctionForge.Endpoint.Summary
import FunctionForge.Proofs.Firsts
import FunctionForge.Proofs.Number
import FunctionForge.Proofs.Text.Ends
import Mathlib.Data.List.Induction

/-!
# What result wrappers serve

There is one result wrapper for each name, and it is that of the first endpoint that returns one of
this name (`resultWrappers_eq_firsts`).  An endpoint is served by it exactly if its body has the
type of the member `Data` and all of its codes are members of the enumeration
(`serves_wrapperSource_iff`); these are read off the source itself.  Endpoints with other codes of
success, or with another type of the same stem, are not.
-/

namespace FunctionForge.CSharp

open Endpoint (ResponseSummary)

variable {endpoints : List Endpoint} {wrapper other : ResultWrapper} {target : FunctionTarget}
  {code : Nat}

/-! ### Wrappers by name -/

theorem addWrapper_eq (wrappers : List ResultWrapper) (wrapper : ResultWrapper) :
    addWrapper wrappers wrapper =
      wrappers ++ [wrapper].filter fun other => other.name ∉ wrappers.map ResultWrapper.name := by
  have hany : (wrappers.any fun other => other.name == wrapper.name) = true ↔
      wrapper.name ∈ wrappers.map ResultWrapper.name := by
    simp only [List.any_eq_true, beq_iff_eq, List.mem_map]
  rw [addWrapper, List.filter_singleton]
  by_cases hm : wrapper.name ∈ wrappers.map ResultWrapper.name
  · simp [hany.mpr hm, hm]
  · simp [mt hany.mp hm, hm]

/-- Of the wrappers of one name the first is kept. -/
theorem foldl_addWrapper (wrappers : List ResultWrapper) :
    wrappers.foldl addWrapper [] = firsts ResultWrapper.name wrappers := by
  induction wrappers using List.reverseRecOn with
  | nil => rfl
  | append_singleton before wrapper ih =>
    rw [List.foldl_append, List.foldl_cons, List.foldl_nil, ih, addWrapper_eq, firsts_append]
    congr 1
    refine List.filter_congr fun other _ => ?_
    simp only [mem_map_firsts_iff]

/-- There is one wrapper for each name, the first one of it. -/
theorem resultWrappers_eq_firsts :
    resultWrappers endpoints = firsts ResultWrapper.name (endpoints.filterMap wrapper?) :=
  foldl_addWrapper _

theorem nodup_names_resultWrappers :
    ((resultWrappers endpoints).map ResultWrapper.name).Nodup := by
  rw [resultWrappers_eq_firsts]
  exact nodup_map_firsts _

/-- Every name that an endpoint asks for has its wrapper. -/
theorem mem_names_resultWrappers_iff {name : String} :
    name ∈ (resultWrappers endpoints).map ResultWrapper.name ↔
      ∃ endpoint ∈ endpoints, ∃ wrapper, wrapper? endpoint = some wrapper ∧
        wrapper.name = name := by
  rw [resultWrappers_eq_firsts, mem_map_firsts_iff, List.mem_map]
  constructor
  · rintro ⟨wrapper, hm, rfl⟩
    obtain ⟨endpoint, he, hw⟩ := List.mem_filterMap.mp hm
    exact ⟨endpoint, he, wrapper, hw, rfl⟩
  · rintro ⟨endpoint, he, wrapper, hw, rfl⟩
    exact ⟨wrapper, List.mem_filterMap.mpr ⟨endpoint, he, hw⟩, rfl⟩

/-- An endpoint returns a wrapper, and no endpoint before it returns one of its name. -/
def IsFirst (endpoints : List Endpoint) (wrapper : ResultWrapper) : Prop :=
  ∃ before first after, endpoints = before ++ first :: after ∧ wrapper? first = some wrapper ∧
    ∀ earlier ∈ before, ∀ other, wrapper? earlier = some other → other.name ≠ wrapper.name

/-- The wrappers that are written are those that come first under their names. -/
theorem mem_resultWrappers_iff :
    wrapper ∈ resultWrappers endpoints ↔ IsFirst endpoints wrapper := by
  rw [resultWrappers_eq_firsts, mem_firsts_iff]
  constructor
  · rintro ⟨before, after, hsplit, hnone⟩
    obtain ⟨front, rest, rfl, rfl, hrest⟩ := List.filterMap_eq_append_iff.mp hsplit
    obtain ⟨skipped, first, back, rfl, hskipped, hfirst, -⟩ := List.filterMap_eq_cons_iff.mp hrest
    -- Endpoints that return no wrapper may stand before the first one that does.
    refine ⟨front ++ skipped, first, back, (List.append_assoc _ _ _).symm, hfirst, ?_⟩
    intro earlier he other ho
    rcases List.mem_append.mp he with he | he
    · exact hnone other (List.mem_filterMap.mpr ⟨earlier, he, ho⟩)
    · rw [hskipped earlier he] at ho
      exact absurd ho nofun
  · rintro ⟨before, first, after, rfl, hfirst, hnone⟩
    refine ⟨before.filterMap wrapper?, after.filterMap wrapper?, ?_, ?_⟩
    · rw [List.filterMap_append, List.filterMap_cons_some hfirst]
    · intro other ho
      obtain ⟨earlier, he, ho⟩ := List.mem_filterMap.mp ho
      exact hnone earlier he other ho

/-! ### Reading a source -/

/-- The lines between the first one of a kind and the next one of another. -/
def linesBetween (opening closing : String) (source : Source) : Source :=
  ((source.dropWhile (· != opening)).drop 1).takeWhile (· != closing)

/-- What stands between two lines is found if neither of them comes before its time. -/
theorem linesBetween_append {opening closing : String} {front inner back : Source}
    (hf : opening ∉ front) (hi : closing ∉ inner) :
    linesBetween opening closing (front ++ opening :: (inner ++ closing :: back)) = inner := by
  have hfront : ∀ line ∈ front, (line != opening) = true :=
    fun line hl => bne_iff_ne.mpr fun heq => hf (heq ▸ hl)
  have hinner : ∀ line ∈ inner, (line != closing) = true :=
    fun line hl => bne_iff_ne.mpr fun heq => hi (heq ▸ hl)
  rw [linesBetween, List.dropWhile_append_of_pos hfront, List.dropWhile_cons_of_neg (by simp),
    List.drop_one, List.tail_cons, List.takeWhile_append_of_pos hinner,
    List.takeWhile_cons_of_neg (by simp), List.append_nil]

/-- The lines of the members of an enumeration with the name `Result`. -/
def resultLines (source : Source) : Source :=
  linesBetween "        public enum Result \x7b" "        \x7d" source

/-- The declaration of a member of an enumeration, without the comma behind it. -/
def memberText (code : Nat) : String :=
  "            Code" ++ Number.decimal code ++ " = " ++ Number.decimal code

/-- A line declares the member for a code. -/
def Declares (line : String) (code : Nat) : Prop :=
  line = memberText code ∨ line = memberText code ++ ","

/-- A source has a member for a code in the enumeration `Result`. -/
def HasCode (source : Source) (code : Nat) : Prop :=
  ∃ line ∈ resultLines source, Declares line code

/-- The declaration of the member `Data`. -/
def dataLine (type : String) : String :=
  "        public " ++ type ++ " Data \x7b get; set; \x7d"

/-- A source has what an endpoint needs to return its body with any of its codes. -/
structure Serves (source : Source) (wrapper : ResultWrapper) : Prop where
  data : dataLine (typeName wrapper.content) ∈ source
  codes : ∀ code ∈ wrapper.codes, HasCode source code

/-! ### The enumeration of codes -/

/-- The code stands behind the word that its declaration begins with. -/
theorem Declares.toList {line : String} (h : Declares line code) : ∃ rest, line.toList =
    "            Code".toList ++ (Number.digits code ++ ' ' :: rest) := by
  have hequals : " = ".toList = [' ', '=', ' '] := by decide
  have hmember : (memberText code).toList =
      "            Code".toList ++
        (Number.digits code ++ ' ' :: '=' :: ' ' :: Number.digits code) := by
    change ("            Code" ++ Number.decimal code ++ " = " ++ Number.decimal code).toList = _
    rw [String.toList_append, String.toList_append, String.toList_append, Number.toList_decimal,
      hequals]
    simp only [List.append_assoc, List.cons_append, List.nil_append]
  rcases h with rfl | rfl
  · exact ⟨_, hmember⟩
  · refine ⟨'=' :: ' ' :: (Number.digits code ++ ",".toList), ?_⟩
    rw [String.toList_append, hmember]
    simp only [List.append_assoc, List.cons_append]

theorem Declares.start {line : String} (h : Declares line code) :
    Text.start 16 line = "            Code".toList := by
  obtain ⟨rest, hline⟩ := h.toList
  rw [Text.start, hline, List.take_append_of_le_length (by decide)]
  decide

/-- No line declares two codes. -/
theorem Declares.inj {line : String} {other : Nat} (h : Declares line code)
    (ho : Declares line other) : code = other := by
  -- The digits of the code can be read off the line.
  have hread {code : Nat} (h : Declares line code) :
      (line.toList.drop 16).takeWhile Char.isDigit = Number.digits code := by
    obtain ⟨rest, hline⟩ := h.toList
    have hdigits : ∀ c ∈ Number.digits code, c.isDigit = true :=
      fun c hc => Nat.isDigit_of_mem_toDigits (by decide) (by decide) hc
    rw [hline, List.drop_append_of_le_length (by decide)]
    change List.takeWhile _ ([] ++ _) = _
    rw [List.nil_append, List.takeWhile_append_of_pos hdigits,
      List.takeWhile_cons_of_neg (by decide), List.append_nil]
  have hdigits : Number.digits code = Number.digits other := (hread h).symm.trans (hread ho)
  exact Number.decimal_injective (congrArg String.ofList hdigits)

theorem codeLines_cons (code : Nat) (rest : List Nat) : codeLines (code :: rest) =
    (memberText code ++ if rest.isEmpty then "" else ",") :: codeLines rest := rfl

theorem declares_head (code : Nat) (rest : List Nat) :
    Declares (memberText code ++ if rest.isEmpty then "" else ",") code := by
  split_ifs
  · exact Or.inl String.append_empty
  · exact Or.inr rfl

/-- The lines of the enumeration declare the codes and nothing else. -/
theorem exists_declares_iff {codes : List Nat} :
    (∃ line ∈ codeLines codes, Declares line code) ↔ code ∈ codes := by
  induction codes with
  | nil => simp [codeLines]
  | cons first rest ih =>
    rw [codeLines_cons, List.exists_mem_cons_iff, ih, List.mem_cons]
    refine or_congr_left ⟨fun h => h.inj (declares_head first rest), ?_⟩
    rintro rfl
    exact declares_head code rest

/-- The members of the enumeration are told from other lines by how they start. -/
theorem start_of_mem_codeLines {codes : List Nat} :
    ∀ line ∈ codeLines codes, Text.start 16 line = "            Code".toList := by
  induction codes with
  | nil => exact List.forall_mem_nil _
  | cons first rest ih =>
    rw [codeLines_cons, List.forall_mem_cons]
    exact ⟨(declares_head first rest).start, ih⟩

/-! ### The source of a wrapper -/

/-- The lines that stand before the members of a wrapper. -/
def wrapperFront (wrapper : ResultWrapper) (target : FunctionTarget) : Source :=
  header "" ++
    ["using System;", "using System.Collections.Generic;"] ++
    usings target.imports ++
    [ "",
      "namespace " ++ target.interfaceNamespace,
      "\x7b",
      "    public partial class " ++ wrapper.name,
      "    \x7b" ]

/-- The lines that stand after the enumeration of a wrapper's codes. -/
def wrapperBack (wrapper : ResultWrapper) : Source :=
  [ "",
    "        public Result ResultCode \x7b get; set; \x7d",
    "",
    "        public " ++ wrapper.name ++ "(" ++ typeName wrapper.content ++
      " element, Result resultCode)",
    "        \x7b",
    "            Data = element;",
    "            ResultCode = resultCode;",
    "        \x7d",
    "    \x7d",
    "\x7d" ]

/-- The line of the data stands before the enumeration, which ends where its codes do. -/
theorem wrapperSource_eq :
    wrapperSource wrapper target =
      (wrapperFront wrapper target ++ [dataLine (typeName wrapper.content), ""]) ++
        "        public enum Result \x7b" ::
          (codeLines wrapper.codes ++ "        \x7d" :: wrapperBack wrapper) := by
  unfold wrapperSource wrapperFront wrapperBack
  simp only [List.append_assoc, List.cons_append, List.nil_append]
  rfl

/-- No line before the members of a wrapper starts as its public members do. -/
theorem start_of_mem_wrapperFront :
    ∀ line ∈ wrapperFront wrapper target, Text.start 9 line ≠ "        p".toList := by
  -- A line that differs within its first characters differs in the first nine.
  have hother {line : String} (m : Nat) (hm : m ≤ 9)
      (h : Text.start m line ≠ "        p".toList.take m) :
      Text.start 9 line ≠ "        p".toList := by
    intro heq
    rw [Text.start_of_le hm, heq] at h
    exact h rfl
  have husing : ∀ line ∈ usings target.imports, Text.start 1 line = ['u'] := by
    intro line hm
    obtain ⟨name, -, rfl⟩ := List.mem_map.mp hm
    rw [String.append_assoc, Text.start_append (by decide)]
    decide
  have hnamespace : Text.start 9 ("namespace " ++ target.interfaceNamespace) =
      "namespace".toList := by
    rw [Text.start_append (by decide)]
    decide
  have hclass : Text.start 9 ("    public partial class " ++ wrapper.name) =
      "    publi".toList := by
    rw [Text.start_append (by decide)]
    decide
  unfold wrapperFront
  rw [List.forall_mem_append, List.forall_mem_append, List.forall_mem_append]
  refine ⟨⟨⟨by decide, by decide⟩, fun line hm => ?_⟩, ?_⟩
  · refine hother 1 (by decide) ?_
    rw [husing line hm]
    decide
  · simp only [List.forall_mem_cons, hnamespace, hclass]
    decide

theorem start_dataLine (type : String) : Text.start 9 (dataLine type) = "        p".toList := by
  have hassoc : dataLine type = "        public " ++ (type ++ " Data \x7b get; set; \x7d") :=
    String.append_assoc
  rw [hassoc, Text.start_append (by decide)]
  decide

theorem ending_dataLine (type : String) :
    Text.ending 19 (dataLine type) = Text.ending 19 " Data \x7b get; set; \x7d" :=
  Text.ending_append _ (by decide)

/-- The type of the data can be read off its line. -/
theorem dataLine_injective : Function.Injective dataLine := by
  intro type other h
  change "        public " ++ type ++ " Data \x7b get; set; \x7d" =
    "        public " ++ other ++ " Data \x7b get; set; \x7d" at h
  rwa [String.append_left_inj, String.append_right_inj] at h

/-- No line that starts or ends in another way declares the member `Data`. -/
theorem ne_dataLine {line : String} (type : String)
    (h : Text.start 9 line ≠ "        p".toList ∨
      Text.ending 19 line ≠ Text.ending 19 " Data \x7b get; set; \x7d") : line ≠ dataLine type := by
  rintro rfl
  exact h.elim (fun h => h (start_dataLine type)) fun h => h (ending_dataLine type)

theorem ne_dataLine_of_mem_wrapperBack (type : String) :
    ∀ line ∈ wrapperBack wrapper, line ≠ dataLine type := by
  have hconstructor : Text.ending 19 ("        public " ++ wrapper.name ++ "(" ++
      typeName wrapper.content ++ " element, Result resultCode)") =
        Text.ending 19 " element, Result resultCode)" := Text.ending_append _ (by decide)
  suffices h : ∀ line ∈ wrapperBack wrapper, Text.start 9 line ≠ "        p".toList ∨
      Text.ending 19 line ≠ Text.ending 19 " Data \x7b get; set; \x7d" from
    fun line hm => ne_dataLine type (h line hm)
  unfold wrapperBack
  simp only [List.forall_mem_cons, hconstructor]
  exact ⟨by decide, by decide, by decide, Or.inr (by decide), by decide⟩

/-- A wrapper declares the member `Data` with the type of its content, and with no other. -/
theorem dataLine_mem_wrapperSource_iff {type : String} :
    dataLine type ∈ wrapperSource wrapper target ↔ type = typeName wrapper.content := by
  rw [wrapperSource_eq]
  simp only [List.mem_append, List.mem_cons, List.not_mem_nil, or_false]
  constructor
  · -- All the other lines are told from that of the data by their starts or their ends.
    rintro ((hm | hdata | hblank) | henum | hm | hbrace | hm)
    · exact absurd (start_dataLine type) (start_of_mem_wrapperFront _ hm)
    · exact dataLine_injective hdata
    · exact absurd hblank.symm (ne_dataLine type (by decide))
    · exact absurd henum.symm (ne_dataLine type (by decide))
    · have hstart := Text.start_of_le (show 9 ≤ 16 by decide) (dataLine type)
      rw [start_of_mem_codeLines _ hm, start_dataLine] at hstart
      exact absurd hstart (by decide)
    · exact absurd hbrace.symm (ne_dataLine type (by decide))
    · exact absurd rfl (ne_dataLine_of_mem_wrapperBack type _ hm)
  · rintro rfl
    exact Or.inl (Or.inr (Or.inl rfl))

/-- The lines of the enumeration in the source of a wrapper are those of its codes. -/
theorem resultLines_wrapperSource :
    resultLines (wrapperSource wrapper target) = codeLines wrapper.codes := by
  rw [wrapperSource_eq]
  refine linesBetween_append ?_ ?_
  · rw [List.mem_append, not_or]
    constructor
    · intro hm
      exact absurd (start_of_mem_wrapperFront _ hm) (by decide)
    · rw [List.mem_cons, List.mem_singleton, not_or]
      refine ⟨?_, by decide⟩
      exact ne_dataLine _ (Or.inr (by decide))
  · intro hm
    exact absurd (start_of_mem_codeLines _ hm) (by decide)

/-- The members of the enumeration are the codes of the wrapper. -/
theorem hasCode_wrapperSource_iff :
    HasCode (wrapperSource wrapper target) code ↔ code ∈ wrapper.codes := by
  rw [HasCode, resultLines_wrapperSource]
  exact exists_declares_iff

/-- A wrapper serves an endpoint exactly if both have one type of content, and the wrapper has all
codes of the endpoint. -/
theorem serves_wrapperSource_iff :
    Serves (wrapperSource wrapper target) other ↔
      typeName other.content = typeName wrapper.content ∧ other.codes ⊆ wrapper.codes := by
  constructor
  · intro h
    refine ⟨dataLine_mem_wrapperSource_iff.mp h.data, fun code hc => ?_⟩
    exact hasCode_wrapperSource_iff.mp (h.codes code hc)
  · rintro ⟨hdata, hcodes⟩
    exact {
      data := dataLine_mem_wrapperSource_iff.mpr hdata
      codes := fun code hc => hasCode_wrapperSource_iff.mpr (hcodes hc) }

/-! ### The wrappers of endpoints -/

/-- The file of a wrapper. -/
def wrapperFile (target : FunctionTarget) (wrapper : ResultWrapper) : GeneratedFile :=
  outputFile target.interfaceFolder wrapper.name (wrapperSource wrapper target)

/-- There is one file for each name of a wrapper, that of the wrapper which comes first under this
name.  It serves an endpoint that returns a wrapper of the name exactly if the endpoint has no code
that the first one has not, and the same type of content. -/
theorem serves_wrapperFiles_iff (endpoints : List Endpoint) (target : FunctionTarget) :
    wrapperFiles endpoints target = (resultWrappers endpoints).map (wrapperFile target) ∧
      ((resultWrappers endpoints).map ResultWrapper.name).Nodup ∧
      (∀ name, name ∈ (resultWrappers endpoints).map ResultWrapper.name ↔
        ∃ endpoint ∈ endpoints, ∃ wrapper, wrapper? endpoint = some wrapper ∧
          wrapper.name = name) ∧
      ∀ endpoint ∈ endpoints, ∀ wrapper, wrapper? endpoint = some wrapper →
        ∃ first ∈ resultWrappers endpoints, first.name = wrapper.name ∧ IsFirst endpoints first ∧
          (Serves (wrapperSource first target) wrapper ↔
            typeName wrapper.content = typeName first.content ∧ wrapper.codes ⊆ first.codes) := by
  refine ⟨rfl, nodup_names_resultWrappers, fun name => mem_names_resultWrappers_iff,
    fun endpoint he wrapper hw => ?_⟩
  have hname : wrapper.name ∈ (resultWrappers endpoints).map ResultWrapper.name :=
    mem_names_resultWrappers_iff.mpr ⟨endpoint, he, wrapper, hw, rfl⟩
  obtain ⟨first, hf, heq⟩ := List.mem_map.mp hname
  exact ⟨first, hf, heq, mem_resultWrappers_iff.mp hf, serves_wrapperSource_iff⟩

/-- An operation that gives back a pet with any of some codes. -/
def putEndpoint (operationId name path : String) (codes : List Nat) : Endpoint :=
  let responses := codes.map fun code => ⟨code, "", some (.entity "Pet")⟩
  { operationId, name, method := .put, path, documentation := [], parameters := [],
    needsRequestBody := false, responses, responseSummary := Endpoint.summarize responses [],
    bodySummary := none }

/-- Pets are changed or created, guests are changed or accepted. -/
def putEndpoints : List Endpoint :=
  [putEndpoint "putPet" "PutPetAsync" "pets" [200, 201],
    putEndpoint "putGuest" "PutGuestAsync" "guests" [200, 202]]

/-- What the operations on pets and guests are generated into. -/
def putTarget : FunctionTarget :=
  ⟨"Pets", "Pets", ⟨"out"⟩, "PetsFunctions", "IPetsService", "Pets", ⟨"out"⟩, "\x7bBASE\x7d", [],
    .plain, 3⟩

theorem resultWrappers_putEndpoints :
    resultWrappers putEndpoints = [⟨"PetResultWrapper", .entity "Pet", [200, 201]⟩] := by
  decide +kernel

/-- The wrapper of pets serves the pets that are put. -/
theorem serves_wrapperFiles_pets :
    ∃ first ∈ resultWrappers putEndpoints, wrapperFile putTarget first ∈
        wrapperFiles putEndpoints putTarget ∧
      Serves (wrapperSource first putTarget)
        ⟨"PetResultWrapper", .entity "Pet", [200, 201]⟩ := by
  obtain ⟨hfiles, -, -, hserves⟩ := serves_wrapperFiles_iff putEndpoints putTarget
  obtain ⟨first, hf, -, -, hiff⟩ := hserves _ List.mem_cons_self
    ⟨"PetResultWrapper", .entity "Pet", [200, 201]⟩ (by decide +kernel)
  have hfirst : first = ⟨"PetResultWrapper", .entity "Pet", [200, 201]⟩ := by
    rw [resultWrappers_putEndpoints] at hf
    exact List.mem_singleton.mp hf
  refine ⟨first, hf, ?_, hiff.mpr ?_⟩
  · rw [hfiles]
    exact List.mem_map_of_mem hf
  · rw [hfirst]
    exact ⟨rfl, List.Subset.refl _⟩

/-- The only wrapper is that of pets, and it has no member for a code that guests are put with. -/
theorem not_hasCode_guest :
    wrapper? (putEndpoint "putGuest" "PutGuestAsync" "guests" [200, 202]) =
        some ⟨"PetResultWrapper", .entity "Pet", [200, 202]⟩ ∧
      wrapperFiles putEndpoints putTarget = [outputFile ⟨"out"⟩ "PetResultWrapper"
        (wrapperSource ⟨"PetResultWrapper", .entity "Pet", [200, 201]⟩ putTarget)] ∧
      ¬HasCode (wrapperSource ⟨"PetResultWrapper", .entity "Pet", [200, 201]⟩ putTarget) 202 := by
  refine ⟨by decide +kernel, ?_, ?_⟩
  · rw [wrapperFiles, resultWrappers_putEndpoints]
    rfl
  · rw [hasCode_wrapperSource_iff]
    decide

end FunctionForge.CSharp
