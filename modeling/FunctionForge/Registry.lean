import FunctionForge.Fields
import FunctionForge.Notice
import FunctionForge.Text.Lines

/-!
# Registries

A run may come to generate two things of the same name, and `DuplicateMode` says what happens then:
either the later one takes the place of the earlier one, or the earlier one stays.

`Registry φ` remembers the names that were generated so far, each with a fingerprint of what was
generated, as far as one was given. A registry never forgets a name.
-/

namespace FunctionForge

/-- What happens when a name is generated a second time. -/
inductive DuplicateMode where
  /-- The later one is written over the earlier one. -/
  | overwrite
  /-- The first one stays. -/
  | once
  deriving Repr, DecidableEq

namespace DuplicateMode

instance : Inhabited DuplicateMode := ⟨overwrite⟩

/-- The mode with a name, in whatever case and with blanks around it. -/
def ofText? (text : String) : Option DuplicateMode :=
  let word := Text.asciiLower (Text.trim text)
  if word = "overwrite" then some .overwrite
  else if word = "once" then some .once
  else none

end DuplicateMode

/-- What a run has generated so far. -/
structure Registry (φ : Type) where
  mode : DuplicateMode
  /-- The generated names; each with a fingerprint, if one was recorded. -/
  generated : Fields (Option φ)
  deriving Repr, DecidableEq

namespace Registry

variable {φ β : Type}

/-- The registry in which nothing is recorded. -/
def fresh (mode : DuplicateMode) : Registry φ := ⟨mode, []⟩

/-- Whether something of this name may be generated. -/
def shouldGenerate (registry : Registry φ) (name : String) : Bool :=
  registry.mode == .overwrite || !registry.generated.has name

/-- What is reported of a name that is asked for. -/
def askNotices (registry : Registry φ) (name : String) : List Notice :=
  if registry.shouldGenerate name then [] else [.skippedArtifact name]

/-- Records a name. One that is recorded already stays as it is. -/
def record (registry : Registry φ) (name : String) : Registry φ :=
  if registry.generated.has name then registry
  else { registry with generated := registry.generated.insert name none }

/-- The fingerprint of a name. -/
def fingerprint? (registry : Registry φ) (name : String) : Option φ :=
  (registry.generated.get? name).join

/-- Records a name with a fingerprint. The first fingerprint stays, unless the mode is to
overwrite. -/
def recordWith (registry : Registry φ) (name : String) (print : φ) : Registry φ :=
  if (registry.fingerprint? name).isNone || registry.mode == .overwrite then
    { registry with generated := registry.generated.insert name (some print) }
  else registry

variable [DecidableEq φ]

/-- Whether a name is recorded with another fingerprint. -/
def isDifferent (registry : Registry φ) (name : String) (print : φ) : Bool :=
  match registry.fingerprint? name with
  | some recorded => recorded != print
  | none => false

/-- Whether something may be generated, and the registry in which it then is recorded. -/
def submit (registry : Registry φ) (name : String) (print : φ) : Bool × Registry φ :=
  if registry.shouldGenerate name then (true, registry.recordWith name print)
  else (false, registry)

/-- What is reported of something that asks to be admitted. -/
def submitNotices (registry : Registry φ) (name : String) (print : φ) : List Notice :=
  registry.askNotices name ++
    if !registry.shouldGenerate name && registry.isDifferent name print then
      [.differingArtifact name]
    else []

/-! ### Lists -/

/-- The items of a list that were admitted, and what was reported of them. -/
structure Admission (φ β : Type) where
  items : List β
  registry : Registry φ
  notices : List Notice

/-- Asks for one item after the other. -/
def submitAll (name : β → String) (print : β → φ) (registry : Registry φ) :
    List β → Admission φ β
  | [] => ⟨[], registry, []⟩
  | item :: rest =>
    let (admitted, next) := registry.submit (name item) (print item)
    let later := submitAll name print next rest
    { items := if admitted then item :: later.items else later.items
      registry := later.registry
      notices := registry.submitNotices (name item) (print item) ++ later.notices }

end Registry

end FunctionForge
