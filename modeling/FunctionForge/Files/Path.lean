import FunctionForge.Text.Cut

/-!
# Paths

A path is kept as the text that was written: joining paths joins texts, and nothing is normalised.
Two paths are the same for look-ups if their `segments` agree, which leave out repeated slashes and
the dots that stand for the folder itself, except a dot at the front. Such paths have the same
`plainText`.
-/

namespace FunctionForge.Files

/-- A path as it was written. -/
structure Path where
  text : String
  deriving Repr, DecidableEq

namespace Path

/-- The folder that programs run in. -/
def here : Path := ⟨"."⟩

/-- Whether a path starts at the root. -/
def isAbsolute (path : Path) : Bool :=
  path.text.toList.head? == some '/'

/-- A path continued by a text. An absolute text takes the place of the path. -/
def join (path : Path) (text : String) : Path :=
  if (Path.mk text).isAbsolute then ⟨text⟩
  else
    match path.text.toList.getLast? with
    | none => ⟨text⟩
    | some '/' => ⟨path.text ++ text⟩
    | some _ => ⟨path.text ++ "/" ++ text⟩

/-- The names along a path, with `/` for the root. -/
def segments (path : Path) : List String :=
  let named : List String → List String := List.filter fun s => s != "" && s != "."
  match Text.cut '/' path.text with
  | [""] => []
  | "" :: rest => "/" :: named rest
  | first :: rest => first :: named rest
  | [] => []

/-- The text of a path without what its segments leave out. No segment is empty, and a slash stands
only in a first one, so two paths have the same plain text only if their segments agree. -/
def plainText (path : Path) : String :=
  Text.join "/" path.segments

/-- The text of a path in reverse, without the slashes and dots at its end that name nothing. -/
def dropEmptyEnd : List Char → List Char
  | ['/'] => ['/']
  | '/' :: rest => dropEmptyEnd rest
  | '.' :: '/' :: rest => dropEmptyEnd ('/' :: rest)
  | text => text

/-- A path without its last name; nothing for the root and for the empty path. -/
def parent? (path : Path) : Option Path :=
  match dropEmptyEnd path.text.toList.reverse with
  | [] => none
  | ['/'] => none
  | text => some ⟨String.ofList (dropEmptyEnd (text.dropWhile (· != '/'))).reverse⟩

/-- The folder that a file's path names: its parent, or `.` if that has no text. -/
def folder (path : Path) : Path :=
  match path.parent? with
  | some parent => if parent.text.isEmpty then here else parent
  | none => here

/-- The last name of a path; nothing if it ends in the root or in dots. -/
def fileName? (path : Path) : Option String :=
  let name := ((dropEmptyEnd path.text.toList.reverse).takeWhile (· != '/')).reverse
  if name.isEmpty ∨ name = ['.'] ∨ name = ['.', '.'] then none else some (String.ofList name)

/-- The last name cut at its last dot; a dot at its front does not count. -/
def nameParts? (path : Path) : Option (String × Option String) := do
  let name := (← path.fileName?).toList
  let ending := Text.afterLast '.' name
  let stem := name.take (name.length - ending.length - 1)
  if stem.isEmpty then return (String.ofList name, none)
  return (String.ofList stem, some (String.ofList ending))

/-- The last name without its extension. -/
def stem? (path : Path) : Option String :=
  path.nameParts?.map Prod.fst

/-- The extension of the last name: what stands behind its last dot. -/
def extension? (path : Path) : Option String :=
  path.nameParts?.bind Prod.snd

end Path

end FunctionForge.Files
