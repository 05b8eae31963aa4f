/-!
# Records

A record is written as a mapping from the names of its parts or, where the notation allows it, as a
sequence of its parts in the order of their declaration. `Record` holds what was given for each
part, and its three readers say what happens if nothing was: a required part fails, an optional one
is absent where its name was left out and fails where the sequence ended before it, and a part with
a default takes the default.
-/

namespace FunctionForge.Markup

variable {ν α : Type}

/-- What was given for a part of a record. -/
inductive Part (ν : Type) where
  | given (node : ν)
  /-- The mapping has no such name. -/
  | leftOut
  /-- The sequence ended before the part. -/
  | cutOff

/-- What was given for the parts of a record, by name. -/
abbrev Record (ν : Type) := List (String × Part ν)

namespace Record

/-- The record in which nothing is given. -/
def empty (names : List String) : Record ν :=
  names.map fun name => (name, .leftOut)

/-- What was given for a part. -/
def part (record : Record ν) (name : String) : Part ν :=
  (List.lookup name record).getD .leftOut

/-- The record given by the items of a sequence; none if there are more items than parts. -/
def ofItems? : List String → List ν → Option (Record ν)
  | [], [] => some []
  | [], _ :: _ => none
  | name :: names, item :: items => (ofItems? names items).map ((name, .given item) :: ·)
  | name :: names, [] => (ofItems? names []).map ((name, .cutOff) :: ·)

/-- Gives a part its node; none if it has one already. A name that is none of a part changes
nothing. -/
def give? : Record ν → String → ν → Option (Record ν)
  | [], _, _ => some []
  | (key, part) :: rest, name, node =>
    if key = name then
      match part with
      | .given _ => none
      | _ => some ((key, .given node) :: rest)
    else (give? rest name node).map ((key, part) :: ·)

/-- The record given by the entries of a mapping; none if a part is given twice. -/
def ofEntries? (names : List String) (entries : List (String × ν)) : Option (Record ν) :=
  entries.foldlM (fun record entry => give? record entry.1 entry.2) (empty names)

variable {m : Type → Type} [Monad m] [MonadExceptOf Unit m]

/-- A part that has to be given. -/
def required (record : Record ν) (name : String) (read : ν → m α) : m α :=
  match record.part name with
  | .given node => read node
  | _ => throwThe Unit ()

/-- A part that may be left out. `read` tells itself whether it was given nothing. -/
def optional (record : Record ν) (name : String) (read : ν → m (Option α)) : m (Option α) :=
  match record.part name with
  | .given node => read node
  | .leftOut => pure none
  | .cutOff => throwThe Unit ()

/-- A part that has a value if it is not given. -/
def defaulted (record : Record ν) (name : String) (value : α) (read : ν → m α) : m α :=
  match record.part name with
  | .given node => read node
  | _ => pure value

end Record

end FunctionForge.Markup
