/-!
# Fields

`Fields α` is a map from names to values that remembers in which order the names came: a list of
pairs in which, as long as it is built by `insert`, every name occurs once. A name that is inserted
again keeps its place and gets the new value.
-/

namespace FunctionForge

/-- A map from names to values, in the order in which the names came. -/
abbrev Fields (α : Type) := List (String × α)

namespace Fields

variable {α β : Type}

/-- The names, in order. -/
def keys (fields : Fields α) : List String :=
  List.map Prod.fst fields

/-- The values, in the order of their names. -/
def values (fields : Fields α) : List α :=
  List.map Prod.snd fields

/-- The value of a name. -/
def get? (fields : Fields α) (name : String) : Option α :=
  List.lookup name fields

/-- Whether a name is there. -/
def has (fields : Fields α) (name : String) : Bool :=
  (fields.get? name).isSome

/-- Gives a name a value: in its place if it is there, else at the end. -/
def insert : Fields α → String → α → Fields α
  | [], name, value => [(name, value)]
  | (key, old) :: rest, name, value =>
    if key = name then (key, value) :: rest else (key, old) :: insert rest name value

/-- The map made of a list of pairs, of which a later one counts for a name that comes again. -/
def ofList (pairs : List (String × α)) : Fields α :=
  pairs.foldl (fun fields pair => insert fields pair.1 pair.2) []

/-- Gives a name a value in a map that is sorted by name. -/
def insertSorted : Fields α → String → α → Fields α
  | [], name, value => [(name, value)]
  | (key, old) :: rest, name, value =>
    if key = name then (key, value) :: rest
    else if name < key then (name, value) :: (key, old) :: rest
    else (key, old) :: insertSorted rest name value

/-- The map made of a list of pairs, sorted by name. A later pair counts for a name that comes
again. -/
def sorted (pairs : List (String × α)) : Fields α :=
  pairs.foldl (fun fields pair => insertSorted fields pair.1 pair.2) []

/-- Changes every value. -/
def mapValues (f : α → β) (fields : Fields α) : Fields β :=
  List.map (fun (name, value) => (name, f value)) fields

/-- Changes every value in order, in a context that may fail or keep a state. -/
def mapValuesM {m : Type → Type} [Monad m] (f : α → m β) : Fields α → m (Fields β)
  | [] => pure []
  | (name, value) :: rest => do
    let value ← f value
    let rest ← mapValuesM f rest
    pure ((name, value) :: rest)

end Fields

end FunctionForge
