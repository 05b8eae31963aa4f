import FunctionForge.Fields
import FunctionForge.Markup.Node
import FunctionForge.Markup.Record
import FunctionForge.Value

/-!
# Trees

Where a document may hold one of several things, the part is read without knowing which: as a
`Tree`, in which aliases are followed, scalars are atoms, and nothing is unreadable. The thing it is
gets decided on the tree. A tree is more exacting than a document: a text has to be a string, and a
list or a map cannot be left blank.

The name of a record's part, or of one of several words, may also be given by its number.
-/

namespace FunctionForge.Markup

/-- A part of a document read without knowing what it is. -/
inductive Tree where
  | atom (a : Atom)
  | sequence (items : List Tree)
  | mapping (entries : List (Tree × Tree))
  deriving Repr

namespace Tree

variable {α : Type}

/-! ### Depth -/

mutual

/-- How many sequences and mappings stand one inside the other, atoms counted as one level. -/
def depth : Tree → Nat
  | .atom _ => 1
  | .sequence items => depthItems items + 1
  | .mapping entries => depthEntries entries + 1

/-- The greatest depth of the items of a sequence. -/
def depthItems : List Tree → Nat
  | [] => 0
  | item :: rest => max item.depth (depthItems rest)

/-- The greatest depth of the keys and values of a mapping. -/
def depthEntries : List (Tree × Tree) → Nat
  | [] => 0
  | (key, value) :: rest => max (max key.depth value.depth) (depthEntries rest)

end

/-! ### Plain readings -/

/-- A text. -/
def text? : Tree → Option String
  | .atom (.string s) => some s
  | _ => none

/-- A truth value. -/
def bool? : Tree → Option Bool
  | .atom (.bool b) => some b
  | _ => none

/-- A value that may be absent, which is written as null. -/
def optional? (read : Tree → Option α) : Tree → Option (Option α)
  | .atom .null => some none
  | tree => (read tree).map some

/-- A list. -/
def list? (read : Tree → Option α) : Tree → Option (List α)
  | .sequence items => items.mapM read
  | _ => none

/-- The entries of a mapping with texts for keys. -/
def entries? : Tree → Option (List (String × Tree))
  | .mapping entries => entries.mapM fun (key, value) => key.text?.map (·, value)
  | _ => none

/-- A map from texts. -/
def fields? (read : Tree → Option α) (tree : Tree) : Option (Fields α) := do
  let entries ← tree.entries?
  let pairs ← entries.mapM fun (key, value) => (read value).map (key, ·)
  return Fields.ofList pairs

/-! ### Records and words -/

/-- The name that a key stands for: itself, or the name with its number. A number beyond the names
stands for none of them. -/
def name? (names : List String) : Tree → Option String
  | .atom (.string s) => some s
  | .atom (.number (.integer (.ofNat n))) => some (names.getD n "")
  | _ => none

/-- The entries of a record written as a mapping. -/
def namedEntries? (names : List String) (entries : List (Tree × Tree)) :
    Option (List (String × Tree)) :=
  entries.mapM fun (key, value) => (key.name? names).map (·, value)

/-- A record. -/
def record? (names : List String) : Tree → Option (Record Tree)
  | .sequence items => Record.ofItems? names items
  | .mapping entries => do Record.ofEntries? names (← namedEntries? names entries)
  | .atom _ => none

/-- One of several words: the word itself, or a mapping from it to null. -/
def word? (words : List (String × α)) : Tree → Option α
  | .atom (.string s) => words.lookup s
  | .mapping [(key, .atom .null)] => do words.lookup (← key.name? (words.map Prod.fst))
  | _ => none

/-! ### Values -/

/-- An atom as a value. A number without bounds has none and becomes null. -/
def valueOfAtom : Atom → Value
  | .null => .null
  | .bool b => .bool b
  | .number n => .number n
  | .minusZero => .number (.integer 0)
  | .unbounded => .null
  | .string s => .string s

mutual

/-- The value that a tree writes; its objects are sorted by name. -/
def value? : Tree → Option Value
  | .atom a => some (valueOfAtom a)
  | .sequence items => (values? items).map .array
  | .mapping entries => (members? entries).map fun members => .object (Fields.sorted members)

/-- The values of the items of a sequence. -/
def values? : List Tree → Option (List Value)
  | [] => some []
  | item :: rest => do
    let value ← item.value?
    let values ← values? rest
    return value :: values

/-- The members of the object that a mapping writes. -/
def members? : List (Tree × Tree) → Option (List (String × Value))
  | [] => some []
  | (key, item) :: rest => do
    let name ← key.text?
    let value ← item.value?
    let members ← members? rest
    return (name, value) :: members

end

mutual

/-- A value as a tree. -/
def ofValue : Value → Tree
  | .array items => .sequence (ofValues items)
  | .object members => .mapping (ofMembers members)
  | .null => .atom .null
  | .bool b => .atom (.bool b)
  | .number n => .atom (.number n)
  | .string s => .atom (.string s)

/-- The items of an array as trees. -/
def ofValues : List Value → List Tree
  | [] => []
  | item :: rest => ofValue item :: ofValues rest

/-- The members of an object as trees. -/
def ofMembers : List (String × Value) → List (Tree × Tree)
  | [] => []
  | (name, value) :: rest => (.atom (.string name), ofValue value) :: ofMembers rest

end

end Tree

end FunctionForge.Markup
