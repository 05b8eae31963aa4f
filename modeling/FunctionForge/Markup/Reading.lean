import FunctionForge.Markup.Tree

/-!
# Reading documents

A place of a document is read in the context of the whole document, with a number of aliases that
may still be followed; a reading that fails gives nothing. `Place` is a node with the number of
levels that may still be entered from it. The readers of a place ask for the kind of thing that is
expected there: a text, a list, a map, a record, anything.

A place that is not read is not looked at, however deep or unreadable it is.
-/

namespace FunctionForge.Markup

variable {α : Type}

/-- A reading of a document, with the number of aliases left to follow. -/
abbrev Reading := ReaderT Source (StateT Nat Option)

/-- A node, and how many levels may be entered from it. -/
structure Place where
  node : Node
  depth : Nat

/-- Follows an alias. No anchor belongs to an alias, so one step is enough. -/
def follow (node : Node) : Reading Node :=
  match node with
  | .alias anchor => do
    let jumps ← getThe Nat
    if jumps = 0 then failure
    set (jumps - 1)
    match (← read).anchors.lookup anchor with
    | some target => pure target
    | none => failure
  | node => pure node

/-- Reads a document from its root. -/
def Source.read? (source : Source) (reading : Place → Reading α) : Option α := do
  let (result, _) ← ((reading ⟨source.root, source.depth⟩).run source).run source.jumps
  return result

/-- A reading that depends on an optional result. -/
def Reading.ofOption : Option α → Reading α
  | some a => pure a
  | none => failure

namespace Place

/-- The place with the node that an alias stands for. -/
def resolve (place : Place) : Reading Place := do
  return { place with node := ← follow place.node }

/-- A text. -/
def text (place : Place) : Reading String := do
  match ← follow place.node with
  | .scalar s => Reading.ofOption s.text
  | _ => failure

/-- A natural number. -/
def natural (place : Place) : Reading Nat := do
  match ← follow place.node with
  | .scalar s => Reading.ofOption s.natural
  | _ => failure

/-- A value that may be absent. -/
def optional (read : Place → Reading α) (place : Place) : Reading (Option α) := do
  let place ← place.resolve
  match place.node with
  | .scalar s => if ← Reading.ofOption s.isAbsent then pure none else some <$> read place
  | _ => some <$> read place

/-- A place one level further in. -/
def enter (place : Place) (node : Node) : Place :=
  ⟨node, place.depth - 1⟩

/-- Fails where no further level may be entered. -/
def mayEnter (place : Place) : Reading Unit :=
  if place.depth = 0 then failure else pure ()

/-- The items of a sequence. -/
def items (place : Place) : Reading (List Place) := do
  match ← follow place.node with
  | .sequence _ items => do
    place.mayEnter
    return items.map place.enter
  | .scalar s => if s.isBlank then pure [] else failure
  | _ => failure

/-- The entries of a mapping, with the texts of their keys. -/
def entries (place : Place) : Reading (List (String × Place)) := do
  match ← follow place.node with
  | .mapping _ entries => do
    place.mayEnter
    entries.mapM fun (key, value) => do
      return (← (place.enter key).text, place.enter value)
  | .scalar s => if s.isBlank then pure [] else failure
  | _ => failure

/-- A list. -/
def list (read : Place → Reading α) (place : Place) : Reading (List α) := do
  (← place.items).mapM read

/-- A map from texts. -/
def fields (read : Place → Reading α) (place : Place) : Reading (Fields α) := do
  let pairs ← (← place.entries).mapM fun (key, value) => do return (key, ← read value)
  return Fields.ofList pairs

/-- A record. -/
def record (names : List String) (place : Place) : Reading (Record Place) := do
  let place ← place.resolve
  match place.node with
  | .sequence _ _ =>
    if !(← read).listsRecords then failure
    Reading.ofOption (Record.ofItems? names (← place.items))
  | _ => Reading.ofOption (Record.ofEntries? names (← place.entries))

/-! ### Anything -/

/-- The tree of a node from which `depth` levels may be entered. -/
def treeWithin : Nat → Node → Reading Tree
  | 0, node => do
    match ← follow node with
    | .scalar s => .atom <$> Reading.ofOption s.atom
    | _ => failure
  | depth + 1, node => do
    match ← follow node with
    | .scalar s => .atom <$> Reading.ofOption s.atom
    | .sequence tagged items =>
      if tagged then failure
      .sequence <$> items.mapM (treeWithin depth)
    | .mapping tagged entries =>
      if tagged then failure
      .mapping <$> entries.mapM fun (key, value) => do
        return (← treeWithin depth key, ← treeWithin depth value)
    | .alias _ => failure

/-- Anything, as a tree. -/
def tree (place : Place) : Reading Tree :=
  treeWithin place.depth place.node

/-- What `decide` makes of the tree at a place. -/
def decided (decide : Tree → Option α) (place : Place) : Reading α := do
  Reading.ofOption (decide (← place.tree))

/-- The text of a key. -/
def keyText (node : Node) : Reading String := do
  match ← follow node with
  | .scalar s => Reading.ofOption s.text
  | _ => failure

/-- The value of a node from which `depth` levels may be entered. Every scalar is accepted as the
name of an object's member. -/
def valueWithin : Nat → Node → Reading Value
  | 0, node => do
    match ← follow node with
    | .scalar s => Tree.valueOfAtom <$> Reading.ofOption s.atom
    | _ => failure
  | depth + 1, node => do
    match ← follow node with
    | .scalar s => Tree.valueOfAtom <$> Reading.ofOption s.atom
    | .sequence tagged items =>
      if tagged then failure
      .array <$> items.mapM (valueWithin depth)
    | .mapping tagged entries =>
      if tagged then failure
      let members ← entries.mapM fun (key, value) => do
        return (← keyText key, ← valueWithin depth value)
      return .object (Fields.sorted members)
    | .alias _ => failure

/-- Anything, as a value. -/
def value (place : Place) : Reading Value :=
  valueWithin place.depth place.node

end Place

end FunctionForge.Markup
