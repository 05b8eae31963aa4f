import FunctionForge.Markup.Yaml.Scalar
import FunctionForge.Markup.Yaml.Token

/-!
# YAML documents

Makes a `Source` of a YAML text: its tokens are put together to nodes, anchors are numbered, and
tags are expanded. A text holds one document; one without any document counts as a blank scalar.

An anchor gets as its number how many names of anchors there were before it, and a later anchor with
the same number takes its place. So a name that is used again can take the number of another.
-/

namespace FunctionForge.Markup.Yaml

/-- The state in which nodes are put together. -/
structure Composing where
  /-- The tokens to come. -/
  tokens : List Token
  /-- What the handles of tags stand for. -/
  handles : List (String × TagText)
  /-- The numbers of the names of anchors. -/
  anchorNumbers : List (String × Nat)
  /-- How many anchors have been met. -/
  anchorsMet : Nat
  /-- The anchored nodes, each with its number and with the count of the anchors met before it. -/
  anchored : List (Nat × Nat × Node)
  /-- How many scalars, aliases and ends of collections have been met. -/
  size : Nat

/-- A step of putting nodes together. -/
abbrev Compose := StateT Composing Option

namespace Compose

/-- The next token. -/
def peek : Compose (Option Token) := do
  return (← get).tokens.head?

/-- Drops the next token. -/
def drop : Compose Unit :=
  modify fun s => { s with tokens := s.tokens.tail }

/-- Counts `n` more parts of the document. -/
def count (n : Nat) : Compose Unit :=
  modify fun s => { s with size := s.size + n }

/-- Drops the next token if it is `token`, and says whether it was. -/
def dropIf (token : Token) : Compose Bool := do
  if (← peek) = some token then
    drop
    return true
  return false

/-- A scalar of which nothing is written. -/
def blank : Compose Node := do
  count 1
  return .scalar (scalar none .plain "")

/-! ### Anchors and tags -/

/-- Numbers an anchor. The result is what has to be known when its node is complete. -/
def meetAnchor (name : String) : Compose (Nat × Nat) := do
  let s ← get
  let number := s.anchorNumbers.length
  let others := s.anchorNumbers.filter fun pair => pair.1 ≠ name
  set { s with
    anchorNumbers := (name, number) :: others
    anchorsMet := s.anchorsMet + 1 }
  return (number, s.anchorsMet)

/-- Keeps the node of an anchor. -/
def keepAnchored (met : Option (Nat × Nat)) (node : Node) : Compose Node := do
  match met with
  | some (number, order) =>
    modify fun s => { s with anchored := (number, order, node) :: s.anchored }
  | none => pure ()
  return node

/-- The tag with a handle and an ending. -/
def expandTag (handle : String) (ending : TagText) : Compose Tag := do
  if handle.isEmpty then return .ofText ending
  match (← get).handles.lookup handle with
  | some expansion => return .ofText (expansion ++ ending)
  | none => failure

/-- Takes an anchor, if there is one. -/
def takeAnchor : Compose (Option (Nat × Nat) ) := do
  match ← peek with
  | some (.anchor name) =>
    drop
    some <$> meetAnchor name
  | _ => return none

/-- Takes a tag, if there is one. -/
def takeTag : Compose (Option Tag) := do
  match ← peek with
  | some (.tag handle ending) =>
    drop
    some <$> expandTag handle ending
  | _ => return none

/-- Takes an anchor and a tag in either order. -/
def takeProperties : Compose (Option (Nat × Nat) × Option Tag) := do
  match ← takeAnchor with
  | some met => return (some met, ← takeTag)
  | none =>
    let tag ← takeTag
    if tag.isSome then return (← takeAnchor, tag)
    return (none, none)

/-! ### Nodes -/

/-- Whether an item, a key or a value is left out in a block, and this token follows it. -/
def endsInBlock : Option Token → Bool
  | some .key | some .value | some .blockEnd => true
  | _ => false

mutual

/-- A node. Block collections are accepted if `inBlock`; a sequence that is not indented is accepted
if `unindented`. -/
def node : Nat → Bool → Bool → Compose Node
  | 0, _, _ => failure
  | fuel + 1, inBlock, unindented => do
    if let some (.alias name) ← peek then
      drop
      count 1
      match (← get).anchorNumbers.lookup name with
      | some number => return .alias number
      | none => failure
    let (met, tag) ← takeProperties
    match ← peek with
    | some (.scalar style text) =>
      drop
      count 1
      keepAnchored met (.scalar (scalar tag style text))
    | some .flowSequenceStart =>
      drop
      count 2
      keepAnchored met (.sequence (tag = some .localTag) (← flowItems fuel true))
    | some .flowMappingStart =>
      drop
      count 2
      keepAnchored met (.mapping (tag = some .localTag) (← flowEntries fuel true))
    | next =>
      if unindented ∧ next = some .blockEntry then
        count 2
        keepAnchored met (.sequence (tag = some .localTag) (← unindentedItems fuel))
      else if inBlock ∧ next = some .blockSequenceStart then
        drop
        count 2
        keepAnchored met (.sequence (tag = some .localTag) (← blockItems fuel))
      else if inBlock ∧ next = some .blockMappingStart then
        drop
        count 2
        keepAnchored met (.mapping (tag = some .localTag) (← blockEntries fuel))
      else if met.isSome ∨ tag.isSome then
        count 1
        keepAnchored met (.scalar (scalar tag .plain ""))
      else failure

/-- The items of a block sequence. -/
def blockItems : Nat → Compose (List Node)
  | 0 => failure
  | fuel + 1 => do
    if ← dropIf .blockEntry then
      let next ← peek
      let item ←
        if next = some .blockEntry ∨ next = some .blockEnd then blank else node fuel true false
      return item :: (← blockItems fuel)
    else if ← dropIf .blockEnd then return []
    else failure

/-- The items of a sequence that is not indented. -/
def unindentedItems : Nat → Compose (List Node)
  | 0 => failure
  | fuel + 1 => do
    if ← dropIf .blockEntry then
      let next ← peek
      let item ←
        if next = some .blockEntry ∨ endsInBlock next then blank else node fuel true false
      return item :: (← unindentedItems fuel)
    else return []

/-- The entries of a block mapping. -/
def blockEntries : Nat → Compose (List (Node × Node))
  | 0 => failure
  | fuel + 1 => do
    if ← dropIf .key then
      let key ← if endsInBlock (← peek) then blank else node fuel true true
      let value ←
        if ← dropIf .value then
          if endsInBlock (← peek) then blank else node fuel true true
        else blank
      return (key, value) :: (← blockEntries fuel)
    else if ← dropIf .blockEnd then return []
    else failure

/-- The items of a sequence in brackets, of which none has been read if `isFirst`. A key among them
starts a mapping of one entry. -/
def flowItems : Nat → Bool → Compose (List Node)
  | 0, _ => failure
  | fuel + 1, isFirst => do
    if ← dropIf .flowSequenceEnd then return []
    if !isFirst then
      if !(← dropIf .flowEntry) then failure
    if ← dropIf .flowSequenceEnd then return []
    let item ←
      if ← dropIf .key then
        count 2
        let next ← peek
        let key ←
          if next = some .value ∨ next = some .flowEntry ∨ next = some .flowSequenceEnd then
            drop
            blank
          else node fuel false false
        let value ←
          if ← dropIf .value then
            let next ← peek
            if next = some .flowEntry ∨ next = some .flowSequenceEnd then blank
            else node fuel false false
          else blank
        pure (.mapping false [(key, value)])
      else node fuel false false
    return item :: (← flowItems fuel false)

/-- The entries of a mapping in braces, of which none has been read if `isFirst`. -/
def flowEntries : Nat → Bool → Compose (List (Node × Node))
  | 0, _ => failure
  | fuel + 1, isFirst => do
    if ← dropIf .flowMappingEnd then return []
    if !isFirst then
      if !(← dropIf .flowEntry) then failure
    if ← dropIf .flowMappingEnd then return []
    let ends : Option Token → Bool := fun next =>
      next = some .flowEntry ∨ next = some .flowMappingEnd
    let entry ←
      if ← dropIf .key then
        let next ← peek
        let key ← if next = some .value ∨ ends next then blank else node fuel false false
        let value ←
          if ← dropIf .value then
            if ends (← peek) then blank else node fuel false false
          else blank
        pure (key, value)
      else
        let key ← node fuel false false
        pure (key, ← blank)
    return entry :: (← flowEntries fuel false)

end

/-! ### Documents -/

/-- The handles that need no directive. -/
def knownHandles : List (String × TagText) :=
  [("!", .ofString "!"), ("!!", .ofString "tag:yaml.org,2002:")]

/-- Takes the directives before a document; `versioned` tells whether the version has been given. -/
def directives : Nat → Bool → Compose Unit
  | 0, _ => failure
  | fuel + 1, versioned => do
    match ← peek with
    | some (.versionDirective major minor) =>
      if versioned ∨ major ≠ 1 ∨ (minor ≠ 1 ∧ minor ≠ 2) then failure
      drop
      directives fuel true
    | some (.tagDirective handle expansion) =>
      let s ← get
      if (s.handles.lookup handle).isSome then failure
      set { s with handles := (handle, expansion) :: s.handles }
      drop
      directives fuel versioned
    | _ => modify fun s => { s with handles := s.handles ++ knownHandles }

/-- Whether a token starts a document that is marked as one. -/
def startsMarked : Option Token → Bool
  | some (.versionDirective _ _) | some (.tagDirective _ _) | some .documentStart => true
  | _ => false

/-- The root of the only document. -/
def root (fuel : Nat) : Compose Node := do
  let marked := startsMarked (← peek)
  directives fuel false
  let root ←
    if marked then do
      if !(← dropIf .documentStart) then failure
      let next ← peek
      if startsMarked next ∨ next = some .documentEnd ∨ next = none then blank
      else node fuel true false
    else node fuel true false
  let s ← get
  if s.tokens.any (· ≠ .documentEnd) then failure
  return root

end Compose

/-- The anchored nodes by number, the last one met coming first. -/
def byLastMet (anchored : List (Nat × Nat × Node)) : List (Nat × Node) :=
  (anchored.mergeSort fun a b => a.2.1 ≥ b.2.1).map fun (number, _, node) => (number, node)

/-- How many levels of a YAML document may be entered. -/
def depthLimit : Nat := 128

/-- How many aliases may be followed for each part of a document. -/
def jumpsPerPart : Nat := 100

/-- The document with this root, these anchored nodes and so many parts. -/
def sourceOf (root : Node) (anchors : List (Nat × Node)) (size : Nat) : Source :=
  { root, anchors, jumps := jumpsPerPart * size, depth := depthLimit, listsRecords := false }

/-- Reads a text in YAML notation. -/
def read? (text : String) : Option Source := do
  let tokens ← tokens? text.toList
  if tokens.isEmpty then return sourceOf (.scalar noScalar) [] 1
  let fuel := 2 * tokens.length + 4
  let (root, s) ← (Compose.root fuel).run
    { tokens, handles := [], anchorNumbers := [], anchorsMet := 0, anchored := [], size := 0 }
  return sourceOf root (byLastMet s.anchored) s.size

end FunctionForge.Markup.Yaml
