import FunctionForge.Markup.Yaml.Tag
import FunctionForge.Markup.Yaml.Text

/-!
# YAML tokens

Cuts a YAML text into tokens. Indentation is turned into tokens for the start and the end of block
collections. Whether a piece of text is a key is known only when the colon behind it is found: until
then its place among the tokens is kept as a `PendingKey`, and the tokens of a key are put in there
afterwards. A pending key lapses at the end of its line and after 1024 bytes; if the indentation
demands that a key stand there, this is an error.

`Scanning` holds the position in the text, the tokens found and what the next token depends on.
-/

namespace FunctionForge.Markup.Yaml

/-- A token of a YAML text. -/
inductive Token where
  | versionDirective (major minor : Nat)
  | tagDirective (handle : String) (expansion : TagText)
  | documentStart
  | documentEnd
  | blockSequenceStart
  | blockMappingStart
  | blockEnd
  | flowSequenceStart
  | flowSequenceEnd
  | flowMappingStart
  | flowMappingEnd
  | blockEntry
  | flowEntry
  | key
  | value
  | alias (name : String)
  | anchor (name : String)
  | tag (handle : String) (ending : TagText)
  | scalar (style : ScalarStyle) (text : String)
  deriving Repr, DecidableEq

/-- A place where a key may have started. -/
structure PendingKey where
  /-- Whether the indentation demands a key. -/
  isRequired : Bool
  /-- How many tokens come before it. -/
  position : Nat
  index : Nat
  line : Nat
  column : Nat

/-- Tokens in reverse, together with their number. -/
structure TokenStack where
  tokens : List Token
  count : Nat
  count_eq : count = tokens.length

namespace TokenStack

/-- No tokens. -/
def empty : TokenStack := ⟨[], 0, rfl⟩

/-- Adds a token so many times. -/
def push (stack : TokenStack) (token : Token) (times : Nat) : TokenStack :=
  ⟨List.replicate times token ++ stack.tokens, stack.count + times, by
    simp [stack.count_eq, Nat.add_comm]⟩

/-- Puts a token behind the first `position` ones. -/
def insertAt (stack : TokenStack) (position : Nat) (token : Token) : TokenStack :=
  let later := stack.count - position
  ⟨stack.tokens.take later ++ token :: stack.tokens.drop later, stack.count + 1, by
    simp [stack.count_eq]; omega⟩

end TokenStack

/-- The state in which tokens are read. -/
structure Scanning where
  cursor : Cursor
  /-- The tokens found. -/
  found : TokenStack
  /-- The indentations of the open block collections, the innermost first. -/
  indents : List Int
  /-- The place of a pending key at each level of brackets, the innermost first and the block
  level last. -/
  pending : List (Option PendingKey)
  /-- Whether a key may start here. -/
  keyAllowed : Bool

/-- A step of reading tokens. -/
abbrev Scan := StateT Scanning Option

namespace Scanning

/-- The state at the start of a text. -/
def start (text : List Char) : Scanning :=
  { cursor := .start text, found := .empty, indents := [], pending := [none], keyAllowed := true }

/-- The indentation of the innermost block collection, `-1` outside of all. -/
def indent (s : Scanning) : Int :=
  s.indents.headD (-1)

/-- Whether the position is inside brackets. -/
def inFlow (s : Scanning) : Bool :=
  !s.pending.tail.isEmpty

end Scanning

namespace Scan

/-- Adds a token. -/
def push (token : Token) : Scan Unit :=
  modify fun s => { s with found := s.found.push token 1 }

/-- Puts a token behind the first `position` ones. -/
def pushAt (position : Nat) (token : Token) : Scan Unit :=
  modify fun s => { s with found := s.found.insertAt position token }

/-- Moves the position. -/
def move (cursor : Cursor) : Scan Unit :=
  modify fun s => { s with cursor }

/-- Says whether a key may start here. -/
def allowKey (allowed : Bool) : Scan Unit :=
  modify fun s => { s with keyAllowed := allowed }

/-! ### Pending keys and indentation -/

/-- Whether a pending key has lapsed at a position. -/
def hasLapsed (cursor : Cursor) (pending : PendingKey) : Bool :=
  pending.line < cursor.line || pending.index + 1024 < cursor.index

/-- Drops the pending keys that have lapsed. -/
def dropLapsed : Scan Unit := do
  let s ← get
  let lapses : Option PendingKey → Bool := Option.any (hasLapsed s.cursor)
  if s.pending.any lapses then
    if s.pending.any fun key => lapses key && key.any (·.isRequired) then failure
    set { s with pending := s.pending.map fun key => if lapses key then none else key }

/-- Drops the pending key of the innermost level. -/
def dropPending : Scan Unit := do
  let s ← get
  match s.pending with
  | some key :: rest =>
    if key.isRequired then failure
    set { s with pending := none :: rest }
  | _ => pure ()

/-- Notes that a key may start here, if one may. -/
def notePending : Scan Unit := do
  let s ← get
  if s.keyAllowed then
    dropPending
    let key : PendingKey :=
      { isRequired := !s.inFlow && s.indent == s.cursor.column, position := s.found.count,
        index := s.cursor.index, line := s.cursor.line, column := s.cursor.column }
    modify fun s => { s with pending := some key :: s.pending.tail }

/-- Opens a block collection at a column, if it is indented further than the innermost one. Its
token goes behind the first `position` tokens. -/
def openBlock (column position : Nat) (token : Token) : Scan Unit := do
  let s ← get
  if !s.inFlow && s.indent < column then
    set { s with indents := (column : Int) :: s.indents }
    pushAt position token

/-- Closes the block collections that are indented further than a column. -/
def closeBlocks (column : Int) : Scan Unit := do
  let s ← get
  if !s.inFlow then
    let closed := s.indents.takeWhile (column < ·)
    set { s with
      indents := s.indents.drop closed.length
      found := s.found.push .blockEnd closed.length }

/-! ### Gaps between tokens -/

/-- The position of the next token, and whether a line outside of brackets has ended before it. Tabs
count as blanks inside brackets and where no key may start; a byte order mark may start a line. -/
def skipGap (inFlow : Bool) : Nat → Bool → Cursor → Bool × Cursor
  | 0, keyAllowed, cursor => (keyAllowed, cursor)
  | fuel + 1, keyAllowed, cursor =>
    let cursor := if cursor.column = 0 ∧ cursor.rest.head?.any isByteOrderMark then cursor.next
      else cursor
    let cursor := cursor.skipWhile fun c => c == ' ' || ((inFlow || !keyAllowed) && c == '\t')
    let cursor := if cursor.isAt '#' then cursor.skipLineRest else cursor
    match cursor.rest with
    | c :: _ =>
      if isBreak c then skipGap inFlow fuel (keyAllowed || !inFlow) cursor.nextLine
      else (keyAllowed, cursor)
    | [] => (keyAllowed, cursor)

/-- Moves to the next token. -/
def toNextToken : Scan Unit := do
  let s ← get
  let (keyAllowed, cursor) := skipGap s.inFlow s.cursor.bound s.keyAllowed s.cursor
  set { s with keyAllowed, cursor }

/-! ### Directives, anchors and tags -/

/-- Reads a number of at most nine digits. -/
def readVersionNumber (cursor : Cursor) : Option (Nat × Cursor) := do
  let (ds, cursor) := cursor.span Number.isDigit
  if ds.length > 9 then none
  return (← Number.read? 10 ds, cursor)

/-- The byte written by an escape `%XX`, and what follows it. -/
def readOctet (cursor : Cursor) : Option (Nat × Cursor) := do
  if cursor.peek? 0 ≠ some '%' then none
  return (← Number.read? 16 ((cursor.rest.drop 1).take 2), cursor.skip 3)

/-- Reads the further bytes of a character. -/
def readOctets : Nat → Nat → Cursor → Option (Nat × Cursor)
  | 0, code, cursor => some (code, cursor)
  | more + 1, code, cursor => do
    let (octet, cursor) ← readOctet cursor
    if octet / 64 ≠ 2 then none
    readOctets more (code * 64 + octet % 64) cursor

/-- Reads what is written as the escaped bytes of one character: an empty place if they make up
none, or if fewer bytes would do. -/
def readUriEscape (cursor : Cursor) : Option (Option Char × Cursor) := do
  let (octet, cursor) ← readOctet cursor
  let (code, more) ←
    if octet < 0x80 then some (octet, 0)
    else if octet / 32 = 6 then some (octet % 32, 1)
    else if octet / 16 = 14 then some (octet % 16, 2)
    else if octet / 8 = 30 then some (octet % 8, 3)
    else none
  let (code, cursor) ← readOctets more code cursor
  return ((charOf? code).filter (·.utf8Size = more + 1), cursor)

/-- Whether a character may stand in a tag; commas and square brackets only where the tag is written
in full. -/
def isUriChar (inFull : Bool) (c : Char) : Bool :=
  isNameChar c || ";/?:@&=+$.%!~*'()".toList.contains c || (inFull && ",[]".toList.contains c)

/-- Reads the characters of a tag; `text` in reverse is what has been read. -/
def readUri (inFull : Bool) : Nat → TagText → Cursor → Option (TagText × Cursor)
  | 0, _, _ => none
  | fuel + 1, text, cursor =>
    match cursor.rest with
    | c :: _ =>
      if c = '%' then do
        let (place, cursor) ← readUriEscape cursor
        readUri inFull fuel (place :: text) cursor
      else if isUriChar inFull c then readUri inFull fuel (some c :: text) cursor.next
      else some (text.reverse, cursor)
    | [] => some (text.reverse, cursor)

/-- Reads a handle: an exclamation mark, or a name between two. -/
def readHandle (cursor : Cursor) : Option (List Char × Cursor) := do
  if !cursor.isAt '!' then none
  let (name, cursor) := cursor.next.span isNameChar
  if cursor.isAt '!' then return ('!' :: (name ++ ['!']), cursor.next)
  return ('!' :: name, cursor)

/-- Reads the rest of a directive `%YAML`. -/
def readVersion (cursor : Cursor) : Option (Token × Cursor) := do
  let (major, cursor) ← readVersionNumber (cursor.skipWhile isSpacing)
  if !cursor.isAt '.' then none
  let (minor, cursor) ← readVersionNumber cursor.next
  return (.versionDirective major minor, cursor)

/-- Reads the rest of a directive `%TAG`. -/
def readTagDirective (cursor : Cursor) : Option (Token × Cursor) := do
  let (handle, cursor) ← readHandle (cursor.skipWhile isSpacing)
  if handle.length > 1 ∧ handle.getLast? ≠ some '!' then none
  if !(cursor.rest.head?.map isSpacing).getD false then none
  let cursor := cursor.skipWhile isSpacing
  let (expansion, cursor) ← readUri true cursor.bound [] cursor
  if expansion.isEmpty ∨ !cursor.gapAfter 0 then none
  return (.tagDirective (String.ofList handle) expansion.untilNull, cursor)

/-- Reads a directive and the rest of its line. -/
def directive : Scan Unit := do
  closeBlocks (-1)
  dropPending
  allowKey false
  let (name, cursor) := (← get).cursor.next.span isNameChar
  if name.isEmpty ∨ !cursor.gapAfter 0 then failure
  let (token, cursor) ←
    if name = "YAML".toList then StateT.lift (readVersion cursor)
    else if name = "TAG".toList then StateT.lift (readTagDirective cursor)
    else failure
  push token
  let cursor := cursor.skipWhile isSpacing
  let cursor := if cursor.isAt '#' then cursor.skipLineRest else cursor
  if !cursor.gapAfter 0 then failure
  move cursor.nextLine

/-- Reads the name of an anchor or of an alias behind its mark. -/
def anchorName : Scan String := do
  notePending
  allowKey false
  let (name, cursor) := (← get).cursor.next.span isNameChar
  if name.isEmpty then failure
  let delimits : Char → Bool := fun c => isGap c || "?:,]\x7d%@\x60".toList.contains c
  if !((cursor.rest.head?.map delimits).getD true) then failure
  move cursor
  return String.ofList name

/-- Reads a tag: its handle and its ending. -/
def readTag (cursor : Cursor) : Option (Token × Cursor) := do
  if cursor.peek? 1 = some '<' then
    let cursor := cursor.skip 2
    let (text, cursor) ← readUri true cursor.bound [] cursor
    if text.isEmpty ∨ !cursor.isAt '>' then none
    return (.tag "" text.untilNull, cursor.next)
  let (handle, cursor) ← readHandle cursor
  let (text, cursor) ← readUri false cursor.bound [] cursor
  if handle.length > 1 ∧ handle.getLast? = some '!' then
    if text.isEmpty then none
    return (.tag (String.ofList handle) text.untilNull, cursor)
  let ending := TagText.untilNull (handle.tail.map some ++ text)
  if ending.isEmpty then return (.tag "" (.ofString "!"), cursor)
  return (.tag "!" ending, cursor)

/-- Takes a tag. -/
def tag : Scan Unit := do
  notePending
  allowKey false
  let s ← get
  let (token, cursor) ← StateT.lift (readTag s.cursor)
  if !cursor.gapAfter 0 ∧ !(s.inFlow ∧ cursor.isAt ',') then failure
  push token
  move cursor

/-! ### Structure -/

/-- Takes a mark of one character. -/
def takeMark (token : Token) : Scan Unit := do
  push token
  modify fun s => { s with cursor := s.cursor.next }

/-- Takes the marker of a document's start or end. -/
def boundary (token : Token) : Scan Unit := do
  closeBlocks (-1)
  dropPending
  allowKey false
  push token
  modify fun s => { s with cursor := s.cursor.skip 3 }

/-- Takes an opening bracket. -/
def openFlow (token : Token) : Scan Unit := do
  notePending
  modify fun s => { s with pending := none :: s.pending }
  allowKey true
  takeMark token

/-- Takes a closing bracket. -/
def closeFlow (token : Token) : Scan Unit := do
  dropPending
  modify fun s => if s.inFlow then { s with pending := s.pending.tail } else s
  allowKey false
  takeMark token

/-- Takes the comma between two items. -/
def flowEntry : Scan Unit := do
  dropPending
  allowKey true
  takeMark .flowEntry

/-- Takes the dash before an item. -/
def blockEntry : Scan Unit := do
  let s ← get
  if !s.inFlow then
    if !s.keyAllowed then failure
    openBlock s.cursor.column s.found.count .blockSequenceStart
  dropPending
  allowKey true
  takeMark .blockEntry

/-- Takes the question mark before a key. -/
def keyMark : Scan Unit := do
  let s ← get
  if !s.inFlow then
    if !s.keyAllowed then failure
    openBlock s.cursor.column s.found.count .blockMappingStart
  dropPending
  allowKey (!s.inFlow)
  takeMark .key

/-- Takes the colon behind a key, and marks the key if it was pending. -/
def valueMark : Scan Unit := do
  let s ← get
  match s.pending with
  | some pending :: rest =>
    pushAt pending.position .key
    openBlock pending.column pending.position .blockMappingStart
    modify fun s => { s with pending := none :: rest, keyAllowed := false }
  | _ =>
    if !s.inFlow then
      if !s.keyAllowed then failure
      openBlock s.cursor.column s.found.count .blockMappingStart
    allowKey (!s.inFlow)
  takeMark .value

/-! ### Scalars -/

/-- Takes a block scalar. -/
def blockScalar (folds : Bool) : Scan Unit := do
  dropPending
  allowKey true
  let s ← get
  let (text, cursor) ← StateT.lift (readBlock folds s.indent s.cursor.next)
  push (.scalar (if folds then .folded else .literal) text)
  move cursor

/-- Takes a quoted scalar. -/
def quotedScalar (quote : Char) : Scan Unit := do
  notePending
  allowKey false
  let s ← get
  let (text, cursor) ←
    StateT.lift (readQuoted quote s.cursor.bound .none [] s.cursor.next)
  push (.scalar .quoted text)
  move cursor

/-- Takes a plain scalar. -/
def plainScalar : Scan Unit := do
  notePending
  allowKey false
  let s ← get
  let (text, cursor, broken) ← StateT.lift
    (readPlain s.inFlow (s.indent + 1).toNat s.cursor.bound none [] s.cursor)
  push (.scalar .plain text)
  move cursor
  if broken then allowKey true

/-- Whether a plain scalar may start with the next character. -/
def startsPlain (cursor : Cursor) (inFlow : Bool) (c : Char) : Bool :=
  !(isGap c || "-?:,[]\x7b\x7d#&*!|>'\"%@\x60".toList.contains c) ||
    (c == '-' && !((cursor.peek? 1).map isSpacing).getD false) ||
    (!inFlow && (c == '?' || c == ':') && !cursor.gapAfter 1)

/-! ### Texts -/

/-- Takes the token that starts with the next character. -/
def nextToken (c : Char) : Scan Unit := do
  let s ← get
  let cursor := s.cursor
  if cursor.column = 0 ∧ c = '%' then directive
  else if cursor.atMarker '-' then boundary .documentStart
  else if cursor.atMarker '.' then boundary .documentEnd
  else if c = '[' then openFlow .flowSequenceStart
  else if c = '\x7b' then openFlow .flowMappingStart
  else if c = ']' then closeFlow .flowSequenceEnd
  else if c = '\x7d' then closeFlow .flowMappingEnd
  else if c = ',' then flowEntry
  else if c = '-' ∧ cursor.gapAfter 1 then blockEntry
  else if c = '?' ∧ (s.inFlow ∨ cursor.gapAfter 1) then keyMark
  else if c = ':' ∧ (s.inFlow ∨ cursor.gapAfter 1) then valueMark
  else if c = '*' then do push (.alias (← anchorName))
  else if c = '&' then do push (.anchor (← anchorName))
  else if c = '!' then tag
  else if c = '|' ∧ !s.inFlow then blockScalar false
  else if c = '>' ∧ !s.inFlow then blockScalar true
  else if c = '\'' ∨ c = '"' then quotedScalar c
  else if startsPlain cursor s.inFlow c then plainScalar
  else failure

/-- Takes the tokens up to the end of the text. -/
def allTokens : Nat → Scan Unit
  | 0 => failure
  | fuel + 1 => do
    toNextToken
    dropLapsed
    let s ← get
    closeBlocks s.cursor.column
    match s.cursor.rest with
    | [] =>
      closeBlocks (-1)
      dropPending
    | c :: _ =>
      nextToken c
      allTokens fuel

end Scan

/-- The tokens of a text; none if the text cannot be cut into tokens. -/
def tokens? (text : List Char) : Option (List Token) := do
  if !text.all isPrintable then none
  let (_, s) ← (Scan.allTokens (text.length + 2)).run (.start text)
  return s.found.tokens.reverse

end FunctionForge.Markup.Yaml
