import FunctionForge.Markup.Yaml.Cursor
import FunctionForge.Number.Decimal

/-!
# Scalar texts

Reads the text of a scalar where it stands: quoted, plain, or as a block of lines. Quoted and plain
scalars may run over several lines. Their gaps are folded: blanks around a line break are dropped,
a single line break becomes a space, and of several line breaks the first is dropped. `Gap` is what
has been read of a gap, and `Gap.fold` the text that it gives.
-/

namespace FunctionForge.Markup.Yaml

/-- How a scalar is written. -/
inductive ScalarStyle where
  | plain
  | quoted
  /-- As a block whose line breaks are kept. -/
  | literal
  /-- As a block whose line breaks are folded. -/
  | folded
  deriving Repr, DecidableEq

/-! ### Gaps -/

/-- What has been read of a gap between two pieces of a text. -/
structure Gap where
  /-- The blanks, in reverse, before any line break. -/
  blanks : List Char
  /-- Whether a line has ended. -/
  broken : Bool
  /-- The first line break. -/
  first : List Char
  /-- The line breaks after the first, in order. -/
  others : List Char

namespace Gap

/-- No gap. -/
def none : Gap := ⟨[], false, [], []⟩

/-- The gap that a line break behind a backslash leaves: it joins the lines without a space. -/
def joined : Gap := ⟨[], true, [], []⟩

/-- A gap with one more blank. Blanks at the start of a line do not count. -/
def addBlank (gap : Gap) (c : Char) : Gap :=
  if gap.broken then gap else { gap with blanks := c :: gap.blanks }

/-- A gap with one more line break. -/
def addBreak (gap : Gap) (lineBreak : List Char) : Gap :=
  if gap.broken then { gap with others := gap.others ++ lineBreak }
  else ⟨[], true, lineBreak, []⟩

/-- The text that a gap gives. -/
def fold (gap : Gap) : List Char :=
  if gap.broken then
    if gap.first.head? = some '\n' then if gap.others.isEmpty then [' '] else gap.others
    else gap.first ++ gap.others
  else gap.blanks.reverse

end Gap

/-! ### Quoted scalars -/

/-- What the letter behind a backslash stands for: a character, or a number of so many hexadecimal
digits. -/
def escape? (c : Char) : Option (Char ⊕ Nat) :=
  match c with
  | '0' => some (.inl (Char.ofNat 0))
  | 'a' => some (.inl (Char.ofNat 7))
  | 'b' => some (.inl (Char.ofNat 8))
  | 't' => some (.inl '\t')
  | '\t' => some (.inl '\t')
  | 'n' => some (.inl '\n')
  | 'v' => some (.inl (Char.ofNat 11))
  | 'f' => some (.inl (Char.ofNat 12))
  | 'r' => some (.inl '\r')
  | 'e' => some (.inl (Char.ofNat 0x1B))
  | ' ' => some (.inl ' ')
  | '"' => some (.inl '"')
  | '/' => some (.inl '/')
  | '\\' => some (.inl '\\')
  | 'N' => some (.inl (Char.ofNat 0x85))
  | '_' => some (.inl (Char.ofNat 0xA0))
  | 'L' => some (.inl (Char.ofNat 0x2028))
  | 'P' => some (.inl (Char.ofNat 0x2029))
  | 'x' => some (.inr 2)
  | 'u' => some (.inr 4)
  | 'U' => some (.inr 8)
  | _ => none

/-- The character with a number, if there is one. -/
def charOf? (n : Nat) : Option Char :=
  if h : n.isValidChar then some (Char.ofNatAux n h) else none

/-- Reads what stands behind a backslash in a double-quoted scalar. -/
def readEscape (cursor : Cursor) : Option (Char × Cursor) := do
  match ← escape? (← cursor.peek? 0) with
  | .inl c => return (c, cursor.next)
  | .inr count =>
    let ds := (cursor.rest.drop 1).take count
    if ds.length < count then none
    return (← charOf? (← Number.read? 16 ds), cursor.skip (count + 1))

/-- Reads a quoted scalar behind its opening quote; `text` in reverse is what has been read. -/
def readQuoted (quote : Char) : Nat → Gap → List Char → Cursor → Option (String × Cursor)
  | 0, _, _, _ => none
  | fuel + 1, gap, text, cursor =>
    match cursor.rest with
    | [] => none
    | c :: rest =>
      if isSpacing c then readQuoted quote fuel (gap.addBlank c) text cursor.next
      else if isBreak c then
        readQuoted quote fuel (gap.addBreak cursor.lineBreak) text cursor.nextLine
      else if cursor.atBoundary then none
      else
        let text := gap.fold.reverse ++ text
        if c = quote then
          if quote = '\'' ∧ rest.head? = some '\'' then
            readQuoted quote fuel .none ('\'' :: text) (cursor.skip 2)
          else some (String.ofList text.reverse, cursor.next)
        else if c = '\\' ∧ quote = '"' then
          if (rest.head?.map isBreak).getD false then
            readQuoted quote fuel .joined text cursor.next.nextLine
          else do
            let (c, cursor) ← readEscape cursor.next
            readQuoted quote fuel .none (c :: text) cursor
        else readQuoted quote fuel .none (c :: text) cursor.next

/-! ### Plain scalars -/

/-- Whether a character delimits a part of a collection in brackets. -/
def isFlowMark (c : Char) : Bool :=
  c == ',' || c == '[' || c == ']' || c == '\x7b' || c == '\x7d'

/-- Whether the character behind the next one is of a class. -/
def nextIs (cursor : Cursor) (belongs : Char → Bool) : Bool :=
  ((cursor.peek? 1).map belongs).getD false

/-- What a plain scalar comes to where it ends. The last part tells whether a line has ended behind
it; `text` in reverse is what has been read, and `gap` what has been read of a gap, if one has
begun. -/
def endPlain (gap : Option Gap) (text : List Char) (cursor : Cursor) : String × Cursor × Bool :=
  (String.ofList text.reverse, cursor, (gap.map Gap.broken).getD false)

/-- Reads a plain scalar, within brackets or in a block that is indented by at least `indent`. -/
def readPlain (inFlow : Bool) (indent : Nat) :
    Nat → Option Gap → List Char → Cursor → Option (String × Cursor × Bool)
  | 0, _, _, _ => none
  | fuel + 1, gap, text, cursor =>
    let current := gap.getD .none
    match cursor.rest with
    | [] => some (endPlain gap text cursor)
    | c :: _ =>
      if isSpacing c then
        if current.broken ∧ cursor.column < indent ∧ c = '\t' then none
        else readPlain inFlow indent fuel (some (current.addBlank c)) text cursor.next
      else if isBreak c then
        readPlain inFlow indent fuel (some (current.addBreak cursor.lineBreak)) text cursor.nextLine
      else if gap.isSome ∧ !inFlow ∧ cursor.column < indent then some (endPlain gap text cursor)
      else if (gap.isSome ∨ text.isEmpty) ∧ (cursor.atBoundary ∨ c = '#') then
        some (endPlain gap text cursor)
      else if inFlow ∧ c = ':' ∧ nextIs cursor fun d => isFlowMark d || d == '?' then none
      else if (c = ':' ∧ cursor.gapAfter 1) ∨ (inFlow ∧ isFlowMark c) then
        some (endPlain gap text cursor)
      else readPlain inFlow indent fuel none (c :: (current.fold.reverse ++ text)) cursor.next

/-! ### Blocks -/

/-- What is done with the line breaks at the end of a block. -/
inductive Chomping where
  | strip
  | clip
  | keep
  deriving DecidableEq

/-- Reads how the end of a block is treated, if it is written. -/
def readChomping (cursor : Cursor) : Option Chomping × Cursor :=
  if cursor.isAt '+' then (some .keep, cursor.next)
  else if cursor.isAt '-' then (some .strip, cursor.next)
  else (none, cursor)

/-- Reads by how much a block is indented, if it is written; zero is refused. -/
def readIncrement (cursor : Cursor) : Option (Option Nat × Cursor) :=
  match cursor.peek? 0 with
  | some c =>
    if Number.isDigit c then
      if c = '0' then none else some (some (c.toNat - '0'.toNat), cursor.next)
    else some (none, cursor)
  | none => some (none, cursor)

/-- Skips indentation and reads empty lines. `indent` is the indentation of the block, if it is
known; `widest` the greatest column that has been reached. The result holds `widest`, the line
breaks and the new position. -/
def readEmptyLines (indent : Option Nat) :
    Nat → Nat → List Char → Cursor → Option (Nat × List Char × Cursor)
  | 0, _, _, _ => none
  | fuel + 1, widest, breaks, cursor =>
    let inside := (indent.map fun n => decide (cursor.column < n)).getD true
    match cursor.rest with
    | [] => some (max widest cursor.column, breaks, cursor)
    | c :: _ =>
      if inside ∧ c = ' ' then readEmptyLines indent fuel widest breaks cursor.next
      else
        let widest := max widest cursor.column
        if inside ∧ c = '\t' then none
        else if isBreak c then
          readEmptyLines indent fuel widest (breaks ++ cursor.lineBreak) cursor.nextLine
        else some (widest, breaks, cursor)

/-- Reads the lines of a block that is indented by `indent`. `text` in reverse is what has been
read, `first` the break of the last line, `others` the empty lines after it, and `indented` tells
whether the last line starts with a blank. The result holds the first three and the new
position. -/
def readBlockLines (folds : Bool) (indent : Nat) :
    Nat → List Char → List Char → List Char → Bool → Cursor →
      Option (List Char × List Char × List Char × Cursor)
  | 0, _, _, _, _, _ => none
  | fuel + 1, text, first, others, indented, cursor =>
    if cursor.column ≠ indent ∨ cursor.atEnd then some (text, first, others, cursor)
    else do
      let startsBlank := (cursor.rest.head?.map isSpacing).getD false
      let joint :=
        if folds ∧ first.head? = some '\n' ∧ !indented ∧ !startsBlank then
          if others.isEmpty then [' '] else []
        else first
      let (line, cursor) := cursor.span fun c => !isBreak c
      let text := line.reverse ++ (others.reverse ++ (joint.reverse ++ text))
      let first := cursor.lineBreak
      let cursor := cursor.nextLine
      let (_, others, cursor) ← readEmptyLines (some indent) cursor.bound 0 [] cursor
      readBlockLines folds indent fuel text first others startsBlank cursor

/-- Reads a block scalar behind its indicator, in a collection that is indented by `parent`, which
is negative at the root. -/
def readBlock (folds : Bool) (parent : Int) (cursor : Cursor) : Option (String × Cursor) := do
  let (before, cursor) := readChomping cursor
  let (increment, cursor) ← readIncrement cursor
  let (after, cursor) := if before.isSome then (none, cursor) else
    if increment.isSome then readChomping cursor else (none, cursor)
  let chomping := (before.or after).getD .clip
  let cursor := cursor.skipWhile isSpacing
  let cursor := if cursor.isAt '#' then cursor.skipLineRest else cursor
  if !cursor.gapAfter 0 then none
  let cursor := cursor.nextLine
  let fuel := cursor.bound
  let known := increment.map fun n => parent.toNat + n
  let (widest, others, cursor) ← readEmptyLines known fuel 0 [] cursor
  let indent := known.getD (max widest (max (parent + 1).toNat 1))
  let (text, first, others, cursor) ← readBlockLines folds indent fuel [] [] others false cursor
  let text := if chomping = .strip then text else first.reverse ++ text
  let text := if chomping = .keep then others.reverse ++ text else text
  return (String.ofList text.reverse, cursor)

end FunctionForge.Markup.Yaml
