/-!
# Cursors

A `Cursor` is a position in a YAML text: what is still to be read, and the line and column where it
starts. A line break is one of five characters, or a carriage return and a line feed together; a
line or paragraph separator reads as itself, any other as a line feed.
-/

namespace FunctionForge.Markup.Yaml

/-! ### Classes of characters -/

/-- Whether a character may stand in a text at all. -/
def isPrintable (c : Char) : Bool :=
  let n := c.toNat
  n == 9 || n == 10 || n == 13 || (0x20 ≤ n && n ≤ 0x7E) || n == 0x85 ||
    (0xA0 ≤ n && n ≤ 0xD7FF) || (0xE000 ≤ n && n ≤ 0xFFFD) || 0x10000 ≤ n

/-- Whether a character is the byte order mark, which may stand at the start of a line. -/
def isByteOrderMark (c : Char) : Bool :=
  c.toNat == 0xFEFF

/-- Whether a character is a space or a tab. -/
def isSpacing (c : Char) : Bool :=
  c == ' ' || c == '\t'

/-- Whether a character breaks a line. -/
def isBreak (c : Char) : Bool :=
  c == '\n' || c == '\r' || c.toNat == 0x85 || c.toNat == 0x2028 || c.toNat == 0x2029

/-- Whether a character is a space, a tab or a line break. -/
def isGap (c : Char) : Bool :=
  isSpacing c || isBreak c

/-- Whether a character may stand in the name of an anchor or of a directive. -/
def isNameChar (c : Char) : Bool :=
  c.isAlphanum || c == '_' || c == '-'

/-! ### Cursors -/

/-- A position in a text. -/
structure Cursor where
  /-- What is still to be read. -/
  rest : List Char
  /-- How many bytes come before it. -/
  index : Nat
  /-- How many lines come before its own. -/
  line : Nat
  /-- How many characters come before it on its line. -/
  column : Nat
  /-- More than the characters of the whole text, to bound what is done for each of them. -/
  bound : Nat
  deriving Repr

namespace Cursor

/-- The start of a text. -/
def start (text : List Char) : Cursor :=
  ⟨text, 0, 0, 0, text.length + 1⟩

/-- The character after the next `n`. -/
def peek? (cursor : Cursor) (n : Nat) : Option Char :=
  cursor.rest[n]?

/-- Whether the next character is `c`. -/
def isAt (cursor : Cursor) (c : Char) : Bool :=
  cursor.rest.head? == some c

/-- Whether a gap or the end of the text follows the next `n` characters. -/
def gapAfter (cursor : Cursor) (n : Nat) : Bool :=
  match cursor.peek? n with
  | some c => isGap c
  | none => true

/-- Whether the text ends here. -/
def atEnd (cursor : Cursor) : Bool :=
  cursor.rest.isEmpty

/-- How many bytes characters take up. -/
def byteSize : List Char → Nat
  | [] => 0
  | c :: rest => c.utf8Size + byteSize rest

/-- The position behind the next `n` characters, none of which is a line break. -/
def skip (cursor : Cursor) (n : Nat) : Cursor :=
  { cursor with
    rest := cursor.rest.drop n
    index := cursor.index + byteSize (cursor.rest.take n)
    column := cursor.column + n }

/-- The position behind the next character, which is no line break. -/
def next (cursor : Cursor) : Cursor :=
  cursor.skip 1

/-- The start of the next line, which is behind so many bytes. -/
def startLine (cursor : Cursor) (rest : List Char) (size : Nat) : Cursor :=
  { cursor with rest, index := cursor.index + size, line := cursor.line + 1, column := 0 }

/-- The position behind the line break that stands here; the same position if there is none. -/
def nextLine (cursor : Cursor) : Cursor :=
  match cursor.rest with
  | '\r' :: '\n' :: rest => cursor.startLine rest 2
  | c :: rest => if isBreak c then cursor.startLine rest c.utf8Size else cursor
  | [] => cursor

/-- What the line break that stands here reads as; nothing if there is none. -/
def lineBreak (cursor : Cursor) : List Char :=
  match cursor.rest with
  | c :: _ =>
    if c.toNat == 0x2028 || c.toNat == 0x2029 then [c] else if isBreak c then ['\n'] else []
  | [] => []

/-- The longest run of characters of a class that starts here, with the position behind it. The
class holds no line break. -/
def span (cursor : Cursor) (belongs : Char → Bool) : List Char × Cursor :=
  let run := cursor.rest.takeWhile belongs
  (run, cursor.skip run.length)

/-- The position behind the longest run of characters of a class. -/
def skipWhile (cursor : Cursor) (belongs : Char → Bool) : Cursor :=
  (cursor.span belongs).2

/-- The position at the end of the line. -/
def skipLineRest (cursor : Cursor) : Cursor :=
  cursor.skipWhile fun c => !isBreak c

/-- Whether the marker of a document's start or end stands here, alone. -/
def atMarker (cursor : Cursor) (mark : Char) : Bool :=
  cursor.column == 0 && cursor.peek? 0 == some mark && cursor.peek? 1 == some mark &&
    cursor.peek? 2 == some mark && cursor.gapAfter 3

/-- Whether a marker of a document's start or end stands here. -/
def atBoundary (cursor : Cursor) : Bool :=
  cursor.atMarker '-' || cursor.atMarker '.'

end Cursor

end FunctionForge.Markup.Yaml
