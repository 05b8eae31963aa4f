/-!
# Blanks and lines

The blank characters are the twenty-five that the Unicode character database calls white space.
`trim` and `trimEnd` take them off the ends of a text, and `lines` cuts a text at line feeds, where
a carriage return directly before the line feed belongs to the ending and a last empty line is none.

Every function is one on lists of characters with a version on strings beside it.
-/

namespace FunctionForge.Text

/-! ### Blanks -/

/-- Whether a character is white space. -/
def isBlank (c : Char) : Bool :=
  let n := c.toNat
  (9 ≤ n && n ≤ 13) || n == 0x20 || n == 0x85 || n == 0xA0 || n == 0x1680 ||
    (0x2000 ≤ n && n ≤ 0x200A) || n == 0x2028 || n == 0x2029 || n == 0x202F || n == 0x205F ||
    n == 0x3000

/-- A text without the blanks at its end. -/
def dropBlankEnd (text : List Char) : List Char :=
  (text.reverse.dropWhile isBlank).reverse

/-- A text without the blanks at its two ends. -/
def dropBlankEnds (text : List Char) : List Char :=
  dropBlankEnd (text.dropWhile isBlank)

/-- A string without the blanks at its end. -/
def trimEnd (text : String) : String :=
  String.ofList (dropBlankEnd text.toList)

/-- A string without the blanks at its two ends. -/
def trim (text : String) : String :=
  String.ofList (dropBlankEnds text.toList)

/-! ### Lines -/

/-- A line without the carriage return that belongs to its ending. -/
def dropReturn (line : List Char) : List Char :=
  if line.getLast? = some '\r' then line.dropLast else line

/-- The lines of a text, the unfinished line before it being `line` in reverse. -/
def linesFrom (line : List Char) : List Char → List (List Char)
  | [] => if line.isEmpty then [] else [line.reverse]
  | c :: rest =>
    if c = '\n' then dropReturn line.reverse :: linesFrom [] rest else linesFrom (c :: line) rest

/-- The lines of a text: each ends at a line feed or at the end of the text. -/
def charLines (text : List Char) : List (List Char) :=
  linesFrom [] text

/-- The lines of a string. -/
def lines (text : String) : List String :=
  (charLines text.toList).map String.ofList

end FunctionForge.Text
