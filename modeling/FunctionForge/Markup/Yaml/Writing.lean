import FunctionForge.Markup.Yaml.Scalar
import FunctionForge.Value

/-!
# Writing YAML

Writes a value as a YAML text in block style, each level indented by two blanks; the items of an
array stand under the name of their member. A string is written plainly if it then reads back as the
same string and keeps to one line. Otherwise it is quoted, or, if it has line feeds, written line by
line below a mark.

Each piece of text that is written ends the line it stands on, so that pieces are put one after the
other.
-/

namespace FunctionForge.Markup.Yaml

namespace Writing

/-! ### Characters -/

/-- Whether a character breaks lines. -/
def breaksLine (c : Char) : Bool :=
  c = '\n' || c = '\r' || c.toNat = 0x85 || c.toNat = 0x2028 || c.toNat = 0x2029

/-- Whether a character separates words: a blank, a tab, a line break or the null character. -/
def separates (c : Char) : Bool :=
  c = ' ' || c = '\t' || c.toNat = 0 || breaksLine c

/-- Whether a character can be written as itself. -/
def isPrintable (c : Char) : Bool :=
  let n := c.toNat
  n = 0x0A || (0x20 ≤ n && n ≤ 0x7E) || (0xA0 ≤ n && n ≤ 0xD7FF) ||
    (0xE000 ≤ n && n ≤ 0xFFFD && n ≠ 0xFEFF) || 0x10000 ≤ n

/-- Whether a text is empty or starts with a separator. -/
def opensGap : List Char → Bool
  | [] => true
  | c :: _ => separates c

/-- Whether two characters of these kinds stand side by side. -/
def hasPair (first second : Char → Bool) : List Char → Bool
  | a :: b :: rest => (first a && second b) || hasPair first second (b :: rest)
  | _ => false

/-- Whether a character is a blank. -/
def isSpace (c : Char) : Bool := c = ' '

/-! ### Styles -/

/-- How a string is written. -/
inductive Style where
  | plain
  | singleQuoted
  | doubleQuoted
  /-- Line by line, below a mark. -/
  | literal
  deriving Repr, DecidableEq

/-- The characters that a plain scalar cannot start with. -/
def indicators : List Char :=
  ['#', ',', '[', ']', '\x7b', '\x7d', '&', '*', '!', '|', '>', '\'', '"', '%', '@', '\x60']

/-- Whether a text has a colon before a gap or a hash behind one, `previous` being the character
before it. -/
def hasInnerIndicator (previous : Option Char) : List Char → Bool
  | [] => false
  | c :: rest =>
    (c = ':' && opensGap rest) || (c = '#' && previous.any separates) ||
      hasInnerIndicator (some c) rest

/-- Whether a text looks like something else than a plain scalar. -/
def hasIndicator (text : List Char) : Bool :=
  ['-', '-', '-'].isPrefixOf text || ['.', '.', '.'].isPrefixOf text ||
    (match text with
      | c :: rest => indicators.contains c || ((c = '?' || c = '-') && opensGap rest)
      | [] => false) ||
    hasInnerIndicator none text

/-- Whether blanks or unprintable characters force a text between double quotes. -/
def needsEscapes (text : List Char) : Bool :=
  text.any (!isPrintable ·) || hasPair isSpace breaksLine text

/-- Whether a text may be written plainly. -/
def allowsPlain (text : List Char) : Bool :=
  !needsEscapes text && !text.any breaksLine && !hasIndicator text &&
    text.head? != some ' ' && text.getLast? != some ' '

/-- Whether a text may be written between single quotes. -/
def allowsSingleQuotes (text : List Char) : Bool :=
  !needsEscapes text && !hasPair breaksLine isSpace text

/-- Whether a text may be written line by line. -/
def allowsLiteral (text : List Char) : Bool :=
  !text.isEmpty && !needsEscapes text && text.getLast? != some ' '

/-- Whether a plain scalar of this text would not be read as a string, or looks like a number. -/
def isAmbiguous (text : String) : Bool :=
  hasLeadingZero text.toList ||
    match resolve text with
    | some (.string _) => false
    | _ => true

/-- The style of a string. -/
def styleOf (text : String) : Style :=
  let chars := text.toList
  if chars.contains '\n' then
    if allowsLiteral chars then .literal else .doubleQuoted
  else if !isAmbiguous text && allowsPlain chars then .plain
  else if allowsSingleQuotes chars then .singleQuoted
  else .doubleQuoted

/-! ### Scalars -/

/-- Blanks. -/
def blanks (n : Nat) : String :=
  String.ofList (List.replicate n ' ')

/-- Indents what comes behind the line breaks. `atBreak` tells whether the text follows one. -/
def indentLines (indent : Nat) (atBreak : Bool) : List Char → List Char
  | [] => []
  | c :: rest =>
    if breaksLine c then c :: indentLines indent true rest
    else if atBreak then List.replicate indent ' ' ++ c :: indentLines indent false rest
    else c :: indentLines indent false rest

/-- A number as so many hexadecimal digits. -/
def hexDigits : Nat → Nat → List Char
  | 0, _ => []
  | width + 1, n => hexDigits width (n / 16) ++ [(Nat.digitChar (n % 16)).toUpper]

/-- The letters that stand for characters behind a backslash. -/
def escapeLetters : List (Nat × Char) :=
  [(0x00, '0'), (0x07, 'a'), (0x08, 'b'), (0x09, 't'), (0x0A, 'n'), (0x0B, 'v'), (0x0C, 'f'),
    (0x0D, 'r'), (0x1B, 'e'), (0x22, '"'), (0x5C, '\\'), (0x85, 'N'), (0xA0, '_'), (0x2028, 'L'),
    (0x2029, 'P')]

/-- A character between double quotes. -/
def escaped (c : Char) : List Char :=
  if isPrintable c && !breaksLine c && c != '"' && c != '\\' then [c]
  else
    match escapeLetters.lookup c.toNat with
    | some letter => ['\\', letter]
    | none =>
      if c.toNat ≤ 0xFF then '\\' :: 'x' :: hexDigits 2 c.toNat
      else if c.toNat ≤ 0xFFFF then '\\' :: 'u' :: hexDigits 4 c.toNat
      else '\\' :: 'U' :: hexDigits 8 c.toNat

/-- A string between double quotes. -/
def doubleQuoted (text : List Char) : String :=
  String.ofList ('"' :: (text.flatMap escaped ++ ['"']))

/-- A string between single quotes. -/
def singleQuoted (indent : Nat) (text : List Char) : String :=
  let doubled := text.flatMap fun c => if c = '\'' then ['\'', '\''] else [c]
  String.ofList ('\'' :: indentLines indent false (doubled ++ ['\'']))

/-- What the mark of a text that is written line by line says of its ends: that it starts with
blanks, and which line breaks it ends with. -/
def literalHints (text : List Char) : String :=
  let start :=
    match text with
    | c :: _ => if c = ' ' || breaksLine c then "2" else ""
    | [] => ""
  let ending :=
    match text.reverse with
    | last :: rest =>
      if !breaksLine last then "-"
      else
        match rest with
        | c :: _ => if breaksLine c then "+" else ""
        | [] => "+"
    | [] => "-"
  start ++ ending

/-- A string written line by line, with its mark. -/
def literal (indent : Nat) (text : List Char) : String :=
  "|" ++ literalHints text ++ "\n" ++ String.ofList (indentLines indent true text) ++
    if text.getLast?.any breaksLine then "" else "\n"

/-- A string, to the end of its last line. -/
def stringLine (indent : Nat) (text : String) : String :=
  match styleOf text with
  | .plain => text ++ "\n"
  | .singleQuoted => singleQuoted indent text.toList ++ "\n"
  | .doubleQuoted => doubleQuoted text.toList ++ "\n"
  | .literal => literal indent text.toList

/-! ### Values -/

/-- The greatest length of a name that is written before its value, in bytes. -/
def nameLimit : Nat := 128

/-- Whether a name is written before its value, on one line. -/
def isShortName (name : String) : Bool :=
  name.utf8ByteSize ≤ nameLimit && !name.toList.any breaksLine

/-- A name that is written before its value. -/
def shortName (name : String) : String :=
  match styleOf name with
  | .plain => name
  | .singleQuoted => singleQuoted 0 name.toList
  | _ => doubleQuoted name.toList

mutual

/-- What stands behind a mark of one character, which is at `indent`. -/
def behindMark (indent : Nat) : Value → String
  | .null => " null\n"
  | .bool true => " true\n"
  | .bool false => " false\n"
  | .number n => " " ++ n.text ++ "\n"
  | .string s => " " ++ stringLine (indent + 2) s
  | .array [] => " []\n"
  | .array items => " " ++ Text.join (blanks (indent + 2)) (itemTexts (indent + 2) items)
  | .object [] => " \x7b\x7d\n"
  | .object members => " " ++ Text.join (blanks (indent + 2)) (memberTexts (indent + 2) members)

/-- What stands behind the name of a member, which is at `indent`. -/
def behindName (indent : Nat) : Value → String
  | .null => " null\n"
  | .bool true => " true\n"
  | .bool false => " false\n"
  | .number n => " " ++ n.text ++ "\n"
  | .string s => " " ++ stringLine (indent + 2) s
  | .array [] => " []\n"
  | .array items => "\n" ++ blanks indent ++ Text.join (blanks indent) (itemTexts indent items)
  | .object [] => " \x7b\x7d\n"
  | .object members =>
    "\n" ++ blanks (indent + 2) ++
      Text.join (blanks (indent + 2)) (memberTexts (indent + 2) members)

/-- The items of an array at `indent`. -/
def itemTexts (indent : Nat) : List Value → List String
  | [] => []
  | item :: rest => ("-" ++ behindMark indent item) :: itemTexts indent rest

/-- The members of an object at `indent`. -/
def memberTexts (indent : Nat) : List (String × Value) → List String
  | [] => []
  | (name, value) :: rest =>
    (if isShortName name then shortName name ++ ":" ++ behindName indent value
      else
        "? " ++ stringLine (indent + 2) name ++ blanks indent ++ ":" ++ behindMark indent value) ::
      memberTexts indent rest

end

end Writing

open Writing (itemTexts memberTexts stringLine)

/-- A value as a text. -/
def write : Value → String
  | .object [] => "\x7b\x7d\n"
  | .object members => Text.join "" (memberTexts 0 members)
  | .array [] => "[]\n"
  | .array items => Text.join "" (itemTexts 0 items)
  | .string s => stringLine 2 s
  | .null => "null\n"
  | .bool true => "true\n"
  | .bool false => "false\n"
  | .number n => n.text ++ "\n"

end FunctionForge.Markup.Yaml
