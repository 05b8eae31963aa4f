import FunctionForge.Markup.Node
import FunctionForge.Markup.Yaml.Tag
import FunctionForge.Markup.Yaml.Text
import FunctionForge.Number.Decimal

/-!
# YAML scalars

What a scalar of a YAML text means. A plain scalar without a tag is null, a truth value, a number or
a string by its spelling: `resolve` tries them in this order. Digits with a leading zero are a
string. A tag of the core schema says what the scalar has to be, any other tag makes it a string,
and a scalar with a tag that starts with `!` has no meaning where anything is accepted.
-/

namespace FunctionForge.Markup.Yaml

open Number (Double)

/-! ### Spellings -/

/-- Whether a text spells null. -/
def spellsNull (text : String) : Bool :=
  ["null", "Null", "NULL", "~"].contains text

/-- The truth value that a text spells. -/
def readBool? (text : String) : Option Bool :=
  if ["true", "True", "TRUE"].contains text then some true
  else if ["false", "False", "FALSE"].contains text then some false
  else none

/-- Whether a text is a number with a leading zero, which spells no number. -/
def hasLeadingZero (text : List Char) : Bool :=
  let digits :=
    match text with
    | '-' :: rest => rest
    | '+' :: rest => rest
    | text => text
  match digits with
  | '0' :: c :: rest => (c :: rest).all Number.isDigit
  | _ => false

/-- Whether a text starts with a sign. -/
def startsWithSign : List Char → Bool
  | c :: _ => c == '+' || c == '-'
  | [] => false

/-- The number written behind the mark of a base, if it is one and has a value below `limit`. -/
def readBase? (limit : Nat) : List Char → Option Nat
  | '0' :: 'x' :: digits => (Number.read? 16 digits).filter (· < limit)
  | '0' :: 'o' :: digits => (Number.read? 8 digits).filter (· < limit)
  | '0' :: 'b' :: digits => (Number.read? 2 digits).filter (· < limit)
  | _ => none

/-- The natural number below `limit` that a text spells, with or without a plus sign. -/
def readNatural? (limit : Nat) (text : List Char) : Option Nat :=
  let digits :=
    match text with
    | '+' :: rest => rest
    | text => text
  match readBase? limit digits with
  | some n => some n
  | none =>
    if startsWithSign digits || hasLeadingZero text then none
    else (Number.read? 10 digits).filter (· < limit)

/-- The number of at most `limit` that a text spells behind a minus sign. -/
def readNegative? (limit : Nat) (text : List Char) : Option Nat :=
  match text with
  | '-' :: digits =>
    match readBase? (limit + 1) digits with
    | some n => some n
    | none =>
      if hasLeadingZero text then none else (Number.read? 10 digits).filter (· ≤ limit)
  | _ => none

/-- What an integer is read as. -/
inductive WholeNumber where
  | natural (n : Nat)
  /-- It is written with a minus sign. -/
  | negated (n : Nat)
  /-- It fits into 128 bits but not into 64, and is refused. -/
  | tooLarge
  deriving Repr, DecidableEq

/-- The integer that a text spells. Beyond 128 bits a text spells no integer. -/
def readWhole? (text : List Char) : Option WholeNumber :=
  match readNatural? (Number.wordLimit 64) text, readNegative? (Number.wordLimit 63) text with
  | some n, _ => some (.natural n)
  | none, some n => some (.negated n)
  | none, none =>
    if (readNatural? (Number.wordLimit 128) text).isSome ||
        (readNegative? (Number.wordLimit 127) text).isSome then
      some .tooLarge
    else none

/-- An integer where anything is accepted. -/
def WholeNumber.atom? : WholeNumber → Option Atom
  | natural n => some (.number (.integer n))
  | negated 0 => some .minusZero
  | negated n => some (.number (.integer (-n)))
  | tooLarge => none

/-- The decimal with these digits before and after the point and this exponent. -/
def ofParts? (negative : Bool) (whole fraction : List Char) (exponent : Int) : Option Double := do
  let ds := whole ++ fraction
  let n ← Number.read? 10 ds
  Double.ofDecimal? negative n ds.length (exponent - fraction.length)

/-- The exponent at the end of a decimal, which is zero if none is written. -/
def readExponent? : List Char → Option Int
  | [] => some 0
  | c :: rest =>
    if c = 'e' ∨ c = 'E' then
      match rest with
      | '-' :: ds => (Number.read? 10 ds).map fun n => -n
      | '+' :: ds => (Number.read? 10 ds).map fun n => n
      | ds => (Number.read? 10 ds).map fun n => n
    else none

/-- The double nearest to the decimal that a text spells, if it is in range. -/
def readDecimal? (text : List Char) : Option Double := do
  let (negative, text) :=
    match text with
    | '-' :: rest => (true, rest)
    | '+' :: rest => (false, rest)
    | text => (false, text)
  let (whole, rest) := text.span Number.isDigit
  let (fraction, rest) :=
    match rest with
    | '.' :: rest => rest.span Number.isDigit
    | rest => ([], rest)
  let exponent ← readExponent? rest
  ofParts? negative whole fraction exponent

/-- The floating-point number that a text spells. -/
def readFloat? (text : List Char) : Option Atom := do
  let unsigned ←
    match text with
    | '+' :: rest => if startsWithSign rest then none else some rest
    | text => some text
  if [".inf", ".Inf", ".INF"].contains (String.ofList unsigned) then return .unbounded
  if ["-.inf", "-.Inf", "-.INF", ".nan", ".NaN", ".NAN"].contains (String.ofList text) then
    return .unbounded
  return .number (.double (← readDecimal? unsigned))

/-! ### Meanings -/

/-- What a plain scalar without a tag is where anything is accepted. -/
def resolve (text : String) : Option Atom :=
  if text.isEmpty || spellsNull text then some .null
  else
    match readBool? text with
    | some b => some (.bool b)
    | none =>
      match readWhole? text.toList with
      | some n => n.atom?
      | none =>
        if hasLeadingZero text.toList then some (.string text)
        else
          match readFloat? text.toList with
          | some a => some a
          | none => some (.string text)

/-- What a scalar without a tag is where anything is accepted. -/
def untagged? (style : ScalarStyle) (text : String) : Option Atom :=
  if style = .plain then resolve text else some (.string text)

/-- What a scalar is where anything is accepted. -/
def atom? (tag : Option Tag) (style : ScalarStyle) (text : String) : Option Atom :=
  match tag with
  | none | some .garbled => untagged? style text
  | some .bool => (readBool? text).map .bool
  | some .int => (readWhole? text.toList).bind WholeNumber.atom?
  | some .float => readFloat? text.toList
  | some .null => if spellsNull text then some .null else none
  | some .foreign => some (.string text)
  | some .localTag => none

/-- Whether a scalar stands for an absent value. -/
def absent? (tag : Option Tag) (style : ScalarStyle) (text : String) : Option Bool :=
  if style ≠ .plain then some false
  else
    match tag with
    | none => some (text.isEmpty || spellsNull text)
    | some .null => if spellsNull text then some true else none
    | some _ => some false

/-- What a scalar is where a natural number is expected: it has to be plain, or a literal block that
is tagged as an integer. -/
def natural? (tag : Option Tag) (style : ScalarStyle) (text : String) : Option Nat :=
  if style = .plain ∨ (style = .literal ∧ tag = some .int) then
    readNatural? (Number.wordLimit 64) text.toList
  else none

/-- A scalar with all its readings. -/
def scalar (tag : Option Tag) (style : ScalarStyle) (text : String) : Scalar where
  atom := atom? tag style text
  text := some text
  isAbsent := absent? tag style text
  isBlank := style = .plain && text.isEmpty
  natural := natural? tag style text

/-- What stands for the root of a text that holds no document. -/
def noScalar : Scalar where
  atom := some .null
  text := none
  isAbsent := some true
  isBlank := true
  natural := none

end FunctionForge.Markup.Yaml
