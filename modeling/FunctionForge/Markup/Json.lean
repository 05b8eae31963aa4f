import FunctionForge.Markup.Node
import FunctionForge.Number.Decimal

/-!
# JSON documents

Reads a text in JSON notation as a `Source`. A text that is not JSON gives nothing. What is JSON but
cannot be read as a value, a number out of range or half of a surrogate pair, becomes a scalar that
may be passed over only.

A number without fraction and exponent is an integer if it fits into 64 bits, with or without a
sign; every other number is a double, minus zero included. Of the digits of a double as many count
as fit into 64 bits; the number that they make is then multiplied or divided by a power of ten, both
rounded to doubles.
-/

namespace FunctionForge.Markup.Json

open Number (Double)

/-! ### Numbers -/

/-- A power of ten as a double. -/
def tenTo (exponent : Nat) : Option Double :=
  Double.ofDecimal? false 1 1 exponent

/-- Divides a double by a power of ten, by the greatest one there is as often as it takes. -/
def shrink (x : Double) : Nat → Nat → Option Double
  | 0, _ => some x
  | fuel + 1, exponent =>
    if x.significand = 0 then some x
    else if exponent ≤ 308 then do x.div? (← tenTo exponent)
    else do shrink (← x.div? (← tenTo 308)) fuel (exponent - 308)

/-- The double with a significand and a decimal exponent; none if it is out of range. -/
def double? (negative : Bool) (significand : Nat) (exponent : Int) : Option Double := do
  let x ← Double.ofRatio? false significand 1
  let x ←
    if exponent < 0 then shrink x 8 exponent.natAbs
    else if exponent ≤ 308 then x.mul? (← tenTo exponent.natAbs)
    else if significand = 0 then some x
    else none
  return { x with negative }

/-- The significand that digits make behind the digits already read, as long as it fits into 64
bits, with the number of digits that it is made of. The digits after that are not taken. -/
def takeDigits (significand count : Nat) : List Char → Nat × Nat
  | [] => (significand, count)
  | c :: rest =>
    let next := 10 * significand + (c.toNat - '0'.toNat)
    if next < Number.wordLimit 64 then takeDigits next (count + 1) rest else (significand, count)

/-- The greatest written exponent that is told from greater ones. -/
def exponentLimit : Nat := Number.wordLimit 31 - 1

/-- The double with the digits before and after the point and the exponent that are written. -/
def scaled? (negative : Bool) (whole fraction : List Char) (exponent : Option (Bool × List Char)) :
    Option Double :=
  let (significand, taken) := takeDigits 0 0 whole
  let dropped := whole.length - taken
  let (significand, taken) := takeDigits significand 0 fraction
  let shift : Int := (dropped : Int) - taken
  match exponent with
  | none => double? negative significand shift
  | some (down, written) =>
    let e := (Number.read? 10 written).getD 0
    if e > exponentLimit then
      if significand ≠ 0 ∧ !down then none else some (Double.zero negative)
    else double? negative significand (if down then shift - e else shift + e)

/-- The number that is written. -/
def number? (negative : Bool) (whole fraction : List Char) (exponent : Option (Bool × List Char)) :
    Option Number :=
  let n := (Number.read? 10 whole).getD 0
  if fraction.isEmpty && exponent.isNone then
    if !negative && n < Number.wordLimit 64 then some (.integer n)
    else if negative && 0 < n && n ≤ Number.wordLimit 63 then some (.integer (-n))
    else (scaled? negative whole fraction exponent).map .double
  else (scaled? negative whole fraction exponent).map .double

/-- Takes the digits at the front of a text. -/
def spanDigits (text : List Char) : List Char × List Char :=
  text.span Number.isDigit

/-- Takes the fraction of a number, if there is a point. -/
def readFraction : List Char → Option (List Char × List Char)
  | '.' :: rest =>
    let (ds, rest) := spanDigits rest
    if ds.isEmpty then none else some (ds, rest)
  | text => some ([], text)

/-- Takes the exponent of a number, if there is one: whether it is negative, and its digits. -/
def readExponent : List Char → Option (Option (Bool × List Char) × List Char)
  | c :: rest =>
    if c = 'e' ∨ c = 'E' then
      let (down, rest) :=
        match rest with
        | '-' :: rest => (true, rest)
        | '+' :: rest => (false, rest)
        | rest => (false, rest)
      let (ds, rest) := spanDigits rest
      if ds.isEmpty then none else some (some (down, ds), rest)
    else some (none, c :: rest)
  | [] => some (none, [])

/-- A scalar that is no text. -/
def plainScalar (atom : Option Atom) : Scalar :=
  { atom, text := none, isAbsent := some (atom == some .null), isBlank := false, natural := none }

/-- Reads a number without its sign. -/
def readNumber (negative : Bool) (text : List Char) : Option (Node × List Char) := do
  let (whole, rest) := spanDigits text
  if whole.isEmpty || (whole.head? == some '0' && whole.length > 1) then none
  let (fraction, rest) ← readFraction rest
  let (exponent, rest) ← readExponent rest
  return (.scalar (plainScalar ((number? negative whole fraction exponent).map .number)), rest)

/-! ### Strings -/

/-- The number written by four hexadecimal digits. -/
def readHex4 : List Char → Option (Nat × List Char)
  | a :: b :: c :: d :: rest => (Number.read? 16 [a, b, c, d]).map (·, rest)
  | _ => none

/-- The character that a letter stands for behind a backslash. -/
def escaped? (c : Char) : Option Nat :=
  if c = '"' ∨ c = '\\' ∨ c = '/' then some c.toNat
  else if c = 'b' then some 8
  else if c = 'f' then some 12
  else if c = 'n' then some 10
  else if c = 'r' then some 13
  else if c = 't' then some 9
  else none

/-- Reads a string behind its opening quote, as numbers of characters and of halves of surrogate
pairs, in reverse. -/
def readUnits : Nat → List Nat → List Char → Option (List Nat × List Char)
  | 0, _, _ => none
  | _ + 1, _, [] => none
  | fuel + 1, units, c :: rest =>
    if c = '"' then some (units, rest)
    else if c = '\\' then
      match rest with
      | 'u' :: rest => do
        let (n, rest) ← readHex4 rest
        readUnits fuel (n :: units) rest
      | e :: rest => do readUnits fuel ((← escaped? e) :: units) rest
      | [] => none
    else if c.toNat < 0x20 then none
    else readUnits fuel (c.toNat :: units) rest

/-- Whether a number is the first half of a surrogate pair. -/
def isHighHalf (n : Nat) : Bool :=
  0xD800 ≤ n && n ≤ 0xDBFF

/-- Whether a number is the second half of a surrogate pair. -/
def isLowHalf (n : Nat) : Bool :=
  0xDC00 ≤ n && n ≤ 0xDFFF

/-- Joins the halves of surrogate pairs; none if a half stands alone. -/
def joinHalves : List Nat → Option (List Char)
  | [] => some []
  | [n] => if isHighHalf n || isLowHalf n then none else some [Char.ofNat n]
  | n :: m :: rest =>
    if isHighHalf n then
      if isLowHalf m then
        (joinHalves rest).map (Char.ofNat (0x10000 + (n - 0xD800) * 0x400 + (m - 0xDC00)) :: ·)
      else none
    else if isLowHalf n then none
    else (joinHalves (m :: rest)).map (Char.ofNat n :: ·)

/-- Reads a string behind its opening quote. -/
def readString (text : List Char) : Option (Scalar × List Char) := do
  let (units, rest) ← readUnits (text.length + 1) [] text
  let string := (joinHalves units.reverse).map String.ofList
  return (
    { atom := string.map .string, text := string, isAbsent := some false, isBlank := false,
      natural := none },
    rest)

/-! ### Values -/

/-- Drops the blanks at the front of a text. -/
def skipBlanks (text : List Char) : List Char :=
  text.dropWhile fun c => c = ' ' ∨ c = '\t' ∨ c = '\n' ∨ c = '\r'

/-- What follows a word at the front of a text. -/
def skipWord? (word : String) (text : List Char) : Option (List Char) :=
  if word.toList.isPrefixOf text then some (text.drop word.toList.length) else none

mutual

/-- Reads a value. -/
def readValue : Nat → List Char → Option (Node × List Char)
  | 0, _ => none
  | fuel + 1, text =>
    match skipBlanks text with
    | '"' :: rest => do
      let (scalar, rest) ← readString rest
      return (.scalar scalar, rest)
    | '[' :: rest =>
      match skipBlanks rest with
      | ']' :: rest => some (.sequence false [], rest)
      | rest => do
        let (items, rest) ← readItems fuel rest
        return (.sequence false items, rest)
    | '\x7b' :: rest =>
      match skipBlanks rest with
      | '\x7d' :: rest => some (.mapping false [], rest)
      | rest => do
        let (entries, rest) ← readEntries fuel rest
        return (.mapping false entries, rest)
    | '-' :: rest => readNumber true rest
    | 'n' :: rest => (skipWord? "ull" rest).map (.scalar (plainScalar (some .null)), ·)
    | 't' :: rest => (skipWord? "rue" rest).map (.scalar (plainScalar (some (.bool true))), ·)
    | 'f' :: rest => (skipWord? "alse" rest).map (.scalar (plainScalar (some (.bool false))), ·)
    | rest => readNumber false rest

/-- Reads the items of an array up to its closing bracket. -/
def readItems : Nat → List Char → Option (List Node × List Char)
  | 0, _ => none
  | fuel + 1, text => do
    let (item, rest) ← readValue fuel text
    match skipBlanks rest with
    | ',' :: rest =>
      let (items, rest) ← readItems fuel rest
      return (item :: items, rest)
    | ']' :: rest => return ([item], rest)
    | _ => none

/-- Reads the members of an object up to its closing brace. -/
def readEntries : Nat → List Char → Option (List (Node × Node) × List Char)
  | 0, _ => none
  | fuel + 1, text =>
    match skipBlanks text with
    | '"' :: rest => do
      let (key, rest) ← readString rest
      match skipBlanks rest with
      | ':' :: rest =>
        let (value, rest) ← readValue fuel rest
        match skipBlanks rest with
        | ',' :: rest =>
          let (entries, rest) ← readEntries fuel rest
          return ((.scalar key, value) :: entries, rest)
        | '\x7d' :: rest => return ([(.scalar key, value)], rest)
        | _ => none
      | _ => none
    | _ => none

end

/-- How many levels of a JSON document may be entered. -/
def depthLimit : Nat := 127

/-- Reads a text in JSON notation. -/
def read? (text : String) : Option Source := do
  let chars := text.toList
  let (root, rest) ← readValue (chars.length + 1) chars
  if (skipBlanks rest).isEmpty then
    return { root, anchors := [], jumps := 0, depth := depthLimit, listsRecords := true }
  else none

end FunctionForge.Markup.Json
