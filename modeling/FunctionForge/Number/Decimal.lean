/-!
# Numerals

Natural numbers and integers in decimal notation, and the reading of numerals in any base up to
sixteen. A numeral is a nonempty list of digits.
-/

namespace FunctionForge.Number

/-! ### Writing -/

/-- The decimal digits of a natural number. -/
def digits (n : Nat) : List Char :=
  Nat.toDigits 10 n

/-- A natural number in decimal notation. -/
def decimal (n : Nat) : String :=
  String.ofList (digits n)

/-- An integer in decimal notation. -/
def decimalInt : Int → String
  | .ofNat n => decimal n
  | .negSucc n => "-" ++ decimal (n + 1)

/-! ### Reading -/

/-- The value of a digit, letters counting from ten in either case. -/
def digitValue? (c : Char) : Option Nat :=
  if '0' ≤ c ∧ c ≤ '9' then some (c.toNat - '0'.toNat)
  else if 'a' ≤ c ∧ c ≤ 'f' then some (c.toNat - 'a'.toNat + 10)
  else if 'A' ≤ c ∧ c ≤ 'F' then some (c.toNat - 'A'.toNat + 10)
  else none

/-- The value of a digit in a base. -/
def digitIn? (base : Nat) (c : Char) : Option Nat :=
  (digitValue? c).filter (· < base)

/-- Reads digits behind a numeral with the value `value`. -/
def readFrom (base value : Nat) : List Char → Option Nat
  | [] => some value
  | c :: rest =>
    match digitIn? base c with
    | some d => readFrom base (base * value + d) rest
    | none => none

/-- Reads a numeral in a base. -/
def read? (base : Nat) (text : List Char) : Option Nat :=
  if text.isEmpty then none else readFrom base 0 text

/-- Whether a character is an ASCII digit. -/
def isDigit (c : Char) : Bool :=
  '0' ≤ c && c ≤ '9'

/-! ### Words -/

/-- The least number that has no place in a word of so many bits. -/
def wordLimit (bits : Nat) : Nat :=
  Nat.pow 2 bits

end FunctionForge.Number
