/-!
# Doubles

A finite binary floating-point number of 53 bits is a sign, a significand and an exponent of two.
`Double.ofRatio?` is the one place where numbers are rounded: it gives the double nearest to a
quotient of natural numbers, the even significand where two are equally near, and nothing where the
quotient is beyond the largest double. Products and quotients of doubles are rounded exact ones.

Each value has one representation: the significand fills its 53 bits unless the exponent is the
least there is.
-/

namespace FunctionForge.Number

/-- The number `± significand · 2 ^ exponent`. -/
structure Double where
  negative : Bool
  significand : Nat
  exponent : Int
  deriving Repr, DecidableEq

namespace Double

/-- The least exponent of a double. -/
def leastExponent : Int := -1074

/-- The greatest exponent of a double. -/
def greatestExponent : Int := 971

/-- The zero of a sign. -/
def zero (negative : Bool) : Double :=
  ⟨negative, 0, leastExponent⟩

/-- The quotient of natural numbers `num / den` divided by a power of two. -/
def scaled (num den : Nat) (exponent : Int) : Nat × Nat :=
  if exponent < 0 then (num * Nat.pow 2 (-exponent).toNat, den)
  else (num, den * Nat.pow 2 exponent.toNat)

/-- The exponent of the greatest power of two that is at most `num / den`, both positive. -/
def binaryOrder (num den : Nat) : Int :=
  let guess : Int := (Nat.log2 num : Int) - Nat.log2 den
  let (n, d) := scaled num den guess
  if n < d then guess - 1 else guess

/-- The natural number nearest to `num / den`, the even one of two that are equally near. -/
def nearest (num den : Nat) : Nat :=
  let q := num / den
  let r := num % den
  if 2 * r < den ∨ (2 * r = den ∧ q % 2 = 0) then q else q + 1

/-- The double nearest to `± num / den`; none if that is out of range. -/
def ofRatio? (negative : Bool) (num den : Nat) : Option Double :=
  if num = 0 then some (zero negative)
  else
    let exponent := max leastExponent (binaryOrder num den - 52)
    let (n, d) := scaled num den exponent
    let m := nearest n d
    let (m, exponent) := if m = Nat.pow 2 53 then (Nat.pow 2 52, exponent + 1) else (m, exponent)
    if exponent > greatestExponent then none else some ⟨negative, m, exponent⟩

/-- The absolute value of a double as a quotient of natural numbers. -/
def ratio (x : Double) : Nat × Nat :=
  scaled x.significand 1 (-x.exponent)

/-- The double nearest to the product of two. -/
def mul? (x y : Double) : Option Double :=
  let (a, b) := x.ratio
  let (c, d) := y.ratio
  ofRatio? (x.negative != y.negative) (a * c) (b * d)

/-- The double nearest to the quotient of two; none for a zero divisor. -/
def div? (x y : Double) : Option Double :=
  let (a, b) := x.ratio
  let (c, d) := y.ratio
  if c = 0 then none else ofRatio? (x.negative != y.negative) (a * d) (b * c)

/-- The double nearest to `± n · 10 ^ exponent`. Exponents far out of range are cut off before the
power is computed: `n` has at most `width` decimal digits. -/
def ofDecimal? (negative : Bool) (n width : Nat) (exponent : Int) : Option Double :=
  if n = 0 then some (zero negative)
  else if exponent > 400 then none
  else if exponent + width < -400 then some (zero negative)
  else if exponent < 0 then ofRatio? negative n (Nat.pow 10 (-exponent).toNat)
  else ofRatio? negative (n * Nat.pow 10 exponent.toNat) 1

end Double

end FunctionForge.Number

namespace FunctionForge

/-- A number of a document: an integer of 64 bits, with or without a sign, or a double. -/
inductive Number where
  | integer (n : Int)
  | double (x : Number.Double)
  deriving Repr, DecidableEq

end FunctionForge
