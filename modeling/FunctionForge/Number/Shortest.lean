import FunctionForge.Number.Decimal
import FunctionForge.Number.Double

/-!
# The shortest decimal of a double

A double is written with the fewest decimal digits that read back as the same double and, among
numbers with that many digits, with the one nearest to it. `shortest` finds the digits by trying,
for one digit, two digits and so on, the two neighbours of the double on the decimal grid of that
many digits.

`Double.text` sets the digits: without an exponent from `1e-5` up to `1e16`, where a whole number
ends in `.0`, and as `d.ddde±x` beyond.
-/

namespace FunctionForge.Number

/-- The exponent of the greatest power of ten that is at most `num / den`, both positive. -/
def decimalOrder (num den : Nat) : Int :=
  if num < den then
    let s := (digits (den / num)).length
    if den = num * Nat.pow 10 (s - 1) then -(s - 1 : Nat) else -(s : Int)
  else ((digits (num / den)).length - 1 : Nat)

/-- The double nearest to `d · 10 ^ exponent`. -/
def readBack? (d : Nat) (exponent : Int) : Option Double :=
  Double.ofDecimal? false d (digits d).length exponent

/-- The neighbour of `x` on the grid of the multiples of `10 ^ exponent` that reads back as `x`:
the nearer one if both do, the even one if both are equally near. -/
def onGrid? (x : Double) (exponent : Int) : Option Nat :=
  let (num, den) := x.ratio
  let (n, d) :=
    if exponent < 0 then (num * Nat.pow 10 (-exponent).toNat, den)
    else (num, den * Nat.pow 10 exponent.toNat)
  let below := n / d
  let lower := readBack? below exponent == some x
  let upper := readBack? (below + 1) exponent == some x
  if lower && upper then some (Double.nearest n d)
  else if lower then some below
  else if upper then some (below + 1)
  else none

/-- Tries the grids whose unit is `order + 1 - count` powers of ten, for `count` from a start on. -/
def shortestFrom (x : Double) (order : Int) : Nat → Nat → Nat × Int
  | 0, count => (x.significand, order + 1 - count)
  | more + 1, count =>
    let exponent := order + 1 - count
    match onGrid? x exponent with
    | some d => (d, exponent)
    | none => shortestFrom x order more (count + 1)

/-- The shortest decimal `d · 10 ^ e` that reads back as a positive double, with `d` and `e` in this
order. Seventeen digits always suffice. -/
def shortest (x : Double) : Nat × Int :=
  let (num, den) := x.ratio
  shortestFrom x (decimalOrder num den) 17 1

/-- Writes `d · 10 ^ exponent`, with `d` positive. -/
def decimalText (d : Nat) (exponent : Int) : List Char :=
  let ds := digits d
  let point : Int := ds.length + exponent
  if 0 ≤ exponent ∧ point ≤ 16 then
    ds ++ List.replicate exponent.toNat '0' ++ ['.', '0']
  else if 0 < point ∧ point ≤ 16 then
    ds.take point.toNat ++ '.' :: ds.drop point.toNat
  else if -5 < point ∧ point ≤ 0 then
    '0' :: '.' :: (List.replicate (-point).toNat '0' ++ ds)
  else
    let mantissa :=
      match ds with
      | first :: [] => [first]
      | first :: others => first :: '.' :: others
      | [] => []
    let sign := if point - 1 < 0 then '-' else '+'
    mantissa ++ 'e' :: sign :: digits (point - 1).natAbs

/-- Drops the zeros at the end of a decimal's digits; `fuel` bounds their number. -/
def dropZeros : Nat → Nat → Int → Nat × Int
  | 0, d, exponent => (d, exponent)
  | fuel + 1, d, exponent =>
    if d % 10 = 0 ∧ d ≠ 0 then dropZeros fuel (d / 10) (exponent + 1) else (d, exponent)

/-- The text of a double. -/
def Double.text (x : Double) : String :=
  let sign := if x.negative then ['-'] else []
  if x.significand = 0 then String.ofList (sign ++ ['0', '.', '0'])
  else
    let (d, exponent) := shortest { x with negative := false }
    let (d, exponent) := dropZeros 20 d exponent
    String.ofList (sign ++ decimalText d exponent)

/-- The text of a number. -/
def text : Number → String
  | .integer n => decimalInt n
  | .double x => x.text

end FunctionForge.Number
