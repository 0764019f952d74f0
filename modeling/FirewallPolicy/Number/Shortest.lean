import FirewallPolicy.Number.Double

/-!
## Shortest decimals

The decimal with the fewest digits that rounds to a given double, and of those the nearest.
For each number of digits only the two neighbours of the exact value on that decimal grid can
be candidates, so each grid is tested by exact arithmetic.
-/

namespace FirewallPolicy.Double

/-- A positive decimal `0.d₁d₂… * 10 ^ point`, the first digit not zero. -/
structure Decimal where
  digits : List Char
  point : Int
deriving DecidableEq, Repr

/-- The positive numbers that round to `significand * 2 ^ exponent`, in units of
`2 ^ (exponent - 2)`; the ends belong to them when the significand is even. -/
structure RoundingInterval where
  lower : Nat
  upper : Nat
  closed : Bool

/-- The interval of a positive double.  Below a power of two the numbers lie closer. -/
def roundingInterval (significand : Nat) (exponent : Int) : RoundingInterval where
  lower :=
    if significand = significandBound / 2 && minExponent < exponent then 4 * significand - 1
    else 4 * significand - 2
  upper := 4 * significand + 2
  closed := significand % 2 == 0

/-- Is `count * stepNumerator / stepDenominator` in the interval, `unit` being the size of the
interval's unit as a quotient? -/
def RoundingInterval.holds (interval : RoundingInterval) (unit step : Nat × Nat) (count : Nat) :
    Bool :=
  let value := count * step.1 * unit.2
  let low := interval.lower * unit.1 * step.2
  let high := interval.upper * unit.1 * step.2
  if interval.closed then low ≤ value && value ≤ high else low < value && value < high

/-- `10 ^ k` as a quotient of naturals. -/
def powerOfTen (k : Int) : Nat × Nat :=
  if 0 ≤ k then (Nat.pow 10 k.toNat, 1) else (1, Nat.pow 10 (-k).toNat)

/-- The multiple of `step` in the interval that is nearest to the exact value, if one of the
two around that value is in it. -/
def nearestOnGrid (interval : RoundingInterval) (value unit step : Nat × Nat) : Option Nat :=
  let numerator := value.1 * step.2
  let denominator := value.2 * step.1
  let below := numerator / denominator
  let above := below + 1
  match interval.holds unit step below, interval.holds unit step above with
  | true, true => some (roundHalfEven numerator denominator)
  | true, false => some below
  | false, true => some above
  | false, false => none

/-- The greatest `k` with `10 ^ k ≤ value`, searched downwards from a bound. -/
def decimalOrder (value : Nat × Nat) : Nat → Int → Int
  | 0, k => k
  | fuel + 1, k =>
    let power := powerOfTen k
    if power.1 * value.2 ≤ value.1 * power.2 then k else decimalOrder value fuel (k - 1)

/-- Try the grids of `length`, `length + 1`, … digits. -/
def shortestFrom (interval : RoundingInterval) (value unit : Nat × Nat) (order : Int) :
    Nat → Nat → Decimal
  | 0, _ => ⟨['0'], order + 1⟩
  | remaining + 1, length =>
    let exponent := order - length + 1
    match nearestOnGrid interval value unit (powerOfTen exponent) with
    | some count =>
      let digits := Nat.toDigits 10 count
      ⟨digits, digits.length + exponent⟩
    | none => shortestFrom interval value unit order remaining (length + 1)

/-- The shortest decimal of a positive double. -/
def shortest (significand : Nat) (exponent : Int) : Decimal :=
  let value := shifted significand 1 exponent
  let unit := shifted 1 1 (exponent - 2)
  let guess : Int := (binaryOrder value.1 value.2) * 3 / 10 + 3
  let order := decimalOrder value 40 guess
  let found := shortestFrom (roundingInterval significand exponent) value unit order 17 1
  { found with digits := (found.digits.reverse.dropWhile (· == '0')).reverse }

end FirewallPolicy.Double
