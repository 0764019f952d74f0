/-!
## Double precision numbers

Numbers of the 64-bit binary floating-point format, held exactly.  A decimal, a fraction, a sum
or a product is rounded to the nearest of them, a tie going to the even neighbour.
-/

namespace FirewallPolicy

/-- A number of the 64-bit binary format; `finite negative significand exponent` is
`± significand * 2 ^ exponent`.  Numbers that are undefined are told apart by a mark. -/
inductive Double where
  | finite (negative : Bool) (significand : Nat) (exponent : Int)
  | infinite (negative : Bool)
  | undefined (mark : Nat)
deriving DecidableEq, Repr, Inhabited

namespace Double

/-- The exponent of the smallest positive number. -/
def minExponent : Int := -1074

/-- The greatest exponent of a finite number. -/
def maxExponent : Int := 971

/-- Significands lie below this bound. -/
def significandBound : Nat := Nat.pow 2 53

/-- The quotient rounded to a nearest integer, a tie to the even one. -/
def roundHalfEven (numerator denominator : Nat) : Nat :=
  let quotient := numerator / denominator
  let remainder := numerator % denominator
  if 2 * remainder < denominator then quotient
  else if denominator < 2 * remainder then quotient + 1
  else quotient + quotient % 2

/-- `numerator * 2 ^ shift / denominator` as a pair of naturals. -/
def shifted (numerator denominator : Nat) (shift : Int) : Nat × Nat :=
  if 0 ≤ shift then (numerator * Nat.pow 2 shift.toNat, denominator)
  else (numerator, denominator * Nat.pow 2 (-shift).toNat)

/-- The greatest `k` with `2 ^ k ≤ numerator / denominator`, for positive arguments. -/
def binaryOrder (numerator denominator : Nat) : Int :=
  let guess : Int := (Nat.log2 numerator : Int) - (Nat.log2 denominator : Int)
  let scaled := shifted numerator denominator (-guess)
  if scaled.1 < scaled.2 then guess - 1 else guess

/-- The double nearest to a quotient of naturals. -/
def ofRatio (negative : Bool) (numerator denominator : Nat) : Double :=
  if numerator = 0 then finite negative 0 minExponent
  else
    let exponent := max minExponent (binaryOrder numerator denominator - 52)
    let scaled := shifted numerator denominator (-exponent)
    let significand := roundHalfEven scaled.1 scaled.2
    if significand < significandBound then
      if exponent ≤ maxExponent then finite negative significand exponent else infinite negative
    else if exponent < maxExponent then finite negative (significandBound / 2) (exponent + 1)
    else infinite negative

/-- The double nearest to `± digits * 10 ^ exponent`. -/
def ofDecimal (negative : Bool) (digits : Nat) (exponent : Int) : Double :=
  let order : Int := (Nat.toDigits 10 digits).length + exponent
  if digits = 0 || order < -330 then finite negative 0 minExponent
  else if 330 < order then infinite negative
  else if 0 ≤ exponent then ofRatio negative (digits * Nat.pow 10 exponent.toNat) 1
  else ofRatio negative digits (Nat.pow 10 (-exponent).toNat)

/-- The exact value; infinities and the undefined number have none. -/
def toRat? : Double → Option Rat
  | finite negative significand exponent =>
    let size : Rat :=
      if 0 ≤ exponent then ((significand * Nat.pow 2 exponent.toNat : Nat) : Rat)
      else (significand : Rat) / (Nat.pow 2 (-exponent).toNat : Rat)
    some (if negative then -size else size)
  | _ => none

/-- The double nearest to an exact value. -/
def ofRat (value : Rat) : Double :=
  ofRatio (value.num < 0) value.num.natAbs value.den

/-- Is the number zero, of either sign? -/
def isZero : Double → Bool
  | finite _ significand _ => significand == 0
  | _ => false

/-- The value when it is an integer. -/
def toInt? (x : Double) : Option Int :=
  match x.toRat? with
  | some value => if value.den = 1 then some value.num else none
  | none => none

/-- Is the number undefined? -/
def isUndefined : Double → Bool
  | undefined _ => true
  | _ => false

/-- The number with another mark, if it is undefined. -/
def withMark (mark : Nat) : Double → Double
  | undefined _ => undefined mark
  | x => x

/-! ### Arithmetic -/

/-- The double nearest to `± significand * 2 ^ exponent`. -/
def ofScaled (negative : Bool) (significand : Nat) (exponent : Int) : Double :=
  let scaled := shifted significand 1 exponent
  ofRatio negative scaled.1 scaled.2

/-- The double nearest to a natural number, if it is in the range of doubles. -/
def ofNat? (n : Nat) : Option Double :=
  match ofRatio false n 1 with
  | finite negative significand exponent => some (finite negative significand exponent)
  | _ => none

/-- The zero with a plus sign. -/
def zero : Double := finite false 0 minExponent

/-- The number with the opposite sign. -/
def negate : Double → Double
  | finite negative significand exponent => finite (!negative) significand exponent
  | infinite negative => infinite (!negative)
  | undefined mark => undefined mark

/-- The product.  That of zero and an infinite number is undefined. -/
def mul : Double → Double → Double
  | undefined mark, _ => undefined mark
  | _, undefined mark => undefined mark
  | infinite a, infinite b => infinite (a != b)
  | infinite a, finite b t _ => if t = 0 then undefined 0 else infinite (a != b)
  | finite a s _, infinite b => if s = 0 then undefined 0 else infinite (a != b)
  | finite a s e, finite b t f => ofScaled (a != b) (s * t) (e + f)

/-- A signed significand. -/
def signed (negative : Bool) (significand : Nat) : Int :=
  if negative then -(significand : Int) else significand

/-- The sum.  That of opposite infinite numbers is undefined, and that of opposite numbers is the
zero with a plus sign. -/
def add : Double → Double → Double
  | undefined mark, _ => undefined mark
  | _, undefined mark => undefined mark
  | infinite a, infinite b => if a = b then infinite a else undefined 0
  | infinite a, finite _ _ _ => infinite a
  | finite _ _ _, infinite b => infinite b
  | finite a s e, finite b t f =>
    let exponent := min e f
    let total := signed a (shifted s 1 (e - exponent)).1 + signed b (shifted t 1 (f - exponent)).1
    if total = 0 then finite (a && b) 0 minExponent
    else ofScaled (total < 0) total.natAbs exponent

end Double

end FirewallPolicy
