import FirewallPolicy.Document.Tag
import FirewallPolicy.Number.Double
import FirewallPolicy.Text.Blank
import FirewallPolicy.Text.Digit
import FirewallPolicy.Text.LowerCase

/-!
## Numbers of documents

The numbers that scalars state.  Whole numbers are written in base two, eight, ten, sixteen or
sixty, and fractions as decimals or in base sixty.
-/

namespace FirewallPolicy.Document.Numerals

/-- A text without underscores. -/
def withoutBars (cs : List Char) : List Char := cs.filter (· != '_')

/-- The sign of a numeral, and the rest. -/
def sign? (cs : List Char) : Option (Bool × List Char) :=
  match cs with
  | [] => none
  | '-' :: rest => some (true, rest)
  | '+' :: rest => some (false, rest)
  | _ => some (false, cs)

/-! ### Whole numbers -/

/-- The value of a digit: a decimal digit of any script, or a letter of ASCII. -/
def digitValue? (c : Char) : Option Nat :=
  (Text.decimalValue? c).or (Numeral.hexValue? c)

/-- The number of a non-empty run of digits in a base. -/
def ofBase? (base : Nat) (cs : List Char) : Option Nat := do
  let values ← cs.mapM digitValue?
  if cs.isEmpty || values.any (base ≤ ·) then none
  else some (Text.ofDigitValues base values)

/-- The rest of a numeral behind the mark of its base, if it has one. -/
def behindBaseMark (letter : Char) (cs : List Char) : List Char :=
  match cs with
  | '0' :: c :: rest => if c = letter || c = letter.toUpper then rest else cs
  | _ => cs

/-- A whole number in a base, which may have a sign, a mark of the base and blanks around it. -/
def wholeIn? (base : Nat) (letter : Char) (cs : List Char) : Option Int := do
  let (negative, body) ← sign? (Text.withoutMargins cs)
  let n ← ofBase? base (behindBaseMark letter body)
  return if negative then -(n : Int) else n

/-- A whole number in base ten, which may have a sign and blanks around it. -/
def whole? (cs : List Char) : Option Int := do
  let (negative, digits) ← sign? (Text.withoutMargins cs)
  let n ← Text.decimalNumber? digits
  return if negative then -(n : Int) else n

/-- The number whose places in base sixty are given. -/
def ofSixtieths (places : List Int) : Int :=
  places.foldl (fun total place => total * 60 + place) 0

/-- The whole number that a numeral without a sign states. -/
def size? (body : List Char) : Option Int :=
  match body with
  | [] => none
  | ['0'] => some 0
  | '0' :: 'b' :: digits => wholeIn? 2 'b' digits
  | '0' :: 'x' :: digits => wholeIn? 16 'x' digits
  | '0' :: _ => wholeIn? 8 'o' body
  | body =>
    if body.contains ':' then ((Text.splitAt ':' body).mapM whole?).map ofSixtieths
    else whole? body

/-- The whole number that a scalar states. -/
def readInt? (s : String) : Option Int := do
  let (negative, body) ← sign? (withoutBars s.toList)
  let size ← size? body
  return if negative then -size else size

/-! ### Fractions -/

/-- The exponent at the end of a decimal. -/
def exponent? (cs : List Char) : Option Int :=
  match cs with
  | [] => some 0
  | e :: rest =>
    if e = 'e' || e = 'E' then do
      let (negative, digits) ← sign? rest
      let values ← digits.mapM Text.decimalValue?
      let n := Text.ofDigitValues 10 values
      if values.isEmpty then none else some (if negative then -(n : Int) else n)
    else none

/-- The double of a decimal without a sign. -/
def decimal? (negative : Bool) (cs : List Char) : Option Double :=
  let isPlace (c : Char) : Bool := (Text.decimalValue? c).isSome
  let whole := cs.takeWhile isPlace
  let (fraction, rest) := match cs.drop whole.length with
    | '.' :: rest => (rest.takeWhile isPlace, rest.dropWhile isPlace)
    | rest => ([], rest)
  match (whole ++ fraction).mapM Text.decimalValue?, exponent? rest with
  | some values, some exponent =>
    if values.isEmpty then none
    else
      some (.ofDecimal negative (Text.ofDigitValues 10 values) (exponent - fraction.length))
  | _, _ => none

/-- The double that a text states, which may have a sign and blanks around it.  Undefined numbers
get the mark. -/
def double? (mark : Nat) (cs : List Char) : Option Double := do
  let (negative, body) ← sign? (Text.withoutMargins cs)
  let word := Text.lower (String.ofList body)
  if word = "inf" || word = "infinity" then some (.infinite negative)
  else if word = "nan" then some (.undefined mark)
  else decimal? negative body

/-- The double whose places in base sixty are given, the lowest first and `weight` its weight. -/
def ofSixtiethsLow (total : Double) (weight : Nat) : List Double → Option Double
  | [] => some total
  | place :: rest => do
    let factor ← Double.ofNat? weight
    ofSixtiethsLow (total.add (place.mul factor)) (weight * 60) rest

/-- The double that a numeral without a sign states. -/
def sizeDouble? (mark : Nat) (body : List Char) : Option Double :=
  if body = ".inf".toList then some (.infinite false)
  else if body.contains ':' then do
    let places ← (Text.splitAt ':' body).mapM (double? mark)
    ofSixtiethsLow Double.zero 1 places.reverse
  else double? mark body

/-- The double that a scalar states.  The word for the undefined number always states the same
one; another undefined number gets the mark. -/
def readDouble? (mark : Nat) (s : String) : Option Double := do
  let (negative, body) ← sign? (Text.lower (String.ofList (withoutBars s.toList))).toList
  if body = ".nan".toList then some (.undefined 0)
  else
    let size ← sizeDouble? mark body
    return (if negative then size.negate else size).withMark mark

end FirewallPolicy.Document.Numerals
