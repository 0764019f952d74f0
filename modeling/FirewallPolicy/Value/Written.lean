import FirewallPolicy.Number.Shortest
import FirewallPolicy.Text.Quoted
import FirewallPolicy.Value.Basic

/-!
## The text of values

How a value is written when it ends up in a rule or a message.  A text stands for itself, and
inside a collection it is quoted.  Inside a collection that holds itself, three dots stand for
the whole of it.
-/

namespace FirewallPolicy

/-! ### Numbers -/

namespace Double

/-- Decimals whose point lies in this range are written without an exponent. -/
def isPositional (point : Int) : Bool :=
  -4 < point && point ≤ 16

/-- The exponent of a decimal: a sign and at least two digits. -/
def exponentText (exponent : Int) : List Char :=
  let digits := Nat.toDigits 10 exponent.natAbs
  (if exponent < 0 then '-' else '+') :: (List.replicate (2 - digits.length) '0' ++ digits)

/-- A decimal with its point and, far from one, an exponent.  There is always a digit on both
sides of a written point. -/
def Decimal.written (decimal : Decimal) : List Char :=
  let digits := decimal.digits
  let point := decimal.point
  if isPositional point then
    if point ≤ 0 then '0' :: '.' :: (List.replicate (-point).toNat '0' ++ digits)
    else
      let whole := point.toNat
      if digits.length ≤ whole then
        digits ++ List.replicate (whole - digits.length) '0' ++ ['.', '0']
      else digits.take whole ++ '.' :: digits.drop whole
  else
    let fraction := digits.drop 1
    digits.take 1 ++ (if fraction.isEmpty then [] else '.' :: fraction) ++
      'e' :: exponentText (point - 1)

/-- The shortest decimal text that reads back to the number. -/
def written : Double → String
  | finite negative significand exponent =>
    let size := if significand = 0 then ['0', '.', '0'] else (shortest significand exponent).written
    String.ofList (if negative then '-' :: size else size)
  | infinite negative => if negative then "-inf" else "inf"
  | undefined _ => "nan"

end Double

/-! ### Scalars and values -/

/-- A whole number with more digits than that has no text. -/
def maxWrittenDigits : Nat := 4300

/-- Has the whole number a text? -/
def isWritten (i : Int) : Bool :=
  (Nat.toDigits 10 i.natAbs).length ≤ maxWrittenDigits

/-- The text of a whole number, or a gap if it has none. -/
def wholeText (i : Int) : String :=
  if isWritten i then toString i else Text.gap

/-- The text of a scalar. -/
def Scalar.written : Scalar → String
  | .null => "None"
  | .bool b => if b then "True" else "False"
  | .int i => wholeText i
  | .float x => x.written
  | .text s => s
  | .moment m => m.written
  | .bytes bs => Text.quotedBytes bs

/-- Has the scalar a text? -/
def Scalar.isShowable : Scalar → Bool
  | .int i => isWritten i
  | _ => true

/-- The text of a scalar inside a collection. -/
def Scalar.quoted : Scalar → String
  | .text s => Text.quoted s
  | .moment m => m.listing
  | s => s.written

namespace Value

/-- What stands for a collection inside of itself. -/
def ellipsis : Value → String
  | .map _ => "\x7b...\x7d"
  | .pair _ _ => "(...)"
  | _ => "[...]"

/-- The members of a set, between braces unless there are none. -/
def quotedMembers (members : List Scalar) : String :=
  if members.isEmpty then "set()"
  else "\x7b" ++ ", ".intercalate (members.map Scalar.quoted) ++ "\x7d"

mutual

/-- The text of a value inside the given loops, each with what stands for it. -/
def quotedWithin (loops : List (Nat × String)) : Value → String
  | .scalar s => s.quoted
  | .list items => "[" ++ ", ".intercalate (quotedItems loops items) ++ "]"
  | .map entries => "\x7b" ++ ", ".intercalate (quotedEntries loops entries) ++ "\x7d"
  | .set members => quotedMembers members
  | .pair first second =>
    "(" ++ quotedWithin loops first ++ ", " ++ quotedWithin loops second ++ ")"
  | .loop mark body =>
    match loops.lookup mark with
    | some shown => shown
    | none => quotedWithin ((mark, body.ellipsis) :: loops) body
  | .again mark => (loops.lookup mark).getD "[...]"
  | .log _ location _ _ => "<Log " ++ location ++ ">"

/-- The texts of the items of a list. -/
def quotedItems (loops : List (Nat × String)) : List Value → List String
  | [] => []
  | item :: rest => quotedWithin loops item :: quotedItems loops rest

/-- The texts of the entries of a mapping. -/
def quotedEntries (loops : List (Nat × String)) : List (Scalar × Value) → List String
  | [] => []
  | (key, value) :: rest =>
    (key.quoted ++ ": " ++ quotedWithin loops value) :: quotedEntries loops rest

end

/-- The text of a value inside a collection. -/
def quoted (value : Value) : String :=
  quotedWithin [] value

/-- The text of a value. -/
def written : Value → String
  | .scalar s => s.written
  | value => value.quoted

/-- The text of an amount: a whole number is written without a fraction. -/
def amountText (value : Value) : String :=
  match value with
  | .float x =>
    match x.toInt? with
    | some i => wholeText i
    | none => x.written
  | _ => value.written

end Value

end FirewallPolicy
