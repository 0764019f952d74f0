import FirewallPolicy.Address.Literal
import FirewallPolicy.Value.Moment

/-!
## Dates and times in documents

The texts that state a date, or a date and a time.  A plain date that is recognised without a
tag has two digits for month and day; otherwise one digit will do.
-/

namespace FirewallPolicy.Moment

/-- A number of `least` to `most` decimal digits, and the rest of the text. -/
def digits? (least most : Nat) (cs : List Char) : Option (Nat × List Char) :=
  let run := (cs.take most).takeWhile Numeral.isDecimal
  if run.length < least then none else some (Numeral.ofDecimals run, cs.drop run.length)

/-- The rest of a text behind a character. -/
def behind? (c : Char) : List Char → Option (List Char)
  | [] => none
  | d :: rest => if d = c then some rest else none

/-- The rest of a text behind blanks. -/
def dropSpaces (cs : List Char) : List Char :=
  cs.dropWhile fun c => c = ' ' || c = '\t'

/-- The microseconds of a fraction: digits beyond the sixth are cut off. -/
def fraction (cs : List Char) : Nat × List Char :=
  match cs with
  | '.' :: rest =>
    let run := rest.takeWhile Numeral.isDecimal
    let six := run.take 6
    (Numeral.ofDecimals six * Nat.pow 10 (6 - six.length), rest.drop run.length)
  | _ => (0, cs)

/-- The offset at the end of a time: none, that of universal time, or a signed one. -/
def offset? (cs : List Char) : Option (Option Int) :=
  if cs.isEmpty then some none
  else
    match dropSpaces cs with
    | ['Z'] => some (some 0)
    | sign :: rest =>
      if sign = '+' || sign = '-' then do
        let (hours, rest) ← digits? 1 2 rest
        let minutes ← match rest with
          | [] => some 0
          | ':' :: rest =>
            match digits? 2 2 rest with
            | some (minutes, []) => some minutes
            | _ => none
          | _ => none
        let size : Int := (hours * 60 + minutes : Nat)
        return some (if sign = '-' then -size else size)
      else none
    | [] => none

/-- The rest of a text behind what separates a date from a time. -/
def behindSeparator? : List Char → Option (List Char)
  | [] => none
  | c :: rest =>
    if c = 'T' || c = 't' then some rest
    else if c = ' ' || c = '\t' then some (dropSpaces rest)
    else none

/-- The moment that a text states; whether it is in the calendar is another question. -/
def ofText? (cs : List Char) : Option Moment := do
  let (year, rest) ← digits? 4 4 cs
  let (month, rest) ← digits? 1 2 (← behind? '-' rest)
  let (day, rest) ← digits? 1 2 (← behind? '-' rest)
  if rest.isEmpty then return { year, month, day }
  else
    let (hour, rest) ← digits? 1 2 (← behindSeparator? rest)
    let (minute, rest) ← digits? 2 2 (← behind? ':' rest)
    let (second, rest) ← digits? 2 2 (← behind? ':' rest)
    let (micro, rest) := fraction rest
    return { year, month, day, time := some (hour, minute, second, micro),
             offset := ← offset? rest }

/-- Is the text recognised as a moment without a tag? -/
def isRecognised (cs : List Char) : Bool :=
  match ofText? cs with
  | some moment => moment.time.isSome || cs.length = 10
  | none => false

end FirewallPolicy.Moment
