/-!
## Calendar dates and times

A date, a date with a time of day, or such a time with its offset from universal time.  Moments
of one of these kinds have an order; times with an offset are compared by the instant they name.
-/

namespace FirewallPolicy

/-- A date, or a date and a time with microseconds and the offset from universal time in
minutes. -/
structure Moment where
  year : Nat
  month : Nat
  day : Nat
  time : Option (Nat × Nat × Nat × Nat) := none
  offset : Option Int := none
deriving DecidableEq, Repr, Inhabited

namespace Moment

/-! ### The calendar -/

/-- Has the year a leap day? -/
def isLeapYear (year : Nat) : Bool :=
  (year % 4 = 0 && year % 100 != 0) || year % 400 = 0

/-- The number of days of a month. -/
def daysIn (year month : Nat) : Nat :=
  if month = 2 then if isLeapYear year then 29 else 28
  else if [4, 6, 9, 11].contains month then 30
  else 31

/-- Is the moment in the calendar? -/
def isValid (moment : Moment) : Bool :=
  1 ≤ moment.year && 1 ≤ moment.month && moment.month ≤ 12 && 1 ≤ moment.day &&
    moment.day ≤ daysIn moment.year moment.month &&
    moment.time.all (fun time => time.1 < 24 && time.2.1 < 60 && time.2.2.1 < 60) &&
    moment.offset.all fun minutes => minutes.natAbs < 24 * 60

/-! ### Order -/

/-- The kinds of moments; those of different kinds are never equal and have no order. -/
inductive Kind where
  | date
  | localTime
  | universalTime
deriving DecidableEq, Repr

/-- The kind of a moment. -/
def kind (moment : Moment) : Kind :=
  match moment.time, moment.offset with
  | none, _ => .date
  | some _, none => .localTime
  | some _, some _ => .universalTime

/-- The number of days before the first of a month, from the start of the calendar. -/
def daysBefore (year month : Nat) : Nat :=
  let past := year - 1
  past * 365 + past / 4 - past / 100 + past / 400 +
    ((List.range (month - 1)).map fun before => daysIn year (before + 1)).foldl (· + ·) 0

/-- The microsecond of a moment, counted from the start of the calendar in universal time. -/
def instant (moment : Moment) : Int :=
  let (hour, minute, second, micro) := moment.time.getD (0, 0, 0, 0)
  let minutes : Int :=
    ((daysBefore moment.year moment.month + moment.day) * 1440 + hour * 60 + minute : Nat)
  ((minutes - moment.offset.getD 0) * 60 + second) * 1000000 + micro

/-- Do two moments name the same time? -/
def same (a b : Moment) : Bool :=
  a.kind = b.kind && a.instant = b.instant

/-! ### Writing -/

/-- A number with zeros in front up to a width. -/
def padded (width n : Nat) : String :=
  let digits := Nat.toDigits 10 n
  String.ofList (List.replicate (width - digits.length) '0' ++ digits)

/-- The text of an offset. -/
def offsetText (minutes : Int) : String :=
  (if minutes < 0 then "-" else "+") ++ padded 2 (minutes.natAbs / 60) ++ ":" ++
    padded 2 (minutes.natAbs % 60)

/-- The text of a moment. -/
def written (moment : Moment) : String :=
  let date := padded 4 moment.year ++ "-" ++ padded 2 moment.month ++ "-" ++ padded 2 moment.day
  match moment.time with
  | none => date
  | some (hour, minute, second, micro) =>
    date ++ " " ++ padded 2 hour ++ ":" ++ padded 2 minute ++ ":" ++ padded 2 second ++
      (if micro = 0 then "" else "." ++ padded 6 micro) ++
      ((moment.offset.map offsetText).getD "")

/-- The listing of an offset. -/
def offsetListing (minutes : Int) : String :=
  if minutes = 0 then "datetime.timezone.utc"
  else if minutes < 0 then
    "datetime.timezone(datetime.timedelta(days=-1, seconds=" ++
      toString ((1440 + minutes) * 60) ++ "))"
  else "datetime.timezone(datetime.timedelta(seconds=" ++ toString (minutes * 60) ++ "))"

/-- The listing that stands for a moment inside lists and mappings. -/
def listing (moment : Moment) : String :=
  let date := [moment.year, moment.month, moment.day]
  let numbers (list : List Nat) := ", ".intercalate (list.map toString)
  match moment.time with
  | none => "datetime.date(" ++ numbers date ++ ")"
  | some (hour, minute, second, micro) =>
    let time :=
      [hour, minute] ++
        (if micro != 0 then [second, micro] else if second != 0 then [second] else [])
    "datetime.datetime(" ++ numbers (date ++ time) ++
      (match moment.offset with
        | some minutes => ", tzinfo=" ++ offsetListing minutes
        | none => "") ++ ")"

end Moment

end FirewallPolicy
