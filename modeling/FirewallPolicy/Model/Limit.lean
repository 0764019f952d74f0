import FirewallPolicy.Address.Mask
import FirewallPolicy.Model.Attributes

/-!
## Rate limits

A limit allows a number of events in a number of seconds, tracked by source or destination
address; masks group addresses that are tracked together.  It is matched either by a bounded
list of recent events per address, or by a counting filter.
-/

namespace FirewallPolicy

namespace Limit

/-! ### Declaration -/

/-- Check one of the two amounts of a limit. -/
def readAmount (location name : String) (attributes : Record) : Except Failure Amount :=
  let value := attributes.get name
  let invalid := .error (.fault location (.invalidLimitAmount name value))
  match Amount.ofValue? value with
  | some amount => if amount.isNonPositive then invalid else .ok amount
  | none => invalid

/-- A pair of a key and a value: a list of two items, a text of two characters, two bytes, or the
keys or members of a mapping or a set that has two of them. -/
def pairOf? (value : Value) : Option (Scalar × Value) :=
  match value.opened with
  | .list [.scalar key, value] => some (key, value)
  | .pair (.scalar key) value => some (key, value)
  | .text s =>
    match (Text.codes s).map fun code => String.ofList (Text.ofCode code) with
    | [key, value] => some (.text key, .text value)
    | _ => none
  | .scalar (.bytes [a, b]) => some (.int a.toNat, .int b.toNat)
  | .map [(key, _), (value, _)] => some (key, .scalar value)
  | .set [key, value] => some (key, .scalar value)
  | _ => none

/-- The entries of the mask of one family: a mapping, or a list or a set of pairs. -/
def maskEntries (mask : Value) : Except Failure Entries :=
  if !mask.isTruthy then .ok []
  else
    let ofPairs (items : List Value) : Except Failure Entries :=
      match items.mapM pairOf? with
      | some pairs => .ok (Entries.insertAll [] pairs)
      | none => .error .unusable
    match mask.opened with
    | .map entries => .ok entries
    | .list items => ofPairs items
    | .set members => ofPairs (members.map .scalar)
    | _ => .error .unusable

/-- The prefix length that a value stands for; truth values count as zero and one. -/
def lengthOf? : Value → Option Int
  | .int i => some i
  | .bool b => some (if b then 1 else 0)
  | _ => none

/-- Check one selector of a mask; an absent one does not track the address. -/
def settleSelector (location family : String) (bits : Nat) (mask : Entries) (selector : String) :
    Except Failure Entries :=
  let length := (Entries.get? mask (.text selector)).getD (.int 0)
  let valid := (lengthOf? length).any fun n : Int => decide (0 ≤ n) && decide (n ≤ bits)
  if !valid then .error (.fault location (.invalidLimitMask family selector length))
  else if (Entries.get? mask (.text selector)).isSome then .ok mask
  else .ok (Entries.insert mask (.text selector) length)

/-- The mask of one family; without one, single addresses on the given side are tracked. -/
def settleMask (location family : String) (bits : Nat) (side : String) (given : Entries) :
    Except Failure Entries := do
  let mask ← maskEntries ((Entries.get? given (.text family)).getD .null)
  let mask := if mask.isEmpty then [(.text side, .int bits)] else mask
  let mask ← settleSelector location family bits mask "src"
  settleSelector location family bits mask "dest"

/-- The masks that a limit gives. -/
def givenMasks (location : String) (mask : Value) : Except Failure Entries :=
  if !mask.isTruthy then .ok []
  else
    match mask.entries? with
    | some entries => .ok entries
    | none => .error (.fault location .limitMaskNotMapping)

/-- Bring the attributes of a limit into normal form. -/
def settle (location : String) (attributes : Record) : Except Failure Limit := do
  let attributes := attributes.setDefault "count" (.int 1)
  let attributes := attributes.setDefault "interval" (.int 1)
  let attributes := attributes.setDefault "addr" (.text "src")
  let attributes := attributes.setDefault "update" (.bool true)
  let count ← readAmount location "count" attributes
  let interval ← readAmount location "interval" attributes
  let side := attributes.get "addr"
  if !(side.isText "src" || side.isText "dest") then
    throw (.fault location (.invalidLimitSelector side))
  let measure := attributes.get "measure"
  if !(measure.isNull || measure.isText "conn" || measure.isText "flow") then
    throw (.fault location (.invalidLimitMeasure measure))
  let given ← givenMasks location (attributes.get "mask")
  let maskInet ← settleMask location "inet" 32 side.written given
  let maskInet6 ← settleMask location "inet6" 128 side.written given
  let masks := Value.map [(.text "inet", .map maskInet), (.text "inet6", .map maskInet6)]
  return { location, attributes := attributes.set "mask" masks, count, interval, maskInet,
           maskInet6 }

/-- The limit of the given kind that is declared by `source`. -/
def declare (kind : ObjectKind) (location : String) (source : Entry) : Run Limit := do
  Run.recording (settle location (← attributesOf kind location source))

/-! ### Masks and rates -/

/-- The mask of a family. -/
def maskOf (limit : Limit) (family : String) : Except Failure Entries :=
  match family with
  | "inet" => .ok limit.maskInet
  | "inet6" => .ok limit.maskInet6
  | _ => .error .unusable

/-- The tracked address and its prefix length, if exactly one is tracked. -/
def trackedAddress? (mask : Entries) : Option (Scalar × Value) :=
  match mask.filter fun entry => entry.2.isTruthy with
  | [entry] => some entry
  | _ => none

/-- Events per second. -/
def rate (limit : Limit) : Except Failure Rat :=
  match limit.count.toRat?, limit.interval.toRat? with
  | some count, some interval => .ok (count / interval)
  | _, _ => .error .unusable

/-- Events per second, rounded up. -/
def wholeRate (limit : Limit) : Except Failure Int := do
  return (← limit.rate).ceil

/-- The units of rates with their lengths in seconds, except for the longest. -/
def rateUnits : List (String × Nat) :=
  [("second", 1), ("minute", 60), ("hour", 3600)]

/-- Is the rate a positive whole number of events in a unit of that many seconds? -/
def fitsUnit (rate : Rat) (seconds : Nat) : Bool :=
  let value := rate * (seconds : Rat)
  1 ≤ value && value.den == 1

/-- A rate in the shortest unit that makes it a positive whole number; a rate that no unit fits
is rounded up to events per day. -/
def rateIn (rate : Rat) : Int × String :=
  match rateUnits.find? fun unit => fitsUnit rate unit.2 with
  | some (name, seconds) => ((rate * (seconds : Rat)).num, name)
  | none => ((rate * 86400).ceil, "day")

/-- Refuse an amount that has no text: it cannot stand in an option. -/
def requireText (amount : Amount) : Except Failure Unit :=
  if amount.toScalar.isShowable then .ok () else .error .unusable

/-- The text of the rate for a counting filter. -/
def hashRate (limit : Limit) : Except Failure String := do
  let (events, unit) := rateIn (← limit.rate)
  requireText (.int events)
  return wholeText events ++ "/" ++ unit

/-- The name of the list of recent events; limits that name the same list share it. -/
def recentName (limit : Limit) (fallback : String) : String :=
  if limit.attributes.has "name" then "user:" ++ (limit.attributes.get "name").written
  else fallback

/-! ### Counting filters -/

/-- The grouping mode and the mask option of a selector. -/
def hashSelectors : List (String × String × String) :=
  [("src", "srcip", "--hashlimit-srcmask"), ("dest", "dstip", "--hashlimit-dstmask")]

/-- The options that group addresses by the mask. -/
def groupingTokens (mask : Entries) : List String :=
  let lengthOf (selector : String) := (Entries.get? mask (.text selector)).getD .null
  let active := hashSelectors.filter fun selector => (lengthOf selector.1).isTruthy
  if active.isEmpty then []
  else
    ("--hashlimit-mode " ++ ",".intercalate (active.map (·.2.1))) ::
      active.map fun selector => selector.2.2 ++ " " ++ (lengthOf selector.1).written

/-- The match of one family for traffic within the limit or above it. -/
def hashFragment (limit : Limit) (name : String) (above : Bool) (family : String) :
    Except Failure Fragment := do
  let rate ← limit.hashRate
  requireText limit.count
  let mask ← limit.maskOf family
  let tokens :=
    ["-m hashlimit", "--hashlimit-" ++ (if above then "above" else "upto") ++ " " ++ rate,
      "--hashlimit-burst " ++ limit.count.text] ++
      groupingTokens mask ++ ["--hashlimit-name " ++ name]
  return { Fragment.matching tokens with family := some family }

/-- The matches of the families for traffic within the limit or above it. -/
def hashFragments (limit : Limit) (families : List String) (name : String) (above : Bool) :
    Except Failure (List Fragment) :=
  families.mapM (limit.hashFragment name above)

/-! ### Lists of recent events -/

/-- The option that tracks an address on one side. -/
def recentSide? : Scalar → Option String
  | .text "src" => some "--rsource"
  | .text "dest" => some "--rdest"
  | _ => none

/-- The match of a list of recent events, if exactly one address is tracked. -/
def recentFragment (limit : Limit) (family name : String) : Except Failure (Option Fragment) := do
  match trackedAddress? (← limit.maskOf family) with
  | none => return none
  | some (side, length) =>
    match recentSide? side, lengthOf? length with
    | some option, some length =>
      let tokens := ["-m recent", "--name " ++ name, option,
        "--mask " ++ Mask.ofFamily family length]
      return some { Fragment.matching tokens with family := some family }
    | _, _ => throw .unusable

/-- The events and seconds that a list of recent events is asked for.  A count that the list
cannot hold is replaced by the rate of one second; there is none if that is too much as well. -/
def recentAmounts (limit : Limit) (maxCount : Amount) :
    Except Failure (Option (Amount × Amount)) := do
  if limit.count.exceeds maxCount then
    let rate := Amount.int (← limit.wholeRate)
    return if rate.exceeds maxCount then none else some (rate, .int 1)
  else return some (limit.count, limit.interval)

/-- Whether recording and checking go together. -/
def updates (limit : Limit) : Bool :=
  limit.attributes.flag "update"

/-- The match that finds too many recent events. -/
def checkFragment (limit : Limit) (recent : Fragment) (count interval : Amount) : List Fragment :=
  let check := if limit.updates then "--update" else "--rcheck"
  Fragment.combine [some [recent], some [Fragment.matching
    [check ++ " --hitcount " ++ count.written ++ " --seconds " ++ interval.written]]]

/-- The match that records an event. -/
def recordFragment (recent : Fragment) : List Fragment :=
  Fragment.combine [some [recent], some [Fragment.matching ["--set"]]]

/-- The check and record matches of each family, if the list can be used for all of them. -/
def recentPairs (limit : Limit) (name : String) (count interval : Amount) :
    List String → Except Failure (Option (List Fragment × List Fragment))
  | [] => .ok (some ([], []))
  | family :: rest => do
    match ← limit.recentFragment family name with
    | none => return none
    | some recent =>
      requireText count
      requireText interval
      match ← recentPairs limit name count interval rest with
      | none => return none
      | some (checks, records) =>
        let record :=
          if limit.updates then recordFragment recent else [Fragment.ofFamily family]
        return some (limit.checkFragment recent count interval ++ checks, record ++ records)

/-- The matches that check and that record recent events, where that way of limiting can be
used: the count has to fit and exactly one address has to be tracked in each family. -/
def recentFragments (limit : Limit) (settings : Settings) (name : String) :
    Except Failure (Option (List Fragment × List Fragment)) := do
  match settings.recentMaxCount with
  | none => throw .unusable
  | some maxCount =>
    match ← limit.recentAmounts maxCount with
    | none => return none
    | some (count, interval) =>
      limit.recentPairs (limit.recentName name) count interval settings.families

/-- The matches that record an event in the list. -/
def recordFragments (limit : Limit) (name : String) :
    List String → Except Failure (List Fragment)
  | [] => .ok []
  | family :: rest => do
    match ← limit.recentFragment family (limit.recentName name) with
    | none => throw (.fault limit.location .limitUpdateAmbiguous)
    | some recent => return recordFragment recent ++ (← recordFragments limit name rest)

end Limit

end FirewallPolicy
