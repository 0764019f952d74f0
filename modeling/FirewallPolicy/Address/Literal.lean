import FirewallPolicy.Address.Basic
import FirewallPolicy.Text.Digit
import FirewallPolicy.Text.Split

/-!
## Address literals

Reading and writing of literal addresses and networks.  IPv4 octets have no leading zeros, an
IPv4 prefix may be given as a netmask or a host mask, and the host bits of a network are cleared.
An IPv6 address is written with its longest run of zero groups left out.
-/

namespace FirewallPolicy

/-! ### Numerals -/

namespace Numeral

/-- Is the character one of the ten ASCII digits? -/
def isDecimal (c : Char) : Bool :=
  '0' ≤ c && c ≤ '9'

/-- The value of a hexadecimal digit. -/
def hexValue? (c : Char) : Option Nat :=
  if '0' ≤ c && c ≤ '9' then some (c.toNat - 48)
  else if 'a' ≤ c && c ≤ 'f' then some (c.toNat - 87)
  else if 'A' ≤ c && c ≤ 'F' then some (c.toNat - 55)
  else none

/-- The number written by decimal digits. -/
def ofDecimals (digits : List Char) : Nat :=
  digits.foldl (fun total digit => total * 10 + (digit.toNat - 48)) 0

/-- A non-empty run of decimal digits. -/
def decimal? (cs : List Char) : Option Nat :=
  if !cs.isEmpty && cs.all isDecimal then some (ofDecimals cs) else none

/-- A run of decimal digits up to a number, unless there are too many to be read. -/
def upTo? (most : Nat) (cs : List Char) : Option Nat :=
  if Text.maxNumeralLength < cs.length then none else (decimal? cs).filter (· ≤ most)

end Numeral

/-! ### IPv4 -/

namespace IPv4

/-- One octet: at most three digits without leading zeros, up to 255. -/
def octet? (cs : List Char) : Option Nat :=
  match Numeral.decimal? cs with
  | some value =>
    if 3 < cs.length || (cs.head? == some '0' && cs != ['0']) || 255 < value then none
    else some value
  | none => none

/-- The number of a dotted address. -/
def number? (cs : List Char) : Option Nat :=
  match Text.splitAt '.' cs with
  | [a, b, c, d] => do
    let a ← octet? a
    let b ← octet? b
    let c ← octet? c
    let d ← octet? d
    return ((a * 256 + b) * 256 + c) * 256 + d
  | _ => none

/-- The dotted text of an address. -/
def text (number : Nat) : List Char :=
  Text.joinWith '.' ([24, 16, 8, 0].map fun shift =>
    Nat.toDigits 10 (number / Nat.pow 2 shift % 256))

/-- The length of the prefix whose netmask is the number. -/
def lengthOfMask? (mask : Nat) : Option Nat :=
  (List.range 33).find? fun length => mask = Nat.pow 2 32 - Nat.pow 2 (32 - length)

/-- A prefix length, or the one that a netmask or else a host mask stands for. -/
def prefixLength? (cs : List Char) : Option Nat :=
  match Numeral.upTo? 32 cs with
  | some length => some length
  | none => do
    let mask ← number? cs
    (lengthOfMask? mask).or (lengthOfMask? (Nat.pow 2 32 - 1 - mask))

end IPv4

/-! ### IPv6 -/

namespace IPv6

/-- The number of values that a group can have. -/
def groupSize : Nat := 65536

/-- One group: one to four hexadecimal digits. -/
def group? (cs : List Char) : Option Nat :=
  if cs.isEmpty || 4 < cs.length then none
  else (cs.mapM Numeral.hexValue?).map fun digits =>
    digits.foldl (fun total digit => total * 16 + digit) 0

/-- The groups of a text, an IPv4 address at the end counting for two. -/
def parts? (cs : List Char) : Option (List (List Char)) :=
  let parts := Text.splitAt ':' cs
  match parts.getLast? with
  | some last =>
    if parts.length < 3 then none
    else if last.contains '.' then
      (IPv4.number? last).map fun number =>
        parts.dropLast ++ [Nat.toDigits 16 (number / groupSize),
          Nat.toDigits 16 (number % groupSize)]
    else some parts
  | none => none

/-- The positions of the empty groups that are neither first nor last. -/
def innerGaps (parts : List (List Char)) : List Nat :=
  (List.range parts.length).filter fun i =>
    0 < i && i + 1 < parts.length && (parts[i]?).any (·.isEmpty)

/-- The groups on one side of a gap: an empty side stands for the end of the address. -/
def side? (parts : List (List Char)) : Option (List Nat) :=
  if parts == [[]] then some [] else parts.mapM group?

/-- The eight groups of an address, a single gap filled up with zeros. -/
def groups? (parts : List (List Char)) : Option (List Nat) :=
  if 9 < parts.length then none
  else
    match innerGaps parts with
    | [] => if parts.length = 8 then parts.mapM group? else none
    | [gap] => do
      let high ← side? (parts.take gap)
      let low ← side? (parts.drop (gap + 1))
      if high.length + low.length < 8 then
        return high ++ List.replicate (8 - (high.length + low.length)) 0 ++ low
      else none
    | _ => none

/-- The number of an address without scope. -/
def number? (cs : List Char) : Option Nat := do
  let groups ← groups? (← parts? cs)
  return groups.foldl (fun total group => total * groupSize + group) 0

/-- An address, which may name the zone of its scope. -/
def address? (cs : List Char) : Option Address :=
  match Text.cutAt? '%' cs with
  | none => (number? cs).map (⟨.v6, ·, none⟩)
  | some (body, zone) =>
    if zone.isEmpty || zone.contains '%' || zone.contains '/' then none
    else (number? body).map (⟨.v6, ·, some zone⟩)

/-- The eight groups of a number. -/
def groupsOf (number : Nat) : List Nat :=
  [112, 96, 80, 64, 48, 32, 16, 0].map fun shift => number / Nat.pow 2 shift % groupSize

/-- The number of zero groups at the front. -/
def zeroRun (groups : List Nat) : Nat :=
  (groups.takeWhile (· == 0)).length

/-- The first of the longest runs of zero groups, as start and length. -/
def longestZeroRun (groups : List Nat) : Nat × Nat :=
  (List.range groups.length).foldl
    (fun best start =>
      let length := zeroRun (groups.drop start)
      if best.2 < length then (start, length) else best)
    (0, 0)

/-- Groups in hexadecimal with colons between them. -/
def colonText (groups : List Nat) : List Char :=
  Text.joinWith ':' (groups.map (Nat.toDigits 16))

/-- The text of a number: the first longest run of two or more zero groups becomes a double
colon. -/
def text (number : Nat) : List Char :=
  let groups := groupsOf number
  let run := longestZeroRun groups
  if 1 < run.2 then
    colonText (groups.take run.1) ++ [':', ':'] ++ colonText (groups.drop (run.1 + run.2))
  else colonText groups

end IPv6

/-! ### Literals -/

namespace Address

/-- The address that a text stands for. -/
def ofText? (cs : List Char) : Option Address :=
  match IPv4.number? cs with
  | some number => some ⟨.v4, number, none⟩
  | none => IPv6.address? cs

/-- The text of an address. -/
def text (address : Address) : List Char :=
  match address.version with
  | .v4 => IPv4.text address.number
  | .v6 =>
    match address.zone with
    | some zone => IPv6.text address.number ++ '%' :: zone
    | none => IPv6.text address.number

/-- The number with all but the first `length` bits cleared. -/
def cleared (address : Address) (length : Nat) : Nat :=
  let hostSize := Nat.pow 2 (address.version.bits - length)
  address.number / hostSize * hostSize

/-- The network of an address; a zone survives only where no host bit had to be cleared. -/
def networkOf (address : Address) (length : Nat) : Address :=
  if address.cleared length = address.number then address
  else { address with number := address.cleared length, zone := none }

end Address

namespace Literal

/-- An IPv4 network from its two halves. -/
def network4? (body length : List Char) : Option Literal := do
  let number ← IPv4.number? body
  let length ← IPv4.prefixLength? length
  return .network (Address.networkOf ⟨.v4, number, none⟩ length) length

/-- An IPv6 network from its two halves. -/
def network6? (body length : List Char) : Option Literal := do
  let address ← IPv6.address? body
  let length ← Numeral.upTo? 128 length
  return .network (address.networkOf length) length

/-- The literal that a text stands for: with a slash a network, without one an address. -/
def ofText? (cs : List Char) : Option Literal :=
  match Text.splitAt '/' cs with
  | [body] => (Address.ofText? body).map .host
  | [body, length] => (network4? body length).or (network6? body length)
  | _ => none

/-- The address, or the address of the network. -/
def address : Literal → Address
  | host address => address
  | network address _ => address

/-- The text of a literal. -/
def text : Literal → List Char
  | host address => address.text
  | network address length => address.text ++ '/' :: Nat.toDigits 10 length

/-- The family and the text of a literal. -/
def familyAddress (literal : Literal) : FamilyAddress :=
  ⟨literal.address.version.family, String.ofList literal.text⟩

/-- The family and the normal form of a literal address or network; other texts have none. -/
def parse? (s : String) : Option FamilyAddress :=
  (ofText? s.toList).map familyAddress

end Literal

end FirewallPolicy
