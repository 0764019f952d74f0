/-!
## Address masks

The netmasks of prefix lengths, written as the matches of rules expect them.
-/

namespace FirewallPolicy.Mask

/-- The octet of an IPv4 netmask that starts at bit `start`. -/
def octet (length : Int) (start : Nat) : Nat :=
  if length ≤ start then 0
  else if start + 8 ≤ length then 255
  else 256 - Nat.pow 2 (8 - (length % 8).toNat)

/-- The dotted netmask of an IPv4 prefix length. -/
def inet (length : Int) : String :=
  ".".intercalate ([0, 8, 16, 24].map fun start => toString (octet length start))

/-- The mask digits of the next `length` bits, four to a digit. -/
def nibbles (length : Nat) : List Char :=
  if length = 0 then []
  else Nat.digitChar (16 - Nat.pow 2 (4 - length)) :: nibbles (length - 4)
termination_by length

/-- Cut into groups of four; the last one may be shorter. -/
def groups (digits : List Char) : List (List Char) :=
  if digits.isEmpty then [] else digits.take 4 :: groups (digits.drop 4)
termination_by digits.length
decreasing_by
  cases digits with
  | nil => simp_all
  | cons c rest =>
    simp only [List.length_drop, List.length_cons]
    omega

/-- Fill up with zeros to a whole number of groups. -/
def padded (digits : List Char) : List Char :=
  digits ++ List.replicate ((4 - digits.length % 4) % 4) '0'

/-- The netmask of an IPv6 prefix length: whole groups are written out, and fewer than eight of
them are followed by a double colon. -/
def inet6 (length : Int) : String :=
  let full := groups (padded (nibbles length.toNat))
  let parts := if full.isEmpty then [['0', '0', '0', '0']] else full
  ":".intercalate (parts.map String.ofList) ++ (if parts.length < 8 then "::" else "")

/-- The netmask of a prefix length in the family. -/
def ofFamily (family : String) (length : Int) : String :=
  if family = "inet" then inet length else inet6 length

end FirewallPolicy.Mask
