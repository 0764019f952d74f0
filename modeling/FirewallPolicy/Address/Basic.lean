/-!
## Addresses

IPv4 and IPv6 addresses as numbers, and the texts of their families.
-/

namespace FirewallPolicy

/-- The two versions of the Internet Protocol. -/
inductive IPVersion where
  | v4
  | v6
deriving DecidableEq, Repr, Inhabited

namespace IPVersion

/-- The name of the address family in rules. -/
def family : IPVersion → String
  | v4 => "inet"
  | v6 => "inet6"

/-- The number of address bits. -/
def bits : IPVersion → Nat
  | v4 => 32
  | v6 => 128

end IPVersion

/-- An address: its version and its number.  An IPv6 address may name the zone of its scope. -/
structure Address where
  version : IPVersion
  number : Nat
  zone : Option (List Char) := none
deriving DecidableEq, Repr

/-- An address literal of a policy: an address or, with a prefix length, a network. -/
inductive Literal where
  | host (address : Address)
  | network (address : Address) (length : Nat)
deriving DecidableEq, Repr

/-- The family and the text of an address, as rules use them. -/
structure FamilyAddress where
  family : String
  address : String
deriving DecidableEq, Repr, Inhabited

end FirewallPolicy
