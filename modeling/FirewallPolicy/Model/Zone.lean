import FirewallPolicy.Model.Attributes

/-!
## Zones

A zone is matched by its interfaces and by its addresses, on the side where traffic enters or
on the side where it leaves.
-/

namespace FirewallPolicy

/-- The two sides of traffic. -/
inductive Direction where
  | inward
  | outward
deriving DecidableEq, Repr

namespace Direction

/-- The match option for interfaces. -/
def interfaceOption : Direction → String
  | inward => "-i"
  | outward => "-o"

/-- The match option for addresses. -/
def addressOption : Direction → String
  | inward => "-s"
  | outward => "-d"

/-- The other side. -/
def opposite : Direction → Direction
  | inward => outward
  | outward => inward

end Direction

namespace Zone

/-- The zone that is declared by `source`. -/
def declare (location : String) (source : Entry) : Run Zone := do
  return { location, attributes := ← attributesOf .zone location source }

/-- The interfaces of a zone. -/
def interfaces (zone : Zone) : List String :=
  (zone.attributes.get "iface").toItems.map Value.written

/-- May traffic leave by the interface it came from? -/
def routesBack (zone : Zone) : Bool :=
  zone.attributes.flag "route-back"

/-- Matches for the named interfaces; without any, interfaces are not matched. -/
def interfaceFragments (direction : Direction) (names : List String) : Option (List Fragment) :=
  if names.isEmpty then none
  else some (names.map fun name => Fragment.matching [direction.interfaceOption ++ " " ++ name])

/-- Matches for the addresses of a zone; without an address list, addresses are not matched. -/
def addressFragments (zone : Zone) (direction : Direction) : Run (Option (List Fragment)) := do
  if zone.attributes.has "addr" then
    return some (← Run.hostFragments zone.location direction.addressOption
      (zone.attributes.get "addr").toItems)
  else return none

/-- Matches for interfaces and addresses; a zone with neither matches everything. -/
def assemble (interfaces addresses : Option (List Fragment)) : List Fragment :=
  if interfaces.isNone && addresses.isNone then [{}]
  else Fragment.combine [interfaces, addresses]

/-- Matches for traffic on one side of a zone, by the named interfaces. -/
def fragmentsOn (zone : Zone) (direction : Direction) (interfaces : List String) :
    Run (List Fragment) := do
  return assemble (interfaceFragments direction interfaces) (← zone.addressFragments direction)

/-- Matches for traffic on one side of a zone, by all its interfaces. -/
def fragments (zone : Zone) (direction : Direction) : Run (List Fragment) :=
  zone.fragmentsOn direction zone.interfaces

end Zone

end FirewallPolicy
