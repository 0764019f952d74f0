import FirewallPolicy.Rule.Declaration

/-!
## What a rule matches

The dimensions of a rule: its zones, its source and destination addresses, its address set and
its services.  Each one gives a list of fragments, or none when the rule does not constrain it.
-/

namespace FirewallPolicy.Rule

/-! ### Zones -/

/-- The zones of an attribute; a rule that names none has one unconstrained side. -/
def sides : Option (List ZoneSelector) → List (Option ZoneSelector)
  | some (first :: rest) => (first :: rest).map some
  | _ => [none]

/-- Is the side the firewall itself? -/
def isFirewall : Option ZoneSelector → Bool
  | some .firewall => true
  | _ => false

/-- The hooks that traffic between two sides passes, and the sides that remain to be matched. -/
def hooksBetween (zoneIn zoneOut : Option ZoneSelector) :
    List Hook × Option ZoneSelector × Option ZoneSelector :=
  if isFirewall zoneIn && isFirewall zoneOut then ([], none, none)
  else if isFirewall zoneIn then ([.output], none, zoneOut)
  else if isFirewall zoneOut then ([.input], zoneIn, none)
  else
    ([.forward] ++ (if zoneOut.isNone then [.input] else []) ++
      (if zoneIn.isNone then [.output] else []), zoneIn, zoneOut)

/-- The zone on both sides when it is one zone that traffic must not leave the way it came. -/
def hairpinZone? (zoneIn zoneOut : Option ZoneSelector) : Option Zone :=
  match zoneIn, zoneOut with
  | some (.named name zone), some (.named other _) =>
    if name.sameKey other && !zone.routesBack && !zone.interfaces.isEmpty then some zone else none
  | _, _ => none

/-- All pairs of entries at different positions. -/
def distinctPairs {α : Type} (items : List α) : List (α × α) :=
  items.zipIdx.flatMap fun first =>
    items.zipIdx.filterMap fun second =>
      if first.2 = second.2 then none else some (first.1, second.1)

/-- The interfaces that are matched in a chain: none where the chain does not see the side. -/
def visibleIn (chain : String) (direction : Direction) (interfaces : List String) : List String :=
  if chainSees chain direction then interfaces else []

/-- Matches for traffic through one zone, in by one interface and out by another. -/
def hairpinFragments (chain : String) (zone : Zone) (pair : String × String) :
    Run (List Fragment) := do
  let entering ← zone.fragmentsOn .inward (visibleIn chain .inward [pair.1])
  let leaving ← zone.fragmentsOn .outward (visibleIn chain .outward [pair.2])
  return Fragment.combine [some entering, some leaving, some [.ofChain chain]]

/-- Matches for one side in a chain. -/
def sideFragments (chain : String) (direction : Direction) :
    Option ZoneSelector → Run (Option (List Fragment))
  | none => return none
  | some (.named _ zone) => do
    return some (← zone.fragmentsOn direction (visibleIn chain direction zone.interfaces))
  | some _ => Run.unusable

/-- Matches for traffic between two sides in a chain. -/
def chainFragments (zoneIn zoneOut : Option ZoneSelector) (chain : String) :
    Run (List Fragment) := do
  match hairpinZone? zoneIn zoneOut with
  | some zone => Run.gather (hairpinFragments chain zone) (distinctPairs zone.interfaces)
  | none =>
    let entering ← sideFragments chain .inward zoneIn
    let leaving ← sideFragments chain .outward zoneOut
    return Fragment.combine [entering, leaving, some [.ofChain chain]]

/-- Matches for traffic between two sides, in the chains of a kind of rules. -/
def pairFragments (kind : RuleKind) (zoneIn zoneOut : Option ZoneSelector) :
    Run (List Fragment) :=
  let (hooks, remainingIn, remainingOut) := hooksBetween zoneIn zoneOut
  Run.gather (chainFragments remainingIn remainingOut) (hooks.filterMap kind.chainOf?)

/-- All pairs of an entering and a leaving side, the entering one varying slowest. -/
def sidePairs (rule : Rule) : List (Option ZoneSelector × Option ZoneSelector) :=
  let entering := sides (if rule.reverse then rule.zonesOut else rule.zonesIn)
  let leaving := sides (if rule.reverse then rule.zonesIn else rule.zonesOut)
  entering.flatMap fun zoneIn => leaving.map fun zoneOut => (zoneIn, zoneOut)

/-- Matches for the zones of a rule, without repetitions. -/
def zoneFragments (rule : Rule) : Run (List Fragment) := do
  return (← Run.gather (fun pair => pairFragments rule.kind pair.1 pair.2)
    rule.sidePairs).eraseDups

/-! ### Addresses -/

/-- Matches for the addresses that an attribute lists. -/
def addressFragments (rule : Rule) (name : String) (direction : Direction) :
    Run (Option (List Fragment)) := do
  if rule.attributes.has name then
    return some (← Run.hostFragments rule.location (rule.side direction).addressOption
      (rule.attributes.get name).toItems)
  else return none

/-- Matches for the sources of a rule. -/
def sourceFragments (rule : Rule) : Run (Option (List Fragment)) :=
  rule.addressFragments "src" .inward

/-- The value that the new destination holds under a name; null where there is none. -/
def dnatField (rule : Rule) (name : String) : Except Failure Value :=
  match (rule.attributes.get "dnat").entries? with
  | some entries => .ok ((Entries.get? entries (.text name)).getD .null)
  | none => .error .unusable

/-- The only IPv4 address in an answer. -/
def onlyInet (location host : String) (addresses : List FamilyAddress) : Except Failure String :=
  match addresses.filter (·.family == "inet") with
  | [] => .error (.fault location (.dnatUnresolved host))
  | [entry] => .ok entry.address
  | _ => .error (.fault location (.dnatAmbiguous host))

/-- The only IPv4 address of the new destination. -/
def dnatAddress (rule : Rule) : Run String := do
  let entries ← match (rule.attributes.get "dnat").entries? with
    | some entries => pure entries
    | none => Run.unusable
  match Entries.get? entries (.text "addr") with
  | none => Run.unusable
  | some address =>
    let host := address.written
    if host.toList.contains '/' then Run.report rule.location .dnatToNetwork
    Run.recording (onlyInet rule.location host (← Run.resolveHost rule.location host))

/-- Matches for the destinations of a rule.  Where the destination is changed, IPv4 traffic is
matched after the change. -/
def destinationFragments (rule : Rule) : Run (Option (List Fragment)) := do
  let given ← rule.addressFragments "dest" .outward
  if rule.kind.redirects && rule.attributes.flag "dnat" then
    let others := Fragment.combine [given, some [.ofFamily "inet6"]]
    let address ← rule.dnatAddress
    let zone ← Zone.declare (rule.location ++ " dnat")
      (.raw (.map [(.text "addr", .text address)]))
    return some (others ++ (← zone.fragments (rule.side .outward)))
  else return given

/-! ### Address sets -/

/-- The flags of a set match: by default the side where the traffic comes from. -/
def setFlags (rule : Rule) (given : Value) : Except Failure String :=
  if !given.isTruthy then .ok (if rule.reverse then "dst" else "src")
  else
    match given.opened with
    | .list items => do
      let flags ← items.mapM fun item => match item with
        | .text flag => .ok flag
        | _ => .error .unusable
      return ",".intercalate flags
    | _ => .ok given.written

/-- The match for the address set of a rule. -/
def setFragments (rule : Rule) : Except Failure (Option (List Fragment)) :=
  let given := rule.attributes.get "ipset"
  if !given.isTruthy then .ok none
  else
    match given.entries? with
    | some entries => do
      let flags ← rule.setFlags ((Entries.get? entries (.text "args")).getD .null)
      match Entries.get? entries (.text "name") with
      | some name =>
        return some [.matching ["-m set --match-set " ++ name.written ++ " " ++ flags]]
      | none => throw .unusable
    | none => .error .unusable

/-! ### Services -/

/-- Matches for one service. -/
def selectorFragments (reverse : Bool) : ServiceSelector → Except Failure (List Fragment)
  | .service service => service.fragments reverse
  | .definition definition => definition.fragments reverse
  | .other => .error .unusable

/-- Matches for the services that a rule names. -/
def namedServiceFragments (rule : Rule) : Except Failure (Option (List Fragment)) :=
  match rule.services with
  | none => .ok none
  | some selectors => do
    return some (← selectors.mapM (selectorFragments rule.reverse)).flatten

/-- The definitions of the services that a rule names. -/
def definitions (rule : Rule) : Except Failure (List ServiceDefinition) := do
  return (← (rule.services.getD []).mapM fun selector => match selector with
    | .service service => .ok service.definitions
    | _ => .error .unusable).flatten

/-- The protocols of a service whose ports are changed. -/
def redirectedProtocols (location : String) (service : Service) : Except Failure (List String) :=
  (service.definitions.filter fun definition => definition.family != some "inet6").mapM
    fun definition =>
      if definition.protocol = "tcp" || definition.protocol = "udp" then .ok definition.protocol
      else .error (.fault location (.dnatPortRefused definition.protocol))

/-- The protocols of services whose ports are changed, one service after the other. -/
def dnatProtocols (location : String) : List ServiceSelector → Except Failure (List String)
  | [] => .ok []
  | .service service :: rest => do
    let protocols ← redirectedProtocols location service
    return protocols ++ (← dnatProtocols location rest)
  | _ :: _ => .error .unusable

/-- Matches for the new port with each of the protocols. -/
def dnatPortFragments (rule : Rule) (port : Value) : List String → Run (List Fragment) :=
  Run.gather fun protocol => do
    let service ← Service.declare (rule.location ++ " dnat")
      (.raw (.map [(.text "proto", .text protocol), (.text "port", port)]))
    let fragments ← Run.recording (service.fragments rule.reverse)
    return Fragment.combine [some fragments, some [.ofFamily "inet"]]

/-- Matches for services where the destination may be changed: IPv4 traffic is matched after
the change. -/
def dnatServiceFragments (rule : Rule) : Run (Option (List Fragment)) := do
  let given ← Run.recording rule.namedServiceFragments
  if !rule.attributes.flag "dnat" then return given
  let port ← Run.recording (rule.dnatField "port")
  if port.isNull then return given
  let others := Fragment.combine [given, some [.ofFamily "inet6"]]
  let protocols ← Run.recording (dnatProtocols rule.location (rule.services.getD []))
  return some (others ++ (← rule.dnatPortFragments port protocols.eraseDups))

/-- The match for traffic that belongs to a connection with the helper. -/
def helperFragment (definition : ServiceDefinition) (helper : Value) : Fragment :=
  { Fragment.matching
      ["-m conntrack --ctstate RELATED -m helper --helper " ++ helper.written] with
    family := definition.family }

/-- Matches for the connection tracking helpers of the definitions, one for each helper. -/
def helperFragments (definitions : List ServiceDefinition) : Except Failure (List Fragment) := do
  let helpers ← definitions.foldlM (fun (found : List (Scalar × Fragment)) definition =>
    match definition.helper? with
    | none => Except.ok found
    | some (.scalar key) =>
      .ok (Entries.insert found key (helperFragment definition (.scalar key)))
    | some _ => .error .unusable) []
  return helpers.map (·.2)

/-- Matches for the services of a rule. -/
def serviceFragments (rule : Rule) : Run (Option (List Fragment)) := do
  match rule.kind with
  | .policy => return none
  | .related => Run.recording (do return some (← helperFragments (← rule.definitions)))
  | .limitUpdate =>
    let given ← rule.dnatServiceFragments
    if (rule.attributes.get "measure").isText "conn" then
      return some (Fragment.combine [given, some [.matching ["-m conntrack --ctstate NEW"]]])
    else return given
  | .redirecting | .logging | .filter => rule.dnatServiceFragments
  | _ => Run.recording rule.namedServiceFragments

end FirewallPolicy.Rule
