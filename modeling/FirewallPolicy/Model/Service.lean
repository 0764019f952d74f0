import FirewallPolicy.Model.Attributes
import FirewallPolicy.Text.LowerCase

/-!
## Services

A service is one or more protocol definitions.  Ports are matched on the destination side and, in
the reply direction, on the source side; many ports are spread over several matches.
-/

namespace FirewallPolicy

/-- How a control message protocol is matched. -/
structure ControlProtocol where
  family : String
  name : String
  typeOption : String

/-- The control message protocol of that name. -/
def controlProtocol? : String → Option ControlProtocol
  | "icmp" => some ⟨"inet", "icmp", "--icmp-type"⟩
  | "icmpv6" => some ⟨"inet6", "icmpv6", "--icmpv6-type"⟩
  | "ipv6-icmp" => some ⟨"inet6", "icmpv6", "--icmpv6-type"⟩
  | _ => none

/-- Control messages are those of one family or of the other. -/
theorem eq_or_eq_of_controlProtocol?
    {name : String} {control : ControlProtocol} (isControl : controlProtocol? name = some control) :
    control = ⟨"inet", "icmp", "--icmp-type"⟩ ∨ control = ⟨"inet6", "icmpv6", "--icmpv6-type"⟩ := by
  unfold controlProtocol? at isControl
  split at isControl
  · exact Or.inl (Option.some.inj isControl).symm
  · exact Or.inr (Option.some.inj isControl).symm
  · exact Or.inr (Option.some.inj isControl).symm
  · cases isControl

/-- The protocols that have ports. -/
def portProtocols : List String :=
  ["tcp", "udp", "sctp", "udplite", "dccp"]

/-! ### Ports -/

namespace Ports

/-- The text of a port or port range, whose ends are joined by a colon. -/
def text (port : Value) : String :=
  String.ofList (port.written.toList.map fun c => if c = '-' then ':' else c)

/-- The slots that one match has for ports. -/
def slots : Nat := 15

/-- The slots that a port takes: a range takes two. -/
def weight (port : String) : Nat :=
  if port.toList.contains ':' then 2 else 1

/-- Spread ports over matches, the first of which holds `current` in `used` slots. -/
def chunksFrom (current : List String) (used : Nat) : List String → List (List String)
  | [] => [current]
  | port :: rest =>
    if slots < used + weight port then current :: chunksFrom [port] (weight port) rest
    else chunksFrom (current ++ [port]) (used + weight port) rest

/-- Ports spread over as many matches as they need, in order. -/
def chunks (ports : List String) : List (List String) :=
  chunksFrom [] 0 ports

end Ports

/-! ### Definitions -/

namespace ServiceDefinition

/-- Bring the attributes of a definition into normal form. -/
def settle (location : String) (attributes : Record) : Except Failure ServiceDefinition := do
  if !attributes.has "proto" then throw (.fault location .protocolMissing)
  let protocol := Text.lower (attributes.get "proto").written
  let family := attributes.get "family"
  if !(family.isNull || family.isText "inet" || family.isText "inet6") then
    throw (.fault location (.invalidServiceFamily family))
  return { location, protocol, attributes := attributes.set "proto" (.text protocol) }

/-- The definition that is declared by `source`. -/
def declare (location : String) (source : Entry) : Run ServiceDefinition := do
  Run.recording (settle location (← attributesOf .definition location source))

/-- The address family that a definition is restricted to. -/
def family (definition : ServiceDefinition) : Option String :=
  match controlProtocol? definition.protocol with
  | some control => some control.family
  | none =>
    match definition.attributes.get "family" with
    | .text family => some family
    | _ => none

/-- The connection tracking helper of a definition, if it names one. -/
def helper? (definition : ServiceDefinition) : Option Value :=
  let helper := definition.attributes.get "ct-helper"
  if helper.isTruthy then some helper else none

/-- The match of a control message protocol. -/
def controlFragment (definition : ServiceDefinition) (control : ControlProtocol) : Fragment :=
  let type :=
    if definition.attributes.has "type" then
      [control.typeOption ++ " " ++ (definition.attributes.get "type").written]
    else []
  { Fragment.matching (("-p " ++ control.name) :: type) with family := some control.family }

/-- The option that matches ports: at the source in the reply direction. -/
def portSide (reverse : Bool) : String :=
  if reverse then "--s" else "--d"

/-- The matches for ports, a single one in a short form. -/
def portTokens (reverse : Bool) (ports : List String) : List String :=
  match ports with
  | [port] => [portSide reverse ++ "port " ++ port]
  | _ => (Ports.chunks ports).map fun chunk =>
    "-m multiport " ++ portSide reverse ++ "ports " ++ ",".intercalate chunk

/-- The matches of a definition. -/
def fragments (definition : ServiceDefinition) (reverse : Bool) :
    Except Failure (List Fragment) :=
  let protocol := "-p " ++ definition.protocol
  let within (tokens : List String) : Fragment :=
    { Fragment.matching tokens with family := definition.family }
  match controlProtocol? definition.protocol with
  | some control => .ok [definition.controlFragment control]
  | none =>
    if !definition.attributes.has "port" then .ok [within [protocol]]
    else if !portProtocols.contains definition.protocol then
      .error (.fault definition.location (.portNotAllowed definition.protocol))
    else
      let ports := (definition.attributes.get "port").toItems.map Ports.text
      .ok ((portTokens reverse ports).map fun token => within [protocol, token])

end ServiceDefinition

/-! ### Services -/

namespace Service

/-- The items that define a service: those of a list, or a single one. -/
def items : Entry → List Entry
  | .raw value => value.toItems.map .raw
  | .object object => [.object object]

/-- Declare definitions one after the other. -/
def declareItems (location : String) : List Entry → Run (List ServiceDefinition)
  | [] => return []
  | item :: rest => do
    let definition ← ServiceDefinition.declare location item
    return definition :: (← declareItems location rest)

/-- The service that is declared by `source`; a service declares itself. -/
def declare (location : String) (source : Entry) : Run Service := do
  match source with
  | .object (.service service) => return service
  | _ =>
    let serial ← Run.freshSerial
    let definitions ← declareItems location (items source)
    if definitions.isEmpty then Run.report location .emptyService
    return { serial, location, definitions }

/-- The matches of all definitions, in order. -/
def fragments (service : Service) (reverse : Bool) : Except Failure (List Fragment) := do
  return (← service.definitions.mapM fun definition => definition.fragments reverse).flatten

end Service

end FirewallPolicy
