import FirewallPolicy.Model.Limit
import FirewallPolicy.Model.Log
import FirewallPolicy.Model.Service
import FirewallPolicy.Model.Zone
import FirewallPolicy.Rule.Placement

/-!
## Declaration of rules

How a mapping becomes a rule: its zones and services are looked up, and its attributes are
brought into normal form.
-/

namespace FirewallPolicy

/-- The name of the firewall itself among the zones. -/
def firewallZone : String := "_fw"

namespace Rule

/-! ### Zones and services -/

/-- The entry of a section that a value names, if there is one. -/
def findEntry (section_ : SectionEntries) (name : Value) : Except Failure (Option Entry) :=
  match section_ with
  | .list (_ :: _) => .error .unusable
  | .list [] => if name.isHashable then .ok none else .error .unusable
  | .map entries =>
    match name with
    | .scalar key => .ok (Entries.get? entries key)
    | _ => if name.isHashable then .ok none else .error .unusable

/-- What a value names as a zone. -/
def selectZone (location : String) (zones : SectionEntries) (name : Value) :
    Except Failure ZoneSelector :=
  if name.isText firewallZone then .ok .firewall
  else do
    match ← findEntry zones name with
    | none => throw (.fault location (.invalidZone name))
    | some (.raw .null) => throw (.fault location (.invalidZone name))
    | some (.raw value) => return if value.isText firewallZone then .firewall else .other
    | some (.object (.zone zone)) =>
      match name with
      | .scalar key => return .named key zone
      | _ => return .other
    | some _ => return .other

/-- The zones that an attribute names, if it is set. -/
def selectZones (location : String) (zones : SectionEntries) (names : Value) :
    Except Failure (Option (List ZoneSelector)) := do
  if names.isNull then return none
  else return some (← names.toItems.mapM (selectZone location zones))

/-- What an entry is as a service. -/
def serviceSelector : Entry → ServiceSelector
  | .object (.service service) => .service service
  | .object (.definition definition) => .definition definition
  | _ => .other

/-- What a value names as a service; one that is not a text defines a service in place. -/
def selectService (location : String) (item : Value) : Run ServiceSelector := do
  match item with
  | .text name =>
    match ← Run.lift (findEntry ((← get).entriesOf "service") item) with
    | none => Run.report location (.invalidService name)
    | some (.raw .null) => Run.report location (.invalidService name)
    | some entry => return serviceSelector entry
  | _ => return .service (← Service.declare (location ++ " service") (.raw item))

/-- Select services one after the other. -/
def selectEach (location : String) : List Value → Run (List ServiceSelector)
  | [] => return []
  | item :: rest => do
    let selected ← selectService location item
    return selected :: (← selectEach location rest)

/-- The services that an attribute names, if it is set. -/
def selectServices (location : String) (items : Value) :
    Run (Option (List ServiceSelector)) := do
  if items.isNull then return none
  else return some (← selectEach location items.toItems)

/-! ### Attributes -/

/-- Does a collection hold the name, as an item or as a key? -/
def holdsName (value : Value) (name : String) : Except Failure Bool :=
  match value.opened with
  | .list items => .ok (items.any (·.isText name))
  | .map entries => .ok (Entries.get? entries (.text name)).isSome
  | .set members => .ok (members.contains (.text name))
  | .pair first second => .ok (first.isText name || second.isText name)
  | _ => .error .unusable

/-- An address set is given by its name or by a mapping that holds the name. -/
def settleSet (location : String) (attributes : Record) : Except Failure Record := do
  match attributes.get "ipset" with
  | .null => return attributes
  | .text name => return attributes.set "ipset" (.map [(.text "name", .text name)])
  | value =>
    if ← holdsName value "name" then return attributes
    else throw (.fault location .setNameMissing)

/-- A destination is given by its address or by a mapping that holds the address. -/
def settleDnat (location : String) (attributes : Record) : Except Failure Record := do
  match attributes.get "dnat" with
  | .null => return attributes
  | .text address => return attributes.set "dnat" (.map [(.text "addr", .text address)])
  | value =>
    if ← holdsName value "addr" then return attributes
    else throw (.fault location .dnatAddressMissing)

/-- What both come to: a collection in a field has to hold the key, and a text becomes a collection
of its own. -/
def settleCollection (field key : String) (missing : Failure) (attributes : Record) :
    Except Failure Record := do
  match attributes.get field with
  | .null => return attributes
  | .text name => return attributes.set field (.map [(.text key, .text name)])
  | value =>
    if ← holdsName value key then return attributes
    else throw missing

theorem settleSet_eq (location : String) (attributes : Record) :
    settleSet location attributes =
      settleCollection "ipset" "name" (.fault location .setNameMissing) attributes :=
  rfl

theorem settleDnat_eq (location : String) (attributes : Record) :
    settleDnat location attributes =
      settleCollection "dnat" "addr" (.fault location .dnatAddressMissing) attributes :=
  rfl

/-- The replacements of deprecated actions. -/
def replacedActions : List (String × String) :=
  [("logdrop", "drop"), ("logreject", "reject")]

/-- Replace a deprecated action, with a warning. -/
def replaceAction (location : String) (attributes : Record) : Run Record := do
  let action := attributes.get "action"
  if !action.isHashable then Run.unusable
  match action with
  | .text name =>
    match replacedActions.lookup name with
    | some replacement =>
      Run.warn location (.deprecatedAction name)
      return attributes.set "action" (.text replacement)
    | none => return attributes
  | _ => return attributes

/-- Settle the action and the log class of a rule. -/
def settleLog (kind : RuleKind) (location : String) (attributes : Record) : Run Record := do
  let attributes := attributes.setDefault "action" (.text "accept")
  let action := (attributes.get "action").written
  let attributes := attributes.set "action" (.text action)
  let custom := (customName? action).isSome
  let directive := attributes.get "log"
  let attributes ←
    match LogClass.ofValue? directive with
    | some _ => pure attributes
    | none =>
      let log ← LogClass.select location directive (.bool (!custom && logsByDefault kind action))
      pure (attributes.set "log" (LogClass.optionValue log))
  if custom && attributes.flag "log" then Run.report location (.logWithCustomAction action)
  return attributes

/-- Settle the attributes of a rule that records events in a limit. -/
def settleUpdate (location : String) (attributes : Record) : Except Failure Record := do
  if !attributes.has "limit" then throw (.fault location .limitNameMissing)
  let attributes := attributes.setDefault "measure" (.text "conn")
  let attributes := attributes.setDefault "addr" (.text "src")
  let measure := attributes.get "measure"
  if !(measure.isText "conn" || measure.isText "flow") then
    throw (.fault location (.invalidLimitMeasure measure))
  return attributes

/-- The mapping of a limit; a single value is its count. -/
def limitMapping (limit : Value) : Entries :=
  limit.entries?.getD [(.text "count", limit)]

/-- Settle the limit of a filter rule: by default, traffic above it is logged. -/
def settleLimit (rule : Rule) : Run Rule := do
  match ← Run.recording rule.limitName? with
  | none => return rule
  | some name =>
    if name = "conn-limit" && rule.attributes.flag "no-track" then
      Run.report rule.location .connectionLimitUntracked
    let mapping := limitMapping (rule.attributes.get name)
    let log ← LogClass.select rule.location
      ((Entries.get? mapping (.text "log")).getD .null) (.bool true)
    let mapping := Entries.insert mapping (.text "log") (LogClass.optionValue log)
    return { rule with attributes := rule.attributes.set name (.map mapping) }

/-! ### Declaration -/

/-- The attributes without a deprecated action, where rules of the kind have such actions. -/
def settleAction (kind : RuleKind) (location : String) (attributes : Record) : Run Record :=
  if kind.isFilter then replaceAction location attributes else return attributes

/-- The attributes with the new destination settled, where rules of the kind have one. -/
def settleDestination (kind : RuleKind) (location : String) (attributes : Record) : Run Record :=
  if kind.redirects then Run.recording (settleDnat location attributes) else return attributes

/-- The attributes with action and log class settled, where rules of the kind have them. -/
def settleLogging (kind : RuleKind) (location : String) (attributes : Record) : Run Record :=
  if kind.logs then settleLog kind location attributes else return attributes

/-- The attributes with the limit to be updated settled, where rules of the kind name one. -/
def settleMeasure (kind : RuleKind) (location : String) (attributes : Record) : Run Record :=
  if kind = .limitUpdate then Run.recording (settleUpdate location attributes)
  else return attributes

/-- The rule with its limit and target checked, where rules of the kind have limits. -/
def settleFilter (rule : Rule) : Run Rule :=
  if rule.kind.isFilter then do
    let rule ← settleLimit rule
    let _ ← Run.recording rule.target
    return rule
  else return rule

/-- The rule of the kind with the given attributes. -/
def settle (kind : RuleKind) (location : String) (attributes : Record) : Run Rule := do
  let attributes ← settleAction kind location attributes
  let zones := (← get).entriesOf "zone"
  let zonesIn ← Run.recording (selectZones location zones (attributes.get "in"))
  let zonesOut ← Run.recording (selectZones location zones (attributes.get "out"))
  let services ← selectServices location (attributes.get "service")
  let attributes ← Run.recording (settleSet location attributes)
  let attributes ← settleDestination kind location attributes
  let attributes ← settleLogging kind location attributes
  let attributes ← settleMeasure kind location attributes
  let serial ← Run.freshSerial
  settleFilter { kind, serial, location, attributes, zonesIn, zonesOut, services }

/-- The rule of the kind that is declared by `source`. -/
def declare (kind : RuleKind) (location : String) (source : Entry) : Run Rule := do
  settle kind location (← attributesOf (.rule kind) location source)

end Rule

/-! ## Objects of any kind -/

namespace PolicyObject

/-- The object of the kind that is declared by `source`; log classes are known by their key. -/
def declare (kind : ObjectKind) (location : String) (key : Option Scalar) (source : Entry) :
    Run PolicyObject := do
  match kind with
  | .zone => return .zone (← Zone.declare location source)
  | .service => return .service (← Service.declare location source)
  | .definition => return .definition (← ServiceDefinition.declare location source)
  | .log => return .log (← LogClass.declare location key source)
  | .limit => return .limit (← Limit.declare .limit location source)
  | .filterLimit => return .filterLimit (← Limit.declare .filterLimit location source)
  | .rule kind => return .rule (← Rule.declare kind location source)

end PolicyObject

end FirewallPolicy
