import FirewallPolicy.Model.Zone

/-!
## Placement of rules

The table of a rule, the chains that stand for the filter hooks there, and the target that a
rule jumps to.
-/

namespace FirewallPolicy

/-- The filter hooks. -/
inductive Hook where
  | input
  | output
  | forward
deriving DecidableEq, Repr

namespace RuleKind

/-- The table that rules of the kind belong to. -/
def table : RuleKind → String
  | dnat | snat => "nat"
  | noTrack => "raw"
  | _ => "filter"

/-- The chain that stands for a filter hook in the table of the kind, if there is one. -/
def chainOf? (kind : RuleKind) (hook : Hook) : Option String :=
  match kind, hook with
  | dnat, .output | noTrack, .output => some "OUTPUT"
  | dnat, _ | noTrack, _ => some "PREROUTING"
  | snat, .input => none
  | snat, _ => some "POSTROUTING"
  | _, .input => some "INPUT"
  | _, .output => some "OUTPUT"
  | _, .forward => some "FORWARD"

end RuleKind

/-- Can a chain see the interface on that side of the traffic? -/
def chainSees (chain : String) (direction : Direction) : Bool :=
  match chain, direction with
  | "INPUT", .outward => false
  | "OUTPUT", .inward => false
  | "PREROUTING", .outward => false
  | "POSTROUTING", .inward => false
  | _, _ => true

/-- The start of the targets that are chains of the policy's own. -/
def customMark : String := "custom:"

/-- The name of the policy's own chain that a target stands for. -/
def customName? (target : String) : Option String :=
  if customMark.toList.isPrefixOf target.toList then
    some (String.ofList (target.toList.drop customMark.length))
  else none

/-- The kinds of limits that a filter rule can have. -/
def limitNames : List String := ["conn-limit", "flow-limit"]

namespace Rule

/-- Does the rule match the reply direction? -/
def reverse (rule : Rule) : Bool :=
  rule.attributes.flag "reverse"

/-- The side of traffic that the rule matches where it names the given one. -/
def side (rule : Rule) (direction : Direction) : Direction :=
  if rule.reverse then direction.opposite else direction

/-- The families that the rule is generated for; addresses are changed in IPv4 only. -/
def families (rule : Rule) (settings : Settings) : List String :=
  if rule.kind.isNat then settings.families.filter (· == "inet") else settings.families

/-! ### Actions -/

/-- The action of a rule. -/
def action (rule : Rule) : String :=
  (rule.attributes.get "action").written

/-- Is the action a chain of the policy's own? -/
def isCustom (rule : Rule) : Bool :=
  (customName? rule.action).isSome

/-- Is logging the default for the action? -/
def logsByDefault (kind : RuleKind) (action : String) : Bool :=
  kind.isFilter && (action = "drop" || action = "reject" || action = "tarpit")

/-- The target of a filter rule. -/
def filterTarget (rule : Rule) : Except Failure (Option String) :=
  let action := rule.action
  if action = "pass" then .ok none
  else if rule.isCustom then .ok (some action)
  else if action = "accept" then .ok (some "ACCEPT")
  else if action = "drop" then .ok (some "DROP")
  else if action = "reject" then .ok (some "REJECT")
  else if action = "tarpit" then .ok (some "tarpit")
  else .error (.fault rule.location (.invalidAction action))

/-- The new address and port of a rule that changes addresses. -/
def newAddress? (rule : Rule) : Option String :=
  if rule.attributes.has "to-addr" then
    let address := (rule.attributes.get "to-addr").written
    if rule.attributes.has "to-port" then
      some (address ++ ":" ++ (rule.attributes.get "to-port").written)
    else some address
  else none

/-- The target of a rule that changes destinations. -/
def destinationTarget (rule : Rule) : Except Failure (Option String) :=
  match rule.newAddress? with
  | some address => .ok (some ("DNAT --to-destination " ++ address))
  | none =>
    if rule.attributes.has "to-port" then
      .ok (some ("REDIRECT --to-ports " ++ (rule.attributes.get "to-port").written))
    else .error (.fault rule.location .natTargetMissing)

/-- The target of a rule that changes sources. -/
def sourceTarget (rule : Rule) : String :=
  match rule.newAddress? with
  | some address => "SNAT --to-source " ++ address
  | none =>
    if rule.attributes.has "to-port" then
      "MASQUERADE --to-ports " ++ (rule.attributes.get "to-port").written
    else "MASQUERADE"

/-- The target of a rule, if it has one. -/
def target (rule : Rule) : Except Failure (Option String) :=
  match rule.kind with
  | .plain | .redirecting | .limitUpdate => .ok none
  | .logging | .related => .ok (some "ACCEPT")
  | .filter | .policy => rule.filterTarget
  | .dnat => rule.destinationTarget
  | .snat => .ok (some rule.sourceTarget)
  | .noTrack => .ok (some "CT --notrack")

/-! ### Limits -/

/-- The limit of a rule, of which there may be one at most. -/
def limitName? (rule : Rule) : Except Failure (Option String) :=
  if rule.kind.isFilter then
    match limitNames.filter rule.attributes.has with
    | [] => .ok none
    | [name] => .ok (some name)
    | _ => .error (.fault rule.location .severalLimits)
  else .ok none

/-- Where the rule goes in its chains: flow limits of tracked traffic come first. -/
def position (rule : Rule) : Except Failure String := do
  if rule.kind.isFilter && !rule.attributes.flag "no-track" then
    if (← rule.limitName?) = some "flow-limit" then return "prepend"
  return "append"

end Rule

end FirewallPolicy
