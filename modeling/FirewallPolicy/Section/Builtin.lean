import FirewallPolicy.Rule.Expansion

/-!
## The built-in sections

The modules of a complete policy: the named objects that rules refer to, the filter rules and
default policies with the rules for established connections and control messages around them,
changes of addresses, and exemptions from connection tracking.
-/

namespace FirewallPolicy

namespace Builtin

/-! ### Rules of the virtual sections -/

/-- The chains of the filter table. -/
def filterChains : List Fragment :=
  [.ofChain "FORWARD", .ofChain "INPUT", .ofChain "OUTPUT"]

/-- Rules that accept established connections and loopback traffic. -/
def establishedRules (family : String) : List Fragment :=
  let established := Fragment.combine [some filterChains,
    some [.matching ["-m conntrack --ctstate ESTABLISHED"]]]
  let loopback : List Fragment := [
    { Fragment.matching ["-i lo"] with chain := some "INPUT" },
    { Fragment.matching ["-o lo"] with chain := some "OUTPUT" }]
  Fragment.combine [some (established ++ loopback),
    some [{ family := some family, table := some "filter", target := some "ACCEPT" }]]

/-- The services that the entries of the filter section name; only rules name services. -/
def servicesNamed : List Entry → Except Failure (List ServiceSelector)
  | [] => .ok []
  | .object (.rule rule) :: rest => do return rule.services.getD [] ++ (← servicesNamed rest)
  | _ :: _ => .error .unusable

/-- The services among the selected ones, each one at its first place. -/
def distinctServices (selectors : List ServiceSelector) : Except Failure (List Service) := do
  let services ← selectors.mapM fun selector => match selector with
    | .service service => .ok service
    | _ => .error .unusable
  return services.foldl (fun found service =>
    if found.any fun other => other.serial == service.serial then found
    else found ++ [service]) []

/-- Assignments of the helper of a definition, if it names one, for one family. -/
def helperRules (family : String) (definition : ServiceDefinition) :
    Except Failure (List Fragment) :=
  match definition.helper? with
  | none => .ok []
  | some helper => do
    let matched := Fragment.combine [some (← definition.fragments false),
      some [.ofFamily family]]
    return matched.map fun fragment =>
      { fragment with target := some ("CT --helper " ++ helper.written) }

/-- Assignments of connection tracking helpers for one family. -/
def assignmentRules (family : String) (services : List Service) :
    Except Failure (List Fragment) := do
  let helpers ← services.mapM fun service => service.definitions.mapM (helperRules family)
  return Fragment.combine [some [.ofTable "raw"],
    some [.ofChain "PREROUTING", .ofChain "OUTPUT"], some helpers.flatten.flatten]

/-- The rules before the filter rules, for one family. -/
def statefulFamily (filters : List Entry) (family : String) : Except Failure (List Fragment) := do
  let services ← distinctServices (← servicesNamed filters)
  return establishedRules family ++ (← assignmentRules family services)

/-- The rules before the filter rules. -/
def statefulRules (families : List String) (filters : List Entry) :
    Except Failure (List Fragment) := do
  return (← families.mapM (statefulFamily filters)).flatten

/-- Control message types that are always routed, as matches of one family. -/
def routedTypes (matched : List Fragment) (option : String) (types : List Nat) : List Fragment :=
  Fragment.combine [some matched,
    some [{ chain := some "icmp-routing", target := some "ACCEPT" }],
    some (types.map fun type => .matching [option ++ " " ++ toString type])]

/-- The rules for control messages in both families. -/
def controlRules : List Fragment :=
  let inet : List Fragment :=
    [{ Fragment.matching ["-p icmp"] with family := some "inet", table := some "filter" }]
  let inet6 : List Fragment :=
    [{ Fragment.matching ["-p icmpv6"] with family := some "inet6", table := some "filter" }]
  Fragment.combine [some inet6, some [.ofChain "INPUT", .ofChain "OUTPUT"],
      some [.ofTarget "ACCEPT"]] ++
    Fragment.combine [some inet6,
      some [{ chain := some "FORWARD", target := some "icmp-routing" }]] ++
    Fragment.combine [some inet, some filterChains, some [.ofTarget "icmp-routing"]] ++
    routedTypes inet "--icmp-type" [3, 11, 12] ++
    routedTypes inet6 "--icmpv6-type" [1, 2, 3, 4]

/-- The rules for control messages in the enabled families. -/
def icmpRules (families : List String) : List Fragment :=
  controlRules.filter fun rule => rule.family.any families.contains

/-! ### Modules -/

/-- The objects that rules refer to. -/
def model : Module where
  name := "model"
  core := true
  sections := [
    { name := "zone", kind := some .zone, keyed := true },
    { name := "service", kind := some .service, keyed := true },
    { name := "log", kind := some .log, keyed := true },
    { name := "ipset", keyed := true },
    { name := "custom", keyed := true }]

/-- Filter rules and default policies. -/
def filter : Module where
  name := "filter"
  sections := [
    { name := "filter", kind := some (.rule .filter), before := ["dnat", "no-track"] },
    { name := "policy", kind := some (.rule .policy), after := ["%filter-after"] },
    { name := "%filter-before", rules := .stateful, before := ["filter"] },
    { name := "%filter-after", rules := .icmp, after := ["filter"] }]
  auxiliary := Fragment.combine [some [.ofChain "tarpit"],
    some [{ Fragment.matching ["-p tcp"] with target := some "TARPIT" }, .ofTarget "DROP"]]

/-- Changes of addresses and ports. -/
def nat : Module where
  name := "nat"
  sections := [
    { name := "dnat", kind := some (.rule .dnat) },
    { name := "snat", kind := some (.rule .snat) }]

/-- Exemptions from connection tracking. -/
def noTrack : Module where
  name := "notrack"
  sections := [{ name := "no-track", kind := some (.rule .noTrack) }]

/-- All built-in modules. -/
def modules : List Module := [model, filter, nat, noTrack]

end Builtin

/-- The rules of a virtual section. -/
def RuleSource.rules : RuleSource → Run (List Fragment)
  | .fixed rules => return rules
  | .stateful => do
    let context ← get
    Run.recording (Builtin.statefulRules context.settings.families
      (context.entriesOf "filter").values)
  | .icmp => return Builtin.icmpRules (← get).settings.families

end FirewallPolicy
