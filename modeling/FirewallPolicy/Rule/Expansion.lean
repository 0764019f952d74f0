import FirewallPolicy.Rule.Actions
import FirewallPolicy.Rule.Declaration

/-!
## Expansion of rules

A rule becomes the product of its dimensions with its actions attached, in every enabled family.
Filter rules bring further rules with them: rules of other sections and kinds that are derived
from the rule by taking over its matches.
-/

namespace FirewallPolicy.Rule

/-! ### The rule itself -/

/-- The fragments of a rule without the rules derived from it. -/
def ownFragments (rule : Rule) : Run (List Fragment) := do
  let zones ← rule.zoneFragments
  let sources ← rule.sourceFragments
  let destinations ← rule.destinationFragments
  let sets ← Run.recording rule.setFragments
  let services ← rule.serviceFragments
  let position ← Run.recording rule.position
  let matched := Fragment.combine [some zones, sources, destinations, sets, services,
    some [{ position := some position }]]
  let finished ← rule.finish matched
  let families := rule.families (← get).settings
  return Fragment.combine [some finished, some (families.map Fragment.ofFamily),
    some [.ofTable rule.kind.table]]

/-! ### Derived rules -/

/-- A rule to be derived: its label, its kind, the attributes that replace those taken over and
the names of those left out. -/
structure Derivation where
  label : String
  kind : ObjectKind
  changes : Record := []
  omitted : List String := []
  withDnat : Bool := true

/-- The attributes that derived rules take over. -/
def transferred : List String := ["in", "out", "src", "dest", "service", "ipset"]

/-- The attributes that a value offers for taking over. -/
def offered (source : Value) : Except Failure Record :=
  match source.opened with
  | .map entries => .ok (recordOf entries)
  | .log _ _ _ attributes => .ok attributes
  | _ => .error .unusable

/-- The attributes of a derived rule, taken over from `source` where they are not null. -/
def derivedAttributes (source : Record) (derivation : Derivation) : Record :=
  let names :=
    transferred ++ (if derivation.withDnat && derivation.kind.redirects then ["dnat"] else [])
  let taken := names.filterMap fun name =>
    if source.has name then some (name, source.get name) else none
  (Named.setAll taken derivation.changes).filter fun change =>
    !derivation.omitted.contains change.1 && !change.2.isNull

/-- The fragments of a rule that is derived with `expand` as the expansion of rules. -/
def derive (expand : Rule → Run (List Fragment)) (rule : Rule) (source : Record)
    (derivation : Derivation) : Run (List Fragment) := do
  let attributes := derivedAttributes source derivation
  let location := rule.location ++ " " ++ derivation.label
  let declared : Entry := .raw (.map (Record.toEntries attributes))
  match ← PolicyObject.declare derivation.kind location none declared with
  | .rule derived => expand derived
  | _ => Run.unusable

/-- The kind of the objects of a section, which has to be there. -/
def sectionKind (rule : Rule) (name : String) : Run ObjectKind := do
  match (← get).sectionKind? name with
  | some kind => return kind
  | none => Run.report rule.location (.sectionUnavailable name)

/-! ### The derived rules of a filter rule -/

section Extras

variable (expand : Rule → Run (List Fragment))

/-- The mapping that names the limit to be updated. -/
def updateMapping (update : Value) : Entries :=
  update.entries?.getD [(.text "name", update)]

/-- The rule that records events in the limit to be updated, if there is one. -/
def updateFragments (rule : Rule) : Run (List Fragment) := do
  let given := rule.attributes.get "update-limit"
  if given.isNull then return []
  let mapping := updateMapping given
  match Entries.get? mapping (.text "name") with
  | none => Run.report rule.location .updateLimitNameMissing
  | some name =>
    let options := ["measure", "addr"].filterMap fun option =>
      (Entries.get? mapping (.text option)).map fun value => (option, value)
    derive expand rule rule.attributes
      { label := "update-limit", kind := .rule .limitUpdate,
        changes := ("limit", name) :: options, withDnat := false }

/-- The rule that changes the destination, if it is changed. -/
def dnatFragments (rule : Rule) : Run (List Fragment) := do
  if !rule.attributes.flag "dnat" then return []
  if rule.action != "accept" then Run.report rule.location (.dnatWithAction rule.action)
  if rule.attributes.flag "no-track" then Run.report rule.location .dnatUntracked
  if rule.attributes.flag "ipset" then Run.report rule.location .dnatWithSet
  let address ← rule.dnatAddress
  let port ← Run.recording (rule.dnatField "port")
  derive expand rule rule.attributes
    { label := "dnat", kind := ← rule.sectionKind "dnat",
      changes := [("to-addr", .text address), ("to-port", port)], omitted := ["out"] }

/-- The rule that exempts traffic from connection tracking, where the rule asks for it. -/
def untrackedFragments (rule : Rule) : Run (List Fragment) := do
  if rule.action = "tarpit" || rule.attributes.flag "no-track" then
    derive expand rule rule.attributes
      { label := "no-track", kind := ← rule.sectionKind "no-track" }
  else return []

/-- The rule that accepts traffic within a flow limit, which returns from the limit chain. -/
def finalFragments (rule : Rule) : Run (List Fragment) := do
  if (← Run.recording rule.limitName?) = some "flow-limit" then
    derive expand rule rule.attributes
      { label := "final", kind := .rule .logging,
        changes := [("log", LogClass.optionValue rule.log?)] }
  else return []

/-- The rules for related traffic that the rule lists, numbered from `index`; a null entry
stands for the rule itself. -/
def listedRelated (rule : Rule) (index : Nat) : List Value → Run (List Fragment)
  | [] => return []
  | item :: rest => do
    let source ← if item.isNull then pure rule.attributes else Run.lift (offered item)
    let first ← derive expand rule source
      { label := "related " ++ toString index, kind := .rule .related,
        changes := [("service", rule.attributes.get "service")] }
    return first ++ (← listedRelated rule (index + 1) rest)

/-- The rules for related traffic: those that the rule lists, or else one for each direction. -/
def relatedFragments (rule : Rule) : Run (List Fragment) := do
  let listed := rule.attributes.get "related"
  if listed.isNull then
    let forward ← derive expand rule rule.attributes
      { label := "related", kind := .rule .related }
    let reply ← derive expand rule rule.attributes
      { label := "related-reply", kind := .rule .related, changes := [("reverse", .bool true)] }
    return forward ++ reply
  else listedRelated expand rule 0 listed.toItems

/-- The rules for the replies to traffic that is not tracked. -/
def replyFragments (rule : Rule) (related : List Fragment) : Run (List Fragment) := do
  if !rule.attributes.flag "no-track" then return []
  if !related.isEmpty then Run.report rule.location .trackingRequired
  let untracked ← derive expand rule rule.attributes
    { label := "no-track-reply", kind := ← rule.sectionKind "no-track",
      changes := [("reverse", .bool true)] }
  let reply ← derive expand rule rule.attributes
    { label := "reply", kind := ← rule.sectionKind "filter",
      changes := [("reverse", .bool true)] }
  return untracked ++ reply

/-- The rules that follow a filter rule. -/
def followingFragments (rule : Rule) : Run (List Fragment) := do
  let redirected ← dnatFragments expand rule
  let untracked ← untrackedFragments expand rule
  if rule.action = "accept" then
    let final ← finalFragments expand rule
    let related ← relatedFragments expand rule
    let reply ← replyFragments expand rule related
    return redirected ++ untracked ++ final ++ related ++ reply
  else return redirected ++ untracked

/-- All fragments of a rule, given the expansion of the rules derived from it. -/
def fragmentsWith (rule : Rule) : Run (List Fragment) := do
  if rule.kind.isFilter then
    let update ← updateFragments expand rule
    let own ← rule.ownFragments
    return update ++ own ++ (← followingFragments expand rule)
  else rule.ownFragments

end Extras

/-! ### Expansion -/

/-- Expansion with derived rules nested at most `depth` deep. -/
def expandTo : Nat → Rule → Run (List Fragment)
  | 0, _ => Run.unusable
  | depth + 1, rule => rule.fragmentsWith (expandTo depth)

/-- The fragments of a rule with all that it brings with it.  A filter rule for untracked traffic
derives a tracked one, which derives rules that derive none. -/
def fragments (rule : Rule) : Run (List Fragment) :=
  expandTo 4 rule

end FirewallPolicy.Rule
