import FirewallPolicy.Context
import FirewallPolicy.Value.Ordering

/-!
## The policy's own chains

A policy may define chains of its own by lists of rules.  Such a rule may match, jump, and
restrict itself to a family or a table.
-/

namespace FirewallPolicy

/-- What a rule states as its target. -/
inductive Jump where
  /-- A target, or none. -/
  | named
  /-- Something that names no target and does not count. -/
  | blank (blank : Blank)
  /-- Something that is no name but is looked up like one. -/
  | misnamed
  /-- Something that cannot even be looked up. -/
  | unnamed
deriving DecidableEq, Repr, Inhabited

/-- A rule that goes into a chain: its fragment, what it states as its target, and whether its
match can be written. -/
structure ChainRule where
  fragment : Fragment
  jump : Jump := .named
  isWritable : Bool := true
deriving DecidableEq, Repr, Inhabited

namespace ChainRule

/-- The rule as it stands in a chain. -/
def line (rule : ChainRule) : RuleLine :=
  { RuleLine.ofFragment rule.fragment with
    blank := match rule.jump with
      | .blank blank => some blank
      | _ => none }

/-- Can the rule stand in a chain? -/
def isUsable (rule : ChainRule) : Bool :=
  rule.isWritable && rule.jump != .misnamed && rule.jump != .unnamed

end ChainRule

namespace CustomChain

/-- The attributes of a custom rule. -/
def attributes : List String := ["family", "table", "match", "target"]

/-- The texts among the values that count, if there are no others. -/
def tokensOf? (items : List Value) : Option (List String) :=
  (items.filter (·.isTruthy)).mapM fun item => match item with
    | .text s => some s
    | _ => none

/-- The match tokens of a rule; none when they are not texts. -/
def readTokens (matched : Value) : Except Failure (Option (List String)) :=
  match matched.opened with
  | .null => .ok (some [])
  | .text s => .ok (some (if s.isEmpty then [] else [s]))
  | .list items => .ok (tokensOf? items)
  | .map entries => .ok (tokensOf? (entries.map fun entry => .scalar entry.1))
  | .set members => .ok (tokensOf? (members.map .scalar))
  | .scalar (.bytes bytes) => .ok (tokensOf? (bytes.map fun byte => .int byte.toNat))
  | _ => .error .unusable

/-- What a value that does not count is, in the place of a target. -/
def blankOf : Value → Blank
  | .scalar s => .scalar s
  | .map _ => .map
  | .set _ => .set
  | _ => .list

/-- What a rule states as its target, and the name of the target if there is one. -/
def readTarget : Value → Jump × Option String
  | .null => (.named, none)
  | .text s => (.named, some s)
  | value =>
    if !value.isTruthy then (.blank (blankOf value), none)
    else (if value.isHashable then .misnamed else .unnamed, none)

/-- Is the rule meant for that family or table?  One that is stated as null is any. -/
def fits (stated : Value) (actual : String) : Bool :=
  stated.isNull || stated.isText actual

/-- A custom rule at a place, if it is meant for it. -/
def readRule (location : String) (place : Place) (rule : Value) :
    Except Failure (Option ChainRule) := do
  match rule.entries? with
  | some entries =>
    let unknown := entries.filter fun entry => match entry.1 with
      | .text name => !attributes.contains name
      | _ => true
    match Scalar.sortByKey? unknown with
    | none => throw .unusable
    | some (entry :: _) => throw (.fault location (.invalidAttribute entry.1.written))
    | some [] =>
      let field (name : String) := (Entries.get? entries (.text name)).getD .null
      let tokens ← readTokens (field "match")
      if !(fits (field "family") place.family && fits (field "table") place.table) then
        return none
      let (jump, target) := readTarget (field "target")
      let fragment : Fragment :=
        { family := some place.family, table := some place.table, chain := some place.chain,
          tokens := tokens.getD [], target }
      return some { fragment, jump, isWritable := tokens.isSome }
  | none => throw (.fault location .customRuleNotMapping)

/-- The rules that an entry of the section of custom chains states. -/
def rulesOf : Entry → List Value
  | .raw value =>
    match value.opened with
    | .list items => items
    | _ => [value]
  | .object _ => [.null]

/-- The chain of that name, if it is defined. -/
def find? (chains : SectionEntries) (name : String) : Except Failure (Option Entry) :=
  match chains with
  | .list [] => .ok none
  | .list _ => .error .unusable
  | .map entries =>
    match Entries.get? entries (.text name) with
    | some (.raw .null) => .ok none
    | found => .ok found

/-- The body of the chain of that name at a place; `owner` is where the jump to it comes from. -/
def body (chains : SectionEntries) (owner name : String) (place : Place) :
    Except Failure (List ChainRule) := do
  match ← find? chains name with
  | none => throw (.fault owner (.invalidCustomChain name))
  | some entry =>
    return (← (rulesOf entry).mapM (readRule ("custom " ++ name) place)).filterMap id

/-- The targets that a rule of a custom chain may have. -/
def targetsOf (rule : Value) : List String :=
  match (rule.entries?.bind (Entries.get? · (.text "target"))).getD .null with
  | .text s => [s]
  | _ => []

/-- The targets of all custom chains. -/
def targets (chains : SectionEntries) : List String :=
  chains.values.flatMap fun entry => (rulesOf entry).flatMap targetsOf

end CustomChain

end FirewallPolicy
