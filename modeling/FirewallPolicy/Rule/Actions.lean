import FirewallPolicy.Rule.Matches

/-!
## What a rule does

Actions are attached to matches.  A single action is merged into them; several actions go to an
auxiliary chain that the matches jump to, which is shared by all rules with the same log class or
belongs to one rule.  The rate limits of filter rules are built from such chains.
-/

namespace FirewallPolicy.Rule

/-! ### Auxiliary chains -/

/-- The text of a log class's name in the name of a shared chain; the empty name adds nothing. -/
def sharedName (key : String) (name : Scalar) : String :=
  if name.isTruthy then key ++ "-" ++ name.written else key

/-- A fragment that jumps to the chain unless it has a target. -/
def jumpTo (chain : String) (fragment : Fragment) : Fragment :=
  if namesTarget fragment.target then fragment else { fragment with target := some chain }

/-- A fragment that stands in the chain unless it has one. -/
def placeIn (chain : String) (fragment : Fragment) : Fragment :=
  if fragment.chain.any (!·.isEmpty) then fragment else { fragment with chain := some chain }

/-- The body of a rule's own chain, restricted to the families of the jumps when all of them are
restricted. -/
def chainBody (jumps actions : List Fragment) : List Fragment :=
  let families := (jumps.map (·.family)).eraseDups
  if jumps.isEmpty || families.contains none then actions
  else
    Fragment.combine [some actions,
      some ((Text.sorted (families.filterMap id)).map Fragment.ofFamily)]

/-- Attach actions to matches.  With a named log class a shared chain is used, unless the chain
has to be the rule's own. -/
def attach (rule : Rule) (matched actions : List Fragment) (key : String)
    (log : Option LogClass) (own : Bool) : Run (List Fragment) := do
  if !own && actions.length = 1 then return Fragment.combine [some matched, some actions]
  let context ← get
  match if own then none else log.bind (LogClass.nameIn context) with
  | some name =>
    let chain := sharedName key name
    let _ ← Run.declareChain chain actions
    return Fragment.combine [some matched, some [.ofTarget chain]]
  | none =>
    let chain ← Run.chainNameOf rule.serial key
    let jumps := matched.map (jumpTo chain)
    return jumps ++ chainBody jumps (actions.map (placeIn chain))

/-! ### Logging -/

/-- The log class of a rule, if it logs. -/
def log? (rule : Rule) : Option LogClass :=
  LogClass.ofValue? (rule.attributes.get "log")

/-- The actions of logging and then jumping to a target. -/
def actionFragments (log : Option LogClass) (target : Option String) : List Fragment :=
  (log.map (·.fragments)).getD [] ++ (target.map Fragment.ofTarget).toList

/-- Attach logging and a target to matches. -/
def attachLog (rule : Rule) (matched : List Fragment) (log : Option LogClass) (action : String)
    (target : Option String) : Run (List Fragment) :=
  match actionFragments log target with
  | [] => return matched
  | actions => rule.attach matched actions ("log" ++ action) log false

/-- Attach the action of a rule to matches. -/
def attachAction (rule : Rule) (matched : List Fragment) : Run (List Fragment) := do
  rule.attachLog matched rule.log? rule.action (← Run.recording rule.target)

/-! ### Limits -/

/-- The log class of a limit: what logs traffic above it. -/
def limitLog? (mapping : Entries) : Option LogClass :=
  (Entries.get? mapping (.text "log")).bind LogClass.ofValue?

/-- The limit chain where recent events are listed: traffic above the limit is logged and
dropped; other traffic is recorded and, under a connection limit, goes to the target. -/
def recentChain (rule : Rule) (checks records : List Fragment) (log : Option LogClass)
    (connection : Bool) (target : Option String) : Run (List Fragment) := do
  let dropped ← rule.attachLog checks log "drop" (some "DROP")
  let logged := if connection || target.isNone then actionFragments rule.log? none else []
  let recorded : Fragment := { target := if connection then target else none }
  return dropped ++ logged ++ Fragment.combine [some records, some [recorded]]

/-- The limit chain of a rule without target where events are counted: traffic above the limit
is logged and dropped, other traffic falls off the end. -/
def passingChain (rule : Rule) (limit : Limit) (name : String) (log : Option LogClass) :
    Run (List Fragment) := do
  let families := (← get).settings.families
  let above ← Run.recording (limit.hashFragments families name true)
  let dropped ← rule.attachLog above log "drop" (some "DROP")
  return dropped ++ actionFragments rule.log? none

/-- The limit chain of an accepting rule where events are counted: traffic within the limit is
accepted or returned, and what is left is logged and dropped. -/
def countingChain (rule : Rule) (limit : Limit) (name : String) (log : Option LogClass)
    (connection : Bool) : Run (List Fragment) := do
  let families := (← get).settings.families
  let within ← Run.recording (limit.hashFragments families name false)
  let passed ←
    if connection then rule.attachAction within
    else pure (Fragment.combine [some within, some [.ofTarget "RETURN"]])
  return passed ++ actionFragments log (some "DROP")

/-- Attach the limit of that name to matches. -/
def attachLimit (rule : Rule) (matched : List Fragment) (name : String) :
    Run (List Fragment) := do
  if !(rule.action = "accept" || rule.action = "pass") then
    Run.report rule.location (.limitWithAction rule.action)
  let chain ← Run.chainNameOf rule.serial "limit"
  let mapping ← match (rule.attributes.get name).entries? with
    | some entries => pure entries
    | none => Run.unusable
  let log := limitLog? mapping
  let limit ← Limit.declare .filterLimit (rule.location ++ " limit") (.raw (.map mapping))
  let connection := name = "conn-limit"
  let target ← Run.recording rule.target
  let settings := (← get).settings
  let body ← match ← Run.recording (limit.recentFragments settings chain) with
    | some (checks, records) => rule.recentChain checks records log connection target
    | none =>
      if target.isNone then rule.passingChain limit chain log
      else rule.countingChain limit chain log connection
  rule.attach matched body "limit" none true

/-- Record matched traffic in the limit that the rule names. -/
def attachUpdate (rule : Rule) (matched : List Fragment) : Run (List Fragment) := do
  let name := rule.attributes.get "limit"
  let limit ← Limit.declare .filterLimit (rule.location ++ " limit")
    (.raw (.map [(.text "name", name), (.text "addr", rule.attributes.get "addr")]))
  let families := (← get).settings.families
  let records ← Run.recording (limit.recordFragments name.written families)
  return Fragment.combine [some matched, some records]

/-! ### Attaching -/

/-- Attach the limit of a filter, or its action when it has none. -/
def attachFilter (rule : Rule) (matched : List Fragment) : Run (List Fragment) := do
  match ← Run.recording rule.limitName? with
  | some name => rule.attachLimit matched name
  | none => rule.attachAction matched

/-- Attach a plain target, if the rule has one. -/
def attachTarget (rule : Rule) (matched : List Fragment) : Run (List Fragment) := do
  match ← Run.recording rule.target with
  | some target => return Fragment.combine [some matched, some [.ofTarget target]]
  | none => return matched

/-- Attach what the rule does to its matches. -/
def finish (rule : Rule) (matched : List Fragment) : Run (List Fragment) :=
  match rule.kind with
  | .limitUpdate => rule.attachUpdate matched
  | .logging => rule.attachAction matched
  | .filter | .policy => rule.attachFilter matched
  | _ => rule.attachTarget matched

end FirewallPolicy.Rule
