import FirewallPolicy.Text.Quoted
import FirewallPolicy.Value.Basic

/-!
## Rule fragments

A fragment is a partial packet-filter rule: any subset of address family, table, chain, match
tokens, target, position and index.  An unset attribute means "unconstrained", not "empty".
`combine` builds the ordered product of fragment lists: tokens accumulate, every other attribute
has to agree, and a combination that disagrees is left out.
-/

namespace FirewallPolicy

/-- A partial rule. -/
structure Fragment where
  family : Option String := none
  table : Option String := none
  chain : Option String := none
  tokens : List String := []
  target : Option String := none
  position : Option String := none
  index : Option Int := none
deriving DecidableEq, Repr, Inhabited

namespace Fragment

/-- A fragment that only matches; empty tokens are dropped. -/
def matching (tokens : List String) : Fragment :=
  { tokens := tokens.filter (!·.isEmpty) }

/-- A fragment that only sets the address family. -/
def ofFamily (family : String) : Fragment := { family := some family }

/-- A fragment that only sets the table. -/
def ofTable (table : String) : Fragment := { table := some table }

/-- A fragment that only sets the chain. -/
def ofChain (chain : String) : Fragment := { chain := some chain }

/-- A fragment that only sets the target. -/
def ofTarget (target : String) : Fragment := { target := some target }

/-- The match tokens as one text. -/
def matchText (fragment : Fragment) : String :=
  " ".intercalate fragment.tokens

/-- Are family, table and chain all set? -/
def isBound (fragment : Fragment) : Bool :=
  fragment.family.isSome && fragment.table.isSome && fragment.chain.isSome

/-! ### Merging -/

/-- The common value of an attribute of two fragments; none when both set it differently. -/
def agreed? {α : Type} [DecidableEq α] : Option α → Option α → Option (Option α)
  | none, theirs => some theirs
  | some mine, none => some (some mine)
  | some mine, some theirs => if mine = theirs then some (some mine) else none

/-- The fragment that asks for what both ask for; none when they conflict. -/
def merge (left right : Fragment) : Option Fragment := do
  let family ← agreed? left.family right.family
  let table ← agreed? left.table right.table
  let chain ← agreed? left.chain right.chain
  let target ← agreed? left.target right.target
  let position ← agreed? left.position right.position
  let index ← agreed? left.index right.index
  return { family, table, chain, target, position, index, tokens := left.tokens ++ right.tokens }

/-- All merges of a fragment of the first list with one of the second, the first list varying
slowest. -/
def product (lefts rights : List Fragment) : List Fragment :=
  lefts.flatMap fun left => rights.filterMap left.merge

/-- The merged product of a non-empty list of fragment lists. -/
def combineLists : List (List Fragment) → List Fragment
  | [] => []
  | first :: rest => rest.foldl product first

/-- The merged product of the given lists; absent ones are skipped, and of no lists at all
nothing results. -/
def combine (lists : List (Option (List Fragment))) : List Fragment :=
  combineLists (lists.filterMap id)

end Fragment

/-! ### Places and rule lines -/

/-- A chain of a table of an address family. -/
structure Place where
  family : String
  table : String
  chain : String
deriving DecidableEq, Repr, Inhabited

namespace Fragment

/-- Where a bound fragment belongs. -/
def place? (fragment : Fragment) : Option Place := do
  return ⟨← fragment.family, ← fragment.table, ← fragment.chain⟩

end Fragment

/-- What a rule of the policy may state in the place of a target without naming one. -/
inductive Blank where
  | scalar (s : Scalar)
  | list
  | map
  | set
deriving DecidableEq, Repr, Inhabited

/-- A rule as it stands in a chain: what it matches and where it jumps.  `blank` is what stands
in the place of a target and names none. -/
structure RuleLine where
  condition : String
  target : Option String
  blank : Option Blank := none
deriving DecidableEq, Repr, Inhabited

/-- Does a fragment or a rule name a target?  The empty text names none. -/
def namesTarget (target : Option String) : Bool :=
  target.any (!·.isEmpty)

namespace RuleLine

/-- The rule of a fragment, without its place. -/
def ofFragment (fragment : Fragment) : RuleLine :=
  { condition := fragment.matchText, target := fragment.target }

/-- The text of a rule, in which an empty part is left out. -/
def text (rule : RuleLine) : String :=
  let condition := if rule.condition.isEmpty then [] else [rule.condition]
  let jump := if namesTarget rule.target then ["-j " ++ rule.target.getD ""] else []
  " ".intercalate (condition ++ jump)

end RuleLine

/-! ### Listing a fragment -/

namespace Fragment

/-- An optional text in quotes. -/
def quotedField (field : Option String) : String :=
  match field with
  | some s => Text.quoted s
  | none => "None"

/-- The tokens in parentheses; a single one is followed by a comma. -/
def quotedTokens (tokens : List String) : String :=
  match tokens with
  | [single] => "(" ++ Text.quoted single ++ ",)"
  | _ => "(" ++ ", ".intercalate (tokens.map Text.quoted) ++ ")"

/-- All attributes of a fragment, as messages show them. -/
def listing (fragment : Fragment) : String :=
  "OptFrag(family=" ++ quotedField fragment.family ++
    ", table=" ++ quotedField fragment.table ++
    ", chain=" ++ quotedField fragment.chain ++
    ", match=" ++ quotedTokens fragment.tokens ++
    ", target=" ++ quotedField fragment.target ++
    ", position=" ++ quotedField fragment.position ++
    ", index=" ++ ((fragment.index.map toString).getD "None") ++ ")"

end Fragment

end FirewallPolicy
