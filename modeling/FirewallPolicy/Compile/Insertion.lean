import FirewallPolicy.Compile.CustomChain
import FirewallPolicy.Compile.RuleTree
import FirewallPolicy.Rule.Placement

/-!
## Insertion of rules

Fragments that are bound to a place become rules of its chain.  A rule that jumps to an auxiliary
chain brings in the rules of that chain, the first time the chain is jumped to in its table.
-/

namespace FirewallPolicy

/-- The tree under construction, and the places of the auxiliary chains that were looked up; by
`strayed`, something that is no name was looked up as well. -/
structure Assembly where
  tree : RuleTree := {}
  expanded : List Place := []
  strayed : Bool := false
deriving DecidableEq, Repr, Inhabited

/-- Where the rules of auxiliary chains come from: rules declared for all places, and the chains
that the policy defines. -/
structure ChainSource where
  auxiliary : List Fragment
  custom : SectionEntries

namespace ChainSource

/-- A fragment that is only bound to a place. -/
def atPlace (place : Place) : Fragment :=
  { family := some place.family, table := some place.table, chain := some place.chain }

/-- The body of the auxiliary chain at a place; `owner` is where the jump to it comes from. -/
def body (source : ChainSource) (owner : String) (place : Place) :
    Except Failure (List ChainRule) :=
  match customName? place.chain with
  | some name => CustomChain.body source.custom owner name place
  | none =>
    .ok ((Fragment.combine [some source.auxiliary, some [atPlace place]]).map fun fragment =>
      { fragment })

/-- The targets that the rules of auxiliary chains may have. -/
def targets (source : ChainSource) : List String :=
  source.auxiliary.filterMap (·.target) ++ CustomChain.targets source.custom

end ChainSource

namespace Assembly

/-- The chain that a rule jumps to, if it was not looked up at that place. -/
def newTarget? (assembly : Assembly) (rule : Fragment) (place : Place) : Option String :=
  match rule.target with
  | some target =>
    if target.isEmpty || assembly.expanded.contains { place with chain := target } then none
    else some target
  | none => none

/-- Note that a chain was looked up.  A chain that the policy defines is opened, even if it has
no rules. -/
def noteTarget (assembly : Assembly) (place : Place) : Assembly :=
  { assembly with
    tree := if (customName? place.chain).isSome then assembly.tree.openChain place
      else assembly.tree
    expanded := place :: assembly.expanded }

/-- Is the rule put to the front of its chain? -/
def isFront (rule : ChainRule) : Bool :=
  rule.fragment.position = some "prepend"

/-- Put a rule into its chain: at the front behind the `front` rules put there before, or at the
end. -/
def place (assembly : Assembly) (rule : ChainRule) (place : Place) (front : Nat) : Assembly :=
  let tree :=
    if isFront rule then assembly.tree.insertAt place front rule.line
    else assembly.tree.append place rule.line
  { assembly with tree }

/-- Insert rules that belong to the object at `owner`, one after the other.  `bring` inserts the
rules of a chain that is jumped to, and `front` holds the places of the rules that were put to the
front, which keep their order. -/
def insertEach (source : ChainSource) (owner : String)
    (bring : List ChainRule → Assembly → Except Failure Unit × Assembly) :
    List Place → List ChainRule → Assembly → Except Failure Unit × Assembly
  | _, [], assembly => (.ok (), assembly)
  | front, rule :: rest, assembly =>
    match rule.fragment.place? with
    | none => (.error (.fault owner (.incompletePlace rule.fragment)), assembly)
    | some place =>
      let opened := { assembly with
        tree := assembly.tree.openChain place
        strayed := assembly.strayed || rule.jump = .misnamed }
      let brought : Except Failure Unit × Assembly :=
        match opened.newTarget? rule.fragment place with
        | none => (.ok (), opened)
        | some target =>
          let noted := opened.noteTarget { place with chain := target }
          match source.body owner { place with chain := target } with
          | .error failure => (.error failure, noted)
          | .ok body => bring body noted
      match brought with
      | (.ok (), filled) =>
        if rule.isUsable then
          let front' := if isFront rule then place :: front else front
          insertEach source owner bring front' rest (filled.place rule place (front.count place))
        else (.error .unusable, filled)
      | failed => failed

/-- Insert rules with chains brought in at most `depth` deep, one inside the other. -/
def insertTo (source : ChainSource) :
    Nat → String → List ChainRule → Assembly → Except Failure Unit × Assembly
  | 0, owner => insertEach source owner (fun _ noted => (.ok (), noted)) []
  | depth + 1, owner => insertEach source owner (insertTo source depth "") []

/-- Insert fragments that belong to the object at `owner`; what was done before a failure stays.
A chain is brought in once, so no more chains than there are targets stand one inside the
other. -/
def insert (source : ChainSource) (owner : String) (rules : List Fragment) (assembly : Assembly) :
    Except Failure Unit × Assembly :=
  insertTo source (rules.filterMap (·.target) ++ source.targets).length owner
    (rules.map fun fragment => { fragment }) assembly

end Assembly

end FirewallPolicy
