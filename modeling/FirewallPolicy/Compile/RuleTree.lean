import FirewallPolicy.Fragment

/-!
## Rule trees

The compiled rules: for each chain of a table of a family the rules in order.  Chains are kept in
the order in which they were opened.
-/

namespace FirewallPolicy

/-- The chains that were opened, with their rules. -/
structure RuleTree where
  chains : List (Place × List RuleLine) := []
deriving DecidableEq, Repr, Inhabited

namespace RuleTree

/-- Is the chain open? -/
def isOpen (tree : RuleTree) (place : Place) : Bool :=
  tree.chains.any fun chain => chain.1 == place

/-- The rules of a chain; a chain that is not open has none. -/
def rules (tree : RuleTree) (place : Place) : List RuleLine :=
  (tree.chains.lookup place).getD []

/-- Open a chain unless it is open. -/
def openChain (tree : RuleTree) (place : Place) : RuleTree :=
  if tree.isOpen place then tree else ⟨tree.chains ++ [(place, [])]⟩

/-- Change the rules of an open chain. -/
def update (tree : RuleTree) (place : Place) (change : List RuleLine → List RuleLine) : RuleTree :=
  ⟨tree.chains.map fun chain => if chain.1 = place then (chain.1, change chain.2) else chain⟩

/-- Put a rule at the end of a chain. -/
def append (tree : RuleTree) (place : Place) (rule : RuleLine) : RuleTree :=
  tree.update place (· ++ [rule])

/-- Put a rule behind the first `index` rules of a chain. -/
def insertAt (tree : RuleTree) (place : Place) (index : Nat) (rule : RuleLine) : RuleTree :=
  tree.update place fun rules => rules.take index ++ rule :: rules.drop index

/-- The families with open chains, in order. -/
def families (tree : RuleTree) : List String :=
  (tree.chains.map (·.1.family)).eraseDups

/-- The tables of a family with open chains, in order. -/
def tables (tree : RuleTree) (family : String) : List String :=
  ((tree.chains.filter (·.1.family == family)).map (·.1.table)).eraseDups

/-- The chains of a table with their rules, in order. -/
def chainsOf (tree : RuleTree) (family table : String) : List (String × List RuleLine) :=
  (tree.chains.filter fun chain => chain.1.family == family && chain.1.table == table).map
    fun chain => (chain.1.chain, chain.2)

/-- The number of rules. -/
def size (tree : RuleTree) : Nat :=
  (tree.chains.flatMap (·.2)).length

end RuleTree

end FirewallPolicy
