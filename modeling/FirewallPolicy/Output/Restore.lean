import FirewallPolicy.Compile.RuleTree
import FirewallPolicy.Section.Order
import FirewallPolicy.Settings

/-!
## Restore files

The text of compiled rules for one family, in the format that restores packet-filter tables:
for each table its chains with their policies, then the rules of each chain.
-/

namespace FirewallPolicy.Restore

/-- The tables that are always known, in the order of the file, with their built-in chains. -/
def builtinTables : List (String × List String) := [
  ("raw", ["PREROUTING", "OUTPUT"]),
  ("mangle", ["PREROUTING", "INPUT", "FORWARD", "OUTPUT", "POSTROUTING"]),
  ("nat", ["PREROUTING", "INPUT", "OUTPUT", "POSTROUTING"]),
  ("filter", ["INPUT", "FORWARD", "OUTPUT"])]

/-- The built-in chains of a table. -/
def builtinChains (table : String) : List String :=
  (builtinTables.lookup table).getD []

/-- The name of the file for a family. -/
def fileName (family : String) : String :=
  if family = "inet" then "rules-save" else "rules6-save"

/-- The first line of every file. -/
def header : String := "# Generated by policyfabrik 0.1.0"

/-- What happens at the end of the built-in chains of a table. -/
def chainPolicy (settings : Settings) (table : String) : String :=
  if table = "filter" then settings.filterChainPolicy else "ACCEPT"

/-- The tables of a family in the order of the file; the filter table is always there. -/
def tables (tree : RuleTree) (family : String) : List String :=
  let present := tree.tables family
  let all := if present.contains "filter" then present else present ++ ["filter"]
  let known := builtinTables.map (·.1)
  known.filter all.contains ++ Text.sorted (all.filter fun table => !known.contains table)

/-- The lines that declare the chains of a table. -/
def declarations (settings : Settings) (table : String) (chains : List String) : List String :=
  let builtin := builtinChains table
  let line (chain policy : String) := ":" ++ chain ++ " " ++ policy ++ " [0:0]"
  builtin.map (fun chain => line chain (chainPolicy settings table)) ++
    (chains.filter fun chain => !builtin.contains chain).map fun chain => line chain "-"

/-- The lines of the rules of a chain. -/
def ruleLines (chain : String) (rules : List RuleLine) : List String :=
  rules.map fun rule => Text.trimRight ("-A " ++ chain ++ " " ++ rule.text)

/-- The lines of a table. -/
def tableLines (settings : Settings) (table : String) (chains : List (String × List RuleLine)) :
    List String :=
  ["*" ++ table] ++ declarations settings table (chains.map (·.1)) ++
    chains.flatMap (fun chain => ruleLines chain.1 chain.2) ++ ["COMMIT"]

/-- The lines of the file of a family. -/
def lines (settings : Settings) (tree : RuleTree) (family : String) : List String :=
  header :: (tables tree family).flatMap fun table =>
    tableLines settings table (tree.chainsOf family table)

/-- The text of the file of a family. -/
def render (settings : Settings) (tree : RuleTree) (family : String) : String :=
  "".intercalate ((lines settings tree family).map (· ++ "\n"))

/-- The files of all enabled families one after the other, each under its name. -/
def print (settings : Settings) (tree : RuleTree) : String :=
  "\n".intercalate (settings.families.map fun family =>
    "# " ++ fileName family ++ "\n" ++ render settings tree family)

end FirewallPolicy.Restore
