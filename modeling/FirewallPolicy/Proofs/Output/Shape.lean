import FirewallPolicy.Proofs.Insertion.Narrowing
import FirewallPolicy.Proofs.Insertion.Unbroken
import FirewallPolicy.Proofs.Output.Reading

/-!
# The shape of a restore file

A restore file has lines of five kinds, and as many lines of rules as the tree has rules of the
family: no rule goes on in another line, and no other line looks like a rule.
-/

namespace FirewallPolicy

namespace Restore

open Text

variable {settings : Settings} {tree : RuleTree} {family : String}

/-- What a line of the file of a family may be: the header, the start of a table, the declaration of
a built-in or another chain, a rule of the tree, or the end of a table. -/
inductive IsLine (settings : Settings) (tree : RuleTree) (family : String) : String → Prop
  | header : IsLine settings tree family Restore.header
  | table (table : String) :
      table ∈ tables tree family → IsLine settings tree family ("*" ++ table)
  | builtin (table chain : String) : chain ∈ builtinChains table →
      IsLine settings tree family (":" ++ chain ++ " " ++ chainPolicy settings table ++ " [0:0]")
  | chain (table chain : String) : tree.isOpen ⟨family, table, chain⟩ = true →
      IsLine settings tree family (":" ++ chain ++ " " ++ "-" ++ " [0:0]")
  | rule (place : Place) (rules : List RuleLine) (rule : RuleLine) :
      (place, rules) ∈ tree.chains → place.family = family → rule ∈ rules →
      IsLine settings tree family (trimRight ("-A " ++ place.chain ++ " " ++ rule.text))
  | commit : IsLine settings tree family "COMMIT"

theorem isLine_of_mem_lines {line : String} (member : line ∈ lines settings tree family) :
    IsLine settings tree family line := by
  rcases List.mem_cons.1 member with rfl | inTable
  · exact .header
  · obtain ⟨table, isTable, inTable⟩ := List.mem_flatMap.1 inTable
    simp only [tableLines, declarations, ruleLines, List.mem_append, List.mem_singleton,
      List.mem_map, List.mem_flatMap, List.mem_filter] at inTable
    rcases inTable with ((rfl | ⟨chain, isBuiltin, rfl⟩ | ⟨chain, ⟨⟨entry, isChain, rfl⟩, -⟩, rfl⟩) |
      ⟨entry, isChain, rule, isRule, rfl⟩) | rfl
    · exact .table table isTable
    · exact .builtin table chain isBuiltin
    · exact .chain table entry.1 (RuleTree.isOpen_of_mem (RuleTree.mem_chainsOf.1 isChain))
    · exact .rule ⟨family, table, entry.1⟩ entry.2 rule (RuleTree.mem_chainsOf.1 isChain) rfl isRule
    · exact .commit

/-! ## Counting rules -/

/-- Does the line start like a rule? -/
def isRuleLine (line : List Char) : Bool :=
  "-A".toList.isPrefixOf line

theorem isRuleLine_rule (chain text : String) :
    isRuleLine (trimRight ("-A " ++ chain ++ " " ++ text)).toList = true := by
  have solid : dropBlanksRight "-A".toList = "-A".toList := by decide
  rw [trimRight, String.toList_ofList]
  have parts : ("-A " ++ chain ++ " " ++ text).toList =
      "-A".toList ++ (" " ++ chain ++ " " ++ text).toList := by simp
  rw [parts, dropBlanksRight_append, isRuleLine, List.isPrefixOf_iff_prefix]
  split
  · exact solid ▸ List.prefix_refl _
  · exact List.prefix_append _ _

/-- The lines of a table that start like a rule are those of its rules. -/
theorem countP_tableLines {table : String} {chains : List (String × List RuleLine)} :
    (tableLines settings table chains).countP (isRuleLine ·.toList) =
      (chains.flatMap (·.2)).length := by
  have start : isRuleLine ("*" ++ table).toList = false := by
    rw [String.toList_append]
    rfl
  have declared (chain policy : String) :
      isRuleLine (":" ++ chain ++ " " ++ policy ++ " [0:0]").toList = false := by
    simp only [String.append_assoc, String.toList_append]
    rfl
  have declarations : (declarations settings table (chains.map (·.1))).countP
      (isRuleLine ·.toList) = 0 := by
    refine List.countP_eq_zero.2 fun line member => ?_
    simp only [Restore.declarations, List.mem_append, List.mem_map] at member
    rcases member with ⟨chain, -, rfl⟩ | ⟨chain, -, rfl⟩
    · exact Bool.eq_false_iff.1 (declared chain (chainPolicy settings table))
    · exact Bool.eq_false_iff.1 (declared chain "-")
  have rules : (chains.flatMap fun chain => ruleLines chain.1 chain.2).countP
      (isRuleLine ·.toList) = (chains.flatMap (·.2)).length := by
    rw [List.countP_eq_length.2]
    · simp [List.length_flatMap, ruleLines]
    · intro line member
      obtain ⟨chain, -, inChain⟩ := List.mem_flatMap.1 member
      obtain ⟨rule, -, rfl⟩ := List.mem_map.1 inChain
      exact isRuleLine_rule chain.1 rule.text
  have stop : isRuleLine "COMMIT".toList = false := by decide
  rw [tableLines, List.countP_append, List.countP_append, List.countP_append, declarations, rules,
    List.countP_singleton, List.countP_singleton, start, stop]
  simp

/-- Every rule of a family belongs to one of its tables.  The induction is on the chains. -/
theorem length_flatMap_chainsOf {names : List String} (distinct : names.Nodup)
    (known : ∀ table ∈ tree.tables family, table ∈ names) :
    (names.flatMap fun table => (tree.chainsOf family table).flatMap (·.2)).length =
      (tree.narrow (· == family)).size := by
  obtain ⟨chains⟩ := tree
  induction chains with
  | nil => simp [RuleTree.chainsOf, RuleTree.narrow, RuleTree.size]
  | cons chain rest inductionHypothesis =>
      have others := inductionHypothesis fun table member => known table (by
        rw [RuleTree.mem_tables] at member ⊢
        obtain ⟨place, rules, isChain, same⟩ := member
        exact ⟨place, rules, List.mem_cons_of_mem _ isChain, same⟩)
      by_cases ofFamily : chain.1.family = family
      · have isTable : chain.1.table ∈ names :=
          known _ (RuleTree.mem_tables.2 ⟨chain.1, chain.2, List.mem_cons_self .., ofFamily, rfl⟩)
        have rules (table : String) :
            (RuleTree.chainsOf ⟨chain :: rest⟩ family table).flatMap (·.2) =
              (if chain.1.table = table then chain.2 else []) ++
                (RuleTree.chainsOf ⟨rest⟩ family table).flatMap (·.2) := by
          by_cases same : chain.1.table = table <;> simp [RuleTree.chainsOf, ofFamily, same]
        -- The chain adds its rules to its own table and nothing to the tables around that one.
        have around {part : List String} (absent : chain.1.table ∉ part) :
            (part.flatMap fun table =>
              (RuleTree.chainsOf ⟨chain :: rest⟩ family table).flatMap (·.2)) =
              part.flatMap fun table => (RuleTree.chainsOf ⟨rest⟩ family table).flatMap (·.2) := by
          refine List.flatMap_congr fun table member => ?_
          rw [rules, if_neg fun same : chain.1.table = table => absent (same ▸ member),
            List.nil_append]
        have size : (RuleTree.narrow (· == family) ⟨chain :: rest⟩).size =
            chain.2.length + (RuleTree.narrow (· == family) ⟨rest⟩).size := by
          simp [RuleTree.narrow, RuleTree.size, Place.isKept, ofFamily]
        obtain ⟨before, after, rfl⟩ := List.append_of_mem isTable
        obtain ⟨-, afterDistinct, disjoint⟩ := List.nodup_append.1 distinct
        have notBefore : chain.1.table ∉ before :=
          fun member => disjoint _ member _ (List.mem_cons_self ..) rfl
        rw [List.flatMap_append, List.flatMap_cons] at others ⊢
        rw [around notBefore, around (List.nodup_cons.1 afterDistinct).1, rules, if_pos rfl, size,
          ← others]
        simp only [List.length_append]
        omega
      · have same (table : String) : RuleTree.chainsOf ⟨chain :: rest⟩ family table =
            RuleTree.chainsOf ⟨rest⟩ family table := by
          simp [RuleTree.chainsOf, ofFamily]
        have size : RuleTree.narrow (· == family) ⟨chain :: rest⟩ =
            RuleTree.narrow (· == family) ⟨rest⟩ := by
          simp [RuleTree.narrow, Place.isKept, ofFamily]
        simp only [same]
        rw [others, size]

/-- As many lines start like a rule as the tree has rules of the family. -/
theorem countP_lines :
    (lines settings tree family).countP (isRuleLine ·.toList) =
      (tree.narrow (· == family)).size := by
  have start : isRuleLine header.toList = false := by decide
  rw [lines, List.countP_cons_of_neg (by simp [start]), List.countP_flatMap,
    ← length_flatMap_chainsOf nodup_tables fun table member => mem_tables.2 (Or.inr member),
    List.length_flatMap]
  exact congrArg List.sum (List.map_congr_left fun table _ => countP_tableLines)

end Restore

/-- A tree without line breaks is written without any. -/
theorem RuleTree.IsUnbroken.restore {settings : Settings} {tree : RuleTree} {family : String}
    (unbroken : tree.IsUnbroken) (isPolicy : Text.IsUnbroken settings.filterChainPolicy) :
    Restore.IsUnbroken settings tree family where
  policy := isPolicy
  table chain member _ := (unbroken chain member).1.table
  chain chain member _ := (unbroken chain member).1.chain
  rule chain member _ := (unbroken chain member).2

end FirewallPolicy
