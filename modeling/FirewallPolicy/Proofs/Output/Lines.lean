import FirewallPolicy.Output.Restore
import FirewallPolicy.Proofs.Text.Order
import FirewallPolicy.Proofs.Text.Unbroken

/-!
# The lines of a restore file

A restore file is read line by line.  Where no name, policy or rule has a line break, its lines are
the ones that it was put together from.
-/

namespace FirewallPolicy

namespace RuleTree

variable {tree : RuleTree} {family table : String}

theorem mem_tables :
    table ∈ tree.tables family ↔
      ∃ place rules, (place, rules) ∈ tree.chains ∧ place.family = family ∧ place.table = table := by
  simp [tables, and_assoc]

theorem mem_chainsOf {chain : String} {rules : List RuleLine} :
    (chain, rules) ∈ tree.chainsOf family table ↔
      (⟨family, table, chain⟩, rules) ∈ tree.chains := by
  simp only [chainsOf, List.mem_map, List.mem_filter, Bool.and_eq_true, beq_iff_eq, Prod.mk.injEq]
  constructor
  · rintro ⟨⟨place, rules⟩, ⟨member, rfl, rfl⟩, rfl, rfl⟩
    exact member
  · intro member
    exact ⟨_, ⟨member, rfl, rfl⟩, rfl, rfl⟩

end RuleTree

namespace Restore

open Text

/-- The lines of a text, each of which ends in a line break. -/
def linesOf (text : String) : List (List Char) :=
  (text.toList.splitOn '\n').dropLast

theorem intercalate_empty_cons (first : String) (rest : List String) :
    "".intercalate (first :: rest) = first ++ "".intercalate rest := by
  cases rest with
  | nil => simp
  | cons next others => rw [String.intercalate_cons_cons, String.append_empty]

/-- Each of the lines that are written one below the other is read on its own. -/
theorem linesOf_intercalate (lines : List String) :
    linesOf ("".intercalate (lines.map (· ++ "\n"))) =
      lines.flatMap fun line => line.toList.splitOn '\n' := by
  have written : ("".intercalate (lines.map (· ++ "\n"))).toList.splitOn '\n' =
      (lines.flatMap fun line => line.toList.splitOn '\n') ++ [[]] := by
    induction lines with
    | nil => rfl
    | cons line rest inductionHypothesis =>
        have first : ("".intercalate ((line :: rest).map (· ++ "\n"))).toList =
            line.toList ++ '\n' :: ("".intercalate (rest.map (· ++ "\n"))).toList := by
          rw [List.map_cons, intercalate_empty_cons, String.toList_append, String.toList_append,
            List.append_assoc]
          rfl
        rw [first, List.splitOn_append_cons_self, inductionHypothesis, List.flatMap_cons,
          List.append_assoc]
  rw [linesOf, written, List.dropLast_concat]

/-- Lines without line breaks are read as they are. -/
theorem linesOf_of_isUnbroken {lines : List String} (unbroken : ∀ line ∈ lines, IsUnbroken line) :
    linesOf ("".intercalate (lines.map (· ++ "\n"))) = lines.map String.toList := by
  rw [linesOf_intercalate, List.map_eq_flatMap]
  refine List.flatMap_congr fun line member => ?_
  exact List.splitOn_eq_singleton (unbroken line member)

/-! ## What stands in a file -/

theorem mem_withFilter {present : List String} {table : String} :
    table ∈ (if present.contains "filter" then present else present ++ ["filter"]) ↔
      table = "filter" ∨ table ∈ present := by
  split
  · next known =>
      have isThere : "filter" ∈ present := by simpa using known
      exact ⟨.inr, fun known => known.elim (fun same => same ▸ isThere) id⟩
  · simp [or_comm]

theorem mem_tables {tree : RuleTree} {family table : String} :
    table ∈ tables tree family ↔ table = "filter" ∨ table ∈ tree.tables family := by
  unfold tables
  dsimp only
  rw [List.mem_append, List.mem_filter, mem_sorted, List.mem_filter, ← mem_withFilter]
  by_cases known : table ∈ builtinTables.map (·.1) <;> simp [known]

/-- No part of a file has a line break. -/
structure IsUnbroken (settings : Settings) (tree : RuleTree) (family : String) : Prop where
  policy : Text.IsUnbroken settings.filterChainPolicy
  table : ∀ chain ∈ tree.chains, chain.1.family = family → Text.IsUnbroken chain.1.table
  chain : ∀ chain ∈ tree.chains, chain.1.family = family → Text.IsUnbroken chain.1.chain
  rule : ∀ chain ∈ tree.chains, chain.1.family = family →
    ∀ rule ∈ chain.2, Text.IsUnbroken rule.text

theorem of_builtinChains
    (property : List String → Prop) (none : property [])
    (each : ∀ entry ∈ builtinTables, property entry.2) (table : String) :
    property (builtinChains table) := by
  unfold builtinChains
  cases found : builtinTables.lookup table with
  | none => exact none
  | some chains =>
      obtain ⟨before, after, isTable, -⟩ := List.lookup_eq_some_iff.1 found
      exact each (table, chains) (isTable ▸ by simp)

variable {settings : Settings} {tree : RuleTree} {family : String}

theorem IsUnbroken.lines (unbroken : IsUnbroken settings tree family) :
    ∀ line ∈ lines settings tree family, Text.IsUnbroken line := by
  intro line member
  rcases List.mem_cons.1 member with rfl | inTable
  · decide
  · obtain ⟨table, isTable, inTable⟩ := List.mem_flatMap.1 inTable
    have tableUnbroken : Text.IsUnbroken table := by
      rcases mem_tables.1 isTable with rfl | isThere
      · decide
      · obtain ⟨place, rules, isChain, ofFamily, rfl⟩ := RuleTree.mem_tables.1 isThere
        exact unbroken.table _ isChain ofFamily
    have policyUnbroken : Text.IsUnbroken (chainPolicy settings table) := by
      unfold chainPolicy
      split
      · exact unbroken.policy
      · decide
    simp only [tableLines, declarations, ruleLines, List.mem_append, List.mem_singleton,
      List.mem_map, List.mem_flatMap, List.mem_filter] at inTable
    rcases inTable with ((rfl | ⟨chain, isBuiltin, rfl⟩ | ⟨chain, ⟨⟨entry, isChain, rfl⟩, -⟩, rfl⟩) |
      ⟨entry, isChain, rule, isRule, rfl⟩) | rfl
    · simpa using ⟨by decide, tableUnbroken⟩
    · have builtinUnbroken : ∀ chain ∈ builtinChains table, Text.IsUnbroken chain :=
        of_builtinChains (fun chains => ∀ chain ∈ chains, Text.IsUnbroken chain) (by decide)
          (by decide) table
      have chainUnbroken := builtinUnbroken chain isBuiltin
      simpa [policyUnbroken, chainUnbroken] using by decide
    · have chainUnbroken := unbroken.chain _ (RuleTree.mem_chainsOf.1 isChain) rfl
      simpa [chainUnbroken] using by decide
    · have chainUnbroken := unbroken.chain _ (RuleTree.mem_chainsOf.1 isChain) rfl
      have ruleUnbroken := unbroken.rule _ (RuleTree.mem_chainsOf.1 isChain) rfl rule isRule
      refine isUnbroken_trimRight ?_
      simpa [chainUnbroken, ruleUnbroken] using by decide
    · decide

/-- The lines of the file are those that it was put together from. -/
theorem linesOf_render (unbroken : IsUnbroken settings tree family) :
    linesOf (render settings tree family) = (lines settings tree family).map String.toList :=
  linesOf_of_isUnbroken unbroken.lines

end Restore

end FirewallPolicy

