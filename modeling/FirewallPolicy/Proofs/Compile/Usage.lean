import FirewallPolicy.Proofs.Compile.Places

/-!
# Chains that are used

A chain of a compiled policy is built into its table, or something jumps to it, or it was named for a
rule that matches nothing: what such a rule does to the traffic that it matches is kept although no
traffic gets there.
-/

namespace FirewallPolicy

open Assembly Context Run Stateful

/-! ## Rules -/

/-- The chains of the hooks are built into the table of the rules. -/
theorem RuleKind.hookChains_subset_builtin (kind : RuleKind) :
    kind.hookChains ⊆ Restore.builtinChains kind.table := by
  cases kind <;> decide

/-- The rule matches nothing, and the chain is one of its own. -/
def Rule.Piece.IsIdle (piece : Rule.Piece) (chain : String) : Prop :=
  (∃ middle, piece.rule.dimensions piece.before = (.ok [], middle)) ∧
    piece.rule.OwnsChain piece.after chain

/-- A rule jumps to every chain that it has rules in, apart from the built-in ones, unless it matches
nothing. -/
theorem Rule.isUsedBy_of_mem_ownFragments
    {piece : Rule.Piece} (run : piece.rule.ownFragments piece.before = (.ok piece.own, piece.after))
    {part : Fragment} (member : part ∈ piece.own) {place : Place}
    (stands : part.place? = some place) :
    place.IsUsedBy piece.own ∨ piece.IsIdle place.chain := by
  obtain ⟨family, table, chain⟩ := Fragment.place?_eq_some_iff.1 stands
  obtain ⟨_, again, _, inTable⟩ := exists_place_of_mem_ownFragments run member
  obtain rfl := Option.some.inj (stands.symm.trans again)
  obtain ⟨matched, middle, matches_, allStand⟩ := allStand_ownFragments run
  rcases allStand part member place.chain chain with (isHook | ⟨rfl, owns⟩) | jumps
  · exact Or.inl (Or.inl (inTable ▸ piece.rule.kind.hookChains_subset_builtin isHook))
  · exact Or.inr ⟨⟨middle, matches_⟩, owns⟩
  · obtain ⟨jump, isJump, goes, covers⟩ := jumps
    -- The jump is bound as well, so it stands in the very family and table that it covers.
    obtain ⟨origin, isOrigin, _, _⟩ := exists_place_of_mem_ownFragments run isJump
    obtain ⟨originFamily, originTable, _⟩ := Fragment.place?_eq_some_iff.1 isOrigin
    refine Or.inl (Or.inr ⟨jump, isJump, goes, origin, isOrigin, ?_, ?_⟩)
    · have same := covers.family.resolve_left (by simp [originFamily])
      exact Option.some.inj (originFamily.symm.trans (same.trans family))
    · have same := covers.table.resolve_left (by simp [originTable])
      exact Option.some.inj (originTable.symm.trans (same.trans table))

theorem Place.IsUsedBy.mono
    {place : Place} {fragments others : List Fragment} (used : place.IsUsedBy fragments)
    (within : fragments ⊆ others) :
    place.IsUsedBy others := by
  refine used.imp_right ?_
  rintro ⟨jump, isJump, jumps⟩
  exact ⟨jump, within isJump, jumps⟩

/-- A line of a chain stands in the tree with its chain. -/
theorem RuleTree.exists_chain_of_mem_rules
    {tree : RuleTree} {place : Place} {line : RuleLine} (member : line ∈ tree.rules place) :
    ∃ chain ∈ tree.chains, line ∈ chain.2 := by
  unfold RuleTree.rules at member
  cases found : tree.chains.lookup place with
  | none => simp [found] at member
  | some lines =>
      rw [found, Option.getD_some] at member
      obtain ⟨early, late, same, -⟩ := List.lookup_eq_some_iff.1 found
      exact ⟨(place, lines), by simp [same], member⟩

/-! ## Batches -/

/-- Two parts of a run, with what happens between them. -/
theorem RunsAll.exists_split_of_mem
    {batches : List Batch} {before after : Build} (runs : RunsAll batches before after)
    {batch : Batch} (member : batch ∈ batches) :
    ∃ early late start stop, batches = early ++ batch :: late ∧ RunsAll early before start ∧
      batch.Runs start stop ∧ RunsAll late stop after := by
  induction runs with
  | nil => exact absurd member List.not_mem_nil
  | @cons first rest before middle after runsFirst tail inductionHypothesis =>
      rcases List.mem_cons.1 member with rfl | later
      · exact ⟨[], rest, before, middle, rfl, RunsAll.nil, runsFirst, tail⟩
      · obtain ⟨early, late, start, stop, rfl, runsEarly, runs, runsLate⟩ :=
          inductionHypothesis later
        exact ⟨first :: early, late, start, stop, rfl, RunsAll.cons runsFirst runsEarly, runs,
          runsLate⟩

/-- Jumps of a batch are in the tree. -/
theorem RunsAll.jumpsTo_of_isUsedBy
    {batches : List Batch} {before after : Build} (runs : RunsAll batches before after)
    {batch : Batch} (member : batch ∈ batches) {place : Place}
    (used : place.IsUsedBy batch.fragments) :
    place.chain ∈ Restore.builtinChains place.table ∨ after.assembly.tree.JumpsTo place := by
  refine used.imp_right ?_
  rintro ⟨jump, isJump, goes, origin, isOrigin, family, table⟩
  obtain ⟨early, late, start, stop, -, -, first, rest⟩ := runs.exists_split_of_mem member
  refine rest.jumpsTo_mono ?_
  have isRule : (⟨jump, .named, true⟩ : ChainRule) ∈ batch.rules :=
    List.mem_map_of_mem (f := fun fragment => ({ fragment } : ChainRule)) isJump
  exact jumpsTo_of_mem first.inserts isRule isOrigin family table goes

namespace Compilation

/-- In the course of the compilation the piece is expanded: a rule of the policy by itself, or a rule
that is derived from one. -/
def Expands (compilation : Compilation) (piece : Rule.Piece) : Prop :=
  ∃ early batch late start before after,
    Building.Ran (early ++ batch :: late) start compilation.build ∧
    RunsAll early start before ∧ batch.Runs before after ∧
    RunsAll late after compilation.build ∧
    ∃ rule pieces, batch.origin = some rule ∧
      rule.Composed pieces before.context batch.fragments after.context ∧ piece ∈ pieces

variable {compilation : Compilation} {start before after : Build} {early late : List Batch}
  {batch : Batch}

/-- A batch uses the chains that it has rules in, unless they belong to rules that match nothing. -/
theorem isUsedBy_or_isIdle
    (ran : Building.Ran (early ++ batch :: late) start compilation.build)
    (runsEarly : RunsAll early start before) (runs : batch.Runs before after)
    (runsLate : RunsAll late after compilation.build) {fragment : Fragment}
    (member : fragment ∈ batch.fragments) {place : Place}
    (stands : fragment.place? = some place) :
    place.IsUsedBy batch.fragments ∨
      ∃ piece, compilation.Expands piece ∧ piece.IsIdle place.chain := by
  have isBatch : batch ∈ early ++ batch :: late := by simp
  have builtin := Builtin.subset_ordered (label_mem_origins ran.labels isBatch).1
  have expands := runs.expands
  cases expands with
  | @object described rule fragments expanded =>
      obtain ⟨pieces, composed⟩ := Rule.exists_composed expanded
      obtain ⟨piece, isPiece, inOwn, within, own, -, -⟩ := composed.exists_piece member
      refine (Rule.isUsedBy_of_mem_ownFragments own inOwn stands).imp (fun used => used.mono within)
        fun idle => ⟨piece, ?_, idle⟩
      exact ⟨early, _, late, start, before, after, ran, runsEarly, runs, runsLate, rule, pieces,
        rfl, composed, isPiece⟩
  | virtual isVirtual expanded =>
      obtain ⟨located, again, _, used⟩ := Builtin.exists_place_of_mem_rules
        (Builtin.rules_of_isVirtual _ builtin isVirtual) expanded member
      obtain rfl := Option.some.inj (stands.symm.trans again)
      exact Or.inl used

/-- Every chain of a compiled policy is built into its table, or a rule of the same table and family
jumps to it, or it is a chain of a rule's own that matches nothing. -/
theorem jumpsTo_of_ofPolicy (policy : Policy) (hosts : HostBook) (given : Option Settings)
    (compilation : Compilation)
    (compiled : ofPolicy policy Builtin.modules hosts given = .ok compilation)
    (chain : Place × List RuleLine) (member : chain ∈ compilation.tree.chains) :
    chain.1.chain ∈ Restore.builtinChains chain.1.table ∨ compilation.tree.JumpsTo chain.1 ∨
      ∃ piece, compilation.Expands piece ∧ piece.IsIdle chain.1.chain := by
  obtain ⟨settings, run⟩ := ofPolicy_eq_ok compiled
  obtain ⟨start, batches, ran, -⟩ :=
    Building.runs_of_compilePolicy Building.survives_true trivial run
  rcases ran.runs.isOpen_cases (RuleTree.isOpen_of_mem member) with isOpen | opened
  · rw [ran.empty] at isOpen
    cases isOpen
  · obtain ⟨batch, isBatch, rule, isRule, stands | ⟨-, jumps⟩⟩ := opened
    · obtain ⟨early, late, before, after, rfl, runsEarly, runs, runsLate⟩ :=
        ran.runs.exists_split_of_mem isBatch
      obtain ⟨fragment, isFragment, rfl⟩ := List.mem_map.1 isRule
      rcases isUsedBy_or_isIdle ran runsEarly runs runsLate isFragment stands with used | idle
      · exact (ran.runs.jumpsTo_of_isUsedBy isBatch used).imp_right Or.inl
      · exact Or.inr (Or.inr idle)
    · exact Or.inr (Or.inl jumps)

/-- A limited rule for traffic from the firewall to itself, which passes no hook. -/
def idlePolicy : Policy :=
  { objects := [("filter", .list [.map [(.text "in", .text "_fw"), (.text "out", .text "_fw"),
      (.text "flow-limit", .int 3)]])] }

theorem limit_notMem_builtin : "limit-0" ∉ Restore.builtinChains "filter" := by
  decide

theorem exists_idlePolicy :
    ∃ compilation, ofPolicy idlePolicy Builtin.modules .none (some { ipv6 := false }) =
        .ok compilation ∧
      (∃ lines, (⟨"inet", "filter", "limit-0"⟩, lines) ∈ compilation.tree.chains) ∧
      ¬compilation.tree.JumpsTo ⟨"inet", "filter", "limit-0"⟩ := by
  obtain ⟨compilation, compiled, isBuild⟩ :=
    exists_of_process idlePolicy .none { ipv6 := false } (by decide +kernel) (by decide +kernel)
  have isOpen : ∃ chain ∈ compilation.tree.chains,
      chain.1 = (⟨"inet", "filter", "limit-0"⟩ : Place) := by
    rw [tree, isBuild]
    decide +kernel
  have elsewhere : ∀ chain ∈ compilation.tree.chains, ∀ line ∈ chain.2,
      line.target ≠ some "limit-0" := by
    rw [tree, isBuild]
    decide +kernel
  obtain ⟨⟨_, lines⟩, member, rfl⟩ := isOpen
  refine ⟨compilation, compiled, ⟨lines, member⟩, ?_⟩
  rintro ⟨origin, _, _, line, isLine, goes⟩
  obtain ⟨chain, isChain, inChain⟩ := RuleTree.exists_chain_of_mem_rules isLine
  exact elsewhere chain isChain line inChain goes

/-- The limit chain of a rule that matches nothing is kept, although nothing jumps to it. -/
theorem not_jumpsTo_of_idlePolicy :
    ¬∀ (policy : Policy) (hosts : HostBook) (given : Option Settings) (compilation : Compilation),
      ofPolicy policy Builtin.modules hosts given = .ok compilation →
      ∀ chain ∈ compilation.tree.chains,
        chain.1.chain ∈ Restore.builtinChains chain.1.table ∨
          compilation.tree.JumpsTo chain.1 := by
  intro holds
  obtain ⟨compilation, compiled, ⟨lines, member⟩, unused⟩ := exists_idlePolicy
  rcases holds _ _ _ _ compiled _ member with isBuiltin | jumps
  · exact limit_notMem_builtin isBuiltin
  · exact unused jumps

/-- The rule that such a chain belongs to does match nothing. -/
theorem isIdle_of_idlePolicy :
    ∃ compilation, ofPolicy idlePolicy Builtin.modules .none (some { ipv6 := false }) =
        .ok compilation ∧
      ∃ piece, compilation.Expands piece ∧ piece.IsIdle "limit-0" := by
  obtain ⟨compilation, compiled, ⟨lines, member⟩, unused⟩ := exists_idlePolicy
  refine ⟨compilation, compiled, ?_⟩
  rcases jumpsTo_of_ofPolicy _ _ _ _ compiled _ member with isBuiltin | jumps | idle
  · exact absurd isBuiltin limit_notMem_builtin
  · exact absurd jumps unused
  · exact idle

end Compilation

end FirewallPolicy
