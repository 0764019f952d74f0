import FirewallPolicy.Compile.RuleTree

/-!
# Rules of a tree after a change

Opening a chain changes no rules.  A change of the rules of an open chain changes those rules and
no others.
-/

namespace FirewallPolicy.RuleTree

theorem rules_mk_cons
    (known : Place) (lines : List RuleLine)
    (rest : List (Place × List RuleLine)) (place : Place) :
    rules ⟨(known, lines) :: rest⟩ place =
      if place = known then lines else rules ⟨rest⟩ place := by
  unfold rules
  by_cases same : place = known
  · simp [same]
  · have different : (place == known) = false := beq_false_of_ne same
    simp [List.lookup_cons, different, same]

theorem isOpen_mk_cons
    (known : Place) (lines : List RuleLine)
    (rest : List (Place × List RuleLine)) (place : Place) :
    isOpen ⟨(known, lines) :: rest⟩ place = true ↔
      known = place ∨ isOpen ⟨rest⟩ place = true := by
  simp [isOpen]

/-- Every chain of the tree is open. -/
theorem isOpen_of_mem
    {tree : RuleTree} {chain : Place × List RuleLine} (member : chain ∈ tree.chains) :
    tree.isOpen chain.1 = true :=
  List.any_eq_true.2 ⟨chain, member, by simp⟩

/-! ## Opening -/

theorem isOpen_openChain
    (tree : RuleTree) (opened place : Place) :
    (tree.openChain opened).isOpen place = true ↔
      tree.isOpen place = true ∨ place = opened := by
  unfold openChain
  split
  · next already =>
      constructor
      · exact Or.inl
      · rintro (isOpen | rfl)
        · exact isOpen
        · exact already
  · simp [isOpen, @eq_comm _ opened place]

private theorem rules_append_empty
    (chains : List (Place × List RuleLine)) (opened place : Place) :
    rules ⟨chains ++ [(opened, [])]⟩ place = rules ⟨chains⟩ place := by
  induction chains with
  | nil =>
      rw [List.nil_append, rules_mk_cons]
      by_cases same : place = opened <;> simp [same, rules]
  | cons chain rest inductionHypothesis =>
      obtain ⟨known, lines⟩ := chain
      rw [List.cons_append, rules_mk_cons, rules_mk_cons, inductionHypothesis]

@[simp]
theorem rules_openChain
    (tree : RuleTree) (opened place : Place) :
    (tree.openChain opened).rules place = tree.rules place := by
  unfold openChain
  split
  · rfl
  · exact rules_append_empty tree.chains opened place

/-! ## Changing -/

@[simp]
theorem isOpen_update
    (tree : RuleTree) (changed place : Place)
    (change : List RuleLine → List RuleLine) :
    (tree.update changed change).isOpen place = tree.isOpen place := by
  simp only [isOpen, update, List.any_map]
  refine congrArg (fun test => List.any tree.chains test) (funext fun chain => ?_)
  by_cases same : chain.1 = changed <;> simp [same]

theorem rules_update_of_ne
    {tree : RuleTree} {changed place : Place}
    (change : List RuleLine → List RuleLine)
    (different : place ≠ changed) :
    (tree.update changed change).rules place = tree.rules place := by
  obtain ⟨chains⟩ := tree
  induction chains with
  | nil => rfl
  | cons chain rest inductionHypothesis =>
      obtain ⟨known, lines⟩ := chain
      simp only [update, List.map_cons] at inductionHypothesis ⊢
      by_cases isChanged : known = changed
      · subst isChanged
        simp [rules_mk_cons, different, inductionHypothesis]
      · simp [rules_mk_cons, isChanged, inductionHypothesis]

theorem rules_update_self
    {tree : RuleTree} {changed : Place}
    (change : List RuleLine → List RuleLine)
    (isOpen : tree.isOpen changed = true) :
    (tree.update changed change).rules changed = change (tree.rules changed) := by
  obtain ⟨chains⟩ := tree
  induction chains with
  | nil => simp [RuleTree.isOpen] at isOpen
  | cons chain rest inductionHypothesis =>
      obtain ⟨known, lines⟩ := chain
      simp only [update, List.map_cons] at inductionHypothesis ⊢
      by_cases isChanged : known = changed
      · simp [rules_mk_cons, isChanged]
      · have different : changed ≠ known := Ne.symm isChanged
        have restOpen : RuleTree.isOpen ⟨rest⟩ changed = true :=
          ((isOpen_mk_cons known lines rest changed).1 isOpen).resolve_left isChanged
        simp [rules_mk_cons, isChanged, different, inductionHypothesis restOpen]

end FirewallPolicy.RuleTree
