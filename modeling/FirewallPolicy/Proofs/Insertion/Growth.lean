import FirewallPolicy.Proofs.Insertion.Chain
import FirewallPolicy.Proofs.Insertion.Lookups
import FirewallPolicy.Proofs.Run.Faults

/-!
# What an insertion leaves behind

Rules stay where they were put.  A chain is opened for a rule that stands in it, or because another
rule jumps to it, and that rule is in the tree when the insertion succeeds.  All that an insertion
opens or looks up belongs to a table of one of its rules.
-/

namespace FirewallPolicy

/-- A rule of the tree jumps to the chain from the same table of the same family. -/
def RuleTree.JumpsTo (tree : RuleTree) (place : Place) : Prop :=
  ∃ origin : Place, origin.family = place.family ∧ origin.table = place.table ∧
    ∃ line ∈ tree.rules origin, line.target = some place.chain

namespace Assembly

variable {source : ChainSource} {front : List Place} {rules : List ChainRule}
  {assembly after : Assembly} {place located : Place} {rule : ChainRule} {line : RuleLine}

/-! ## Rules stay -/

theorem mem_rules_place_of_mem
    (isOpen : assembly.tree.isOpen located = true) (member : line ∈ assembly.tree.rules place)
    (count : Nat) :
    line ∈ (assembly.place rule located count).tree.rules place := by
  by_cases same : place = located
  · subst same
    cases isFront : Assembly.isFront rule with
    | true =>
        rw [rules_place_front isFront isOpen]
        rw [← List.take_append_drop count (assembly.tree.rules place)] at member
        exact (List.mem_append.1 member).elim (List.mem_append_left _)
          fun late => List.mem_append_right _ (List.mem_cons_of_mem _ late)
    | false =>
        rw [rules_place_back isFront isOpen]
        exact List.mem_append_left _ member
  · rwa [rules_place_of_ne same]

theorem line_mem_rules_place
    (isOpen : assembly.tree.isOpen place = true) (count : Nat) :
    rule.line ∈ (assembly.place rule place count).tree.rules place := by
  cases isFront : Assembly.isFront rule with
  | true =>
      rw [rules_place_front isFront isOpen]
      exact List.mem_append_right _ (List.mem_cons_self ..)
  | false =>
      rw [rules_place_back isFront isOpen]
      exact List.mem_append_right _ (List.mem_singleton_self _)

/-- The chain of a rule is still open when its target was brought in. -/
theorem Inserts.isOpen_of_reach
    {body : List ChainRule} {filled : Assembly} {noted : Place}
    (inserts : Inserts source front body ((assembly.reach rule place).noteTarget noted) filled) :
    filled.tree.isOpen place = true :=
  inserts.isOpen_mono (isOpen_noteTarget _ (isOpen_reach_self ..))

theorem Inserts.mem_rules_of_mem
    (inserts : Inserts source front rules assembly after)
    (member : line ∈ assembly.tree.rules place) :
    line ∈ after.tree.rules place := by
  induction inserts with
  | nil => exact member
  | plain _ _ _ _ tail =>
      exact tail (mem_rules_place_of_mem (isOpen_reach_self ..) (by rwa [rules_reach]) _)
  | bringing _ _ _ inside _ _ inner tail =>
      refine tail (mem_rules_place_of_mem inside.isOpen_of_reach (inner ?_) _)
      rwa [rules_noteTarget, rules_reach]

/-- Every rule that is inserted stands in its chain. -/
theorem Inserts.line_mem_rules
    (inserts : Inserts source front rules assembly after)
    (member : rule ∈ rules) (stands : rule.fragment.place? = some place) :
    rule.line ∈ after.tree.rules place := by
  induction inserts with
  | nil => exact absurd member List.not_mem_nil
  | plain here _ _ tail' tail =>
      rcases List.mem_cons.1 member with rfl | later
      · obtain rfl := Option.some.inj (here.symm.trans stands)
        exact tail'.mem_rules_of_mem (line_mem_rules_place (isOpen_reach_self ..) _)
      · exact tail later
  | bringing here _ _ inside _ tail' _ tail =>
      rcases List.mem_cons.1 member with rfl | later
      · obtain rfl := Option.some.inj (here.symm.trans stands)
        exact tail'.mem_rules_of_mem (line_mem_rules_place inside.isOpen_of_reach _)
      · exact tail later

theorem jumpsTo_of_mem
    (inserts : Inserts source front rules assembly after) (member : rule ∈ rules)
    (stands : rule.fragment.place? = some located) (family : located.family = place.family)
    (table : located.table = place.table) (jumps : rule.fragment.target = some place.chain) :
    after.tree.JumpsTo place :=
  ⟨located, family, table, rule.line, inserts.line_mem_rules member stands, jumps⟩

theorem Inserts.jumpsTo_mono
    (inserts : Inserts source front rules assembly after) (jumps : assembly.tree.JumpsTo place) :
    after.tree.JumpsTo place := by
  obtain ⟨origin, family, table, line, member, goes⟩ := jumps
  exact ⟨origin, family, table, line, inserts.mem_rules_of_mem member, goes⟩

theorem jumpsTo_place
    (isOpen : assembly.tree.isOpen located = true) (jumps : assembly.tree.JumpsTo place)
    (count : Nat) :
    (assembly.place rule located count).tree.JumpsTo place := by
  obtain ⟨origin, family, table, line, member, goes⟩ := jumps
  exact ⟨origin, family, table, line, mem_rules_place_of_mem isOpen member count, goes⟩

/-! ## Chains that are opened -/

theorem isOpen_noteTarget_cases
    {noted : Place} (isOpen : (assembly.noteTarget noted).tree.isOpen place = true) :
    assembly.tree.isOpen place = true ∨ place = noted := by
  unfold noteTarget at isOpen
  split at isOpen
  · exact (RuleTree.isOpen_openChain ..).1 isOpen
  · exact Or.inl isOpen

/-- The rule stands in a chain of the same table of the same family. -/
def IsBeside (rule : ChainRule) (place : Place) : Prop :=
  ∃ located, rule.fragment.place? = some located ∧ located.family = place.family ∧
    located.table = place.table

/-- What is open in the end was open before, or a rule of the insertion stands there, or it stands
beside and something jumps there. -/
theorem Inserts.isOpen_cases
    (inserts : Inserts source front rules assembly after)
    (isOpen : after.tree.isOpen place = true) :
    assembly.tree.isOpen place = true ∨ ∃ rule ∈ rules,
      rule.fragment.place? = some place ∨ IsBeside rule place ∧ after.tree.JumpsTo place := by
  induction inserts with
  | nil => exact Or.inl isOpen
  | @plain front rule rest assembly after located stands _ _ _ tail =>
      rcases tail isOpen with earlier | ⟨other, member, later⟩
      · rw [isOpen_place] at earlier
        rcases (RuleTree.isOpen_openChain ..).1 earlier with before | rfl
        · exact Or.inl before
        · exact Or.inr ⟨rule, List.mem_cons_self .., Or.inl stands⟩
      · exact Or.inr ⟨other, List.mem_cons_of_mem _ member, later⟩
  | @bringing front rule rest body assembly filled after located target owner stands isNew read
      inside _ tail' inner tail =>
      -- Whatever is opened for the target stands beside the rule, which jumps to the target.
      have beside {place : Place} (family : located.family = place.family)
          (table : located.table = place.table) (jumps : after.tree.JumpsTo place) :
          ∃ other ∈ rule :: rest, other.fragment.place? = some place ∨
            IsBeside other place ∧ after.tree.JumpsTo place :=
        ⟨rule, List.mem_cons_self .., Or.inr ⟨⟨located, stands, family, table⟩, jumps⟩⟩
      have goes : after.tree.JumpsTo (located.withChain target) :=
        ⟨located, rfl, rfl, rule.line,
          tail'.mem_rules_of_mem (line_mem_rules_place inside.isOpen_of_reach _),
          (newTarget?_eq_some isNew).1⟩
      rcases tail isOpen with earlier | ⟨other, member, later⟩
      · rw [isOpen_place] at earlier
        rcases inner earlier with noted | ⟨other, member, inBody⟩
        · rcases isOpen_noteTarget_cases noted with reached | rfl
          · rcases (RuleTree.isOpen_openChain ..).1 reached with before | rfl
            · exact Or.inl before
            · exact Or.inr ⟨rule, List.mem_cons_self .., Or.inl stands⟩
          · exact Or.inr (beside rfl rfl goes)
        · have bodyPlace := (ChainSource.bodyAt_of_body_eq_ok read).place other member
          rcases inBody with there | ⟨⟨_, there, family, table⟩, jumps⟩
          · obtain rfl := Option.some.inj (bodyPlace.symm.trans there)
            exact Or.inr (beside rfl rfl goes)
          · obtain rfl := Option.some.inj (bodyPlace.symm.trans there)
            exact Or.inr (beside family table
              (tail'.jumpsTo_mono (jumpsTo_place inside.isOpen_of_reach jumps _)))
      · exact Or.inr ⟨other, List.mem_cons_of_mem _ member, later⟩

/-! ## Insertions that fail -/

/-- The rules that a task is about have places. -/
def Task.IsPlaced : Task → Prop
  | .insert _ _ rules => ∀ rule ∈ rules, rule.fragment.place?.isSome = true
  | .jump _ _ _ => True

/-- Rules with places, and all that they bring in, are not refused for want of a place. -/
theorem Performs.blameless
    {task : Task} {lookups : List Lookup} {result : Except Failure Unit}
    (performs : Performs source task assembly lookups result after) (placed : task.IsPlaced) :
    Blameless result := by
  induction performs with
  | done | known => exact blameless_ok ()
  | unplaced nowhere =>
      have isPlaced := placed _ (List.mem_cons_self ..)
      rw [nowhere] at isPlaced
      cases isPlaced
  | stopped _ _ inductionHypothesis => exact inductionHypothesis trivial
  | refused _ _ _ _ => exact failsOnly_error.2 rfl
  | placed _ _ _ _ _ tail =>
      exact tail fun rule member => placed rule (List.mem_cons_of_mem _ member)
  | missing _ read =>
      exact failsOnly_error.2 (ChainSource.blameless_body _ read)
  | brought _ read _ inductionHypothesis =>
      refine inductionHypothesis fun rule member => ?_
      rw [(ChainSource.bodyAt_of_body_eq_ok read).place rule member]
      rfl

end Assembly

end FirewallPolicy
