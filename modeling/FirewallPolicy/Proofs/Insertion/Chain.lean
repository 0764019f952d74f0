import FirewallPolicy.Proofs.Insertion.Steps

/-!
# What an insertion does to one chain

A chain that is not brought in by an insertion gets exactly the rules that stand there: those for
the front behind the ones that this insertion put there before, the others at the end.  A chain
that is brought in gets its body, once.  Whatever jumps to a chain, the chain was looked up.
-/

namespace FirewallPolicy

/-! ## Rules at a place -/

namespace Assembly

/-- The lines of the rules that an insertion puts to the front of a chain. -/
def prependedAt (place : Place) (rules : List ChainRule) : List RuleLine :=
  (rules.filter fun rule =>
    decide (rule.fragment.place? = some place) && isFront rule).map (·.line)

/-- The lines of the rules that an insertion puts to the end of a chain. -/
def appendedAt (place : Place) (rules : List ChainRule) : List RuleLine :=
  (rules.filter fun rule =>
    decide (rule.fragment.place? = some place) && !isFront rule).map (·.line)

/-- Lines behind the first `front` ones, and lines at the end. -/
def arranged (front : Nat) (lines prepended appended : List RuleLine) : List RuleLine :=
  lines.take front ++ prepended ++ lines.drop front ++ appended

variable {place : Place} {rule : ChainRule} {rest : List ChainRule}

theorem prependedAt_cons_of_front
    (located : rule.fragment.place? = some place) (isFront : isFront rule = true) :
    prependedAt place (rule :: rest) = rule.line :: prependedAt place rest := by
  simp [prependedAt, located, isFront]

theorem prependedAt_cons_of_back
    (isBack : isFront rule = false) :
    prependedAt place (rule :: rest) = prependedAt place rest := by
  simp [prependedAt, isBack]

theorem prependedAt_cons_of_ne
    (elsewhere : rule.fragment.place? ≠ some place) :
    prependedAt place (rule :: rest) = prependedAt place rest := by
  simp [prependedAt, elsewhere]

theorem appendedAt_cons (rule : ChainRule) (rest : List ChainRule) :
    appendedAt place (rule :: rest) = appendedAt place [rule] ++ appendedAt place rest := by
  rw [← List.singleton_append, appendedAt, List.filter_append, List.map_append]
  rfl

theorem appendedAt_singleton_of_front
    (isFront : isFront rule = true) :
    appendedAt place [rule] = [] := by
  simp [appendedAt, isFront]

theorem appendedAt_singleton_of_back
    (located : rule.fragment.place? = some place) (isBack : isFront rule = false) :
    appendedAt place [rule] = [rule.line] := by
  simp [appendedAt, located, isBack]

theorem prependedAt_eq_nil
    {rules : List ChainRule}
    (elsewhere : ∀ rule ∈ rules, rule.fragment.place? ≠ some place) :
    prependedAt place rules = [] := by
  simp only [prependedAt, List.map_eq_nil_iff, List.filter_eq_nil_iff]
  intro rule member
  simp [elsewhere rule member]

theorem appendedAt_eq_nil
    {rules : List ChainRule}
    (elsewhere : ∀ rule ∈ rules, rule.fragment.place? ≠ some place) :
    appendedAt place rules = [] := by
  simp only [appendedAt, List.map_eq_nil_iff, List.filter_eq_nil_iff]
  intro rule member
  simp [elsewhere rule member]

theorem prependedAt_eq_nil_of_back
    {rules : List ChainRule}
    (backs : ∀ rule ∈ rules, isFront rule = false) :
    prependedAt place rules = [] := by
  simp only [prependedAt, List.map_eq_nil_iff, List.filter_eq_nil_iff]
  intro rule member
  simp [backs rule member]

theorem appendedAt_eq_map
    {rules : List ChainRule}
    (stands : ∀ rule ∈ rules, rule.fragment.place? = some place)
    (backs : ∀ rule ∈ rules, isFront rule = false) :
    appendedAt place rules = rules.map (·.line) := by
  rw [appendedAt, List.filter_eq_self.2]
  intro rule member
  simp [stands rule member, backs rule member]

theorem arranged_nil (front : Nat) (lines : List RuleLine) :
    arranged front lines [] [] = lines := by
  simp [arranged]

theorem arranged_insert
    {front : Nat} {lines : List RuleLine}
    (enough : front ≤ lines.length)
    (line : RuleLine) (prepended appended : List RuleLine) :
    arranged (front + 1) (lines.take front ++ line :: lines.drop front) prepended appended =
      arranged front lines (line :: prepended) appended := by
  have length : (lines.take front).length = front := List.length_take_of_le enough
  have taken :
      (lines.take front ++ line :: lines.drop front).take (front + 1) =
        lines.take front ++ [line] := by
    rw [List.take_append, length, List.take_of_length_le (by omega)]
    simp
  have dropped :
      (lines.take front ++ line :: lines.drop front).drop (front + 1) = lines.drop front := by
    rw [List.drop_append, length, List.drop_of_length_le (by omega)]
    simp
  simp [arranged, taken, dropped]

theorem arranged_append
    {front : Nat} {lines : List RuleLine}
    (enough : front ≤ lines.length)
    (more prepended appended : List RuleLine) :
    arranged front (lines ++ more) prepended appended =
      arranged front lines prepended (more ++ appended) := by
  simp [arranged, List.take_append_of_le_length enough, List.drop_append_of_le_length enough]

/-! ## Single steps -/

@[simp]
theorem rules_reach
    (assembly : Assembly) (rule : ChainRule) (opened place : Place) :
    (assembly.reach rule opened).tree.rules place = assembly.tree.rules place :=
  RuleTree.rules_openChain ..

theorem isOpen_reach_self
    (assembly : Assembly) (rule : ChainRule) (place : Place) :
    (assembly.reach rule place).tree.isOpen place = true :=
  (RuleTree.isOpen_openChain ..).2 (Or.inr rfl)

@[simp]
theorem rules_noteTarget
    (assembly : Assembly) (noted place : Place) :
    (assembly.noteTarget noted).tree.rules place = assembly.tree.rules place := by
  unfold noteTarget
  split
  · exact RuleTree.rules_openChain ..
  · rfl

theorem isOpen_noteTarget
    {assembly : Assembly} {place : Place} (noted : Place)
    (isOpen : assembly.tree.isOpen place = true) :
    (assembly.noteTarget noted).tree.isOpen place = true := by
  unfold noteTarget
  split
  · exact (RuleTree.isOpen_openChain ..).2 (Or.inl isOpen)
  · exact isOpen

@[simp]
theorem isOpen_place
    (assembly : Assembly) (rule : ChainRule) (located place : Place) (front : Nat) :
    (assembly.place rule located front).tree.isOpen place =
      assembly.tree.isOpen place := by
  unfold Assembly.place
  split <;> exact RuleTree.isOpen_update ..

theorem rules_place_of_ne
    {located place : Place} (different : place ≠ located)
    (assembly : Assembly) (rule : ChainRule) (front : Nat) :
    (assembly.place rule located front).tree.rules place = assembly.tree.rules place := by
  unfold Assembly.place
  split <;> exact RuleTree.rules_update_of_ne _ different

theorem rules_place_front
    {assembly : Assembly} {rule : ChainRule} {place : Place}
    (isFront : isFront rule = true)
    (isOpen : assembly.tree.isOpen place = true) (front : Nat) :
    (assembly.place rule place front).tree.rules place =
      (assembly.tree.rules place).take front ++
        rule.line :: (assembly.tree.rules place).drop front := by
  simp only [Assembly.place, isFront, if_true]
  exact RuleTree.rules_update_self _ isOpen

theorem rules_place_back
    {assembly : Assembly} {rule : ChainRule} {place : Place}
    (isBack : isFront rule = false)
    (isOpen : assembly.tree.isOpen place = true) (front : Nat) :
    (assembly.place rule place front).tree.rules place =
      assembly.tree.rules place ++ [rule.line] := by
  simp only [Assembly.place, isBack, Bool.false_eq_true, if_false]
  exact RuleTree.rules_update_self _ isOpen

theorem count_nextFront_of_ne
    {located place : Place} (different : place ≠ located)
    (front : List Place) (rule : ChainRule) :
    (nextFront front rule located).count place = front.count place := by
  unfold nextFront
  split
  · exact List.count_cons_of_ne (Ne.symm different)
  · rfl

section Placing

variable {assembly : Assembly} {front : List Place} {located : Place}

theorem count_nextFront_le
    (isOpen : assembly.tree.isOpen located = true)
    (enough : front.count place ≤ (assembly.tree.rules place).length) :
    (nextFront front rule located).count place ≤
      ((assembly.place rule located (front.count located)).tree.rules place).length := by
  by_cases same : place = located
  · subst same
    cases isFront : Assembly.isFront rule with
    | true =>
        rw [rules_place_front isFront isOpen, nextFront, if_pos isFront, List.count_cons_self]
        simp
        omega
    | false =>
        rw [rules_place_back isFront isOpen, nextFront, isFront]
        simp
        omega
  · rwa [count_nextFront_of_ne same, rules_place_of_ne same]

/-- What one rule does to the arrangement of the rules that are still to come, in its own chain and
in all others. -/
theorem arranged_place
    (isPlace : rule.fragment.place? = some located)
    (isOpen : assembly.tree.isOpen located = true)
    (enough : front.count place ≤ (assembly.tree.rules place).length)
    (appended : List RuleLine) :
    arranged ((nextFront front rule located).count place)
        ((assembly.place rule located (front.count located)).tree.rules place)
        (prependedAt place rest) appended =
      arranged (front.count place) (assembly.tree.rules place)
        (prependedAt place (rule :: rest)) (appendedAt place [rule] ++ appended) := by
  by_cases same : place = located
  · subst same
    cases isFront : Assembly.isFront rule with
    | true =>
        rw [rules_place_front isFront isOpen, prependedAt_cons_of_front isPlace isFront,
          appendedAt_singleton_of_front isFront, nextFront, if_pos isFront, List.count_cons_self]
        exact arranged_insert enough ..
    | false =>
        rw [rules_place_back isFront isOpen, prependedAt_cons_of_back isFront,
          appendedAt_singleton_of_back isPlace isFront, nextFront, isFront]
        exact arranged_append enough ..
  · have elsewhere : rule.fragment.place? ≠ some place := by
      rw [isPlace]
      exact fun equal => same (Option.some.inj equal).symm
    rw [rules_place_of_ne same, count_nextFront_of_ne same, prependedAt_cons_of_ne elsewhere,
      appendedAt_eq_nil (by simpa using elsewhere), List.nil_append]

end Placing

/-! ## Whole insertions -/

variable {source : ChainSource} {front : List Place} {rules : List ChainRule}
  {assembly after : Assembly}

theorem Inserts.isOpen_mono
    (inserts : Inserts source front rules assembly after)
    (isOpen : assembly.tree.isOpen place = true) :
    after.tree.isOpen place = true := by
  induction inserts with
  | nil => exact isOpen
  | plain _ _ _ _ tail =>
      refine tail ?_
      rw [isOpen_place]
      exact (RuleTree.isOpen_openChain ..).2 (Or.inl isOpen)
  | bringing _ _ _ _ _ _ inner tail =>
      refine tail ?_
      rw [isOpen_place]
      exact inner (isOpen_noteTarget _ ((RuleTree.isOpen_openChain ..).2 (Or.inl isOpen)))

/-- An insertion brings nothing into the chain at a place. -/
def Settled (source : ChainSource) (place : Place) (assembly after : Assembly) : Prop :=
  place ∈ assembly.expanded ∨ place ∉ after.expanded ∨
    ∀ owner body, source.body owner place = .ok body → body = []

theorem Settled.narrow
    {noted filled : Assembly}
    (settled : Settled source place assembly after)
    (grown : assembly.expanded ⊆ noted.expanded)
    (kept : filled.expanded ⊆ after.expanded) :
    Settled source place noted filled := by
  rcases settled with known | unknown | empty
  · exact Or.inl (grown known)
  · exact Or.inr (Or.inl fun known => unknown (kept known))
  · exact Or.inr (Or.inr empty)

/-- Nothing of what is brought in stands in a chain that is settled. -/
theorem Settled.body_elsewhere
    {located : Place} {target owner : String} {body : List ChainRule}
    (settled : Settled source place assembly after)
    (read : source.body owner (located.withChain target) = .ok body)
    (fresh : located.withChain target ∉ assembly.expanded)
    (looked : located.withChain target ∈ after.expanded) :
    ∀ inserted ∈ body, inserted.fragment.place? ≠ some place := by
  intro inserted member stands
  rw [(ChainSource.bodyAt_of_body_eq_ok read).place inserted member, Option.some.injEq] at stands
  subst stands
  rcases settled with known | unknown | empty
  · exact fresh known
  · exact unknown looked
  · rw [empty owner body read] at member
    exact absurd member (List.not_mem_nil)

/-- A chain into which nothing is brought gets the rules that stand there.  The bodies of the
chains that are brought in stand elsewhere. -/
theorem Inserts.rules_eq_arranged
    (inserts : Inserts source front rules assembly after)
    (enough : front.count place ≤ (assembly.tree.rules place).length)
    (settled : Settled source place assembly after) :
    after.tree.rules place =
      arranged (front.count place) (assembly.tree.rules place)
        (prependedAt place rules) (appendedAt place rules) := by
  induction inserts with
  | nil => exact (arranged_nil ..).symm
  | @plain front rule rest assembly after located isPlace _ _ _ tail =>
      have isOpen := isOpen_reach_self assembly rule located
      have reached : front.count place ≤
          ((assembly.reach rule located).tree.rules place).length := by
        rwa [rules_reach]
      rw [tail (count_nextFront_le isOpen reached) settled,
        arranged_place isPlace isOpen reached, rules_reach, ← appendedAt_cons]
  | @bringing front rule rest body assembly filled after located target owner isPlace fresh
      read inside _ tail' inner tail =>
      have looked : located.withChain target ∈ filled.expanded :=
        inside.expanded_subset (List.mem_cons_self ..)
      have bodyElsewhere := settled.body_elsewhere read (newTarget?_eq_some fresh).2.2
        (tail'.expanded_subset looked)
      have grown : assembly.expanded ⊆ (Assembly.noteTarget (assembly.reach rule located)
          (located.withChain target)).expanded :=
        List.subset_cons_self ..
      -- The body of the target stands in the chain of the target, which is another one.
      have filledRules : filled.tree.rules place = assembly.tree.rules place := by
        rw [inner (Nat.zero_le _) (settled.narrow grown tail'.expanded_subset),
          prependedAt_eq_nil bodyElsewhere, appendedAt_eq_nil bodyElsewhere, arranged_nil,
          rules_noteTarget, rules_reach]
      have settledAfter : Settled source place
          (filled.place rule located (front.count located)) after :=
        settled.narrow (fun _ known => inside.expanded_subset (grown known))
          (List.Subset.refl _)
      have enoughFilled : front.count place ≤ (filled.tree.rules place).length := by
        rwa [filledRules]
      have isOpen : filled.tree.isOpen located = true :=
        inside.isOpen_mono (isOpen_noteTarget _ (isOpen_reach_self assembly rule located))
      rw [tail (count_nextFront_le isOpen enoughFilled) settledAfter,
        arranged_place isPlace isOpen enoughFilled, filledRules, ← appendedAt_cons]

/-- Where no rule stands, an insertion leaves a chain as it is unless it brings the chain in. -/
theorem Inserts.rules_of_elsewhere
    (inserts : Inserts source front rules assembly after)
    (enough : front.count place ≤ (assembly.tree.rules place).length)
    (settled : Settled source place assembly after)
    (elsewhere : ∀ rule ∈ rules, rule.fragment.place? ≠ some place) :
    after.tree.rules place = assembly.tree.rules place := by
  rw [inserts.rules_eq_arranged enough settled, prependedAt_eq_nil elsewhere,
    appendedAt_eq_nil elsewhere, arranged_nil]

/-- A chain that is brought in gets its body once, among the rules that are appended to it. -/
theorem Inserts.exists_rules_of_looked
    (inserts : Inserts source front rules assembly after)
    (enough : front.count place ≤ (assembly.tree.rules place).length)
    (fresh : place ∉ assembly.expanded)
    (looked : place ∈ after.expanded)
    (backs : ∀ owner body, source.body owner place = .ok body →
      ∀ rule ∈ body, isFront rule = false) :
    ∃ owner body first last, source.body owner place = .ok body ∧
      appendedAt place rules = first ++ last ∧
      after.tree.rules place = arranged (front.count place) (assembly.tree.rules place)
        (prependedAt place rules) (first ++ body.map (·.line) ++ last) := by
  induction inserts with
  | nil => exact absurd looked fresh
  | @plain front rule rest assembly after located isPlace _ _ _ tail =>
      have isOpen := isOpen_reach_self assembly rule located
      have reached : front.count place ≤
          ((assembly.reach rule located).tree.rules place).length := by
        rwa [rules_reach]
      obtain ⟨owner, body, first, last, read, split, result⟩ :=
        tail (count_nextFront_le isOpen reached) fresh looked
      refine ⟨owner, body, appendedAt place [rule] ++ first, last, read, ?_, ?_⟩
      · rw [appendedAt_cons, split, List.append_assoc]
      · rw [result, arranged_place isPlace isOpen reached, rules_reach]
        simp only [List.append_assoc]
  -- The chain is the target of this rule, or it is brought in below the target, or later.
  | @bringing front rule rest body assembly filled after located target owner isPlace _
      read inside _ tail' inner tail =>
      have isOpen : filled.tree.isOpen located = true :=
        inside.isOpen_mono (isOpen_noteTarget _ (isOpen_reach_self assembly rule located))
      have bodyAt := ChainSource.bodyAt_of_body_eq_ok read
      have bodyElsewhere (other : place ≠ located.withChain target) :
          ∀ inserted ∈ body, inserted.fragment.place? ≠ some place := by
        intro inserted member stands
        rw [bodyAt.place inserted member, Option.some.injEq] at stands
        exact other stands.symm
      have noted : located.withChain target ∈ (Assembly.noteTarget (assembly.reach rule located)
          (located.withChain target)).expanded :=
        List.mem_cons_self ..
      by_cases known : place ∈ filled.expanded
      · have filledRules : ∃ bringer brought, source.body bringer place = .ok brought ∧
            filled.tree.rules place = assembly.tree.rules place ++ brought.map (·.line) := by
          by_cases isTarget : place = located.withChain target
          · subst isTarget
            refine ⟨owner, body, read, ?_⟩
            rw [inside.rules_eq_arranged (Nat.zero_le _) (Or.inl noted),
              prependedAt_eq_nil_of_back (backs owner body read),
              appendedAt_eq_map bodyAt.place (backs owner body read)]
            simp [arranged]
          · obtain ⟨bringer, brought, first, last, readInside, split, result⟩ :=
              inner (Nat.zero_le _) (List.not_mem_cons_of_ne_of_not_mem isTarget fresh) known
            rw [appendedAt_eq_nil (bodyElsewhere isTarget), eq_comm,
              List.append_eq_nil_iff] at split
            obtain ⟨rfl, rfl⟩ := split
            refine ⟨bringer, brought, readInside, ?_⟩
            rw [result, prependedAt_eq_nil (bodyElsewhere isTarget)]
            simp [arranged]
        obtain ⟨bringer, brought, readInside, filledRules⟩ := filledRules
        have enoughFilled : front.count place ≤ (filled.tree.rules place).length := by
          rw [filledRules, List.length_append]
          omega
        refine ⟨bringer, brought, [], appendedAt place (rule :: rest), readInside, rfl, ?_⟩
        rw [tail'.rules_eq_arranged (count_nextFront_le isOpen enoughFilled) (Or.inl known),
          arranged_place isPlace isOpen enoughFilled, ← appendedAt_cons, filledRules,
          arranged_append enough, List.nil_append]
      · have isOther : place ≠ located.withChain target := by
          rintro rfl
          exact known (inside.expanded_subset noted)
        have filledRules : filled.tree.rules place = assembly.tree.rules place := by
          rw [inside.rules_of_elsewhere (Nat.zero_le _) (Or.inr (Or.inl known))
            (bodyElsewhere isOther), rules_noteTarget, rules_reach]
        have enoughFilled : front.count place ≤ (filled.tree.rules place).length := by
          rwa [filledRules]
        obtain ⟨bringer, brought, first, last, readAfter, split, result⟩ :=
          tail (count_nextFront_le isOpen enoughFilled) known looked
        refine ⟨bringer, brought, appendedAt place [rule] ++ first, last, readAfter, ?_, ?_⟩
        · rw [appendedAt_cons, split, List.append_assoc]
        · rw [result, arranged_place isPlace isOpen enoughFilled, filledRules]
          simp only [List.append_assoc]

/-- A chain that is brought in gets its body behind what stands there. -/
theorem Inserts.rules_of_brought
    (inserts : Inserts source front rules assembly after)
    (notFront : front.count place = 0)
    (fresh : place ∉ assembly.expanded)
    (looked : place ∈ after.expanded)
    (elsewhere : ∀ rule ∈ rules, rule.fragment.place? ≠ some place)
    (backs : ∀ owner body, source.body owner place = .ok body →
      ∀ rule ∈ body, isFront rule = false) :
    ∃ owner body, source.body owner place = .ok body ∧
      after.tree.rules place = assembly.tree.rules place ++ body.map (·.line) := by
  obtain ⟨owner, body, first, last, read, split, result⟩ :=
    inserts.exists_rules_of_looked (by omega) fresh looked backs
  rw [appendedAt_eq_nil elsewhere, eq_comm, List.append_eq_nil_iff] at split
  obtain ⟨rfl, rfl⟩ := split
  refine ⟨owner, body, read, ?_⟩
  rw [result, prependedAt_eq_nil elsewhere, notFront]
  simp [arranged]

/-! ## Jumps -/

/-- Every chain that a rule of the tree jumps to was looked up. -/
def Reaches (assembly : Assembly) : Prop :=
  ∀ place, ∀ line ∈ assembly.tree.rules place, ∀ target,
    line.target = some target → target.isEmpty = false →
      place.withChain target ∈ assembly.expanded

theorem mem_rules_place
    {located : Place} {count : Nat} {line : RuleLine}
    (isOpen : assembly.tree.isOpen located = true)
    (member : line ∈ (assembly.place rule located count).tree.rules place) :
    line ∈ assembly.tree.rules place ∨ (place = located ∧ line = rule.line) := by
  by_cases same : place = located
  · subst same
    cases isFront : Assembly.isFront rule with
    | true =>
        rw [rules_place_front isFront isOpen] at member
        rcases List.mem_append.1 member with early | late
        · exact Or.inl (List.mem_of_mem_take early)
        · rcases List.mem_cons.1 late with isLine | later
          · exact Or.inr ⟨rfl, isLine⟩
          · exact Or.inl (List.mem_of_mem_drop later)
    | false =>
        rw [rules_place_back isFront isOpen] at member
        rcases List.mem_append.1 member with early | late
        · exact Or.inl early
        · exact Or.inr ⟨rfl, List.mem_singleton.1 late⟩
  · rw [rules_place_of_ne same] at member
    exact Or.inl member

/-- Putting a rule into the tree keeps the property when the chain it jumps to was looked up. -/
theorem Reaches.placed
    {located : Place} {count : Nat}
    (reaches : Reaches assembly)
    (isOpen : assembly.tree.isOpen located = true)
    (looked : ∀ target, rule.fragment.target = some target → target.isEmpty = false →
      located.withChain target ∈ assembly.expanded) :
    Reaches (assembly.place rule located count) := by
  intro place line member target named nonempty
  rcases mem_rules_place isOpen member with old | ⟨rfl, rfl⟩
  · exact reaches place line old target named nonempty
  · exact looked target named nonempty

theorem Reaches.reach
    (reaches : Reaches assembly) (rule : ChainRule) (opened : Place) :
    Reaches (assembly.reach rule opened) := by
  intro place line member
  rw [rules_reach] at member
  exact reaches place line member

theorem Reaches.noteTarget
    (reaches : Reaches assembly) (noted : Place) :
    Reaches (assembly.noteTarget noted) := by
  intro place line member target named nonempty
  rw [rules_noteTarget] at member
  exact List.mem_cons_of_mem _ (reaches place line member target named nonempty)

theorem Inserts.reaches
    (inserts : Inserts source front rules assembly after)
    (reaches : Reaches assembly) :
    Reaches after := by
  induction inserts with
  | nil => exact reaches
  | @plain front rule rest assembly after located _ known _ _ tail =>
      refine tail ((reaches.reach rule located).placed (isOpen_reach_self ..) ?_)
      intro target named nonempty
      exact newTarget?_eq_none known named nonempty
  | @bringing front rule rest body assembly filled after located target owner _ fresh
      _ inside _ _ inner tail =>
      refine tail ((inner ((reaches.reach rule located).noteTarget _)).placed ?_ ?_)
      · exact inside.isOpen_mono (isOpen_noteTarget _ (isOpen_reach_self ..))
      · intro other named _
        obtain rfl : target = other :=
          Option.some.inj ((newTarget?_eq_some fresh).1.symm.trans named)
        exact inside.expanded_subset (List.mem_cons_self ..)

/-- A chain that an insertion looks up is a target of one of its rules, or one that the auxiliary
chains have. -/
theorem Inserts.target_of_looked
    (inserts : Inserts source front rules assembly after)
    (fresh : place ∉ assembly.expanded) (looked : place ∈ after.expanded) :
    (∃ rule ∈ rules, rule.fragment.target = some place.chain) ∨
      place.chain ∈ source.targets := by
  induction inserts with
  | nil => exact absurd looked fresh
  | plain _ _ _ _ tail =>
      refine (tail fresh looked).imp_left ?_
      rintro ⟨rule, member, jumps⟩
      exact ⟨rule, List.mem_cons_of_mem _ member, jumps⟩
  | @bringing front rule rest body assembly filled after located target owner _ isNew
      read _ _ _ inner tail =>
      by_cases isTarget : place = located.withChain target
      · subst isTarget
        exact Or.inl ⟨rule, List.mem_cons_self .., (newTarget?_eq_some isNew).1⟩
      · have freshInside : place ∉ (Assembly.noteTarget (assembly.reach rule located)
            (located.withChain target)).expanded := by
          intro known
          rcases List.mem_cons.1 known with same | older
          · exact isTarget same
          · exact fresh older
        by_cases inFilled : place ∈ filled.expanded
        · refine Or.inr ?_
          rcases inner freshInside inFilled with ⟨inside, member, jumps⟩ | isTarget
          · exact (ChainSource.bodyAt_of_body_eq_ok read).target inside member _ jumps
          · exact isTarget
        · refine (tail inFilled looked).imp_left ?_
          rintro ⟨other, member, jumps⟩
          exact ⟨other, List.mem_cons_of_mem _ member, jumps⟩

end Assembly

end FirewallPolicy
