import FirewallPolicy.Proofs.Rule.LimitChain
import FirewallPolicy.Proofs.Rule.Narrowing

/-!
# Splitting actions off into a chain

Several actions are not written behind each match: they are put into a chain, and the matches jump
there.  Traffic that follows a match does the same as if the actions stood there in its place.  This
needs a chain with a name in which nothing else stands, and for the chains of the program there is
one.
-/

namespace FirewallPolicy

open Context Run Stateful

namespace Fragment

/-! ## What traffic meets -/

/-- An action only restricts the family, matches and jumps. -/
structure IsAction (fragment : Fragment) : Prop where
  table : fragment.table = none
  chain : fragment.chain = none
  position : fragment.position = none
  index : fragment.index = none

/-- What traffic meets in a rule behind tokens that it matched already: all that it has to match,
and where it goes then. -/
def stepBehind (tokens : List String) (fragment : Fragment) : List String × Option String :=
  (tokens ++ fragment.tokens, fragment.target)

/-- The rules that stand in the chain, if there is one. -/
def chainRules (chain : Option String) (rules : List Fragment) : List Fragment :=
  rules.filter fun rule => chain.isSome && rule.chain == chain

/-- What traffic of the family meets along an entry: the rules of the chain where the entry jumps
there, and else what the entry itself says.  A chain without a name is not jumped to. -/
def executed (chain : Option String) (rules : List Fragment) (family : String)
    (entry : Fragment) : List (List String × Option String) :=
  if !entry.isKept (· == family) then []
  else if namesTarget chain && entry.target == chain then
    (narrow (· == family) (chainRules chain rules)).map (stepBehind entry.tokens)
  else [entry.stepBehind []]

/-- The fragment, standing in the chain. -/
def inChain (chain : String) (fragment : Fragment) : Fragment :=
  { fragment with chain := some chain }

/-- The fragment, jumping to the chain. -/
def toChain (chain : String) (fragment : Fragment) : Fragment :=
  { fragment with target := some chain }

variable {matched actions : List Fragment} {chain family : String}

/-- Along a jump to the chain, traffic meets what is put there. -/
theorem executed_of_jump
    {part : Fragment} {rules put : List Fragment} (named : chain ≠ "")
    (holds : chainRules (some chain) rules = put) (usable : part.isKept (· == family)) :
    executed (some chain) rules family (part.toChain chain) =
      (narrow (· == family) put).map (stepBehind part.tokens) := by
  have sameKept : (part.toChain chain).isKept (· == family) = part.isKept (· == family) := rfl
  have jumps : (namesTarget (some chain) && some chain == some chain) = true := by
    simp [namesTarget, named]
  rw [executed, sameKept, usable, holds]
  exact if_pos jumps

/-- What changes neither families nor steps does not change what traffic meets. -/
theorem narrow_map_steps
    {keep : String → Bool} {tokens : List String} (change : Fragment → Fragment)
    (sameFamily : ∀ fragment, (change fragment).family = fragment.family)
    (sameStep : ∀ fragment, (change fragment).stepBehind tokens = fragment.stepBehind tokens)
    (fragments : List Fragment) :
    (narrow keep (fragments.map change)).map (stepBehind tokens) =
      (narrow keep fragments).map (stepBehind tokens) := by
  rw [narrow_map sameFamily, List.map_map]
  exact List.map_congr_left fun fragment _ => sameStep fragment

/-! ## Merging with one fragment -/

theorem merge_action
    {part action : Fragment} (noTarget : part.target = none) (isAction : action.IsAction)
    (compatible : Compatible part.family action.family) :
    part.merge action = some { part with
      family := part.family.or action.family
      tokens := part.tokens ++ action.tokens
      target := action.target } := by
  refine merge_eq_some_iff.2 ⟨⟨compatible, ?_, ?_, ?_, ?_, ?_⟩, ?_⟩
  · simp [isAction.table, Compatible]
  · simp [isAction.chain, Compatible]
  · simp [noTarget, Compatible]
  · simp [isAction.position, Compatible]
  · simp [isAction.index, Compatible]
  · simp [union, isAction.table, isAction.chain, isAction.position, isAction.index, noTarget]

theorem family_compatible_of_merge
    {part action entry : Fragment} (merges : part.merge action = some entry) :
    Compatible part.family action.family :=
  (merge_eq_some_iff.1 merges).1.family

/-- Fragments that are usable in one family are compatible. -/
theorem compatible_of_isKept
    {part action : Fragment} (usable : part.isKept (· == family))
    (usableToo : action.isKept (· == family)) :
    Compatible part.family action.family := by
  intro mine isMine theirs isTheirs
  unfold isKept at usable usableToo
  rw [isMine, Option.all_some, beq_iff_eq] at usable
  rw [isTheirs, Option.all_some, beq_iff_eq] at usableToo
  exact usable.trans usableToo.symm

/-- A product with one fragment that merges into each of the others changes each of them. -/
theorem product_single_eq_map
    {fragments : List Fragment} {added : Fragment} {change : Fragment → Fragment}
    (merges : ∀ fragment ∈ fragments, fragment.merge added = some (change fragment)) :
    product fragments [added] = fragments.map change := by
  rw [product_single, List.filterMap_congr merges, List.filterMap_eq_map']

/-! ## Bodies of chains -/

/-- The families of the jumps that a family selects are this family, once, if there is such a
jump. -/
theorem filter_jumpFamilies {jumps : List Fragment} (jumped : some family ∈ jumps.map (·.family)) :
    (Rule.jumpFamilies jumps).filter (· == family) = [family] := by
  rw [List.filter_beq, (Rule.nodup_jumpFamilies jumps).count,
    if_pos (Rule.mem_jumpFamilies.2 jumped)]
  rfl

/-- In the body of a chain, traffic of a family that some jump lets in meets the actions of that
family. -/
theorem narrow_chainBody
    {jumps : List Fragment} {jump : Fragment} (member : jump ∈ jumps)
    (usable : jump.isKept (· == family)) (tokens : List String) :
    (narrow (· == family) (Rule.chainBody jumps actions)).map (stepBehind tokens) =
      (narrow (· == family) actions).map (stepBehind tokens) := by
  unfold Rule.chainBody
  extract_lets families
  split
  · rfl
  · next restricted =>
      simp only [Bool.or_eq_true, not_or] at restricted
      have isFamily : jump.family = some family := by
        cases isFamily : jump.family with
        | none =>
            have listed : none ∈ families :=
              List.mem_eraseDups.2 (List.mem_map.2 ⟨jump, member, isFamily⟩)
            exact absurd (List.contains_iff_mem.2 listed) restricted.2
        | some own =>
            rw [isKept, isFamily, Option.all_some, beq_iff_eq] at usable
            rw [usable]
      have jumped : some family ∈ jumps.map (·.family) :=
        List.mem_map.2 ⟨jump, member, isFamily⟩
      calc (narrow (· == family) (combine [some actions,
            some ((Rule.jumpFamilies jumps).map ofFamily)])).map (stepBehind tokens)
          = (product (narrow (· == family) actions) [ofFamily family]).map (stepBehind tokens) := by
            rw [combine_pair, narrow_product, narrow_map_ofFamily, filter_jumpFamilies jumped]
            rfl
        _ = (narrow (· == family) actions).map (stepBehind tokens) := by
            rw [product_ofFamily, narrow_narrow, List.map_map]
            rfl

/-! ## Splittings -/

/-- How actions are attached to matches: the entry of each match, if it has one, and the chain that
the actions are put in, with the rules there that the context declares and those that follow the
entries. -/
structure Splitting where
  entry : Fragment → Option Fragment
  chain : Option String
  shared : List Fragment
  body : List Fragment

namespace Splitting

/-- The action is merged into the matches. -/
def merged (action : Fragment) : Splitting :=
  { entry := fun part => part.merge action, chain := none, shared := [], body := [] }

/-- The matches jump to a chain that is declared in the context. -/
def declared (chain : String) (actions : List Fragment) : Splitting where
  entry part := some (part.toChain chain)
  chain := some chain
  shared := actions.map (inChain chain)
  body := []

/-- The matches jump to a chain of the rule's own. -/
def owned (chain : String) (matched actions : List Fragment) : Splitting where
  entry part := some (part.toChain chain)
  chain := some chain
  shared := []
  body := Rule.chainBody (matched.map (toChain chain)) (actions.map (inChain chain))

/-- The splitting keeps what the actions mean.  Each match has at most one entry, in the place of
the match, and where there is a chain it has one; the actions stand in the chain; and traffic of a
family that follows the entry of a match meets the actions of that family, as long as nothing else
stands in the chain. -/
structure Preserves (split : Splitting) (matched actions : List Fragment) : Prop where
  stands : ∀ rule ∈ split.shared ++ split.body, split.chain.isSome ∧ rule.chain = split.chain
  keeps : ∀ part ∈ matched, ∀ entry, split.entry part = some entry →
    entry.table = part.table ∧ entry.chain = part.chain ∧ entry.position = part.position ∧
      entry.index = part.index
  complete : split.chain.isSome → ∀ part ∈ matched, (split.entry part).isSome
  executes : ∀ rules, chainRules split.chain rules = split.shared ++ split.body →
    ∀ family, ∀ part ∈ matched, part.isKept (· == family) →
      (split.entry part).elim [] (executed split.chain rules family) =
        (narrow (· == family) actions).map (stepBehind part.tokens)

/-! ### One action -/

theorem preserves_merged
    {action : Fragment} (noTargets : ∀ part ∈ matched, part.target = none)
    (isAction : action.IsAction) :
    (merged action).Preserves matched [action] where
  stands rule member := absurd member List.not_mem_nil
  keeps part member entry merges := by
    change part.merge action = some entry at merges
    have compatible := family_compatible_of_merge merges
    rw [merge_action (noTargets part member) isAction compatible] at merges
    obtain rfl := Option.some.inj merges
    exact ⟨rfl, rfl, rfl, rfl⟩
  complete noChain := nomatch noChain
  executes rules _ family part member usable := by
    rw [narrow_cons, narrow_nil]
    change (part.merge action).elim [] (executed none rules family) = _
    have kept (entry : Fragment) (merges : part.merge action = some entry) :
        entry.isKept (· == family) = action.isKept (· == family) := by
      rw [isKept_of_merge merges, usable, Bool.true_and]
    by_cases usableToo : action.isKept (· == family) = true
    · have merges := merge_action (noTargets part member) isAction
        (compatible_of_isKept usable usableToo)
      rw [merges, if_pos usableToo, Option.elim_some, executed, kept _ merges, usableToo]
      rfl
    · rw [if_neg usableToo]
      cases merges : part.merge action with
      | none => rfl
      | some entry =>
          rw [Option.elim_some, executed, kept entry merges, Bool.eq_false_of_not_eq_true usableToo]
          rfl

/-! ### Several actions -/

theorem preserves_declared (named : chain ≠ "") :
    (declared chain actions).Preserves matched actions where
  stands rule member := by
    rw [declared, List.append_nil] at member
    obtain ⟨action, _, rfl⟩ := List.mem_map.1 member
    exact ⟨rfl, rfl⟩
  keeps part _ entry isEntry := by
    obtain rfl := Option.some.inj isEntry
    exact ⟨rfl, rfl, rfl, rfl⟩
  complete _ part _ := rfl
  executes rules holds family part _ usable := by
    rw [declared, List.append_nil] at holds
    calc executed (some chain) rules family (part.toChain chain)
        = (narrow (· == family) (actions.map (inChain chain))).map (stepBehind part.tokens) :=
          executed_of_jump named holds usable
      _ = (narrow (· == family) actions).map (stepBehind part.tokens) :=
          narrow_map_steps (inChain chain) (fun _ => rfl) (fun _ => rfl) actions

theorem map_placeIn (areActions : ∀ action ∈ actions, action.IsAction) :
    actions.map (Rule.placeIn chain) = actions.map (inChain chain) :=
  List.map_congr_left fun action isAction =>
    Rule.placeIn_of_open (areActions action isAction).chain chain

theorem map_jumpTo (noTargets : ∀ part ∈ matched, part.target = none) :
    matched.map (Rule.jumpTo chain) = matched.map (toChain chain) :=
  List.map_congr_left fun part member => Rule.jumpTo_of_open (noTargets part member) chain

theorem preserves_owned
    (areActions : ∀ action ∈ actions, action.IsAction) (named : chain ≠ "") :
    (owned chain matched actions).Preserves matched actions where
  stands rule member := by
    rw [owned, List.nil_append, ← map_placeIn areActions] at member
    exact ⟨rfl, Rule.chain_of_mem_chainBody
      (fun action isAction => (areActions action isAction).chain) member⟩
  keeps part _ entry isEntry := by
    obtain rfl := Option.some.inj isEntry
    exact ⟨rfl, rfl, rfl, rfl⟩
  complete _ part _ := rfl
  executes rules holds family part member usable := by
    rw [owned, List.nil_append] at holds
    calc executed (some chain) rules family (part.toChain chain)
        = (narrow (· == family) (Rule.chainBody (matched.map (toChain chain))
            (actions.map (inChain chain)))).map (stepBehind part.tokens) :=
          executed_of_jump named holds usable
      _ = (narrow (· == family) (actions.map (inChain chain))).map (stepBehind part.tokens) :=
          narrow_chainBody (List.mem_map_of_mem member) usable part.tokens
      _ = (narrow (· == family) actions).map (stepBehind part.tokens) :=
          narrow_map_steps (inChain chain) (fun _ => rfl) (fun _ => rfl) actions

end Splitting

end Fragment

namespace Rule

open Fragment

variable {rule : Rule} {matched actions : List Fragment} {key : String} {log : Option LogClass}
  {own : Bool} {before : Context}

/-! ## Attaching actions splits them off -/

theorem combine_toChain
    (noTargets : ∀ part ∈ matched, part.target = none) (chain : String) :
    combine [some matched, some [.ofTarget chain]] = matched.map (toChain chain) := by
  rw [combine_pair]
  apply product_single_eq_map
  intro part member
  have noTarget := noTargets part member
  refine merge_eq_some_iff.2 ⟨⟨?_, ?_, ?_, ?_, ?_, ?_⟩, ?_⟩
  all_goals simp [Compatible, union, ofTarget, toChain, noTarget]

/-- Where the actions of a splitting are put: into the matches, into a shared chain that the context
declares, or into a chain with a new number that belongs to the rule. -/
inductive IsPut (rule : Rule) (actions : List Fragment) (key : String) (own : Bool)
    (before after : Context) (split : Splitting) : Prop where
  | merged :
      own = false → actions.length = 1 → split.chain = none → split.shared = [] →
      split.body = [] → after = before → IsPut rule actions key own before after split
  | declared {name : Scalar} :
      own = false → split.chain = some (sharedName key name) →
      sharedName key name ∉ before.declared → sharedName key name ∈ after.declared →
      split.body = [] → IsPut rule actions key own before after split
  | owned :
      split.chain = some (numberedName key ((before.counters.get? key).getD 0)) →
      after.chainNames.lookup (rule.serial, key) = split.chain → split.shared = [] →
      IsPut rule actions key own before after split

/-- The outcome of attaching actions to matches, as a splitting. -/
structure IsSplit (rule : Rule) (matched actions : List Fragment) (key : String)
    (log : Option LogClass) (own : Bool) (before after : Context) (split : Splitting) : Prop where
  run : rule.attach matched actions key log own before =
    (.ok (matched.filterMap split.entry ++ split.body), after)
  auxiliary : after.auxiliary = before.auxiliary ++ split.shared
  isPut : IsPut rule actions key own before after split
  preserves : split.Preserves matched actions

theorem isSplit_merged
    {action : Fragment} (noTargets : ∀ part ∈ matched, part.target = none)
    (isAction : action.IsAction) :
    IsSplit rule matched [action] key log false before before (.merged action) where
  run := by
    rw [Splitting.merged, List.append_nil, ← product_single, ← combine_pair]
    rfl
  auxiliary := (List.append_nil _).symm
  isPut := .merged rfl rfl rfl rfl rfl rfl
  preserves := Splitting.preserves_merged noTargets isAction

/-- Unless a single action is merged, attaching it goes by the name of the log class. -/
theorem attach_apply (several : own = true ∨ actions.length ≠ 1) :
    rule.attach matched actions key log own before =
      match if own then none else log.bind (LogClass.nameIn before) with
      | some name => (Run.declareChain (sharedName key name) actions >>= fun _ =>
          pure (combine [some matched, some [.ofTarget (sharedName key name)]]) :
            Run (List Fragment)) before
      | none => (Run.chainNameOf rule.serial key >>= fun chain =>
          pure (ownChain chain matched actions) : Run (List Fragment)) before := by
  have notMerged : ¬ (!own && decide (actions.length = 1)) = true := by
    rcases several with isOwn | notOne
    · simp [isOwn]
    · simp [notOne]
  unfold attach
  rw [if_neg notMerged]
  change (match if own then none else log.bind (LogClass.nameIn before) with
    | some name => _
    | none => _ : Run (List Fragment)) before = _
  generalize (if own then none else log.bind (LogClass.nameIn before)) = asked
  cases asked <;> rfl

theorem isSplit_declared
    {name : Scalar} (noTargets : ∀ part ∈ matched, part.target = none)
    (several : actions.length ≠ 1) (asks : log.bind (LogClass.nameIn before) = some name)
    (undeclared : sharedName key name ∉ before.declared) (named : sharedName key name ≠ "") :
    ∃ after, IsSplit rule matched actions key log false before after
      (.declared (sharedName key name) actions) := by
  have unknown : before.declared.contains (sharedName key name) = false := by
    simpa using undeclared
  refine ⟨{ before with
      declared := sharedName key name :: before.declared
      auxiliary := before.auxiliary ++ actions.map (inChain (sharedName key name)) },
    ?_, rfl, .declared rfl rfl undeclared (List.mem_cons_self ..) rfl,
    Splitting.preserves_declared named⟩
  rw [attach_apply (.inr several), if_neg Bool.false_ne_true, asks]
  dsimp only
  rw [bind_apply, Run.declareChain_apply, unknown, combine_toChain noTargets,
    Splitting.declared, List.append_nil, List.filterMap_eq_map']
  rfl

theorem numberedName_ne_empty (key : String) (number : Nat) : numberedName key number ≠ "" := by
  intro isEmpty
  rw [numberedName, String.append_eq_empty_iff, String.append_eq_empty_iff] at isEmpty
  exact absurd isEmpty.1.2 (by decide)

theorem isSplit_owned
    (noTargets : ∀ part ∈ matched, part.target = none)
    (areActions : ∀ action ∈ actions, action.IsAction) (several : own = true ∨ actions.length ≠ 1)
    (asksNone : (if own then none else log.bind (LogClass.nameIn before)) = none)
    (unused : before.chainNames.lookup (rule.serial, key) = none) :
    ∃ after, IsSplit rule matched actions key log own before after
      (.owned (numberedName key ((before.counters.get? key).getD 0)) matched actions) := by
  refine ⟨{ before with
      counters := before.counters.set key ((before.counters.get? key).getD 0 + 1)
      chainNames := ((rule.serial, key), numberedName key ((before.counters.get? key).getD 0)) ::
        before.chainNames },
    ?_, (List.append_nil _).symm, .owned rfl List.lookup_cons_self rfl,
    Splitting.preserves_owned areActions (numberedName_ne_empty _ _)⟩
  rw [attach_apply several, asksNone]
  dsimp only
  rw [bind_apply, Run.chainNameOf_apply, unused, Splitting.owned, List.filterMap_eq_map']
  dsimp only
  rw [ownChain, Splitting.map_jumpTo noTargets, Splitting.map_placeIn areActions]
  rfl

/-! ## Chains of the program -/

theorem not_isOrdinary_of_key {rest : String} (isKey : IsChainKey key) :
    ¬ IsOrdinary (key ++ rest) := by
  rcases isKey with rfl | ⟨entry, _, rfl⟩ <;> simp [IsOrdinary]

theorem exists_sharedName_eq (key : String) (name : Scalar) :
    ∃ rest, sharedName key name = key ++ rest := by
  unfold sharedName
  split
  · exact ⟨"-" ++ name.written, by rw [String.append_assoc]⟩
  · exact ⟨"", String.append_empty.symm⟩

theorem chainRules_append (chain : Option String) (left right : List Fragment) :
    chainRules chain (left ++ right) = chainRules chain left ++ chainRules chain right :=
  List.filter_append ..

theorem chainRules_eq_self
    {chain : Option String} {rules : List Fragment}
    (stand : ∀ rule ∈ rules, chain.isSome ∧ rule.chain = chain) : chainRules chain rules = rules := by
  refine List.filter_eq_self.2 fun rule member => ?_
  obtain ⟨isChain, same⟩ := stand rule member
  rw [isChain, same]
  simp

theorem chainRules_eq_nil
    {chain : String} {rules : List Fragment} (elsewhere : ∀ rule ∈ rules, rule.chain ≠ some chain) :
    chainRules (some chain) rules = [] := by
  refine List.filter_eq_nil_iff.2 fun rule member stands => ?_
  simp only [Option.isSome_some, Bool.true_and, beq_iff_eq] at stands
  exact elsewhere rule member stands

/-- In a sound context nothing stands in a chain that is not ordinary and not declared. -/
theorem auxiliary_elsewhere
    (sound : Context.Sound before) {chain : String} (notOrdinary : ¬ IsOrdinary chain)
    (undeclared : chain ∉ before.declared) :
    ∀ rule ∈ before.auxiliary, rule.chain ≠ some chain := by
  intro rule member stands
  obtain ⟨other, isOther, isTarpit | isDeclared⟩ := sound.auxiliary rule member
  · rw [isOther, isTarpit] at stands
    exact notOrdinary (Option.some.inj stands ▸ by decide)
  · rw [isOther] at stands
    exact undeclared (Option.some.inj stands ▸ isDeclared)

/-- With a key of the program, in a sound context, nothing else stands in the chain of a splitting
than what is put there. -/
theorem IsSplit.chainRules_eq
    {after : Context} {split : Splitting}
    (isSplit : IsSplit rule matched actions key log own before after split)
    (sound : Context.Sound before) (isKey : IsChainKey key)
    (ordinary : ∀ part ∈ matched, ∀ chain, part.chain = some chain → IsOrdinary chain) :
    chainRules split.chain (after.auxiliary ++ (matched.filterMap split.entry ++ split.body)) =
      split.shared ++ split.body := by
  have puts := isSplit.preserves.stands
  obtain ⟨sharedStand, bodyStands⟩ := List.forall_mem_append.1 puts
  rw [isSplit.auxiliary, chainRules_append, chainRules_append, chainRules_append,
    chainRules_eq_self sharedStand, chainRules_eq_self bodyStands]
  have nothing {chain : String} (isChain : split.chain = some chain)
      (notOrdinary : ¬ IsOrdinary chain) (undeclared : chain ∉ before.declared) :
      chainRules split.chain before.auxiliary = [] ∧
        chainRules split.chain (matched.filterMap split.entry) = [] := by
    rw [isChain]
    refine ⟨chainRules_eq_nil (auxiliary_elsewhere sound notOrdinary undeclared),
      chainRules_eq_nil fun entry isEntry stands => ?_⟩
    obtain ⟨part, member, hasEntry⟩ := List.mem_filterMap.1 isEntry
    have sameChain := (isSplit.preserves.keeps part member entry hasEntry).2.1
    exact notOrdinary (ordinary part member chain (sameChain.symm.trans stands))
  cases isSplit.isPut with
  | merged _ _ noChain noShared noBody _ =>
      have nothingIn (rules : List Fragment) : chainRules split.chain rules = [] := by
        rw [noChain]
        simp [chainRules]
      rw [nothingIn, nothingIn, List.nil_append, List.nil_append]
  | @declared name _ isChain undeclared _ _ =>
      obtain ⟨rest, same⟩ := exists_sharedName_eq key name
      obtain ⟨inContext, inEntries⟩ :=
        nothing isChain (same ▸ not_isOrdinary_of_key isKey) undeclared
      rw [inContext, inEntries, List.nil_append, List.nil_append]
  | owned isChain _ _ =>
      have undeclared : numberedName key ((before.counters.get? key).getD 0) ∉ before.declared :=
        fun member => not_isSharedName_numberedName isKey _ (sound.shared _ member).isSharedName
      obtain ⟨inContext, inEntries⟩ :=
        nothing isChain (not_isOrdinary_numberedName isKey _) undeclared
      rw [inContext, inEntries, List.nil_append, List.nil_append]

/-- Attaching actions to matches always succeeds and splits the actions off without changing what
they mean, as long as nothing else stands in the chain; and with a key of the program, in a sound
context, nothing else does. -/
theorem exists_isSplit
    (noTargets : ∀ part ∈ matched, part.target = none)
    (areActions : ∀ action ∈ actions, action.IsAction)
    (unused : before.chainNames.lookup (rule.serial, key) = none)
    (undeclared : ∀ name, log.bind (LogClass.nameIn before) = some name →
      sharedName key name ∉ before.declared ∧ sharedName key name ≠ "") :
    ∃ after split, IsSplit rule matched actions key log own before after split ∧
      (Context.Sound before → IsChainKey key →
        (∀ part ∈ matched, ∀ chain, part.chain = some chain → IsOrdinary chain) →
        chainRules split.chain (after.auxiliary ++ (matched.filterMap split.entry ++ split.body)) =
          split.shared ++ split.body) := by
  have found : ∃ after split, IsSplit rule matched actions key log own before after split := by
    by_cases single : own = false ∧ actions.length = 1
    · obtain ⟨rfl, one⟩ := single
      obtain ⟨action, rfl⟩ := List.length_eq_one_iff.1 one
      exact ⟨before, _, isSplit_merged noTargets (areActions action (List.mem_singleton_self _))⟩
    · have several : own = true ∨ actions.length ≠ 1 := by
        cases own with
        | true => exact .inl rfl
        | false => exact .inr fun one => single ⟨rfl, one⟩
      cases asks : (if own then none else log.bind (LogClass.nameIn before)) with
      | none =>
          obtain ⟨after, isSplit⟩ := isSplit_owned noTargets areActions several asks unused
          exact ⟨after, _, isSplit⟩
      | some name =>
          cases own with
          | true => cases asks
          | false =>
              obtain ⟨unknown, named⟩ := undeclared name asks
              obtain ⟨after, isSplit⟩ := isSplit_declared noTargets
                (several.resolve_left Bool.false_ne_true) asks unknown named
              exact ⟨after, _, isSplit⟩
  obtain ⟨after, split, isSplit⟩ := found
  exact ⟨after, split, isSplit, isSplit.chainRules_eq⟩

/-! ## Logging before dropping -/

/-- A rule that states nothing. -/
def plainRule : Rule where
  kind := .filter
  serial := 0
  location := "filter 1"
  attributes := []
  zonesIn := none
  zonesOut := none
  services := none

/-- Matches for traffic of one protocol in one family and of another one in any family. -/
def protocolMatches : List Fragment :=
  [{ family := some "inet", tokens := ["-p tcp"] }, { tokens := ["-p udp"] }]

/-- Traffic is logged, in one family only, and then dropped. -/
def loggedDrop : List Fragment :=
  [{ family := some "inet6", target := some "LOG" }, { target := some "DROP" }]

theorem areActions_loggedDrop : ∀ action ∈ loggedDrop, action.IsAction :=
  List.forall_mem_cons.2 ⟨⟨rfl, rfl, rfl, rfl⟩, List.forall_mem_singleton.2 ⟨rfl, rfl, rfl, rfl⟩⟩

/-- The matches jump to a chain of the rule that logs and drops. -/
theorem exists_isSplit_loggedDrop :
    ∃ after split, IsSplit plainRule protocolMatches loggedDrop "logdrop" none true {} after split ∧
      (plainRule.attach protocolMatches loggedDrop "logdrop" none true {}).1.toOption =
        some (protocolMatches.map (toChain "logdrop-0") ++ loggedDrop.map (inChain "logdrop-0")) ∧
      chainRules split.chain
          (after.auxiliary ++ (protocolMatches.filterMap split.entry ++ split.body)) =
        split.shared ++ split.body := by
  have isKey : IsChainKey "logdrop" := .inr ⟨("drop", "DROP"), by decide, rfl⟩
  have unplaced : ∀ part ∈ protocolMatches, part.chain = none := by decide
  obtain ⟨after, split, isSplit, alone⟩ : ∃ after split,
      IsSplit plainRule protocolMatches loggedDrop "logdrop" none true {} after split ∧ _ :=
    exists_isSplit (by decide) areActions_loggedDrop rfl fun name asks => nomatch asks
  refine ⟨after, split, isSplit, by decide +kernel, alone Context.sound_empty isKey ?_⟩
  intro part member chain stands
  rw [unplaced part member] at stands
  cases stands

/-! ## Chains that do something else -/

/-- The key was not used for the rule and the shared chain is not declared; the rule jumps to the
chain, and yet traffic that follows the jump does not meet what the actions say. -/
structure IsStray (key : String) (log : Option LogClass) (own : Bool) (before : Context)
    (chain : String) : Prop where
  unused : before.chainNames.lookup (plainRule.serial, key) = none
  undeclared : ∀ name, log.bind (LogClass.nameIn before) = some name →
    sharedName key name ∉ before.declared
  strays : ∃ attached after,
    plainRule.attach [{}] loggedDrop key log own before = (.ok attached, after) ∧
      toChain chain {} ∈ attached ∧
      executed (some chain) (after.auxiliary ++ attached) "inet" (toChain chain {}) ≠
        (narrow (· == "inet") loggedDrop).map (stepBehind [])

/-- A log class that is known by the name. -/
def logNamed (name : String) : LogClass :=
  { serial := 1, location := "log " ++ name, key := some (.text name), attributes := [] }

/-- A shared chain of another key has the name that the next chain of a rule would get. -/
def crowdedContext : Context :=
  (plainRule.attach [{}] loggedDrop "k" (some (logNamed "x-0")) false {}).2

theorem exists_stray
    {chain : String}
    (run : ∃ attached ∈ (plainRule.attach [{}] loggedDrop key log own before).1.toOption,
      toChain chain {} ∈ attached ∧
        executed (some chain)
            ((plainRule.attach [{}] loggedDrop key log own before).2.auxiliary ++ attached) "inet"
            (toChain chain {}) ≠
          (narrow (· == "inet") loggedDrop).map (stepBehind [])) :
    ∃ attached after, plainRule.attach [{}] loggedDrop key log own before = (.ok attached, after) ∧
      toChain chain {} ∈ attached ∧
      executed (some chain) (after.auxiliary ++ attached) "inet" (toChain chain {}) ≠
        (narrow (· == "inet") loggedDrop).map (stepBehind []) := by
  obtain ⟨attached, isAttached, jumps, differs⟩ := run
  exact ⟨attached, _, eq_of_mem_toOption isAttached, jumps, differs⟩

/-- The name of a chain with a new number may be that of a shared chain, and a shared chain may have
no name. -/
theorem isStray_crowded_and_nameless :
    IsStray "k-x" none true crowdedContext "k-x-0" ∧
      IsStray "" (some (logNamed "")) false {} "" where
  left :=
    { unused := by decide +kernel
      undeclared := fun name asks => nomatch asks
      strays := exists_stray (by decide +kernel) }
  right :=
    { unused := rfl
      undeclared := fun name _ => List.not_mem_nil
      strays := exists_stray (by decide +kernel) }

end Rule

end FirewallPolicy
