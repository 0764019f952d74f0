import FirewallPolicy.Proofs.Rule.LimitChain

/-!
# Chains of a rule among all rules

Only fragments of a rule stand in the chains of the rule's own, and a shared chain has just the
rules that it was declared with.  So what becomes of traffic there does not depend on other rules.
-/

namespace FirewallPolicy

open Context Run Stateful

/-! ## Names -/

theorem targetVerdict?_eq_none
    {target : String} (notOrdinary : ¬ IsOrdinary target) :
    targetVerdict? target = none := by
  unfold targetVerdict?
  split
  · exact absurd (by decide) notOrdinary
  · exact absurd (by decide) notOrdinary
  · exact absurd (by decide) notOrdinary
  · exact absurd (by decide) notOrdinary
  · rfl

theorem isLogging_eq_false
    {target : String} (notOrdinary : ¬ IsOrdinary target) :
    isLogging target = false := by
  refine eq_false_of_ne_true fun logs => notOrdinary ?_
  obtain ⟨mode, isMode, starts⟩ := List.any_eq_true.1 logs
  obtain ⟨rest, same⟩ := List.isPrefixOf_iff_prefix.1 starts
  have modes : ∀ mode ∈ ["LOG", "NFLOG", "ULOG"],
      mode.toList.head? ≠ some 'l' ∧ mode.toList ≠ [] := by
    decide
  unfold IsOrdinary
  rw [← same, List.head?_append_of_ne_nil _ (modes mode isMode).2]
  exact (modes mode isMode).1

/-- Jumps do what their targets stand for, and logging ends nobody's way. -/
theorem obeys_jumpVerdict
    (rules : List Fragment) (traffic : Traffic) (family : String) (depth : Nat) :
    Rule.Obeys (jumpVerdict rules traffic family depth) where
  silent _ isLog := jumpVerdict_of_isLogTarget isLog depth
  verdict _ _ isVerdict := jumpVerdict_of_targetVerdict? isVerdict depth

section Elsewhere

variable {context : Context} {owns : Nat × String → Prop} {front : Prop}
  {rules : List Fragment} {owner : Nat × String} {chain : String}

theorem Context.Sound.not_isOrdinary
    (sound : Context.Sound context) (known : context.chainNames.lookup owner = some chain) :
    ¬ IsOrdinary chain := by
  obtain ⟨isKey, number, rfl⟩ := sound.isChainKey known
  exact not_isOrdinary_numberedName isKey number

theorem Context.names_of_lookup
    (known : context.chainNames.lookup owner = some chain) :
    Names context (· = owner) chain :=
  ⟨owner, rfl, known⟩

theorem AllPlaced.chain_ne
    (placed : AllPlaced context owns front rules) (sound : Context.Sound context)
    (known : context.chainNames.lookup owner = some chain) (notOwner : ¬ owns owner) :
    ∀ rule ∈ rules, rule.chain ≠ some chain := by
  intro rule member stands
  rcases (placed rule member).chain chain stands with isHook | ⟨other, isOwner, otherKnown⟩
  · exact sound.not_isOrdinary known (isOrdinary_of_hook isHook)
  · exact notOwner (sound.owner_eq otherKnown known ▸ isOwner)

theorem AllPlaced.chain_ne_of_declared
    (placed : AllPlaced context owns front rules) (sound : Context.Sound context)
    (declared : chain ∈ context.declared) :
    ∀ rule ∈ rules, rule.chain ≠ some chain := by
  intro rule member stands
  rcases (placed rule member).chain chain stands with isHook | names
  · exact (isOrdinary_of_hook isHook).not_isLogName (sound.shared chain declared).isSharedName.isLogName
  · exact sound.notMem_declared names declared

theorem Context.Sound.chain_ne_of_mem_auxiliary
    (sound : Context.Sound context) (known : context.chainNames.lookup owner = some chain) :
    ∀ rule ∈ context.auxiliary, rule.chain ≠ some chain := by
  intro rule member stands
  obtain ⟨other, isChain, isTarpit | declared⟩ := sound.auxiliary rule member
  all_goals obtain rfl := Option.some.inj (stands.symm.trans isChain)
  · exact sound.not_isOrdinary known (isTarpit ▸ by decide)
  · exact sound.notMem_declared (names_of_lookup known) declared

end Elsewhere

namespace Rule

/-! ## Rules in families -/

section Families

variable {jump : String → Option Verdict} {traffic : Traffic} {place : Place}
  {rules : List Fragment} {families : List String}

/-- Rules that are spread over families and a table do what they did, there. -/
theorem chainVerdict_spread
    (isFamily : place.family ∈ families) :
    chainVerdict jump traffic place (Fragment.combine [some rules,
        some (families.map Fragment.ofFamily), some [.ofTable place.table]]) =
      chainVerdict jump traffic place rules := by
  change chainVerdict jump traffic place (Fragment.product (Fragment.product rules
    (families.map Fragment.ofFamily)) [.ofTable place.table]) = _
  rw [chainVerdict_restricted (List.mem_singleton_self (Fragment.ofTable place.table)),
    chainVerdict_restricted (List.mem_map_of_mem isFamily)]
  · intro part isPart
    obtain ⟨_, _, rfl⟩ := List.mem_map.1 isPart
    exact ⟨rfl, rfl, rfl, rfl, rfl⟩
  · rintro _ ⟨⟩
    rfl
  · rintro _ ⟨⟩
  · intro part isPart
    obtain rfl := List.mem_singleton.1 isPart
    exact ⟨rfl, rfl, rfl, rfl, rfl⟩
  · rintro _ ⟨⟩
  · rintro _ ⟨⟩
    rfl

/-- The jumps, if there are any, reach the family. -/
def Reach (jumps : List Fragment) (family : String) : Prop :=
  jumps = [] ∨ ∃ jump ∈ jumps, ∀ own, jump.family = some own → own = family

@[simp] theorem jumpTo_family (chain : String) (rule : Fragment) :
    (jumpTo chain rule).family = rule.family := by
  unfold jumpTo
  split <;> rfl

@[simp] theorem jumpTo_chain (chain : String) (rule : Fragment) :
    (jumpTo chain rule).chain = rule.chain := by
  unfold jumpTo
  split <;> rfl

/-- In a chain of the rule's own stands the body of the chain, in every family that is reached. -/
theorem chainVerdict_ownChain
    {matched actions : List Fragment} {chain : String}
    (outside : ∀ part ∈ matched, part.chain ≠ some place.chain)
    (reach : Reach matched place.family) :
    chainVerdict jump traffic place (ownChain chain matched actions) =
      chainVerdict jump traffic place (actions.map (placeIn chain)) := by
  have jumps : chainVerdict jump traffic place (matched.map (jumpTo chain)) = none := by
    refine chainVerdict_of_elsewhere fun rule isRule => ?_
    obtain ⟨part, isPart, rfl⟩ := List.mem_map.1 isRule
    rw [jumpTo_chain]
    exact outside part isPart
  unfold ownChain
  rw [chainVerdict_append, jumps, Option.none_or]
  rcases reach with rfl | ⟨part, isPart, family⟩
  · rfl
  · refine chainVerdict_chainBody ⟨_, List.mem_map_of_mem isPart, ?_⟩
    rwa [jumpTo_family]

end Families

/-! ## Rules among others -/

/-- The rules hold the fragments of a rule; the other ones belong to other rules. -/
structure StandsAmong (rule : Rule) (context : Context) (own rules : List Fragment) : Prop where
  sound : Context.Sound context
  placed : AllPlaced context (·.1 = rule.serial) True own
  split : ∃ early late, rules = early ++ own ++ late ∧
    AllPlaced context (·.1 ≠ rule.serial) True (early ++ late)

section Among

variable {rule : Rule} {context : Context} {own rules : List Fragment} {chain key : String}
  {jump : String → Option Verdict} {traffic : Traffic} {family : String}

/-- In a chain of the rule's own only fragments of the rule do anything. -/
theorem StandsAmong.verdict_own
    (stands : rule.StandsAmong context own rules)
    (known : context.chainNames.lookup (rule.serial, key) = some chain) :
    chainVerdict jump traffic ⟨family, "filter", chain⟩ (rules ++ context.auxiliary) =
      chainVerdict jump traffic ⟨family, "filter", chain⟩ own := by
  obtain ⟨early, late, rfl, others⟩ := stands.split
  have elsewhere := others.chain_ne stands.sound known (not_not.2 rfl)
  rw [List.forall_mem_append] at elsewhere
  -- What stands around the fragments of the rule belongs to other rules or to shared chains.
  have nothing (others : List Fragment) (outside : ∀ rule ∈ others, rule.chain ≠ some chain) :
      chainVerdict jump traffic ⟨family, "filter", chain⟩ others = none :=
    chainVerdict_of_elsewhere outside
  simp only [chainVerdict_append]
  rw [nothing early elsewhere.1, nothing late elsewhere.2,
    nothing _ (stands.sound.chain_ne_of_mem_auxiliary known)]
  simp

theorem chainVerdict_filter
    {place : Place} (rules : List Fragment) :
    chainVerdict jump traffic place (rules.filter fun rule => rule.chain = some place.chain) =
      chainVerdict jump traffic place rules := by
  induction rules with
  | nil => rfl
  | cons rule rest inductionHypothesis =>
      rw [← List.singleton_append, List.filter_append, chainVerdict_append, chainVerdict_append,
        inductionHypothesis]
      by_cases stands : rule.chain = some place.chain
      · simp [stands]
      · have nothing : chainVerdict jump traffic place [rule] = none :=
          chainVerdict_of_elsewhere (by simpa using stands)
        have dropped : [rule].filter (fun rule => rule.chain = some place.chain) = [] := by
          simp [stands]
        rw [nothing, dropped]
        rfl

/-- A shared chain logs, and then it does what the target of its action stands for. -/
theorem StandsAmong.verdict_shared
    (stands : rule.StandsAmong context own rules)
    {action target name : String} (isAction : (action, target) ∈ actionTargets)
    (declared : sharedName ("log" ++ action) (.text name) ∈ context.declared)
    (silent : ∀ target, IsLogTarget target → jump target = none) :
    chainVerdict jump traffic ⟨family, "filter", sharedName ("log" ++ action) (.text name)⟩
      (rules ++ context.auxiliary) = jump target := by
  obtain ⟨early, late, rfl, others⟩ := stands.split
  have elsewhere : ∀ rule ∈ early ++ own ++ late,
      rule.chain ≠ some (sharedName ("log" ++ action) (.text name)) := by
    have ownElsewhere := stands.placed.chain_ne_of_declared stands.sound declared
    have otherElsewhere := others.chain_ne_of_declared stands.sound declared
    rw [List.forall_mem_append] at otherElsewhere
    simp only [List.forall_mem_append]
    exact ⟨⟨otherElsewhere.1, ownElsewhere⟩, otherElsewhere.2⟩
  -- The name of the chain tells the action, so what it was declared with jumps to the target.
  obtain ⟨entry, isEntry, other, log, _, _, same, body⟩ := stands.sound.shared _ declared
  obtain ⟨rfl, -⟩ := sharedName_inj isAction isEntry same
  have placed : sharedBody (sharedName ("log" ++ action) (.text name)) log target =
      (actionFragments (some log) (some target)).map
        (placeIn (sharedName ("log" ++ action) (.text name))) := by
    refine List.map_congr_left fun part isPart => ?_
    exact (placeIn_of_open (chain_of_mem_actionFragments isPart) _).symm
  rw [chainVerdict_append, chainVerdict_of_elsewhere elsewhere, Option.none_or,
    ← chainVerdict_filter, body, placed, verdict_actionFragments silent]

/-- Wherever jumps to a target lead where something may be logged, they do what the target stands
for, provided that a chain of the rule's own does so. -/
theorem StandsAmong.jumpVerdict_of_route
    (stands : rule.StandsAmong context own rules)
    {found attached : List Fragment} {action target goal : String} {verdict : Verdict}
    (route : Route rule found action target context attached goal)
    (isVerdict : targetVerdict? target = some verdict)
    (ends : goal = target ∨ (action, target) ∈ actionTargets ∧ verdict ≠ .returned)
    (inside : ∀ log, context.chainNames.lookup (rule.serial, "log" ++ action) = some goal →
      attached = ownChain goal found (actionFragments (some log) (some target)) →
      ∀ jump, Obeys jump →
        chainVerdict jump traffic ⟨family, "filter", goal⟩ own = some verdict)
    (depth : Nat) :
    jumpVerdict (rules ++ context.auxiliary) traffic family (depth + 1) goal = some verdict := by
  have obeys := obeys_jumpVerdict (rules ++ context.auxiliary) traffic family depth
  rcases ends with rfl | ⟨isAction, ends⟩
  · exact jumpVerdict_of_targetVerdict? isVerdict _
  · cases route with
    | direct _ => exact jumpVerdict_of_targetVerdict? isVerdict _
    | @shared name declared _ =>
        have notOrdinary : ¬ IsOrdinary (sharedName ("log" ++ action) (.text name)) :=
          fun ordinary => ordinary.not_isLogName (isLogName_sharedName action _)
        refine jumpVerdict_of_chainVerdict (targetVerdict?_eq_none notOrdinary)
          (isLogging_eq_false notOrdinary) ends ?_
        rw [stands.verdict_shared isAction declared obeys.silent]
        exact obeys.verdict target verdict isVerdict
    | own known isOwn =>
        have notOrdinary := stands.sound.not_isOrdinary known
        refine jumpVerdict_of_chainVerdict (targetVerdict?_eq_none notOrdinary)
          (isLogging_eq_false notOrdinary) ends ?_
        rw [stands.verdict_own known]
        exact inside _ known isOwn _ obeys

end Among

end Rule

end FirewallPolicy
