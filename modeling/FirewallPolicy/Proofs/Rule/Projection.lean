import FirewallPolicy.Proofs.Fragment.Narrowing
import FirewallPolicy.Proofs.Fragment.Options
import FirewallPolicy.Proofs.Rule.Selection
import FirewallPolicy.Proofs.Run.Simulation

/-!
# Zones in other tables

The fragments for the zones of a rule in another table are those of the filter table, put into the
chains that stand for the hooks there.  A fragment at a hook without a chain is left out, and
interfaces on a side that the chain does not see are not matched.
-/

namespace FirewallPolicy

open Fragment Run Stateful

/-! ## Projections -/

/-- The hook of a chain of the filter table. -/
def Hook.ofChainName? : String → Option Hook
  | "INPUT" => some .input
  | "OUTPUT" => some .output
  | "FORWARD" => some .forward
  | _ => none

theorem Hook.ofChainName?_eq_some {chain : String} {hook : Hook} :
    Hook.ofChainName? chain = some hook ↔ chain = hook.chainName := by
  unfold Hook.ofChainName?
  split
  · cases hook <;> simp [Hook.chainName]
  · cases hook <;> simp [Hook.chainName]
  · cases hook <;> simp [Hook.chainName]
  · cases hook <;> simp_all [Hook.chainName]

/-- Can the chain match the token?  An interface can be matched on a side that the chain sees. -/
def isVisibleToken (chain token : String) : Bool :=
  (chainSees chain .inward || !isOption Direction.inward.interfaceOption token) &&
    (chainSees chain .outward || !isOption Direction.outward.interfaceOption token)

/-- The fragment in another chain, with the tokens that can be matched there. -/
def Fragment.seenFrom (chain : String) (fragment : Fragment) : Fragment :=
  { fragment with
    chain := fragment.chain.map fun _ => chain
    tokens := fragment.tokens.filter (isVisibleToken chain) }

/-- The tokens that a chain can match are among those of the fragment. -/
theorem Fragment.holds_seenFrom
    {fragment : Fragment} {chain : String} {holds : String → Prop}
    (each : ∀ token ∈ fragment.tokens, holds token) :
    ∀ token ∈ (fragment.seenFrom chain).tokens, holds token :=
  fun token isToken => each token (List.mem_filter.1 isToken).1

theorem Fragment.chain_seenFrom
    {fragment : Fragment} {hook : String} (stands : fragment.chain = some hook) (chain : String) :
    (fragment.seenFrom chain).chain = some chain := by
  change fragment.chain.map _ = some chain
  rw [stands]
  rfl

namespace RuleKind

/-- A fragment of the filter table in the chain that stands for its hook in the table of the kind, if
there is one. -/
def project? (kind : RuleKind) (fragment : Fragment) : Option Fragment := do
  let hook ← Hook.ofChainName? (← fragment.chain)
  let chain ← kind.chainOf? hook
  return fragment.seenFrom chain

/-- The second list holds the projections of the fragments of the first one, and nothing else. -/
def Projects (kind : RuleKind) (found placed : List Fragment) : Prop :=
  ∀ fragment, fragment ∈ placed ↔ ∃ part ∈ found, kind.project? part = some fragment

variable {kind : RuleKind}

theorem project?_eq_some {fragment projected : Fragment} :
    kind.project? fragment = some projected ↔
      ∃ hook chain, fragment.chain = some hook.chainName ∧ kind.chainOf? hook = some chain ∧
        fragment.seenFrom chain = projected := by
  simp only [project?, Option.bind_eq_bind, Option.bind_eq_some_iff, Option.pure_def,
    Option.some.injEq, Hook.ofChainName?_eq_some]
  constructor
  · rintro ⟨_, isChain, hook, rfl, chain, isMapped, same⟩
    exact ⟨hook, chain, isChain, isMapped, same⟩
  · rintro ⟨hook, chain, isChain, isMapped, same⟩
    exact ⟨_, isChain, hook, rfl, chain, isMapped, same⟩

end RuleKind

/-! ## Fragments seen from another chain -/

variable {directory : Directory} {direction : Direction} {source chain : String}

/-- The second fragment is the first one seen from another chain; the first one stands in no other
chain than the given one. -/
def SeenAs (source chain : String) (left right : Fragment) : Prop :=
  (∀ name, left.chain = some name → name = source) ∧ left.seenFrom chain = right

theorem respectsMerge_seenAs : RespectsMerge (SeenAs source chain) := by
  rintro left right _ _ ⟨inLeft, rfl⟩ ⟨inRight, rfl⟩
  have chains : Compatible left.chain right.chain := by
    intro a isA b isB
    rw [inLeft a isA, inRight b isB]
  have chainsSeen : Compatible (left.seenFrom chain).chain (right.seenFrom chain).chain := by
    intro a isA b isB
    simp only [seenFrom, Option.map_eq_some_iff] at isA isB
    obtain ⟨_, _, rfl⟩ := isA
    obtain ⟨_, _, rfl⟩ := isB
    rfl
  refine ⟨⟨fun agree => ?_, fun agree => ?_⟩, fun agree => ⟨?_, ?_⟩⟩
  · exact ⟨agree.family, agree.table, chainsSeen, agree.target, agree.position, agree.index⟩
  · exact ⟨agree.family, agree.table, chains, agree.target, agree.position, agree.index⟩
  · intro name isName
    rcases Option.or_eq_some_iff.1 isName with isLeft | ⟨-, isRight⟩
    · exact inLeft name isLeft
    · exact inRight name isRight
  · cases isLeft : left.chain <;> simp [seenFrom, union, isLeft]

theorem seenAs_empty : SeenAs source chain {} {} :=
  ⟨by simp, rfl⟩

theorem seenAs_ofChain : SeenAs source chain (ofChain source) (ofChain chain) :=
  ⟨by simp [ofChain], rfl⟩

theorem isVisibleToken_interface (name : String) :
    isVisibleToken chain (direction.interfaceOption ++ " " ++ name) =
      chainSees chain direction := by
  have own := isOption_self direction.interfaceOption name
  cases direction with
  | inward =>
      have distinct : areDistinct Direction.outward.interfaceOption
          Direction.inward.interfaceOption = true := rfl
      have other := isOption_of_distinct distinct name
      simp [isVisibleToken, own, other]
  | outward =>
      have distinct : areDistinct Direction.inward.interfaceOption
          Direction.outward.interfaceOption = true := rfl
      have other := isOption_of_distinct distinct name
      simp [isVisibleToken, own, other]

theorem isVisibleToken_address (address : String) :
    isVisibleToken chain (direction.addressOption ++ " " ++ address) = true := by
  have inward : isOption Direction.inward.interfaceOption
      (direction.addressOption ++ " " ++ address) = false :=
    isOption_of_distinct (by cases direction <;> rfl) address
  have outward : isOption Direction.outward.interfaceOption
      (direction.addressOption ++ " " ++ address) = false :=
    isOption_of_distinct (by cases direction <;> rfl) address
  simp [isVisibleToken, inward, outward]

/-! ## One zone -/

namespace Zone

variable {zone : Zone} {names : List String}

theorem mem_interfaceFragments {fragment : Fragment} :
    fragment ∈ orAny (interfaceFragments direction names) ↔
      (names = [] ∧ fragment = {}) ∨
        ∃ name ∈ names, fragment = { tokens := [direction.interfaceOption ++ " " ++ name] } := by
  cases names with
  | nil => simp [interfaceFragments, orAny]
  | cons first rest => simp [interfaceFragments, orAny, matching_pair, eq_comm]

theorem seenFrom_interface (name : String) :
    seenFrom chain { tokens := [direction.interfaceOption ++ " " ++ name] } =
      if chainSees chain direction then { tokens := [direction.interfaceOption ++ " " ++ name] }
      else {} := by
  by_cases sees : chainSees chain direction = true
  · simp [seenFrom, isVisibleToken_interface, sees]
  · simp [seenFrom, isVisibleToken_interface, sees]

theorem corresponds_interfaceFragments :
    Corresponds (SeenAs source chain) (orAny (interfaceFragments direction names))
      (orAny (interfaceFragments direction (Rule.visibleIn chain direction names))) := by
  have visible (name : String) (sees : chainSees chain direction = true) :
      SeenAs source chain { tokens := [direction.interfaceOption ++ " " ++ name] }
        { tokens := [direction.interfaceOption ++ " " ++ name] } :=
    ⟨by simp, by rw [seenFrom_interface, if_pos sees]⟩
  have hidden (name : String) (unseen : ¬ chainSees chain direction = true) :
      SeenAs source chain { tokens := [direction.interfaceOption ++ " " ++ name] } {} :=
    ⟨by simp, by rw [seenFrom_interface, if_neg unseen]⟩
  by_cases sees : chainSees chain direction = true
  · rw [Rule.visibleIn, if_pos sees]
    refine Corresponds.of_self fun fragment member => ?_
    rcases mem_interfaceFragments.1 member with ⟨-, rfl⟩ | ⟨name, -, rfl⟩
    · exact seenAs_empty
    · exact visible name sees
  · rw [Rule.visibleIn, if_neg sees]
    constructor
    · intro fragment member
      refine ⟨{}, mem_interfaceFragments.2 (Or.inl ⟨rfl, rfl⟩), ?_⟩
      rcases mem_interfaceFragments.1 member with ⟨-, rfl⟩ | ⟨name, -, rfl⟩
      · exact seenAs_empty
      · exact hidden name sees
    · intro fragment member
      have isEmpty : fragment = {} := by simpa [mem_interfaceFragments] using member
      subst isEmpty
      cases names with
      | nil => exact ⟨{}, mem_interfaceFragments.2 (Or.inl ⟨rfl, rfl⟩), seenAs_empty⟩
      | cons name rest =>
          exact ⟨_, mem_interfaceFragments.2 (Or.inr ⟨name, List.mem_cons_self .., rfl⟩),
            hidden name sees⟩

theorem seenAs_hostFragment (entry : FamilyAddress) :
    SeenAs source chain (hostFragment direction.addressOption entry)
      (hostFragment direction.addressOption entry) :=
  ⟨by simp [hostFragment, matching_pair],
    by simp [seenFrom, hostFragment, matching_pair, isVisibleToken_address]⟩

theorem corresponds_addressFragments
    {given : Option (List Fragment)}
    (run : outcome directory (zone.addressFragments direction) = .ok given) :
    Corresponds (SeenAs source chain) (orAny given) (orAny given) := by
  rcases addressFragments_eq_ok run with ⟨-, hosts, areHosts, rfl⟩ | ⟨-, rfl⟩
  · refine Corresponds.of_self fun fragment member => ?_
    obtain ⟨_, _, _, _, entry, _, rfl⟩ :=
      ((outcome_hostFragments_eq_ok areHosts).2 fragment).1 member
    exact seenAs_hostFragment entry
  · exact Corresponds.singleton seenAs_empty

theorem simulates_fragmentsOn :
    Simulates directory (Corresponds (SeenAs source chain)) (zone.fragmentsOn direction names)
      (zone.fragmentsOn direction (Rule.visibleIn chain direction names)) := by
  intro found run
  obtain ⟨given, isGiven, rfl⟩ := fragmentsOn_eq_ok.1 run
  refine ⟨_, fragmentsOn_eq_ok.2 ⟨given, isGiven, rfl⟩, ?_⟩
  rw [assemble_eq_product, assemble_eq_product]
  exact corresponds_product respectsMerge_seenAs corresponds_interfaceFragments
    (corresponds_addressFragments isGiven)

end Zone

/-! ## Two sides -/

namespace Rule

variable {entering leaving side : Option ZoneSelector} {found : List Fragment} {kind : RuleKind}

theorem simulates_sideFragments (sees : side ≠ none → chainSees source direction = true) :
    Simulates directory (fun one two => Corresponds (SeenAs source chain) (orAny one) (orAny two))
      (sideFragments source direction side) (sideFragments chain direction side) := by
  unfold sideFragments
  split
  · exact simulates_pure (Corresponds.singleton seenAs_empty)
  · next name zone =>
      have visible : visibleIn source direction zone.interfaces = zone.interfaces :=
        if_pos (sees (by simp))
      rw [visible]
      exact Simulates.bind Zone.determined_fragmentsOn (fun _ => determined_pure _)
        Zone.determined_fragmentsOn (fun _ => determined_pure _) Zone.simulates_fragmentsOn
        fun _ _ related => simulates_pure related
  · intro found run
    cases run

/-- The fragments of both sides in a chain, seen from another chain. -/
theorem corresponds_combine_chain
    {one two first second : Option (List Fragment)}
    (isFirst : Corresponds (SeenAs source chain) (orAny one) (orAny first))
    (isSecond : Corresponds (SeenAs source chain) (orAny two) (orAny second)) :
    Corresponds (SeenAs source chain) (combine [one, two, some [ofChain source]])
      (combine [first, second, some [ofChain chain]]) := by
  refine corresponds_combine respectsMerge_seenAs seenAs_empty ⟨[ofChain source], by simp⟩
    ⟨[ofChain chain], by simp⟩ ?_
  exact .cons isFirst (.cons isSecond
    (.cons (Corresponds.singleton seenAs_ofChain) .nil))

theorem simulates_hairpinFragments
    {zone : Zone} {pair : String × String}
    (seesIn : chainSees source .inward = true) (seesOut : chainSees source .outward = true) :
    Simulates directory (Corresponds (SeenAs source chain)) (hairpinFragments source zone pair)
      (hairpinFragments chain zone pair) := by
  have each (direction : Direction) (name : String) (sees : chainSees source direction = true) :
      Simulates directory (Corresponds (SeenAs source chain))
        (zone.fragmentsOn direction (visibleIn source direction [name]))
        (zone.fragmentsOn direction (visibleIn chain direction [name])) := by
    have visible : visibleIn source direction [name] = [name] := if_pos sees
    rw [visible]
    exact Zone.simulates_fragmentsOn
  refine Simulates.bind Zone.determined_fragmentsOn
    (fun _ => Zone.determined_fragmentsOn.bind fun _ => determined_pure _)
    Zone.determined_fragmentsOn
    (fun _ => Zone.determined_fragmentsOn.bind fun _ => determined_pure _)
    (each .inward pair.1 seesIn) fun _ _ isEntering => ?_
  refine Simulates.bind Zone.determined_fragmentsOn (fun _ => determined_pure _)
    Zone.determined_fragmentsOn (fun _ => determined_pure _)
    (each .outward pair.2 seesOut) fun _ _ isLeaving => ?_
  exact simulates_pure (corresponds_combine_chain isEntering isLeaving)

/-- The fragments for two sides in a chain that stands for one that sees them. -/
theorem simulates_chainFragments
    (seesIn : entering ≠ none → chainSees source .inward = true)
    (seesOut : leaving ≠ none → chainSees source .outward = true) :
    Simulates directory (Corresponds (SeenAs source chain))
      (chainFragments entering leaving source) (chainFragments entering leaving chain) := by
  unfold chainFragments
  split
  · next zone hairpin =>
      obtain ⟨name, other, same, rfl, rfl, -⟩ := hairpinZone?_eq_some hairpin
      exact simulates_gather (determined_hairpinFragments _) (determined_hairpinFragments _)
        (Corresponds.of_self fun pair _ =>
          simulates_hairpinFragments (seesIn (by simp)) (seesOut (by simp)))
  · refine Simulates.bind determined_sideFragments
      (fun _ => determined_sideFragments.bind fun _ => determined_pure _)
      determined_sideFragments
      (fun _ => determined_sideFragments.bind fun _ => determined_pure _)
      (simulates_sideFragments seesIn) fun _ _ isEntering => ?_
    refine Simulates.bind determined_sideFragments (fun _ => determined_pure _)
      determined_sideFragments (fun _ => determined_pure _)
      (simulates_sideFragments seesOut) fun _ _ isLeaving => ?_
    exact simulates_pure (corresponds_combine_chain isEntering isLeaving)

theorem yields_chain_chainFragments :
    Yields (fun found => ∀ fragment ∈ found, fragment.chain = some chain)
      (chainFragments entering leaving chain) := by
  have inChain (one two : Option (List Fragment)) :
      ∀ fragment ∈ combine [one, two, some [ofChain chain]], fragment.chain = some chain := by
    intro fragment member
    obtain ⟨part, isPart, extended⟩ := exists_extends_of_mem_combine member
      (show some [ofChain chain] ∈ [one, two, some [ofChain chain]] by simp)
    rw [List.mem_singleton.1 isPart] at extended
    exact extended.chain chain rfl
  unfold chainFragments
  split
  · exact yields_gather fun pair _ => yields_bind fun one => yields_bind fun two =>
      yields_pure (inChain (some one) (some two))
  · exact yields_bind fun one => yields_bind fun two => yields_pure (inChain one two)

/-! ## All pairs -/

/-- The fragments at a hook as the chain that stands for the hook sees them. -/
theorem simulates_atHook {hook : Hook} (passes : PassesHook hook entering leaving) :
    Simulates directory
      (Corresponds fun part seen =>
        part.chain = some hook.chainName ∧ part.seenFrom chain = seen)
      (chainFragments (remaining entering) (remaining leaving) hook.chainName)
      (chainFragments (remaining entering) (remaining leaving) chain) := by
  intro part partRun
  have stands : ∀ fragment ∈ part, fragment.chain = some hook.chainName :=
    yields_chain_chainFragments.of_eq (Prod.ext partRun rfl)
  obtain ⟨seen, seenRun, corresponds⟩ :=
    simulates_chainFragments passes.sees.1 passes.sees.2 part partRun
  refine ⟨seen, seenRun, ?_, ?_⟩
  · intro fragment inPart
    obtain ⟨other, inSeen, related⟩ := corresponds.forth fragment inPart
    exact ⟨other, inSeen, stands fragment inPart, related.2⟩
  · intro other inSeen
    obtain ⟨fragment, inPart, related⟩ := corresponds.back other inSeen
    exact ⟨fragment, inPart, stands fragment inPart, related.2⟩

theorem mem_hookChains_iff {mapped : RuleKind} :
    chain ∈ (hooksBetween entering leaving).1.filterMap mapped.chainOf? ↔
      ∃ hook, PassesHook hook entering leaving ∧ mapped.chainOf? hook = some chain := by
  simp [mem_hooksBetween]

/-- The fragments for two sides in the table of another kind: at each hook that traffic between them
passes, those of the filter table as the chain for the hook sees them, if there is one. -/
theorem exists_projected_pairFragments
    (isFilter : kind.table = "filter") (mapped : RuleKind)
    (run : outcome directory (pairFragments kind entering leaving) = .ok found) :
    ∃ placed, outcome directory (pairFragments mapped entering leaving) = .ok placed ∧
      mapped.Projects found placed := by
  rw [pairFragments_eq] at run ⊢
  obtain ⟨given, mem_found⟩ := outcome_gather_eq_ok (fun _ => determined_chainFragments) run
  have chainAt (hook : Hook) (passes : PassesHook hook entering leaving) :
      hook.chainName ∈ (hooksBetween entering leaving).1.filterMap kind.chainOf? :=
    mem_hookChains_iff.2 ⟨hook, passes, chainOf?_of_table isFilter⟩
  have known : ∀ chain ∈ (hooksBetween entering leaving).1.filterMap mapped.chainOf?,
      ∃ seen, outcome directory
        (chainFragments (remaining entering) (remaining leaving) chain) = .ok seen := by
    intro chain isChain
    obtain ⟨hook, passes, -⟩ := mem_hookChains_iff.1 isChain
    obtain ⟨part, partRun⟩ := given _ (chainAt hook passes)
    obtain ⟨seen, seenRun, -⟩ := simulates_atHook passes part partRun
    exact ⟨seen, seenRun⟩
  obtain ⟨placed, placedRun⟩ := exists_outcome_gather (fun _ => determined_chainFragments) known
  have mem_placed := (outcome_gather_eq_ok (fun _ => determined_chainFragments) placedRun).2
  refine ⟨placed, placedRun, fun fragment => ⟨fun isPlaced => ?_, ?_⟩⟩
  · obtain ⟨chain, isChain, seen, seenRun, inSeen⟩ := (mem_placed fragment).1 isPlaced
    obtain ⟨hook, passes, isMapped⟩ := mem_hookChains_iff.1 isChain
    obtain ⟨part, partRun⟩ := given _ (chainAt hook passes)
    obtain ⟨again, againRun, corresponds⟩ := simulates_atHook passes part partRun
    obtain rfl := Except.ok.inj (againRun.symm.trans seenRun)
    obtain ⟨origin, inPart, stands, same⟩ := corresponds.back fragment inSeen
    exact ⟨origin, (mem_found origin).2 ⟨_, chainAt hook passes, part, partRun, inPart⟩,
      RuleKind.project?_eq_some.2 ⟨hook, chain, stands, isMapped, same⟩⟩
  · rintro ⟨origin, isFound, projects⟩
    obtain ⟨hook, chain, stands, isMapped, same⟩ := RuleKind.project?_eq_some.1 projects
    obtain ⟨name, isName, part, partRun, inPart⟩ := (mem_found origin).1 isFound
    obtain ⟨passed, passes, isName⟩ := mem_hookChains_iff.1 isName
    obtain rfl : name = passed.chainName :=
      (Option.some.inj ((chainOf?_of_table isFilter).symm.trans isName)).symm
    obtain ⟨seen, seenRun, corresponds⟩ := simulates_atHook passes part partRun
    obtain ⟨other, inSeen, standsThere, otherSame⟩ := corresponds.forth origin inPart
    obtain rfl : passed = hook :=
      chainName_injective (Option.some.inj (standsThere.symm.trans stands))
    obtain rfl : other = fragment := otherSame.symm.trans same
    exact (mem_placed other).2
      ⟨chain, mem_hookChains_iff.2 ⟨passed, passes, isMapped⟩, seen, seenRun, inSeen⟩

theorem nodup_zoneFragments
    {rule : Rule} (run : outcome directory rule.zoneFragments = .ok found) : found.Nodup := by
  rw [outcome_zoneFragments] at run
  obtain ⟨all, _, same⟩ := except_bind_eq_ok.1 run
  obtain rfl := Except.ok.inj same
  exact nodup_eraseDups all

/-- Rules with the same sides have the same zones in all tables, in the chains of their kinds. -/
theorem exists_projected_zoneFragments
    {rule mapped : Rule} (isFilter : rule.kind.table = "filter")
    (sameSides : mapped.sidePairs = rule.sidePairs)
    (run : outcome directory rule.zoneFragments = .ok found) :
    ∃ placed, outcome directory mapped.zoneFragments = .ok placed ∧ placed.Nodup ∧
      mapped.kind.Projects found placed := by
  have given := exists_outcome_zoneFragments_iff.1 ⟨found, run⟩
  obtain ⟨placed, placedRun⟩ : ∃ placed, outcome directory mapped.zoneFragments = .ok placed := by
    refine exists_outcome_zoneFragments_iff.2 fun pair isPair => ?_
    obtain ⟨part, partRun⟩ := given pair (sameSides ▸ isPair)
    obtain ⟨seen, seenRun, -⟩ := exists_projected_pairFragments isFilter mapped.kind partRun
    exact ⟨seen, seenRun⟩
  refine ⟨placed, placedRun, nodup_zoneFragments placedRun, fun fragment => ?_⟩
  simp only [mem_zoneFragments_iff placedRun, mem_zoneFragments_iff run, sameSides]
  constructor
  · rintro ⟨pair, isPair, seen, seenRun, inSeen⟩
    obtain ⟨part, partRun⟩ := given pair isPair
    obtain ⟨again, againRun, projects⟩ :=
      exists_projected_pairFragments isFilter mapped.kind partRun
    obtain rfl := Except.ok.inj (againRun.symm.trans seenRun)
    obtain ⟨origin, inPart, isProjected⟩ := (projects fragment).1 inSeen
    exact ⟨origin, ⟨pair, isPair, part, partRun, inPart⟩, isProjected⟩
  · rintro ⟨origin, ⟨pair, isPair, part, partRun, inPart⟩, isProjected⟩
    obtain ⟨seen, seenRun, projects⟩ :=
      exists_projected_pairFragments isFilter mapped.kind partRun
    exact ⟨pair, isPair, seen, seenRun, (projects fragment).2 ⟨origin, inPart, isProjected⟩⟩

end Rule

end FirewallPolicy
