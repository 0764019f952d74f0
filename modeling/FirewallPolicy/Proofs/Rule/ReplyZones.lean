import FirewallPolicy.Proofs.Fragment.Mirror
import FirewallPolicy.Proofs.Rule.Selection
import FirewallPolicy.Proofs.Run.Simulation

/-!
# Zones in the reply direction

Traffic from one side to another is answered by traffic the other way.  The fragments for two sides
in the filter table are the mirror images of those for the sides in the opposite order: received
traffic is answered by sent traffic, and what enters a zone by an interface was to leave by it.
-/

namespace FirewallPolicy

open Fragment Run Stateful

variable {directory : Directory} {direction : Direction} {hook : Hook}

/-! ## Hooks -/

/-- The hook that the answer to traffic at a hook passes. -/
def Hook.mirrored : Hook → Hook
  | input => output
  | output => input
  | forward => forward

theorem Hook.mirrored_mirrored (hook : Hook) : hook.mirrored.mirrored = hook := by
  cases hook <;> rfl

theorem Hook.chainName_mirrored (hook : Hook) :
    hook.mirrored.chainName = mirrorChain hook.chainName := by
  cases hook <;> rfl

/-- What a hook sees of one side, the hook for the answers sees of the other one. -/
theorem visibleIn_mirrored (hook : Hook) (direction : Direction) (names : List String) :
    Rule.visibleIn hook.mirrored.chainName direction.opposite names =
      Rule.visibleIn hook.chainName direction names := by
  cases hook <;> cases direction <;> rfl

theorem passesHook_mirrored {entering leaving : Option ZoneSelector}
    (passes : Rule.PassesHook hook entering leaving) :
    Rule.PassesHook hook.mirrored leaving entering := by
  constructor
  · rintro ⟨sent, received⟩
    exact passes.apart ⟨received, sent⟩
  · intro sent
    rw [passes.received sent]
    rfl
  · intro received
    rw [passes.sent received]
    rfl
  · intro notSent notReceived
    rcases passes.routed notReceived notSent with rfl | ⟨rfl, unnamed⟩ | ⟨rfl, unnamed⟩
    · exact Or.inl rfl
    · exact Or.inr (Or.inr ⟨rfl, unnamed⟩)
    · exact Or.inr (Or.inl ⟨rfl, unnamed⟩)

/-! ## One zone -/

theorem mirrors_option
    {option other : String} (isPair : (option, other) ∈ mirroredOptions) (value : String) :
    Mirrors { tokens := [option ++ " " ++ value] } { tokens := [other ++ " " ++ value] } :=
  mirrors_of_eq (by simp [mirrored, mirrorToken_option isPair])

theorem mirrors_hostFragment (direction : Direction) (entry : FamilyAddress) :
    Mirrors (hostFragment direction.addressOption entry)
      (hostFragment direction.opposite.addressOption entry) := by
  have isPair : (direction.addressOption, direction.opposite.addressOption) ∈ mirroredOptions := by
    cases direction <;> decide
  refine mirrors_of_eq ?_
  simp [hostFragment, matching_pair, mirrored, mirrorToken_option isPair]

theorem mirrored_hostFragments (location : String) (direction : Direction) (hosts : List Value) :
    Simulates directory (Corresponds Mirrors)
      (hostFragments location direction.addressOption hosts)
      (hostFragments location direction.opposite.addressOption hosts) := by
  have each (host : Value) : Simulates directory (Corresponds Mirrors)
      (resolveHost location host.written >>= fun addresses =>
        pure (addresses.map (hostFragment direction.addressOption)))
      (resolveHost location host.written >>= fun addresses =>
        pure (addresses.map (hostFragment direction.opposite.addressOption))) := by
    refine Simulates.bind (determined_resolveHost _ _) (fun _ => determined_pure _)
      (determined_resolveHost _ _) (fun _ => determined_pure _)
      (Follows.of_self (fun _ _ => rfl) : Simulates directory Eq _ _) ?_
    rintro addresses _ rfl
    have same : Corresponds Eq addresses addresses := Corresponds.of_self fun _ _ => rfl
    refine simulates_pure (same.map ?_)
    rintro entry _ rfl
    exact mirrors_hostFragment direction entry
  exact simulates_gather
    (fun _ => (determined_resolveHost _ _).bind fun _ => determined_pure _)
    (fun _ => (determined_resolveHost _ _).bind fun _ => determined_pure _)
    (Corresponds.of_self fun host _ => each host)

namespace Zone

variable {zone : Zone} {names : List String}

theorem mirrored_interfaceFragments (direction : Direction) (names : List String) :
    Corresponds Mirrors (orAny (interfaceFragments direction names))
      (orAny (interfaceFragments direction.opposite names)) := by
  have isPair : (direction.interfaceOption, direction.opposite.interfaceOption) ∈
      mirroredOptions := by
    cases direction <;> decide
  cases names with
  | nil => exact Corresponds.singleton mirrors_empty
  | cons first rest =>
      have same : Corresponds Eq (first :: rest) (first :: rest) :=
        Corresponds.of_self fun _ _ => rfl
      change Corresponds Mirrors
        ((first :: rest).map fun name => matching [direction.interfaceOption ++ " " ++ name])
        ((first :: rest).map fun name =>
          matching [direction.opposite.interfaceOption ++ " " ++ name])
      refine same.map ?_
      rintro name _ rfl
      rw [matching_pair, matching_pair]
      exact mirrors_option isPair name

theorem mirrored_addressFragments :
    Simulates directory (fun one two => Corresponds Mirrors (orAny one) (orAny two))
      (zone.addressFragments direction) (zone.addressFragments direction.opposite) := by
  unfold addressFragments
  split
  · exact Simulates.bind (determined_hostFragments _ _ _) (fun _ => determined_pure _)
      (determined_hostFragments _ _ _) (fun _ => determined_pure _)
      (mirrored_hostFragments _ _ _) fun _ _ related => simulates_pure related
  · exact simulates_pure (Corresponds.singleton mirrors_empty)

theorem mirrored_fragmentsOn :
    Simulates directory (Corresponds Mirrors) (zone.fragmentsOn direction names)
      (zone.fragmentsOn direction.opposite names) := by
  refine Simulates.bind determined_addressFragments (fun _ => determined_pure _)
    determined_addressFragments (fun _ => determined_pure _) mirrored_addressFragments
    fun one two related => simulates_pure ?_
  rw [assemble_eq_product, assemble_eq_product]
  exact corresponds_product respectsMerge_mirrors (mirrored_interfaceFragments direction names)
    related

end Zone

/-! ## Two sides -/

namespace Rule

variable {entering leaving side : Option ZoneSelector} {kind : RuleKind}

theorem AgreeOnZones.symm (agree : AgreeOnZones entering leaving) :
    AgreeOnZones leaving entering := by
  intro name zone other same isLeaving isEntering sameKey
  have swapped : other.sameKey name = true :=
    Scalar.sameKey_iff.2 (Scalar.sameKey_iff.1 sameKey).symm
  exact (agree other same name zone isEntering isLeaving swapped).symm

theorem hairpinZone?_swap
    {zone : Zone} (agree : AgreeOnZones entering leaving)
    (hairpin : hairpinZone? entering leaving = some zone) :
    hairpinZone? leaving entering = some zone := by
  obtain ⟨name, other, same, rfl, rfl, sameKey, notBack, nonempty⟩ := hairpinZone?_eq_some hairpin
  obtain rfl := agree name zone other same rfl rfl sameKey
  have swapped : other.sameKey name = true :=
    Scalar.sameKey_iff.2 (Scalar.sameKey_iff.1 sameKey).symm
  simp [hairpinZone?, swapped, notBack, nonempty]

theorem hairpinZone?_comm (agree : AgreeOnZones entering leaving) :
    hairpinZone? leaving entering = hairpinZone? entering leaving := by
  cases straight : hairpinZone? entering leaving with
  | some zone => exact hairpinZone?_swap agree straight
  | none =>
      cases back : hairpinZone? leaving entering with
      | none => rfl
      | some zone => rw [← straight, hairpinZone?_swap agree.symm back]

theorem corresponds_distinctPairs (items : List String) :
    Corresponds (fun pair other => other = pair.swap) (distinctPairs items)
      (distinctPairs items) := by
  have swaps (first second : String) (isPair : (first, second) ∈ distinctPairs items) :
      (second, first) ∈ distinctPairs items := by
    obtain ⟨i, j, different, isFirst, isSecond⟩ := mem_distinctPairs.1 isPair
    exact mem_distinctPairs.2 ⟨j, i, different.symm, isSecond, isFirst⟩
  constructor
  · intro pair isPair
    exact ⟨pair.swap, swaps _ _ isPair, rfl⟩
  · intro pair isPair
    exact ⟨pair.swap, swaps _ _ isPair, rfl⟩

/-- The fragments for both sides in a chain, mirrored: each side is the other one of the answer. -/
theorem mirrored_combine_chain
    {one two first second : Option (List Fragment)}
    (isSecond : Corresponds Mirrors (orAny one) (orAny second))
    (isFirst : Corresponds Mirrors (orAny two) (orAny first)) (hook : Hook) :
    Corresponds Mirrors (combine [one, two, some [ofChain hook.chainName]])
      (combine [first, second, some [ofChain hook.mirrored.chainName]]) := by
  rw [combine_eq_foldl _ ⟨[ofChain hook.chainName], by simp⟩,
    combine_eq_foldl _ ⟨[ofChain hook.mirrored.chainName], by simp⟩]
  simp only [List.map_cons, List.map_nil, List.foldl_cons, List.foldl_nil, empty_product]
  refine corresponds_product respectsMerge_mirrors (corresponds_product_swap isSecond isFirst) ?_
  rw [Hook.chainName_mirrored]
  exact Corresponds.singleton (mirrors_ofChain _)

theorem mirrored_sideFragments (hook : Hook) (direction : Direction) :
    Simulates directory (fun one two => Corresponds Mirrors (orAny one) (orAny two))
      (sideFragments hook.chainName direction side)
      (sideFragments hook.mirrored.chainName direction.opposite side) := by
  unfold sideFragments
  split
  · exact simulates_pure (Corresponds.singleton mirrors_empty)
  · rw [visibleIn_mirrored]
    exact Simulates.bind Zone.determined_fragmentsOn (fun _ => determined_pure _)
      Zone.determined_fragmentsOn (fun _ => determined_pure _) Zone.mirrored_fragmentsOn
      fun _ _ related => simulates_pure related
  · exact Follows.error

theorem mirrored_hairpinFragments (hook : Hook) (zone : Zone) (first second : String) :
    Simulates directory (Corresponds Mirrors)
      (hairpinFragments hook.chainName zone (first, second))
      (hairpinFragments hook.mirrored.chainName zone (second, first)) := by
  have entering : Simulates directory (Corresponds Mirrors)
      (zone.fragmentsOn .inward (visibleIn hook.chainName .inward [first]))
      (zone.fragmentsOn .outward (visibleIn hook.mirrored.chainName .outward [first])) := by
    rw [← visibleIn_mirrored hook .inward [first]]
    exact Zone.mirrored_fragmentsOn
  have leaving : Simulates directory (Corresponds Mirrors)
      (zone.fragmentsOn .outward (visibleIn hook.chainName .outward [second]))
      (zone.fragmentsOn .inward (visibleIn hook.mirrored.chainName .inward [second])) := by
    rw [← visibleIn_mirrored hook .outward [second]]
    exact Zone.mirrored_fragmentsOn
  refine Simulates.swap Zone.determined_fragmentsOn Zone.determined_fragmentsOn
    Zone.determined_fragmentsOn Zone.determined_fragmentsOn entering leaving ?_
  intro one two opening closing isClosing isOpening
  have closes : Corresponds Mirrors (orAny (some one)) (orAny (some closing)) := isClosing
  have opens : Corresponds Mirrors (orAny (some two)) (orAny (some opening)) := isOpening
  exact mirrored_combine_chain closes opens hook

/-- The fragments for two sides at a hook are mirrored at the hook for the answers. -/
theorem mirrored_chainFragments (agree : AgreeOnZones entering leaving) (hook : Hook) :
    Simulates directory (Corresponds Mirrors) (chainFragments entering leaving hook.chainName)
      (chainFragments leaving entering hook.mirrored.chainName) := by
  unfold chainFragments
  rw [hairpinZone?_comm agree]
  split
  · next zone _ =>
      have pairs := corresponds_distinctPairs zone.interfaces
      refine simulates_gather (determined_hairpinFragments _) (determined_hairpinFragments _) ?_
      refine ⟨fun pair isPair => ?_, fun pair isPair => ?_⟩
      · obtain ⟨other, isOther, rfl⟩ := pairs.forth pair isPair
        exact ⟨pair.swap, isOther, mirrored_hairpinFragments hook zone pair.1 pair.2⟩
      · obtain ⟨other, isOther, rfl⟩ := pairs.back pair isPair
        exact ⟨other, isOther, mirrored_hairpinFragments hook zone other.1 other.2⟩
  · exact Simulates.swap determined_sideFragments determined_sideFragments
      determined_sideFragments determined_sideFragments
      (mirrored_sideFragments hook .inward) (mirrored_sideFragments hook .outward)
      fun _ _ _ _ isSecond isFirst => mirrored_combine_chain isSecond isFirst hook

theorem mirrored_pairFragments
    (isFilter : kind.table = "filter") (agree : AgreeOnZones entering leaving) :
    Simulates directory (Corresponds Mirrors) (pairFragments kind entering leaving)
      (pairFragments kind leaving entering) := by
  have chains {hook : Hook} {chain : String} (isChain : kind.chainOf? hook = some chain) :
      hook.chainName = chain :=
    Option.some.inj ((chainOf?_of_table isFilter).symm.trans isChain)
  rw [pairFragments_eq, pairFragments_eq]
  refine simulates_gather (fun _ => determined_chainFragments)
    (fun _ => determined_chainFragments) ⟨fun chain isChain => ?_, fun chain isChain => ?_⟩
  · obtain ⟨hook, passed, isHook⟩ := List.mem_filterMap.1 isChain
    obtain rfl := chains isHook
    refine ⟨hook.mirrored.chainName, List.mem_filterMap.2 ⟨hook.mirrored, ?_, ?_⟩,
      mirrored_chainFragments agree.remaining hook⟩
    · exact mem_hooksBetween.2 (passesHook_mirrored (mem_hooksBetween.1 passed))
    · exact chainOf?_of_table isFilter
  · obtain ⟨hook, passed, isHook⟩ := List.mem_filterMap.1 isChain
    obtain rfl := chains isHook
    refine ⟨hook.mirrored.chainName, List.mem_filterMap.2 ⟨hook.mirrored, ?_, ?_⟩, ?_⟩
    · exact mem_hooksBetween.2 (passesHook_mirrored (mem_hooksBetween.1 passed))
    · exact chainOf?_of_table isFilter
    · have mirrors : Simulates directory (Corresponds Mirrors)
          (chainFragments (remaining entering) (remaining leaving) hook.mirrored.chainName)
          (chainFragments (remaining leaving) (remaining entering)
            hook.mirrored.mirrored.chainName) :=
        mirrored_chainFragments agree.remaining hook.mirrored
      rwa [Hook.mirrored_mirrored] at mirrors

end Rule

end FirewallPolicy
