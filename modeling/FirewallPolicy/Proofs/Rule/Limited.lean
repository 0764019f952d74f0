import FirewallPolicy.Proofs.Rule.Derived
import FirewallPolicy.Proofs.Rule.OwnChains

/-!
# Traffic under a limit

The limit chain of a rule decides on traffic in every family that it is jumped to from, whatever
the rule brings with it.
-/

namespace FirewallPolicy

open Context Run Stateful

namespace Rule

variable {rule : Rule} {before after : Context} {own rules matched body : List Fragment}
  {name chain : String} {within : Option Verdict}

/-! ## Dimensions -/

/-- Fragments that match at a position: those of the dimensions of a rule. -/
structure MatchAt (position : String) (fragment : Fragment) : Prop where
  table : fragment.table = none
  target : fragment.target = none
  position : fragment.position = some position
  index : fragment.index = none
  chain : ∀ chain, fragment.chain = some chain → chain ∈ hookNames

/-- The dimensions of a rule match at its position. -/
theorem dimensions_eq_ok
    (run : rule.dimensions before = (.ok matched, after)) :
    ∃ position, rule.position = .ok position ∧ ∀ part ∈ matched, MatchAt position part := by
  simp only [dimensions, bind_eq_ok, pure_eq_ok, recording_eq_ok] at run
  obtain ⟨zones, _, zonesRun, sources, _, sourcesRun, destinations, _, destinationsRun,
    sets, _, ⟨setsRead, rfl⟩, services, _, servicesRun, position, _, ⟨read, rfl⟩, rfl, rfl⟩ := run
  have isZone := yields_zoneFragments.of_eq zonesRun
  have isSource := (yields_addressFragments rule.kind.hookChains).of_eq sourcesRun
  have isDestination := (yields_destinationFragments rule.kind.hookChains).of_eq destinationsRun
  have isSet := areMatches_setFragments rule.kind.hookChains setsRead
  have isService := (yields_serviceFragments rule.kind.hookChains).of_eq servicesRun
  have plain : ∀ list, some list ∈ [some zones, sources, destinations, sets, services,
      some [{ position := some position }]] → ∀ part ∈ list,
        part.IsMatch rule.kind.hookChains ∨ part = { position := some position } := by
    intro list given part isPart
    simp only [List.mem_cons, Option.some.injEq, List.not_mem_nil, or_false] at given
    rcases given with rfl | isList | isList | isList | isList | rfl
    · exact Or.inl (isZone part isPart)
    · exact Or.inl (isSource list isList.symm part isPart)
    · exact Or.inl (isDestination list isList.symm part isPart)
    · exact Or.inl (isSet list isList.symm part isPart)
    · exact Or.inl (isService list isList.symm part isPart)
    · exact Or.inr (List.mem_singleton.1 isPart)
  -- Neither a match nor the position sets a table, a target or an index.
  have unset {α : Type} (field : Fragment → Option α)
      (free : ∀ part : Fragment, part.IsMatch rule.kind.hookChains → field part = none)
      (noPosition : field { position := some position } = none) (list : List Fragment)
      (given : some list ∈ [some zones, sources, destinations, sets, services,
        some [{ position := some position }]]) (part : Fragment) (isPart : part ∈ list) :
      field part = none := by
    rcases plain list given part isPart with isMatch | rfl
    · exact free part isMatch
    · exact noPosition
  refine ⟨position, read, fun merged member => ⟨?_, ?_, ?_, ?_, ?_⟩⟩
  · exact Fragment.eq_none_of_mem_combine Fragment.table (fun _ _ => rfl) member
      (unset Fragment.table (fun _ isMatch => isMatch.table) rfl)
  · exact Fragment.eq_none_of_mem_combine Fragment.target (fun _ _ => rfl) member
      (unset Fragment.target (fun _ isMatch => isMatch.target) rfl)
  · obtain ⟨part, isPart, upper⟩ := Fragment.exists_extends_of_mem_combine member
      (show some [({ position := some position } : Fragment)] ∈ _ by simp)
    obtain rfl := List.mem_singleton.1 isPart
    exact upper.position _ rfl
  · exact Fragment.eq_none_of_mem_combine Fragment.index (fun _ _ => rfl) member
      (unset Fragment.index (fun _ isMatch => isMatch.index) rfl)
  · intro chain stands
    obtain ⟨list, given, part, isPart, partStands⟩ :=
      Fragment.exists_chain_of_mem_combine member stands
    rcases plain list given part isPart with isMatch | rfl
    · exact hookChains_subset _ (isMatch.chain chain partStands)
    · cases partStands

/-! ## Limits -/

/-- The fragments of the rule itself are jumps to a limit chain and its body, which drops what is
above the limit and does what is stated to the rest. -/
structure LimitsBy (rule : Rule) (name : String) (context : Context) (own : List Fragment)
    (chain : String) (matched body : List Fragment) (within : Option Verdict) : Prop where
  spread : own = Fragment.combine [some (ownChain chain matched body),
    some (context.settings.families.map Fragment.ofFamily), some [.ofTable "filter"]]
  known : context.chainNames.lookup (rule.serial, "limit") = some chain
  hooks : ∀ part ∈ matched, ∀ chain, part.chain = some chain → chain ∈ hookNames
  goesOn : GoesOn (decide (name = "conn-limit" ∧ rule.action = "accept")) within
  shape : LimitShape rule context.settings.families context (limitOutcome within) body

theorem LimitBody.grows
    {limit : Limit} {log : Option LogClass} {connection : Bool} {target : Option String}
    (isBody : LimitBody rule limit chain log connection target before body after) :
    Grows before after := by
  cases isBody with
  | recent _ builds => exact grows_recentChain.of_eq builds
  | passing _ _ builds => exact grows_passingChain.of_eq builds
  | counting _ _ builds => exact grows_countingChain.of_eq builds

theorem LimitsBy.grows
    (limits : rule.LimitsBy name before own chain matched body within)
    (grows : Grows before after) :
    rule.LimitsBy name after own chain matched body within where
  spread := by
    rw [grows.settings]
    exact limits.spread
  known := grows.nameOf _ _ limits.known
  hooks := limits.hooks
  goesOn := limits.goesOn
  shape := by
    rw [grows.settings]
    exact limits.shape.grows grows

variable {traffic : Traffic} {family : String}

/-- The keys of limit chains and of log chains differ. -/
theorem limit_ne_log (action : String) : "limit" ≠ "log" ++ action := by
  intro same
  have lists := congrArg String.toList same
  rw [String.toList_append] at lists
  simp at lists

section Decides

variable (limits : rule.LimitsBy name after own chain matched body within)
  (stands : rule.StandsAmong after own rules)
include limits stands

/-- A log chain of the rule's own is another one than its limit chain. -/
theorem LimitsBy.ne_of_lookup
    {action goal : String}
    (known : after.chainNames.lookup (rule.serial, "log" ++ action) = some goal) :
    goal ≠ chain ∧ goal ≠ "" := by
  refine ⟨fun same => ?_, fun isEmpty => ?_⟩
  · have sameKey := stands.sound.owner_eq limits.known (same ▸ known)
    exact limit_ne_log action (Prod.mk.inj sameKey).2
  · exact stands.sound.not_isOrdinary known (isEmpty ▸ by decide)

/-- In the chains of the rule's own stands the body of the limit chain. -/
theorem LimitsBy.verdict_inside
    (isFamily : family ∈ after.settings.families) (reach : Reach matched family)
    {key goal : String} (known : after.chainNames.lookup (rule.serial, key) = some goal)
    (jump : String → Option Verdict) :
    chainVerdict jump traffic ⟨family, "filter", goal⟩ own =
      chainVerdict jump traffic ⟨family, "filter", goal⟩ (body.map (placeIn chain)) := by
  have outside : ∀ part ∈ matched, part.chain ≠ some goal := fun part isPart inGoal =>
    stands.sound.not_isOrdinary known (isOrdinary_of_hook (limits.hooks part isPart goal inGoal))
  rw [limits.spread]
  exact (chainVerdict_spread isFamily).trans (chainVerdict_ownChain outside reach)

/-- In every family that is reached, the limit chain decides. -/
theorem LimitsBy.verdict
    (isFamily : family ∈ after.settings.families) (reach : Reach matched family) (depth : Nat) :
    chainVerdict (jumpVerdict (rules ++ after.auxiliary) traffic family (depth + 1)) traffic
        ⟨family, "filter", chain⟩ (rules ++ after.auxiliary) =
      limitOutcome within traffic.exceeds := by
  rw [stands.verdict_own limits.known,
    limits.verdict_inside stands isFamily reach limits.known]
  cases limits.shape with
  | @intro found attached rest answer action target goal verdict tells route isVerdict ends
      decides =>
    -- Where the route leads to a log chain of the rule's own, that chain stands in the body, too.
    have jumps : jumpVerdict (rules ++ after.auxiliary) traffic family (depth + 1) goal =
        some verdict := by
      refine stands.jumpVerdict_of_route route isVerdict ends (fun log known isOwn jump obeys => ?_)
        depth
      obtain ⟨different, named⟩ := limits.ne_of_lookup stands known
      have logs : chainVerdict jump traffic ⟨family, "filter", goal⟩
          ((ownChain goal found (actionFragments (some log) (some target))).map (placeIn chain)) =
          jump target :=
        verdict_inside_ownChain obeys.silent tells isFamily different.symm named
      rw [limits.verdict_inside stands isFamily reach known, List.map_append, chainVerdict_append,
        isOwn, logs, obeys.verdict target verdict isVerdict, Option.some_or]
    have first : chainVerdict (jumpVerdict (rules ++ after.auxiliary) traffic family (depth + 1))
        traffic ⟨family, "filter", chain⟩ (attached.map (placeIn chain)) =
        if answer traffic.exceeds then some verdict else none := by
      rw [← jumps]
      cases route with
      | direct same =>
          rw [same]
          exact verdict_jumps tells isFamily _
      | shared _ same =>
          rw [same]
          exact verdict_jumps tells isFamily _
      | own known same =>
          obtain ⟨different, named⟩ := limits.ne_of_lookup stands known
          rw [same]
          exact verdict_ownChain tells isFamily different named
    rw [List.map_append, chainVerdict_append, first]
    exact decides _ traffic ⟨family, "filter", chain⟩ (obeys_jumpVerdict _ _ _ _) isFamily

end Decides

end Rule

end FirewallPolicy
