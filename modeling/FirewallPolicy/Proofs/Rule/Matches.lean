import FirewallPolicy.Proofs.Fragment.Merge
import FirewallPolicy.Proofs.Record
import FirewallPolicy.Proofs.Run.Basic
import FirewallPolicy.Rule.Actions

/-!
# What the dimensions of a rule state

The dimensions of a rule only match: none of them names a table, a target or a position.  Only the
zones name chains, and these stand for the filter hooks in the table of the rule.
-/

namespace FirewallPolicy

open Run Stateful

/-! ## Fragments that only match -/

namespace Fragment

/-- The fragment matches in one of the chains, or in any chain. -/
structure IsMatch (chains : List String) (fragment : Fragment) : Prop where
  table : fragment.table = none
  target : fragment.target = none
  position : fragment.position = none
  index : fragment.index = none
  chain : ∀ chain, fragment.chain = some chain → chain ∈ chains

/-- All of the fragments, if there are any, match. -/
def AreMatches (chains : List String) (given : Option (List Fragment)) : Prop :=
  ∀ list, given = some list → ∀ fragment ∈ list, IsMatch chains fragment

variable {chains : List String}

theorem isMatch_empty : IsMatch chains {} :=
  ⟨rfl, rfl, rfl, rfl, by simp⟩

theorem isMatch_matching (tokens : List String) : IsMatch chains (matching tokens) :=
  ⟨rfl, rfl, rfl, rfl, by simp [matching]⟩

theorem isMatch_ofFamily (family : String) : IsMatch chains (ofFamily family) :=
  ⟨rfl, rfl, rfl, rfl, by simp [ofFamily]⟩

theorem isMatch_ofChain {chain : String} (member : chain ∈ chains) :
    IsMatch chains (ofChain chain) :=
  ⟨rfl, rfl, rfl, rfl, by simp [ofChain, member]⟩

/-- A match may be restricted to a family. -/
theorem IsMatch.withFamily
    {fragment : Fragment} (isMatch : IsMatch chains fragment) (family : Option String) :
    IsMatch chains { fragment with family := family } :=
  ⟨isMatch.table, isMatch.target, isMatch.position, isMatch.index, isMatch.chain⟩

theorem areMatches_none : AreMatches chains none := by
  simp [AreMatches]

theorem areMatches_some
    {list : List Fragment} (matching : ∀ fragment ∈ list, IsMatch chains fragment) :
    AreMatches chains (some list) := by
  rintro _ ⟨⟩
  exact matching

/-- A product of matches matches. -/
theorem isMatch_of_mem_combine
    {lists : List (Option (List Fragment))} {merged : Fragment}
    (matching : ∀ given ∈ lists, AreMatches chains given)
    (member : merged ∈ combine lists) :
    IsMatch chains merged where
  table := eq_none_of_mem_combine Fragment.table (fun _ _ => rfl) member
    fun list given part isPart => (matching _ given list rfl part isPart).table
  target := eq_none_of_mem_combine Fragment.target (fun _ _ => rfl) member
    fun list given part isPart => (matching _ given list rfl part isPart).target
  position := eq_none_of_mem_combine Fragment.position (fun _ _ => rfl) member
    fun list given part isPart => (matching _ given list rfl part isPart).position
  index := eq_none_of_mem_combine Fragment.index (fun _ _ => rfl) member
    fun list given part isPart => (matching _ given list rfl part isPart).index
  chain := by
    intro chain stated
    obtain ⟨list, given, part, isPart, partStated⟩ := exists_chain_of_mem_combine member stated
    exact (matching _ given list rfl part isPart).chain chain partStated

theorem areMatches_combine
    {lists : List (Option (List Fragment))}
    (matching : ∀ given ∈ lists, AreMatches chains given) :
    ∀ fragment ∈ combine lists, IsMatch chains fragment :=
  fun _ => isMatch_of_mem_combine matching

end Fragment

open Fragment

/-- The chains that stand for the filter hooks in the table of the kind. -/
def RuleKind.hookChains (kind : RuleKind) : List String :=
  [Hook.input, Hook.output, Hook.forward].filterMap kind.chainOf?

variable (chains : List String)

/-! ## Hosts and zones -/

theorem Run.yields_hostFragments {location option : String} {hosts : List Value} :
    Yields (fun found => ∀ fragment ∈ found, IsMatch chains fragment)
      (hostFragments location option hosts) := by
  refine yields_gather fun host _ => yields_bind fun addresses => yields_pure ?_
  intro fragment member
  obtain ⟨entry, _, rfl⟩ := List.mem_map.1 member
  exact (isMatch_matching _).withFamily _

theorem Zone.yields_addressFragments {zone : Zone} {direction : Direction} :
    Yields (AreMatches chains) (zone.addressFragments direction) := by
  unfold Zone.addressFragments
  split
  · exact (yields_hostFragments chains).bind fun found holds =>
      yields_pure (areMatches_some holds)
  · exact yields_pure areMatches_none

theorem Zone.yields_fragmentsOn
    {zone : Zone} {direction : Direction} {interfaces : List String} :
    Yields (fun found => ∀ fragment ∈ found, IsMatch chains fragment)
      (zone.fragmentsOn direction interfaces) := by
  refine (Zone.yields_addressFragments chains).bind fun addresses areMatches => yields_pure ?_
  have byInterface : AreMatches chains (interfaceFragments direction interfaces) := by
    unfold interfaceFragments
    split
    · exact areMatches_none
    · refine areMatches_some fun fragment member => ?_
      obtain ⟨name, _, rfl⟩ := List.mem_map.1 member
      exact isMatch_matching _
  unfold assemble
  split
  · intro fragment member
    obtain rfl := List.mem_singleton.1 member
    exact isMatch_empty
  · refine areMatches_combine fun given member => ?_
    rcases List.mem_cons.1 member with rfl | member
    · exact byInterface
    · rwa [List.mem_singleton.1 member]

namespace Rule

theorem yields_sideFragments
    {chain : String} {direction : Direction} {selector : Option ZoneSelector} :
    Yields (AreMatches chains) (sideFragments chain direction selector) := by
  unfold sideFragments
  split
  · exact yields_pure areMatches_none
  · exact (Zone.yields_fragmentsOn chains).bind fun found holds =>
      yields_pure (areMatches_some holds)
  · exact yields_unusable

theorem yields_chainFragments
    {zoneIn zoneOut : Option ZoneSelector} {chain : String} (member : chain ∈ chains) :
    Yields (fun found => ∀ fragment ∈ found, IsMatch chains fragment)
      (chainFragments zoneIn zoneOut chain) := by
  have inChain : AreMatches chains (some [ofChain chain]) := by
    refine areMatches_some fun fragment isChain => ?_
    rw [List.mem_singleton.1 isChain]
    exact isMatch_ofChain member
  have combined : ∀ entering leaving, AreMatches chains entering → AreMatches chains leaving →
      ∀ fragment ∈ combine [entering, leaving, some [ofChain chain]],
        IsMatch chains fragment := by
    intro entering leaving isEntering isLeaving
    refine areMatches_combine fun given isGiven => ?_
    simp only [List.mem_cons, List.not_mem_nil, or_false] at isGiven
    rcases isGiven with rfl | rfl | rfl
    · exact isEntering
    · exact isLeaving
    · exact inChain
  unfold chainFragments
  split
  · refine yields_gather fun pair _ => ?_
    exact (Zone.yields_fragmentsOn chains).bind fun entering isEntering =>
      (Zone.yields_fragmentsOn chains).bind fun leaving isLeaving =>
      yields_pure (combined _ _ (areMatches_some isEntering) (areMatches_some isLeaving))
  · exact (yields_sideFragments chains).bind fun entering isEntering =>
      (yields_sideFragments chains).bind fun leaving isLeaving =>
      yields_pure (combined _ _ isEntering isLeaving)

theorem mem_hookChains {kind : RuleKind} {hook : Hook} {chain : String}
    (stands : kind.chainOf? hook = some chain) :
    chain ∈ kind.hookChains := by
  refine List.mem_filterMap.2 ⟨hook, ?_, stands⟩
  cases hook <;> decide

/-- The zones match in the chains that stand for the filter hooks. -/
theorem yields_zoneFragments {rule : Rule} :
    Yields (fun found => ∀ fragment ∈ found, IsMatch rule.kind.hookChains fragment)
      rule.zoneFragments := by
  have pairs : ∀ zoneIn zoneOut : Option ZoneSelector,
      Yields (fun found => ∀ fragment ∈ found, IsMatch rule.kind.hookChains fragment)
        (pairFragments rule.kind zoneIn zoneOut) := by
    intro zoneIn zoneOut
    refine yields_gather fun chain member => yields_chainFragments _ ?_
    obtain ⟨hook, _, stands⟩ := List.mem_filterMap.1 member
    exact mem_hookChains stands
  refine Yields.bind (yields_gather fun pair _ => pairs pair.1 pair.2) fun found holds => ?_
  exact yields_pure fun fragment member => holds fragment (List.mem_eraseDups.1 member)

/-! ## The other dimensions -/

theorem yields_addressFragments {rule : Rule} {name : String} {direction : Direction} :
    Yields (AreMatches chains) (rule.addressFragments name direction) := by
  unfold addressFragments
  split
  · exact (yields_hostFragments chains).bind fun found holds =>
      yields_pure (areMatches_some holds)
  · exact yields_pure areMatches_none

variable {chains}

/-- Matches that are joined with others stay matches. -/
theorem areMatches_append
    {first second : List Fragment}
    (isFirst : ∀ fragment ∈ first, IsMatch chains fragment)
    (isSecond : ∀ fragment ∈ second, IsMatch chains fragment) :
    AreMatches chains (some (first ++ second)) := by
  refine areMatches_some fun fragment member => ?_
  exact (List.mem_append.1 member).elim (isFirst fragment) (isSecond fragment)

/-- Matches that are restricted by another match stay matches. -/
theorem areMatches_restricted
    {given : Option (List Fragment)} {restriction : Fragment}
    (areMatches : AreMatches chains given) (isMatch : IsMatch chains restriction) :
    ∀ fragment ∈ combine [given, some [restriction]], IsMatch chains fragment := by
  refine areMatches_combine fun list member => ?_
  simp only [List.mem_cons, List.not_mem_nil, or_false] at member
  rcases member with rfl | rfl
  · exact areMatches
  · refine areMatches_some fun fragment isRestriction => ?_
    rwa [List.mem_singleton.1 isRestriction]

variable (chains)

theorem yields_destinationFragments {rule : Rule} :
    Yields (AreMatches chains) rule.destinationFragments := by
  refine (yields_addressFragments chains).bind fun given isGiven => ?_
  split
  · refine yields_bind fun address => yields_bind fun zone => ?_
    exact (Zone.yields_fragmentsOn chains).bind fun found holds =>
      yields_pure (areMatches_append
        (areMatches_restricted isGiven (isMatch_ofFamily "inet6")) holds)
  · exact yields_pure isGiven

theorem areMatches_setFragments
    {rule : Rule} {found : Option (List Fragment)}
    (sets : rule.setFragments = .ok found) :
    AreMatches chains found := by
  unfold setFragments at sets
  extract_lets given at sets
  split at sets
  · obtain rfl := Except.ok.inj sets
    exact areMatches_none
  · split at sets
    · obtain ⟨flags, _, sets⟩ := except_bind_eq_ok.1 sets
      split at sets
      · obtain rfl := Except.ok.inj sets
        refine areMatches_some fun fragment member => ?_
        rw [List.mem_singleton.1 member]
        exact isMatch_matching _
      · simp at sets
    · simp at sets

theorem isMatch_definition
    {definition : ServiceDefinition} {reverse : Bool} {found : List Fragment}
    (read : definition.fragments reverse = .ok found) :
    ∀ fragment ∈ found, IsMatch chains fragment := by
  unfold ServiceDefinition.fragments at read
  extract_lets protocol within at read
  have isMatch : ∀ tokens, IsMatch chains (within tokens) :=
    fun tokens => (isMatch_matching tokens).withFamily _
  split at read
  · next control _ =>
      obtain rfl := Except.ok.inj read
      intro fragment member
      rw [List.mem_singleton.1 member]
      exact (isMatch_matching _).withFamily _
  · split at read
    · obtain rfl := Except.ok.inj read
      intro fragment member
      rw [List.mem_singleton.1 member]
      exact isMatch _
    · split at read
      · simp at read
      · obtain rfl := Except.ok.inj read
        intro fragment member
        obtain ⟨token, _, rfl⟩ := List.mem_map.1 member
        exact isMatch _

theorem isMatch_service
    {service : Service} {reverse : Bool} {found : List Fragment}
    (read : service.fragments reverse = .ok found) :
    ∀ fragment ∈ found, IsMatch chains fragment := by
  obtain ⟨lists, run, result⟩ := except_bind_eq_ok.1 read
  obtain rfl := Except.ok.inj result
  intro fragment member
  obtain ⟨definition, _, list, definitionRead, inList⟩ := exists_of_mem_flatten_mapM run member
  exact isMatch_definition chains definitionRead fragment inList

theorem areMatches_namedServiceFragments
    {rule : Rule} {found : Option (List Fragment)}
    (read : rule.namedServiceFragments = .ok found) :
    AreMatches chains found := by
  unfold namedServiceFragments at read
  split at read
  · obtain rfl := Except.ok.inj read
    exact areMatches_none
  · obtain ⟨lists, run, result⟩ := except_bind_eq_ok.1 read
    obtain rfl := Except.ok.inj result
    refine areMatches_some fun fragment member => ?_
    obtain ⟨selector, _, list, selectorRead, inList⟩ := exists_of_mem_flatten_mapM run member
    cases selector with
    | service service => exact isMatch_service chains selectorRead fragment inList
    | definition definition => exact isMatch_definition chains selectorRead fragment inList
    | other => simp [selectorFragments] at selectorRead

theorem yields_dnatServiceFragments {rule : Rule} :
    Yields (AreMatches chains) rule.dnatServiceFragments := by
  refine Yields.bind (yields_recording fun _ => areMatches_namedServiceFragments chains)
    fun given isGiven => ?_
  split
  · exact yields_pure isGiven
  · refine yields_bind fun port => ?_
    split
    · exact yields_pure isGiven
    · refine yields_bind fun protocols => Yields.bind ?_ fun found holds =>
        yields_pure (areMatches_append
          (areMatches_restricted isGiven (isMatch_ofFamily "inet6")) holds)
      refine yields_gather fun protocol _ => yields_bind fun service => ?_
      refine Yields.bind (yields_recording fun _ => isMatch_service chains) fun found holds => ?_
      exact yields_pure (areMatches_restricted (areMatches_some holds) (isMatch_ofFamily "inet"))

/-- The induction is on the definitions; what is found so far belongs to helpers. -/
private theorem exists_helper_of_mem
    {definitions : List ServiceDefinition} {found helpers : List (Scalar × Fragment)}
    (known : ∀ entry ∈ found, ∃ definition helper, entry.2 = helperFragment definition helper)
    (run : definitions.foldlM (fun (found : List (Scalar × Fragment)) definition =>
      match definition.helper? with
      | none => Except.ok found
      | some (.scalar key) =>
        .ok (Entries.insert found key (helperFragment definition (.scalar key)))
      | some _ => .error Failure.unusable) found = .ok helpers) :
    ∀ entry ∈ helpers, ∃ definition helper, entry.2 = helperFragment definition helper := by
  induction definitions generalizing found with
  | nil =>
      obtain rfl := Except.ok.inj run
      exact known
  | cons definition rest inductionHypothesis =>
      rw [List.foldlM_cons] at run
      obtain ⟨next, step, tail⟩ := except_bind_eq_ok.1 run
      refine inductionHypothesis ?_ tail
      split at step
      · obtain rfl := Except.ok.inj step
        exact known
      · obtain rfl := Except.ok.inj step
        intro entry member
        rcases Entries.mem_insert member with isKnown | isNew
        · exact known entry isKnown
        · exact ⟨definition, _, isNew⟩
      · simp at step

theorem exists_helper_of_mem_helperFragments
    {definitions : List ServiceDefinition} {found : List Fragment}
    (read : helperFragments definitions = .ok found) :
    ∀ fragment ∈ found, ∃ definition helper, fragment = helperFragment definition helper := by
  obtain ⟨helpers, run, result⟩ := except_bind_eq_ok.1 read
  obtain rfl := Except.ok.inj result
  intro fragment member
  obtain ⟨entry, isEntry, rfl⟩ := List.mem_map.1 member
  refine exists_helper_of_mem ?_ run entry isEntry
  exact fun _ none => absurd none List.not_mem_nil

theorem areMatches_helperFragments
    {definitions : List ServiceDefinition} {found : List Fragment}
    (read : helperFragments definitions = .ok found) :
    ∀ fragment ∈ found, IsMatch chains fragment := by
  intro fragment member
  obtain ⟨definition, helper, rfl⟩ := exists_helper_of_mem_helperFragments read fragment member
  exact (isMatch_matching _).withFamily _

theorem yields_serviceFragments {rule : Rule} :
    Yields (AreMatches chains) rule.serviceFragments := by
  unfold serviceFragments
  split
  · exact yields_pure areMatches_none
  · refine yields_recording fun found read => ?_
    obtain ⟨definitions, _, read⟩ := except_bind_eq_ok.1 read
    obtain ⟨helpers, helpersRead, result⟩ := except_bind_eq_ok.1 read
    obtain rfl := Except.ok.inj result
    exact areMatches_some (areMatches_helperFragments chains helpersRead)
  · refine (yields_dnatServiceFragments chains).bind fun given isGiven => ?_
    split
    · exact yields_pure (areMatches_some
        (areMatches_restricted isGiven (isMatch_matching _)))
    · exact yields_pure isGiven
  all_goals first
    | exact yields_dnatServiceFragments chains
    | exact yields_recording fun _ => areMatches_namedServiceFragments chains

end Rule

end FirewallPolicy
