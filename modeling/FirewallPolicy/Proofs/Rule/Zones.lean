import FirewallPolicy.Proofs.Fragment.Correspondence
import FirewallPolicy.Proofs.Fragment.Meaning
import FirewallPolicy.Proofs.Record
import FirewallPolicy.Proofs.Rule.Declaration
import FirewallPolicy.Proofs.Run.Outcome

/-!
# What zones match

The zones of a rule are read as a condition on traffic: at its hook it passes between two of the
named sides, and it has an interface and an address of the zone on each side.  The fragments for the
zones of a rule in the filter table are satisfied by exactly the traffic that meets this condition.
-/

namespace FirewallPolicy

open Fragment Run Stateful

/-! ## Traffic -/

/-- The chain of the filter table at a hook. -/
def Hook.chainName : Hook → String
  | input => "INPUT"
  | output => "OUTPUT"
  | forward => "FORWARD"

/-- The traffic as it passes a hook of the filter table. -/
def Fragment.Assignment.atHook (assignment : Assignment) (hook : Hook) : Assignment :=
  { assignment with chain := hook.chainName }

/-- The traffic uses the interface on that side. -/
def HasInterface (assignment : Assignment) (direction : Direction) (name : String) : Prop :=
  assignment.holds (direction.interfaceOption ++ " " ++ name)

/-- The traffic has the address on that side. -/
def HasAddress (assignment : Assignment) (direction : Direction) (entry : FamilyAddress) : Prop :=
  entry.family = assignment.family ∧
    assignment.holds (direction.addressOption ++ " " ++ entry.address)

/-- Some fragment is satisfied, if there are any. -/
def Fragment.GivenSatisfied (given : Option (List Fragment)) (assignment : Assignment) : Prop :=
  ∀ list, given = some list → SomeSatisfied list assignment

variable {directory : Directory} {assignment : Assignment} {direction : Direction}

theorem someSatisfied_combine_chain
    (entering leaving : Option (List Fragment)) (chain : String) :
    SomeSatisfied (combine [entering, leaving, some [ofChain chain]]) assignment ↔
      GivenSatisfied entering assignment ∧ GivenSatisfied leaving assignment ∧
        chain = assignment.chain := by
  have chainSatisfied : SomeSatisfied [ofChain chain] assignment ↔ chain = assignment.chain := by
    constructor
    · rintro ⟨fragment, member, satisfied⟩
      obtain rfl := List.mem_singleton.1 member
      exact satisfied.chain chain rfl
    · intro same
      refine ⟨ofChain chain, List.mem_singleton_self _, ?_⟩
      constructor <;> simp [Allows, ofChain, same]
  cases entering <;> cases leaving <;>
    simp [combine, someSatisfied_combineLists_iff, GivenSatisfied, chainSatisfied]

/-- What is gathered for a list of items is satisfied where what one of the items stands for is. -/
theorem someSatisfied_gather
    {α : Type} {results : α → Run (List Fragment)} {items : List α} {found : List Fragment}
    {meaning : α → Prop}
    (determined : ∀ item, Determined (results item))
    (run : outcome directory (gather results items) = .ok found)
    (each : ∀ item ∈ items, ∀ part, outcome directory (results item) = .ok part →
      (SomeSatisfied part assignment ↔ meaning item)) :
    SomeSatisfied found assignment ↔ ∃ item ∈ items, meaning item := by
  obtain ⟨given, mem_found⟩ := outcome_gather_eq_ok determined run
  constructor
  · rintro ⟨fragment, member, satisfied⟩
    obtain ⟨item, isItem, part, partRun, inPart⟩ := (mem_found fragment).1 member
    exact ⟨item, isItem, (each item isItem part partRun).1 ⟨fragment, inPart, satisfied⟩⟩
  · rintro ⟨item, isItem, means⟩
    obtain ⟨part, partRun⟩ := given item isItem
    obtain ⟨fragment, inPart, satisfied⟩ := (each item isItem part partRun).2 means
    exact ⟨fragment, (mem_found fragment).2 ⟨item, isItem, part, partRun, inPart⟩, satisfied⟩

/-! ## One zone -/

namespace Zone

variable {zone : Zone} {names : List String} {found : List Fragment}

/-- The traffic uses an interface of the zone on that side, if the zone has any. -/
def MatchesInterface (zone : Zone) (direction : Direction) (assignment : Assignment) : Prop :=
  zone.interfaces ≠ [] → ∃ name ∈ zone.interfaces, HasInterface assignment direction name

/-- The traffic has an address of the zone on that side, if the zone lists addresses. -/
def MatchesAddress (zone : Zone) (directory : Directory) (direction : Direction)
    (assignment : Assignment) : Prop :=
  zone.attributes.has "addr" = true →
    ∃ host ∈ (zone.attributes.get "addr").toItems, ∃ addresses,
      Resolves directory host.written addresses ∧
        ∃ entry ∈ addresses, HasAddress assignment direction entry

/-- The addresses that the zone lists are known. -/
def IsResolvable (zone : Zone) (directory : Directory) : Prop :=
  zone.attributes.has "addr" = true →
    ∀ host ∈ (zone.attributes.get "addr").toItems, ∃ addresses,
      Resolves directory host.written addresses

theorem tokens_matching_pair (option value : String) :
    (matching [option ++ " " ++ value]).tokens = [option ++ " " ++ value] := by
  have nonempty : (option ++ " " ++ value).isEmpty = false := by
    simp [String.isEmpty_eq_false_iff, String.append_eq_empty_iff]
  simp [matching, nonempty]

theorem satisfied_interface_iff {name : String} :
    Satisfied (matching [direction.interfaceOption ++ " " ++ name]) assignment ↔
      HasInterface assignment direction name := by
  constructor
  · intro satisfied
    exact satisfied.tokens _ (by simp [tokens_matching_pair])
  · intro holds
    constructor
    case tokens => simpa [tokens_matching_pair, HasInterface] using holds
    all_goals simp [Allows, matching]

theorem satisfied_hostFragment_iff {entry : FamilyAddress} :
    Satisfied (hostFragment direction.addressOption entry) assignment ↔
      HasAddress assignment direction entry := by
  have tokens : (hostFragment direction.addressOption entry).tokens =
      [direction.addressOption ++ " " ++ entry.address] := tokens_matching_pair _ _
  constructor
  · intro satisfied
    exact ⟨satisfied.family _ rfl, satisfied.tokens _ (by simp [tokens])⟩
  · rintro ⟨family, holds⟩
    constructor
    case family => simpa [Allows, hostFragment] using family
    case tokens => simpa [tokens] using holds
    all_goals simp [Allows, hostFragment, matching]

theorem someSatisfied_hostFragments
    {location : String} {hosts : List Value}
    (run : outcome directory (hostFragments location direction.addressOption hosts) = .ok found) :
    SomeSatisfied found assignment ↔
      ∃ host ∈ hosts, ∃ addresses, Resolves directory host.written addresses ∧
        ∃ entry ∈ addresses, HasAddress assignment direction entry := by
  refine someSatisfied_gather
    (fun host => (determined_resolveHost _ _).bind fun _ => determined_pure _) run
    fun host _ part partRun => ?_
  rw [(determined_resolveHost _ _).outcome_bind fun _ => determined_pure _] at partRun
  obtain ⟨addresses, isAnswer, same⟩ := except_bind_eq_ok.1 partRun
  obtain rfl := Except.ok.inj same
  have resolves : Resolves directory host.written addresses :=
    outcome_resolveHost_eq_ok.1 isAnswer
  constructor
  · rintro ⟨fragment, member, satisfied⟩
    obtain ⟨entry, isEntry, rfl⟩ := List.mem_map.1 member
    exact ⟨addresses, resolves, entry, isEntry, satisfied_hostFragment_iff.1 satisfied⟩
  · rintro ⟨others, othersResolve, entry, isEntry, hasAddress⟩
    obtain rfl : others = addresses :=
      HostBook.Answer.addresses.inj (othersResolve.symm.trans resolves)
    exact ⟨_, List.mem_map_of_mem isEntry, satisfied_hostFragment_iff.2 hasAddress⟩

theorem givenSatisfied_interfaceFragments :
    GivenSatisfied (interfaceFragments direction names) assignment ↔
      (names ≠ [] → ∃ name ∈ names, HasInterface assignment direction name) := by
  unfold interfaceFragments
  cases names with
  | nil => simp [GivenSatisfied]
  | cons name rest =>
      simp [GivenSatisfied, SomeSatisfied, satisfied_interface_iff]

theorem determined_addressFragments : Determined (zone.addressFragments direction) := by
  unfold addressFragments
  split
  · exact (determined_hostFragments _ _ _).bind fun _ => determined_pure _
  · exact determined_pure _

theorem determined_fragmentsOn : Determined (zone.fragmentsOn direction names) :=
  determined_addressFragments.bind fun _ => determined_pure _

theorem addressFragments_eq_ok
    {given : Option (List Fragment)}
    (run : outcome directory (zone.addressFragments direction) = .ok given) :
    (zone.attributes.has "addr" = true ∧ ∃ hosts,
        outcome directory (hostFragments zone.location direction.addressOption
          (zone.attributes.get "addr").toItems) = .ok hosts ∧ given = some hosts) ∨
      (zone.attributes.has "addr" = false ∧ given = none) := by
  unfold addressFragments at run
  split at run
  · next listed =>
      rw [(determined_hostFragments _ _ _).outcome_bind fun _ => determined_pure _] at run
      obtain ⟨hosts, areHosts, same⟩ := except_bind_eq_ok.1 run
      exact Or.inl ⟨listed, hosts, areHosts, (Except.ok.inj same).symm⟩
  · next unlisted => exact Or.inr ⟨Bool.eq_false_iff.2 unlisted, (Except.ok.inj run).symm⟩

theorem fragmentsOn_eq_ok :
    outcome directory (zone.fragmentsOn direction names) = .ok found ↔
      ∃ given, outcome directory (zone.addressFragments direction) = .ok given ∧
        assemble (interfaceFragments direction names) given = found := by
  unfold fragmentsOn
  rw [determined_addressFragments.outcome_bind fun _ => determined_pure _, except_bind_eq_ok]
  simp only [outcome_pure, Except.ok.injEq]

theorem givenSatisfied_addressFragments
    {given : Option (List Fragment)}
    (run : outcome directory (zone.addressFragments direction) = .ok given) :
    GivenSatisfied given assignment ↔ zone.MatchesAddress directory direction assignment := by
  rcases addressFragments_eq_ok run with ⟨listed, hosts, areHosts, rfl⟩ | ⟨unlisted, rfl⟩
  · simp [GivenSatisfied, MatchesAddress, listed, someSatisfied_hostFragments areHosts]
  · simp [GivenSatisfied, MatchesAddress, unlisted]

/-- Interfaces and addresses are matched together; what is absent is matched by everything. -/
theorem assemble_eq_product (interfaces addresses : Option (List Fragment)) :
    assemble interfaces addresses = product (orAny interfaces) (orAny addresses) := by
  cases interfaces <;> cases addresses <;>
    simp [assemble, orAny, combine, combineLists, product_empty, empty_product]

theorem someSatisfied_assemble
    (interfaces addresses : Option (List Fragment)) :
    SomeSatisfied (assemble interfaces addresses) assignment ↔
      GivenSatisfied interfaces assignment ∧ GivenSatisfied addresses assignment := by
  have anything : SomeSatisfied [{}] assignment :=
    ⟨{}, List.mem_singleton_self _, by constructor <;> simp [Allows]⟩
  cases interfaces <;> cases addresses <;>
    simp [assemble, combine, someSatisfied_combineLists_iff, GivenSatisfied, anything]

theorem someSatisfied_fragmentsOn
    (run : outcome directory (zone.fragmentsOn direction names) = .ok found) :
    SomeSatisfied found assignment ↔
      (names ≠ [] → ∃ name ∈ names, HasInterface assignment direction name) ∧
        zone.MatchesAddress directory direction assignment := by
  obtain ⟨given, isGiven, rfl⟩ := fragmentsOn_eq_ok.1 run
  rw [someSatisfied_assemble, givenSatisfied_interfaceFragments,
    givenSatisfied_addressFragments isGiven]

end Zone

/-! ## Two sides -/

namespace Rule

variable {entering leaving : Option ZoneSelector} {found : List Fragment} {chain : String}
  {hook : Hook} {kind : RuleKind}

/-- The traffic matches the zone on that side, if the side is one. -/
def MatchesSide (directory : Directory) (direction : Direction) (side : Option ZoneSelector)
    (assignment : Assignment) : Prop :=
  ∀ name zone, side = some (.named name zone) →
    zone.MatchesInterface direction assignment ∧ zone.MatchesAddress directory direction assignment

/-- Traffic from a zone with interfaces into the same zone leaves by an interface at another position
than the one it enters by, unless the zone routes back. -/
def LeavesApart (entering leaving : Option ZoneSelector) (assignment : Assignment) : Prop :=
  ∀ name zone other, entering = some (.named name zone) →
    (∃ same, leaving = some (.named other same)) → name.sameKey other = true →
    zone.routesBack = false → zone.interfaces ≠ [] →
      ∃ (i j : Nat) (first second : String), i ≠ j ∧ zone.interfaces[i]? = some first ∧
        zone.interfaces[j]? = some second ∧ HasInterface assignment .inward first ∧
          HasInterface assignment .outward second

/-- Traffic between two sides passes the hook. -/
@[mk_iff]
structure PassesHook (hook : Hook) (entering leaving : Option ZoneSelector) : Prop where
  apart : ¬ (entering = some .firewall ∧ leaving = some .firewall)
  sent : entering = some .firewall → hook = .output
  received : leaving = some .firewall → hook = .input
  routed : entering ≠ some .firewall → leaving ≠ some .firewall →
    hook = .forward ∨ (hook = .input ∧ leaving = none) ∨ (hook = .output ∧ entering = none)

/-- The traffic passes the hook between two sides and matches both. -/
structure MatchesPair (directory : Directory) (hook : Hook) (assignment : Assignment)
    (entering leaving : Option ZoneSelector) : Prop where
  passes : PassesHook hook entering leaving
  source : MatchesSide directory .inward entering assignment
  destination : MatchesSide directory .outward leaving assignment
  apart : LeavesApart entering leaving assignment

/-- Two sides that name the same zone hold the same zone. -/
def AgreeOnZones (entering leaving : Option ZoneSelector) : Prop :=
  ∀ name zone other same, entering = some (.named name zone) →
    leaving = some (.named other same) → name.sameKey other = true → same = zone

/-! ### One chain -/

theorem mem_distinctPairs {items : List String} {first second : String} :
    (first, second) ∈ distinctPairs items ↔
      ∃ i j : Nat, i ≠ j ∧ items[i]? = some first ∧ items[j]? = some second := by
  constructor
  · intro member
    obtain ⟨⟨a, i⟩, isFirst, inner⟩ := List.mem_flatMap.1 member
    obtain ⟨⟨b, j⟩, isSecond, pair⟩ := List.mem_filterMap.1 inner
    split at pair
    · simp at pair
    · next different =>
        obtain ⟨rfl, rfl⟩ := Prod.mk.inj (Option.some.inj pair)
        exact ⟨i, j, different, List.mem_zipIdx_iff_getElem?.1 isFirst,
          List.mem_zipIdx_iff_getElem?.1 isSecond⟩
  · rintro ⟨i, j, different, isFirst, isSecond⟩
    refine List.mem_flatMap.2 ⟨(first, i), List.mem_zipIdx_iff_getElem?.2 isFirst, ?_⟩
    exact List.mem_filterMap.2 ⟨(second, j), List.mem_zipIdx_iff_getElem?.2 isSecond,
      if_neg different⟩

theorem hairpinZone?_eq_some
    {zone : Zone} (hairpin : hairpinZone? entering leaving = some zone) :
    ∃ name other same, entering = some (.named name zone) ∧
      leaving = some (.named other same) ∧ name.sameKey other = true ∧
      zone.routesBack = false ∧ zone.interfaces ≠ [] := by
  unfold hairpinZone? at hairpin
  split at hairpin
  · next name first other same =>
      split at hairpin
      · next condition =>
          obtain rfl := Option.some.inj hairpin
          simp only [Bool.and_eq_true, Bool.not_eq_true', List.isEmpty_eq_false_iff] at condition
          exact ⟨name, other, same, rfl, rfl, condition.1.1, condition.1.2, condition.2⟩
      · simp at hairpin
  · simp at hairpin

/-- Without a hairpin, nothing is asked of the positions of interfaces. -/
theorem leavesApart_of_hairpinZone?
    (straight : hairpinZone? entering leaving = none) : LeavesApart entering leaving assignment := by
  rintro name zone other rfl ⟨same, rfl⟩ sameKey notBack nonempty
  simp [hairpinZone?, sameKey, notBack, nonempty] at straight

theorem determined_sideFragments : Determined (sideFragments chain direction entering) := by
  unfold sideFragments
  split
  · exact determined_pure _
  · exact Zone.determined_fragmentsOn.bind fun _ => determined_pure _
  · exact determined_unusable

theorem determined_hairpinFragments (zone : Zone) (pair : String × String) :
    Determined (hairpinFragments chain zone pair) :=
  Zone.determined_fragmentsOn.bind fun _ => Zone.determined_fragmentsOn.bind fun _ =>
    determined_pure _

theorem determined_chainFragments : Determined (chainFragments entering leaving chain) := by
  unfold chainFragments
  split
  · exact determined_gather fun _ _ => determined_hairpinFragments _ _
  · exact determined_sideFragments.bind fun _ => determined_sideFragments.bind fun _ =>
      determined_pure _

theorem sideFragments_named_eq_ok
    {name : Scalar} {zone : Zone} {given : Option (List Fragment)}
    (run : outcome directory
      (sideFragments chain direction (some (.named name zone))) = .ok given) :
    ∃ list, outcome directory
        (zone.fragmentsOn direction (visibleIn chain direction zone.interfaces)) = .ok list ∧
      given = some list := by
  unfold sideFragments at run
  rw [Zone.determined_fragmentsOn.outcome_bind fun _ => determined_pure _] at run
  obtain ⟨list, isList, same⟩ := except_bind_eq_ok.1 run
  exact ⟨list, isList, (Except.ok.inj same).symm⟩

theorem hairpinFragments_eq_ok
    {zone : Zone} {pair : String × String}
    (run : outcome directory (hairpinFragments chain zone pair) = .ok found) :
    ∃ enters leaves,
      outcome directory (zone.fragmentsOn .inward (visibleIn chain .inward [pair.1])) =
          .ok enters ∧
        outcome directory (zone.fragmentsOn .outward (visibleIn chain .outward [pair.2])) =
          .ok leaves ∧
        found = combine [some enters, some leaves, some [ofChain chain]] := by
  unfold hairpinFragments at run
  rw [Zone.determined_fragmentsOn.outcome_bind fun _ =>
    Zone.determined_fragmentsOn.bind fun _ => determined_pure _] at run
  obtain ⟨enters, isEntering, run⟩ := except_bind_eq_ok.1 run
  rw [Zone.determined_fragmentsOn.outcome_bind fun _ => determined_pure _] at run
  obtain ⟨leaves, isLeaving, same⟩ := except_bind_eq_ok.1 run
  exact ⟨enters, leaves, isEntering, isLeaving, (Except.ok.inj same).symm⟩

/-- Each side is matched for itself where they are not one zone that traffic must leave apart. -/
theorem chainFragments_eq_ok
    (straight : hairpinZone? entering leaving = none)
    (run : outcome directory (chainFragments entering leaving chain) = .ok found) :
    ∃ enters leaves, outcome directory (sideFragments chain .inward entering) = .ok enters ∧
      outcome directory (sideFragments chain .outward leaving) = .ok leaves ∧
        found = combine [enters, leaves, some [ofChain chain]] := by
  unfold chainFragments at run
  rw [straight] at run
  change outcome directory (sideFragments chain .inward entering >>= _) = _ at run
  rw [determined_sideFragments.outcome_bind fun _ =>
    determined_sideFragments.bind fun _ => determined_pure _] at run
  obtain ⟨enters, isEntering, run⟩ := except_bind_eq_ok.1 run
  rw [determined_sideFragments.outcome_bind fun _ => determined_pure _] at run
  obtain ⟨leaves, isLeaving, same⟩ := except_bind_eq_ok.1 run
  exact ⟨enters, leaves, isEntering, isLeaving, (Except.ok.inj same).symm⟩

theorem givenSatisfied_sideFragments
    {given : Option (List Fragment)} (sees : entering ≠ none → chainSees chain direction = true)
    (run : outcome directory (sideFragments chain direction entering) = .ok given) :
    GivenSatisfied given assignment ↔ MatchesSide directory direction entering assignment := by
  rcases entering with _ | _ | ⟨name, zone⟩ | _
  · obtain rfl := Except.ok.inj run
    simp [GivenSatisfied, MatchesSide]
  · cases run
  · obtain ⟨found, isFound, rfl⟩ := sideFragments_named_eq_ok run
    rw [visibleIn, if_pos (sees (by simp))] at isFound
    simp [GivenSatisfied, MatchesSide, Zone.someSatisfied_fragmentsOn isFound,
      Zone.MatchesInterface]
  · cases run

/-- Fragments for traffic that leaves a zone by another interface than it entered by. -/
theorem someSatisfied_hairpinFragments
    {zone : Zone} {pair : String × String}
    (seesIn : chainSees chain .inward = true) (seesOut : chainSees chain .outward = true)
    (run : outcome directory (hairpinFragments chain zone pair) = .ok found) :
    SomeSatisfied found assignment ↔
      (HasInterface assignment .inward pair.1 ∧ zone.MatchesAddress directory .inward assignment) ∧
      (HasInterface assignment .outward pair.2 ∧
        zone.MatchesAddress directory .outward assignment) ∧
      chain = assignment.chain := by
  obtain ⟨enters, leaves, isEntering, isLeaving, rfl⟩ := hairpinFragments_eq_ok run
  rw [visibleIn, if_pos seesIn] at isEntering
  rw [visibleIn, if_pos seesOut] at isLeaving
  rw [someSatisfied_combine_chain]
  simp [GivenSatisfied, Zone.someSatisfied_fragmentsOn isEntering,
    Zone.someSatisfied_fragmentsOn isLeaving]

/-- Fragments for the interfaces at two positions of a zone. -/
theorem someSatisfied_hairpins
    {zone : Zone}
    (seesIn : chainSees chain .inward = true) (seesOut : chainSees chain .outward = true)
    (run : outcome directory
      (gather (hairpinFragments chain zone) (distinctPairs zone.interfaces)) = .ok found) :
    SomeSatisfied found assignment ↔
      ∃ (i j : Nat) (first second : String), i ≠ j ∧ zone.interfaces[i]? = some first ∧
        zone.interfaces[j]? = some second ∧
        (HasInterface assignment .inward first ∧ zone.MatchesAddress directory .inward assignment) ∧
        (HasInterface assignment .outward second ∧
          zone.MatchesAddress directory .outward assignment) ∧
        chain = assignment.chain := by
  rw [someSatisfied_gather (determined_hairpinFragments _) run fun _ _ _ partRun =>
    someSatisfied_hairpinFragments seesIn seesOut partRun]
  constructor
  · rintro ⟨⟨first, second⟩, isPair, enters, leaves, isChain⟩
    obtain ⟨i, j, different, isFirst, isSecond⟩ := mem_distinctPairs.1 isPair
    exact ⟨i, j, first, second, different, isFirst, isSecond, enters, leaves, isChain⟩
  · rintro ⟨i, j, first, second, different, isFirst, isSecond, enters, leaves, isChain⟩
    have isPair := mem_distinctPairs.2 ⟨i, j, different, isFirst, isSecond⟩
    exact ⟨(first, second), isPair, enters, leaves, isChain⟩

/-- The fragments for two sides in a chain that sees them. -/
theorem someSatisfied_chainFragments
    (seesIn : entering ≠ none → chainSees chain .inward = true)
    (seesOut : leaving ≠ none → chainSees chain .outward = true)
    (agree : AgreeOnZones entering leaving)
    (run : outcome directory (chainFragments entering leaving chain) = .ok found)
    (assignment : Assignment) :
    SomeSatisfied found assignment ↔
      chain = assignment.chain ∧ MatchesSide directory .inward entering assignment ∧
        MatchesSide directory .outward leaving assignment ∧
        LeavesApart entering leaving assignment := by
  cases hairpin : hairpinZone? entering leaving with
  -- Both sides are one zone: a pair of its interfaces stands for both and keeps them apart.
  | some zone =>
      unfold chainFragments at run
      rw [hairpin] at run
      obtain ⟨name, other, same, rfl, rfl, sameKey, notBack, nonempty⟩ :=
        hairpinZone?_eq_some hairpin
      obtain rfl : zone = same := (agree name zone other same rfl rfl sameKey).symm
      rw [someSatisfied_hairpins (seesIn (by simp)) (seesOut (by simp)) run]
      constructor
      · rintro ⟨i, j, first, second, different, isFirst, isSecond, source, destination, isChain⟩
        refine ⟨isChain, ?_, ?_, ?_⟩
        · rintro _ _ ⟨⟩
          exact ⟨fun _ => ⟨first, List.mem_of_getElem? isFirst, source.1⟩, source.2⟩
        · rintro _ _ ⟨⟩
          exact ⟨fun _ => ⟨second, List.mem_of_getElem? isSecond, destination.1⟩, destination.2⟩
        · rintro _ _ _ ⟨⟩ ⟨_, ⟨⟩⟩ _ _ _
          exact ⟨i, j, first, second, different, isFirst, isSecond, source.1, destination.1⟩
      · rintro ⟨isChain, source, destination, apart⟩
        obtain ⟨i, j, first, second, different, isFirst, isSecond, enters, leaves⟩ :=
          apart name zone other rfl ⟨zone, rfl⟩ sameKey notBack nonempty
        exact ⟨i, j, first, second, different, isFirst, isSecond,
          ⟨enters, (source name zone rfl).2⟩, ⟨leaves, (destination other zone rfl).2⟩, isChain⟩
  -- Otherwise each side is matched for itself.
  | none =>
      obtain ⟨enters, leaves, isEntering, isLeaving, rfl⟩ := chainFragments_eq_ok hairpin run
      rw [someSatisfied_combine_chain, givenSatisfied_sideFragments seesIn isEntering,
        givenSatisfied_sideFragments seesOut isLeaving]
      have apart : LeavesApart entering leaving assignment :=
        leavesApart_of_hairpinZone? hairpin
      constructor
      · rintro ⟨source, destination, isChain⟩
        exact ⟨isChain, source, destination, apart⟩
      · rintro ⟨isChain, source, destination, _⟩
        exact ⟨source, destination, isChain⟩

/-! ### One hook -/

/-- What remains of a side to be matched: the firewall itself is matched by its hook. -/
def remaining (side : Option ZoneSelector) : Option ZoneSelector :=
  if isFirewall side then none else side

theorem remaining_eq_some {side : Option ZoneSelector} {zone : ZoneSelector} :
    remaining side = some zone ↔ side = some zone ∧ zone ≠ .firewall := by
  rcases side with _ | _ | _ | _ <;> simp [remaining, isFirewall] <;> grind

theorem hooksBetween_snd :
    (hooksBetween entering leaving).2 = (remaining entering, remaining leaving) := by
  unfold hooksBetween remaining
  cases isFirewall entering <;> cases isFirewall leaving <;> rfl

theorem mem_hooksBetween :
    hook ∈ (hooksBetween entering leaving).1 ↔ PassesHook hook entering leaving := by
  rw [passesHook_iff]
  rcases entering with _ | _ | _ | _ <;> rcases leaving with _ | _ | _ | _ <;>
    cases hook <;> simp [hooksBetween, isFirewall]

/-- The chain of a hook sees the sides that remain to be matched there. -/
theorem PassesHook.sees (passes : PassesHook hook entering leaving) :
    (remaining entering ≠ none → chainSees hook.chainName .inward = true) ∧
      (remaining leaving ≠ none → chainSees hook.chainName .outward = true) := by
  rw [passesHook_iff] at passes
  rcases entering with _ | _ | _ | _ <;> rcases leaving with _ | _ | _ | _ <;>
    cases hook <;> simp_all [remaining, isFirewall, chainSees, Hook.chainName]

theorem matchesSide_remaining {side : Option ZoneSelector} :
    MatchesSide directory direction (remaining side) assignment ↔
      MatchesSide directory direction side assignment := by
  simp [MatchesSide, remaining_eq_some]

theorem leavesApart_remaining :
    LeavesApart (remaining entering) (remaining leaving) assignment ↔
      LeavesApart entering leaving assignment := by
  simp [LeavesApart, remaining_eq_some]

theorem AgreeOnZones.remaining
    (agree : AgreeOnZones entering leaving) :
    AgreeOnZones (remaining entering) (remaining leaving) :=
  fun name zone other same isEntering isLeaving =>
    agree name zone other same (remaining_eq_some.1 isEntering).1 (remaining_eq_some.1 isLeaving).1

theorem chainOf?_of_table (isFilter : kind.table = "filter") :
    kind.chainOf? hook = some hook.chainName := by
  cases kind <;> cases hook <;> simp_all [RuleKind.table, RuleKind.chainOf?, Hook.chainName]

theorem chainName_injective {other : Hook} (same : hook.chainName = other.chainName) :
    hook = other := by
  cases hook <;> cases other <;> simp_all [Hook.chainName]

theorem pairFragments_eq :
    pairFragments kind entering leaving =
      gather (chainFragments (remaining entering) (remaining leaving))
        ((hooksBetween entering leaving).1.filterMap kind.chainOf?) := by
  have sides : hooksBetween entering leaving =
      ((hooksBetween entering leaving).1, remaining entering, remaining leaving) :=
    Prod.ext rfl hooksBetween_snd
  unfold pairFragments
  rw [sides]

theorem determined_pairFragments : Determined (pairFragments kind entering leaving) :=
  determined_gather fun _ _ => determined_chainFragments

/-- The fragments for two sides: those for the chain of each hook that traffic between them passes,
of which at a hook only those for its own chain can be satisfied. -/
theorem someSatisfied_pairFragments
    (isFilter : kind.table = "filter") (agree : AgreeOnZones entering leaving)
    (run : outcome directory (pairFragments kind entering leaving) = .ok found)
    (hook : Hook) (assignment : Assignment) :
    SomeSatisfied found (assignment.atHook hook) ↔
      MatchesPair directory hook assignment entering leaving := by
  rw [pairFragments_eq] at run
  have mem_chains (chain : String) :
      chain ∈ (hooksBetween entering leaving).1.filterMap kind.chainOf? ↔
        ∃ hook, PassesHook hook entering leaving ∧ hook.chainName = chain := by
    simp [mem_hooksBetween, chainOf?_of_table isFilter]
  have meaning (chain : String)
      (isChain : chain ∈ (hooksBetween entering leaving).1.filterMap kind.chainOf?)
      (part : List Fragment)
      (partRun : outcome directory
        (chainFragments (remaining entering) (remaining leaving) chain) = .ok part) :
      SomeSatisfied part (assignment.atHook hook) ↔
        chain = hook.chainName ∧ MatchesSide directory .inward entering (assignment.atHook hook) ∧
          MatchesSide directory .outward leaving (assignment.atHook hook) ∧
          LeavesApart entering leaving (assignment.atHook hook) := by
    obtain ⟨passed, passes, rfl⟩ := (mem_chains chain).1 isChain
    rw [someSatisfied_chainFragments passes.sees.1 passes.sees.2 agree.remaining partRun,
      matchesSide_remaining, matchesSide_remaining, leavesApart_remaining]
    rfl
  rw [someSatisfied_gather (fun _ => determined_chainFragments) run meaning]
  constructor
  · rintro ⟨chain, isChain, same, source, destination, apart⟩
    obtain ⟨passed, passes, rfl⟩ := (mem_chains chain).1 isChain
    obtain rfl : passed = hook := chainName_injective same
    exact ⟨passes, source, destination, apart⟩
  · rintro ⟨passes, source, destination, apart⟩
    exact ⟨hook.chainName, (mem_chains _).2 ⟨hook, passes, rfl⟩, rfl, source, destination, apart⟩

end Rule

end FirewallPolicy
