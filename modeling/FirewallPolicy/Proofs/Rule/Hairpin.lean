import FirewallPolicy.Proofs.Rule.Tokens
import Mathlib.Data.List.NodupEquivFin

/-!
# Traffic that turns back

A zone that does not route back is left by an interface at another position of its list than the
one it is entered by.  Nothing else keeps traffic from turning back: an interface that the list has
at two positions is matched on both sides.
-/

namespace FirewallPolicy

open Fragment Run Stateful

variable {directory : Directory} {direction : Direction} {names others : List String}
  {found : List Fragment} {zone same : Zone} {name other : Scalar} {interface chain : String}

/-- The fragment matches traffic that leaves by the interface that it enters by. -/
structure Fragment.TurnsBack (fragment : Fragment) (interface : String) : Prop where
  enters : Direction.inward.interfaceOption ++ " " ++ interface ∈ fragment.tokens
  leaves : Direction.outward.interfaceOption ++ " " ++ interface ∈ fragment.tokens

/-! ## Interfaces and addresses of a zone -/

namespace Zone

/-- The zone has a known address, if it lists any. -/
def IsPopulated (zone : Zone) (directory : Directory) : Prop :=
  zone.attributes.has "addr" = true → ∃ address, zone.ListsAddress directory address

theorem mem_of_statesAmong
    (states : zone.StatesAmong directory direction names
      (direction.interfaceOption ++ " " ++ interface)) :
    interface ∈ names := by
  rcases states with ⟨name, isName, same⟩ | ⟨address, -, same⟩
  · rwa [(String.append_right_inj _).1 same]
  · have distinct : areDistinct direction.interfaceOption direction.addressOption = true := by
      cases direction <;> decide
    have isInterface := isOption_self direction.interfaceOption interface
    rw [same, isOption_of_distinct distinct] at isInterface
    cases isInterface

theorem not_statesAmong_opposite :
    ¬ zone.StatesAmong directory direction.opposite names
      (direction.interfaceOption ++ " " ++ interface) := by
  intro states
  have distinct : ∀ option ∈ [direction.opposite.interfaceOption,
      direction.opposite.addressOption],
      areDistinct direction.interfaceOption option = true := by
    cases direction <;> decide
  exact states.states.hasOption.false_of_isOption (isOption_self _ _) distinct

theorem exists_addressFragment
    (populated : zone.IsPopulated directory) :
    ∃ family : Option String, ∀ direction given,
      outcome directory (zone.addressFragments direction) = .ok given →
        ∃ tokens, ({ family, tokens } : Fragment) ∈ orAny given := by
  by_cases listed : zone.attributes.has "addr" = true
  · obtain ⟨_, -, host, isHost, addresses, resolves, entry, isEntry, -⟩ := populated listed
    refine ⟨some entry.family, fun direction given isGiven => ?_⟩
    rcases addressFragments_eq_ok isGiven with ⟨-, hosts, areHosts, rfl⟩ | ⟨unlisted, -⟩
    case inr => exact absurd listed (Bool.eq_false_iff.1 unlisted)
    refine ⟨[direction.addressOption ++ " " ++ entry.address], ?_⟩
    apply ((outcome_hostFragments_eq_ok areHosts).2 _).2
    refine ⟨host, isHost, addresses, resolves, entry, isEntry, ?_⟩
    rw [hostFragment, matching_pair]
  · refine ⟨none, fun direction given isGiven => ⟨[], ?_⟩⟩
    rcases addressFragments_eq_ok isGiven with ⟨isListed, -⟩ | ⟨-, rfl⟩
    · exact absurd isListed listed
    · exact List.mem_singleton_self _

theorem isPopulated_of_mem_fragmentsOn
    {fragment : Fragment} (run : outcome directory (zone.fragmentsOn direction names) = .ok found)
    (member : fragment ∈ found) : zone.IsPopulated directory := by
  intro listed
  obtain ⟨given, isGiven, rfl⟩ := fragmentsOn_eq_ok.1 run
  rw [assemble_eq_product] at member
  obtain ⟨_, _, part, isPart, _⟩ := mem_product.1 member
  rcases addressFragments_eq_ok isGiven with ⟨-, hosts, areHosts, rfl⟩ | ⟨unlisted, -⟩
  · obtain ⟨host, isHost, addresses, resolves, entry, isEntry, _⟩ :=
      ((outcome_hostFragments_eq_ok areHosts).2 part).1 isPart
    exact ⟨entry.address, listed, host, isHost, addresses, resolves, entry, isEntry, rfl⟩
  · exact absurd listed (Bool.eq_false_iff.1 unlisted)

/-- Matches by one interface state it, and a family that does not depend on the side. -/
theorem exists_fragmentOn
    (populated : zone.IsPopulated directory) (interface : String) :
    ∃ family : Option String, ∀ direction found,
      outcome directory (zone.fragmentsOn direction [interface]) = .ok found →
        ∃ tokens, ({ family, tokens } : Fragment) ∈ found ∧
          direction.interfaceOption ++ " " ++ interface ∈ tokens := by
  obtain ⟨family, parts⟩ := exists_addressFragment populated
  refine ⟨family, fun direction found run => ?_⟩
  obtain ⟨given, isGiven, rfl⟩ := fragmentsOn_eq_ok.1 run
  obtain ⟨tokens, isPart⟩ := parts direction given isGiven
  have isInterface : ({ tokens := [direction.interfaceOption ++ " " ++ interface] } : Fragment) ∈
      orAny (interfaceFragments direction [interface]) :=
    mem_interfaceFragments.2 (Or.inr ⟨interface, List.mem_singleton_self _, rfl⟩)
  refine ⟨(direction.interfaceOption ++ " " ++ interface) :: tokens, ?_, List.mem_cons_self ..⟩
  rw [assemble_eq_product]
  exact mem_product.2 ⟨_, isInterface, _, isPart, by simp [merge, agreed?]⟩

end Zone

namespace Rule

/-! ## Two sides in a chain -/

/-- What turns back at an interface states it on both sides. -/
theorem mem_of_turnsBack
    {fragment : Fragment} {enters leaves : List Fragment}
    (isEntering : outcome directory (zone.fragmentsOn .inward names) = .ok enters)
    (isLeaving : outcome directory (same.fragmentsOn .outward others) = .ok leaves)
    (member : fragment ∈ combine [some enters, some leaves, some [ofChain chain]])
    (turns : fragment.TurnsBack interface) : interface ∈ names ∧ interface ∈ others := by
  have states : AllTokens (fun token => zone.StatesAmong directory .inward names token ∨
      same.StatesAmong directory .outward others token)
      (combine [some enters, some leaves, some [ofChain chain]]) := by
    apply allTokens_combine_chain
    · rintro list ⟨⟩
      exact (Zone.allTokens_fragmentsOn isEntering).imp fun _ => Or.inl
    · rintro list ⟨⟩
      exact (Zone.allTokens_fragmentsOn isLeaving).imp fun _ => Or.inr
  constructor
  · rcases states fragment member _ turns.enters with enters | leaves
    · exact Zone.mem_of_statesAmong enters
    · exact (Zone.not_statesAmong_opposite leaves).elim
  · rcases states fragment member _ turns.leaves with enters | leaves
    · exact (Zone.not_statesAmong_opposite enters).elim
    · exact Zone.mem_of_statesAmong leaves

/-- The fragments for a pair of interfaces turn back where both are the same. -/
theorem turnsBack_hairpinFragments_iff
    {pair : String × String}
    (seesIn : chainSees chain .inward = true) (seesOut : chainSees chain .outward = true)
    (run : outcome directory (hairpinFragments chain zone pair) = .ok found) :
    (∃ fragment ∈ found, fragment.TurnsBack interface) ↔
      zone.IsPopulated directory ∧ pair = (interface, interface) := by
  obtain ⟨enters, leaves, isEntering, isLeaving, rfl⟩ := hairpinFragments_eq_ok run
  rw [visibleIn, if_pos seesIn] at isEntering
  rw [visibleIn, if_pos seesOut] at isLeaving
  constructor
  · rintro ⟨fragment, member, turns⟩
    obtain ⟨isFirst, isSecond⟩ := mem_of_turnsBack isEntering isLeaving member turns
    obtain ⟨part, isPart, -⟩ := exists_extends_of_mem_combine member (List.mem_cons_self ..)
    exact ⟨Zone.isPopulated_of_mem_fragmentsOn isEntering isPart,
      Prod.ext (List.mem_singleton.1 isFirst).symm (List.mem_singleton.1 isSecond).symm⟩
  · rintro ⟨populated, rfl⟩
    obtain ⟨family, states⟩ := Zone.exists_fragmentOn populated interface
    obtain ⟨entering, isFirst, enters⟩ := states .inward _ isEntering
    obtain ⟨leaving, isSecond, leaves⟩ := states .outward _ isLeaving
    refine ⟨{ family, chain := some chain, tokens := entering ++ leaving }, ?_,
      List.mem_append_left _ enters, List.mem_append_right _ leaves⟩
    have merged : ({ family, tokens := entering } : Fragment).merge { family, tokens := leaving } =
        some { family, tokens := entering ++ leaving } := by
      cases family <;> simp [merge, agreed?]
    refine mem_product.2 ⟨_, mem_product.2 ⟨_, isFirst, _, isSecond, merged⟩, _,
      List.mem_singleton_self _, ?_⟩
    cases family <;> simp [merge, agreed?, ofChain]

theorem mem_distinctPairs_self {items : List String} :
    (interface, interface) ∈ distinctPairs items ↔ items.Duplicate interface := by
  rw [mem_distinctPairs, List.duplicate_iff_exists_distinct_get]
  constructor
  · rintro ⟨i, j, different, isFirst, isSecond⟩
    obtain ⟨inRange, isFirst⟩ := List.getElem?_eq_some_iff.1 isFirst
    obtain ⟨inRange', isSecond⟩ := List.getElem?_eq_some_iff.1 isSecond
    rcases Nat.lt_or_gt_of_ne different with earlier | later
    · exact ⟨⟨i, inRange⟩, ⟨j, inRange'⟩, earlier, isFirst.symm, isSecond.symm⟩
    · exact ⟨⟨j, inRange'⟩, ⟨i, inRange⟩, later, isSecond.symm, isFirst.symm⟩
  · rintro ⟨first, second, earlier, isFirst, isSecond⟩
    refine ⟨first, second, Nat.ne_of_lt earlier, ?_, ?_⟩
    · exact List.getElem?_eq_some_iff.2 ⟨first.isLt, isFirst.symm⟩
    · exact List.getElem?_eq_some_iff.2 ⟨second.isLt, isSecond.symm⟩

theorem hairpinZone?_of_oneWay
    (sameKey : name.sameKey other = true) (oneWay : zone.routesBack = false) :
    hairpinZone? (some (.named name zone)) (some (.named other zone)) =
      if zone.interfaces = [] then none else some zone := by
  by_cases unlisted : zone.interfaces = []
  · simp [hairpinZone?, unlisted]
  · simp [hairpinZone?, sameKey, oneWay, unlisted]

/-- In a chain that sees both sides, traffic through a zone that does not route back turns back at
the interfaces that the zone has at two positions. -/
theorem turnsBack_chainFragments_iff
    (sameKey : name.sameKey other = true) (oneWay : zone.routesBack = false)
    (seesIn : chainSees chain .inward = true) (seesOut : chainSees chain .outward = true)
    (run : outcome directory
      (chainFragments (some (.named name zone)) (some (.named other zone)) chain) = .ok found) :
    (∃ fragment ∈ found, fragment.TurnsBack interface) ↔
      zone.IsPopulated directory ∧ zone.interfaces.Duplicate interface := by
  have hairpin := hairpinZone?_of_oneWay sameKey oneWay
  by_cases unlisted : zone.interfaces = []
  -- Without interfaces, each side is matched by its addresses alone.
  · rw [if_pos unlisted] at hairpin
    obtain ⟨enters, leaves, isEntering, isLeaving, rfl⟩ := chainFragments_eq_ok hairpin run
    obtain ⟨sources, areSources, rfl⟩ := sideFragments_named_eq_ok isEntering
    obtain ⟨destinations, areDestinations, rfl⟩ := sideFragments_named_eq_ok isLeaving
    constructor
    · rintro ⟨fragment, member, turns⟩
      have isName := (mem_of_turnsBack areSources areDestinations member turns).1
      rw [visibleIn, if_pos seesIn, unlisted] at isName
      exact absurd isName List.not_mem_nil
    · rintro ⟨-, twice⟩
      rw [unlisted] at twice
      exact (List.not_duplicate_nil _ twice).elim
  · rw [if_neg unlisted] at hairpin
    unfold chainFragments at run
    rw [hairpin] at run
    rw [← mem_distinctPairs_self]
    obtain ⟨given, mem_found⟩ := outcome_gather_eq_ok (determined_hairpinFragments _) run
    constructor
    · rintro ⟨fragment, member, turns⟩
      obtain ⟨pair, isPair, part, partRun, inPart⟩ := (mem_found fragment).1 member
      obtain ⟨populated, rfl⟩ :=
        (turnsBack_hairpinFragments_iff seesIn seesOut partRun).1 ⟨fragment, inPart, turns⟩
      exact ⟨populated, isPair⟩
    · rintro ⟨populated, isPair⟩
      obtain ⟨part, partRun⟩ := given _ isPair
      obtain ⟨fragment, inPart, turns⟩ :=
        (turnsBack_hairpinFragments_iff seesIn seesOut partRun).2 ⟨populated, rfl⟩
      exact ⟨fragment, (mem_found fragment).2 ⟨_, isPair, part, partRun, inPart⟩, turns⟩

/-! ## Declared rules -/

theorem chainOf?_forward_iff {kind : RuleKind} :
    kind.chainOf? .forward = some "FORWARD" ↔ kind.table = "filter" := by
  cases kind <;> decide

/-- Traffic from a zone into the same zone is forwarded. -/
theorem pairFragments_named (kind : RuleKind) :
    pairFragments kind (some (.named name zone)) (some (.named other zone)) =
      gather (chainFragments (some (.named name zone)) (some (.named other zone)))
        (kind.chainOf? .forward).toList := by
  rw [pairFragments_eq]
  cases chain : kind.chainOf? .forward <;> simp [hooksBetween, isFirewall, remaining, chain]

theorem turnsBack_pairFragments_iff
    {kind : RuleKind}
    (sameKey : name.sameKey other = true) (oneWay : zone.routesBack = false)
    (run : outcome directory
      (pairFragments kind (some (.named name zone)) (some (.named other zone))) = .ok found) :
    (∃ fragment ∈ found, fragment.chain = some "FORWARD" ∧ fragment.TurnsBack interface) ↔
      kind.table = "filter" ∧ zone.IsPopulated directory ∧ zone.interfaces.Duplicate interface := by
  rw [pairFragments_named] at run
  obtain ⟨given, mem_found⟩ := outcome_gather_eq_ok (fun _ => determined_chainFragments) run
  have inChain {chain : String} {part : List Fragment}
      (partRun : outcome directory (chainFragments (some (.named name zone))
        (some (.named other zone)) chain) = .ok part) :
      ∀ fragment ∈ part, fragment.chain = some chain :=
    yields_chain_chainFragments.of_eq (Prod.ext partRun rfl)
  constructor
  · rintro ⟨fragment, member, isForward, turns⟩
    obtain ⟨chain, isChain, part, partRun, inPart⟩ := (mem_found fragment).1 member
    obtain rfl : chain = "FORWARD" :=
      Option.some.inj ((inChain partRun fragment inPart).symm.trans isForward)
    exact ⟨chainOf?_forward_iff.1 (Option.mem_toList.1 isChain),
      (turnsBack_chainFragments_iff sameKey oneWay rfl rfl partRun).1 ⟨fragment, inPart, turns⟩⟩
  · rintro ⟨isFilter, populated, twice⟩
    have isChain := Option.mem_toList.2 (chainOf?_forward_iff.2 isFilter)
    obtain ⟨part, partRun⟩ := given "FORWARD" isChain
    obtain ⟨fragment, inPart, turns⟩ :=
      (turnsBack_chainFragments_iff sameKey oneWay rfl rfl partRun).2 ⟨populated, twice⟩
    exact ⟨fragment, (mem_found fragment).2 ⟨_, isChain, part, partRun, inPart⟩,
      inChain partRun fragment inPart, turns⟩

variable {kind : RuleKind} {location : String} {source : Entry} {rule : Rule}
  {start finish before after : Context}

/-- For a zone that a declared rule has on both sides and that does not route back, what the rule
matches in the forward chain turns back at exactly those interfaces that the list of the zone has at
two positions, as long as the zone has an address if it lists any. -/
theorem turnsBack_iff_of_declare
    (declared : Rule.declare kind location source start = (.ok rule, finish))
    (isPair : (some (.named name zone), some (.named other same)) ∈ rule.sidePairs)
    (sameKey : name.sameKey other = true) (oneWay : zone.routesBack = false)
    (run : rule.zoneFragments before = (.ok found, after)) :
    ∃ part, (pairFragments kind (some (.named name zone)) (some (.named other same)) before).1 =
        .ok part ∧ part ⊆ found ∧
      ∀ interface,
        (∃ fragment ∈ part, fragment.chain = some "FORWARD" ∧ fragment.TurnsBack interface) ↔
          kind.table = "filter" ∧ zone.IsPopulated before.hosts.directory ∧
            zone.interfaces.Duplicate interface := by
  obtain rfl : same = zone :=
    (agreesOnZones_of_declare declared).of_mem_sidePairs isPair name zone other same rfl rfl sameKey
  obtain ⟨_, _, settled⟩ := settledFrom_of_declare declared
  have isKind : rule.kind = kind := settled.kind
  have found_ := determined_zoneFragments.outcome_eq run
  obtain ⟨part, partRun⟩ := exists_outcome_zoneFragments_iff.1 ⟨found, found_⟩ _ isPair
  rw [isKind] at partRun
  obtain ⟨middle, runs⟩ := determined_pairFragments.exists_eq partRun
  refine ⟨part, congrArg Prod.fst runs, fun fragment member => ?_, fun interface =>
    turnsBack_pairFragments_iff sameKey oneWay partRun⟩
  exact (mem_zoneFragments_iff found_).2 ⟨_, isPair, part, isKind ▸ partRun, member⟩

/-- A zone with the listed interfaces. -/
def listingZone (interfaces : List String) : Zone :=
  { location := "zone lan", attributes := [("iface", .list (interfaces.map .text))] }

/-- A context that knows the zone. -/
def listingContext (interfaces : List String) : Context :=
  { objects := [("zone", .map [(.text "lan", .object (.zone (listingZone interfaces)))])] }

/-- What declares a rule for traffic from the zone into the zone. -/
def throughSource : Entry :=
  .raw (.map [(.text "in", .text "lan"), (.text "out", .text "lan")])

/-- The rule that is declared so. -/
def throughRule (interfaces : List String) : Rule :=
  { kind := .plain, serial := 0, location := "rule 1"
    attributes := [("in", .text "lan"), ("out", .text "lan")]
    zonesIn := some [.named (.text "lan") (listingZone interfaces)]
    zonesOut := some [.named (.text "lan") (listingZone interfaces)]
    services := none }

theorem declare_throughSource (interfaces : List String) :
    Rule.declare .plain "rule 1" throughSource (listingContext interfaces) =
      (.ok (throughRule interfaces), { listingContext interfaces with nextSerial := 1 }) := by
  with_unfolding_all rfl

theorem exists_zoneFragments_throughRule (interfaces : List String) :
    ∃ found after, (throughRule interfaces).zoneFragments (listingContext interfaces) =
      (.ok found, after) := by
  have lists : ListsZones (throughRule interfaces).zonesIn := by simp [ListsZones, throughRule]
  have resolvable : ∀ name zone, Lists (throughRule interfaces).zonesIn (some (.named name zone)) ∨
      Lists (throughRule interfaces).zonesOut (some (.named name zone)) →
        zone.IsResolvable (listingContext interfaces).hosts.directory := by
    intro name zone listed
    have named : name = .text "lan" ∧ zone = listingZone interfaces := by
      simpa [Lists, throughRule] using listed
    obtain ⟨rfl, rfl⟩ := named
    have unlisted : (listingZone interfaces).attributes.has "addr" = false := rfl
    exact fun listed => absurd listed (by simp [unlisted])
  obtain ⟨found, run⟩ := exists_zoneFragments rfl lists lists resolvable
  exact ⟨found, determined_zoneFragments.exists_eq run⟩

/-- Of three interfaces, the one that is listed twice is the one at which traffic turns back. -/
theorem turnsBack_throughRule :
    ∃ rule finish found after part,
      Rule.declare .plain "rule 1" throughSource (listingContext ["eth0", "eth1", "eth0"]) =
          (.ok rule, finish) ∧
        rule.zoneFragments (listingContext ["eth0", "eth1", "eth0"]) = (.ok found, after) ∧
        part ⊆ found ∧
        (∃ fragment ∈ part, fragment.chain = some "FORWARD" ∧ fragment.TurnsBack "eth0") ∧
          ¬ ∃ fragment ∈ part, fragment.chain = some "FORWARD" ∧ fragment.TurnsBack "eth1" := by
  obtain ⟨found, after, run⟩ := exists_zoneFragments_throughRule ["eth0", "eth1", "eth0"]
  have declared := declare_throughSource ["eth0", "eth1", "eth0"]
  obtain ⟨part, -, among, exactly⟩ := turnsBack_iff_of_declare declared
    (List.mem_singleton_self _) (by decide) (by decide) run
  have populated : (listingZone ["eth0", "eth1", "eth0"]).IsPopulated
      (listingContext ["eth0", "eth1", "eth0"]).hosts.directory :=
    fun listed => absurd listed (by decide)
  refine ⟨_, _, found, after, part, declared, run, among, ?_, ?_⟩
  · exact (exactly "eth0").2 ⟨rfl, populated, List.duplicate_iff_two_le_count.2 (by decide)⟩
  · intro turns
    have twice := List.duplicate_iff_two_le_count.1 ((exactly "eth1").1 turns).2.2
    exact absurd twice (by decide)

/-- A zone that does not route back may list an interface twice, and a rule for traffic from the
zone into itself then matches what leaves by the interface that it enters by. -/
theorem exists_turnsBack_of_doubled :
    ∃ rule finish found after,
      Rule.declare .plain "rule 1" throughSource (listingContext ["eth0", "eth0"]) =
          (.ok rule, finish) ∧
        (listingZone ["eth0", "eth0"]).routesBack = false ∧
        rule.sidePairs = [(some (.named (.text "lan") (listingZone ["eth0", "eth0"])),
          some (.named (.text "lan") (listingZone ["eth0", "eth0"])))] ∧
        rule.zoneFragments (listingContext ["eth0", "eth0"]) = (.ok found, after) ∧
        ∃ fragment ∈ found, fragment.chain = some "FORWARD" ∧ fragment.TurnsBack "eth0" := by
  refine ⟨_, _, [{ chain := some "FORWARD", tokens := ["-i eth0", "-o eth0"] }],
    listingContext ["eth0", "eth0"], declare_throughSource _, rfl, rfl, ?_,
    _, List.mem_singleton_self _, rfl, ?_⟩
  · with_unfolding_all rfl
  · constructor <;> decide

end Rule

end FirewallPolicy
