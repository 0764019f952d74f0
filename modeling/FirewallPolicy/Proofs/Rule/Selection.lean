import FirewallPolicy.Proofs.Rule.Zones

/-!
# Selected zones

The zones that a rule lists are entries of one section, so that one name stands for one zone.  The
fragments for the zones of a declared rule are there when the addresses of the zones are known, and
traffic satisfies one of them when it matches a pair of a listed entering and a listed leaving side.
-/

namespace FirewallPolicy

open Fragment Run Stateful

variable {directory : Directory}

/-! ## Known addresses -/

namespace Zone

variable {zone : Zone}

theorem exists_hostFragments
    (location option : String) {hosts : List Value}
    (known : ∀ host ∈ hosts, ∃ addresses, Resolves directory host.written addresses) :
    ∃ found, outcome directory (hostFragments location option hosts) = .ok found := by
  refine exists_outcome_gather
    (fun host => (determined_resolveHost _ _).bind fun _ => determined_pure _) fun host isHost => ?_
  obtain ⟨addresses, resolves⟩ := known host isHost
  rw [(determined_resolveHost _ _).outcome_bind fun _ => determined_pure _,
    outcome_resolveHost_eq_ok.2 resolves]
  exact ⟨_, rfl⟩

theorem IsResolvable.exists_fragmentsOn
    (resolvable : zone.IsResolvable directory) (direction : Direction) (names : List String) :
    ∃ found, outcome directory (zone.fragmentsOn direction names) = .ok found := by
  have given : ∃ given, outcome directory (zone.addressFragments direction) = .ok given := by
    unfold addressFragments
    split
    · next listed =>
        obtain ⟨found, isFound⟩ :=
          exists_hostFragments zone.location direction.addressOption (resolvable listed)
        rw [(determined_hostFragments _ _ _).outcome_bind fun _ => determined_pure _, isFound]
        exact ⟨_, rfl⟩
    · exact ⟨none, rfl⟩
  obtain ⟨given, isGiven⟩ := given
  unfold fragmentsOn
  rw [determined_addressFragments.outcome_bind fun _ => determined_pure _, isGiven]
  exact ⟨_, rfl⟩

end Zone

namespace Rule

variable {entering leaving : Option ZoneSelector} {chain : String} {kind : RuleKind}

/-- The side can be matched: it is unconstrained, the firewall, or a zone whose addresses are
known. -/
structure IsUsableSide (directory : Directory) (side : Option ZoneSelector) : Prop where
  isZone : side ≠ some .other
  resolvable : ∀ name zone, side = some (.named name zone) → zone.IsResolvable directory

theorem IsUsableSide.exists_sideFragments
    (usable : IsUsableSide directory entering) (chain : String) (direction : Direction) :
    ∃ given, outcome directory (sideFragments chain direction (remaining entering)) = .ok given := by
  rcases entering with _ | _ | ⟨name, zone⟩ | _
  · exact ⟨none, rfl⟩
  · exact ⟨none, rfl⟩
  · obtain ⟨found, isFound⟩ := (usable.resolvable name zone rfl).exists_fragmentsOn direction
      (visibleIn chain direction zone.interfaces)
    refine ⟨some found, ?_⟩
    change outcome directory (zone.fragmentsOn direction _ >>= _) = _
    rw [Zone.determined_fragmentsOn.outcome_bind fun _ => determined_pure _, isFound]
    rfl
  · exact absurd rfl usable.isZone

theorem exists_hairpinFragments
    {zone : Zone} (resolvable : zone.IsResolvable directory) (pair : String × String) :
    ∃ found, outcome directory (hairpinFragments chain zone pair) = .ok found := by
  obtain ⟨enters, isEntering⟩ :=
    resolvable.exists_fragmentsOn .inward (visibleIn chain .inward [pair.1])
  obtain ⟨leaves, isLeaving⟩ :=
    resolvable.exists_fragmentsOn .outward (visibleIn chain .outward [pair.2])
  unfold hairpinFragments
  rw [Zone.determined_fragmentsOn.outcome_bind fun _ =>
    Zone.determined_fragmentsOn.bind fun _ => determined_pure _, isEntering]
  change ∃ found, outcome directory (zone.fragmentsOn .outward _ >>= _) = .ok found
  rw [Zone.determined_fragmentsOn.outcome_bind fun _ => determined_pure _, isLeaving]
  exact ⟨_, rfl⟩

theorem exists_chainFragments
    (source : IsUsableSide directory entering) (destination : IsUsableSide directory leaving) :
    ∃ found, outcome directory
      (chainFragments (remaining entering) (remaining leaving) chain) = .ok found := by
  unfold chainFragments
  split
  · next zone hairpin =>
      obtain ⟨name, _, _, isEntering, _⟩ := hairpinZone?_eq_some hairpin
      have resolvable := source.resolvable name zone (remaining_eq_some.1 isEntering).1
      exact exists_outcome_gather (determined_hairpinFragments _) fun pair _ =>
        exists_hairpinFragments resolvable pair
  · obtain ⟨enters, isEntering⟩ := source.exists_sideFragments chain .inward
    obtain ⟨leaves, isLeaving⟩ := destination.exists_sideFragments chain .outward
    rw [determined_sideFragments.outcome_bind fun _ =>
      determined_sideFragments.bind fun _ => determined_pure _, isEntering]
    change ∃ found, outcome directory (sideFragments chain .outward _ >>= _) = .ok found
    rw [determined_sideFragments.outcome_bind fun _ => determined_pure _, isLeaving]
    exact ⟨_, rfl⟩

theorem exists_pairFragments
    (kind : RuleKind) (source : IsUsableSide directory entering)
    (destination : IsUsableSide directory leaving) :
    ∃ found, outcome directory (pairFragments kind entering leaving) = .ok found := by
  rw [pairFragments_eq]
  exact exists_outcome_gather (fun _ => determined_chainFragments) fun _ _ =>
    exists_chainFragments source destination

/-! ## Listed sides -/

/-- The attribute is absent, or lists at least one zone, each a zone of the policy or the firewall. -/
def ListsZones (zones : Option (List ZoneSelector)) : Prop :=
  ∀ list, zones = some list → list ≠ [] ∧ ZoneSelector.other ∉ list

/-- A side that an attribute stands for: a listed zone, or an unconstrained side when it is absent. -/
def Lists (zones : Option (List ZoneSelector)) (side : Option ZoneSelector) : Prop :=
  match zones with
  | none => side = none
  | some list => ∃ zone ∈ list, side = some zone

variable {rule : Rule} {zones : Option (List ZoneSelector)} {side : Option ZoneSelector}
  {found : List Fragment} {fragment : Fragment}

theorem mem_sides (lists : ListsZones zones) : side ∈ sides zones ↔ Lists zones side := by
  rcases zones with _ | _ | ⟨first, rest⟩
  · simp [sides, Lists]
  · exact absurd rfl (lists [] rfl).1
  · simp [sides, Lists, eq_comm]

theorem ListsZones.ne_other (lists : ListsZones zones) (listed : Lists zones side) :
    side ≠ some .other := by
  rintro rfl
  rcases zones with _ | list
  · cases listed
  · obtain ⟨zone, member, same⟩ := listed
    obtain rfl := Option.some.inj same
    exact (lists list rfl).2 member

theorem mem_sidePairs
    (forward : rule.reverse = false) (entering : ListsZones rule.zonesIn)
    (leaving : ListsZones rule.zonesOut) (zoneIn zoneOut : Option ZoneSelector) :
    (zoneIn, zoneOut) ∈ rule.sidePairs ↔ Lists rule.zonesIn zoneIn ∧ Lists rule.zonesOut zoneOut := by
  simp [sidePairs, forward, mem_sides entering, mem_sides leaving]

/-! ## Declared rules -/

theorem findEntry_eq_some
    {section_ : SectionEntries} {value : Value} {entry : Entry}
    (finds : findEntry section_ value = .ok (some entry)) :
    ∃ entries key, section_ = .map entries ∧ value = .scalar key ∧
      Entries.get? entries key = some entry := by
  unfold findEntry at finds
  split at finds
  · cases finds
  · split at finds <;> cases finds
  · next entries =>
      split at finds
      · next key => exact ⟨entries, key, rfl, rfl, Except.ok.inj finds⟩
      · split at finds <;> cases finds

/-- A zone that is selected by a name is the entry of that name. -/
theorem selectZone_eq_named
    {location : String} {section_ : SectionEntries} {value : Value} {name : Scalar} {zone : Zone}
    (selects : selectZone location section_ value = .ok (.named name zone)) :
    ∃ entries, section_ = .map entries ∧
      Entries.get? entries name = some (.object (.zone zone)) := by
  unfold selectZone at selects
  split at selects
  · cases selects
  · obtain ⟨found, isFound, selects⟩ := except_bind_eq_ok.1 selects
    split at selects
    · exact (except_throw_eq_ok.1 selects).elim
    · exact (except_throw_eq_ok.1 selects).elim
    · split at selects <;> cases selects
    · obtain ⟨entries, key, isMap, rfl, isEntry⟩ := findEntry_eq_some isFound
      obtain ⟨rfl, rfl⟩ := ZoneSelector.named.inj (Except.ok.inj selects)
      exact ⟨entries, isMap, isEntry⟩
    · cases selects

theorem selectZones_eq_named
    {location : String} {section_ : SectionEntries} {value : Value} {name : Scalar} {zone : Zone}
    (selects : selectZones location section_ value = .ok zones)
    (listed : Lists zones (some (.named name zone))) :
    ∃ entries, section_ = .map entries ∧
      Entries.get? entries name = some (.object (.zone zone)) := by
  unfold selectZones at selects
  split at selects
  · obtain rfl := Except.ok.inj selects
    cases listed
  · obtain ⟨list, isList, same⟩ := except_bind_eq_ok.1 selects
    obtain rfl := Except.ok.inj same
    obtain ⟨selector, member, same⟩ := listed
    obtain rfl := Option.some.inj same
    obtain ⟨item, _, selected⟩ := exists_of_mem_mapM isList member
    exact selectZone_eq_named selected

theorem zones_of_settleFilter
    {settled : Rule} {before after : Context}
    (settles : settleFilter rule before = (.ok settled, after)) :
    settled.zonesIn = rule.zonesIn ∧ settled.zonesOut = rule.zonesOut := by
  rcases settleFilter_eq_ok settles with ⟨_, rfl, _⟩ | ⟨_, limits, _⟩
  · exact ⟨rfl, rfl⟩
  · rcases settleLimit_eq_ok limits with ⟨_, rfl, _⟩ | ⟨_, _, _, _, rfl⟩ <;> exact ⟨rfl, rfl⟩

/-- Rules know one zone by each name, on both sides. -/
theorem agreeOnZones_of_declare
    {location : String} {source : Entry} {before after : Context}
    (declared : Rule.declare kind location source before = (.ok rule, after))
    (isEntering : Lists rule.zonesIn entering) (isLeaving : Lists rule.zonesOut leaving) :
    AgreeOnZones entering leaving := by
  obtain ⟨attributes, start, _, settles⟩ := bind_eq_ok.1 declared
  obtain ⟨acted, middle, zonesIn, zonesOut, _, _, _, _, _, _, _, _, _, _, _, _, readIn, readOut,
    _, _, _, _, _, _, settles⟩ := settle_eq_ok settles
  obtain ⟨sameIn, sameOut⟩ := zones_of_settleFilter settles
  rw [sameIn] at isEntering
  rw [sameOut] at isLeaving
  rintro name zone other same rfl rfl sameKey
  obtain ⟨entries, isMap, isZone⟩ := selectZones_eq_named readIn isEntering
  obtain ⟨_, isMap', isSame⟩ := selectZones_eq_named readOut isLeaving
  obtain rfl := SectionEntries.map.inj (isMap.symm.trans isMap')
  rw [Entries.get?_congr entries sameKey, isSame] at isZone
  cases isZone
  rfl

/-! ## All pairs -/

theorem determined_zoneFragments : Determined rule.zoneFragments :=
  (determined_gather fun _ _ => determined_pairFragments).bind fun _ => determined_pure _

theorem outcome_zoneFragments (rule : Rule) (directory : Directory) :
    outcome directory rule.zoneFragments =
      outcome directory
          (gather (fun pair => pairFragments rule.kind pair.1 pair.2) rule.sidePairs) >>=
        fun found => .ok found.eraseDups :=
  (determined_gather fun _ _ => determined_pairFragments).outcome_bind
    (fun _ => determined_pure _) directory

/-- The fragments for the zones of a rule are found when those for each pair of its sides are. -/
theorem exists_outcome_zoneFragments_iff :
    (∃ found, outcome directory rule.zoneFragments = .ok found) ↔ ∀ pair ∈ rule.sidePairs,
      ∃ part, outcome directory (pairFragments rule.kind pair.1 pair.2) = .ok part := by
  rw [outcome_zoneFragments]
  constructor
  · rintro ⟨_, run⟩
    obtain ⟨all, allRun, _⟩ := except_bind_eq_ok.1 run
    exact (outcome_gather_eq_ok (fun _ => determined_pairFragments) allRun).1
  · intro known
    obtain ⟨all, allRun⟩ := exists_outcome_gather (fun _ => determined_pairFragments) known
    exact ⟨all.eraseDups, except_bind_eq_ok.2 ⟨all, allRun, rfl⟩⟩

theorem mem_zoneFragments_iff
    (run : outcome directory rule.zoneFragments = .ok found) :
    fragment ∈ found ↔ ∃ pair ∈ rule.sidePairs, ∃ part,
      outcome directory (pairFragments rule.kind pair.1 pair.2) = .ok part ∧ fragment ∈ part := by
  rw [outcome_zoneFragments] at run
  obtain ⟨all, allRun, same⟩ := except_bind_eq_ok.1 run
  obtain rfl := Except.ok.inj same
  rw [List.mem_eraseDups, (outcome_gather_eq_ok (fun _ => determined_pairFragments) allRun).2]

theorem exists_zoneFragments
    (forward : rule.reverse = false) (entering : ListsZones rule.zonesIn)
    (leaving : ListsZones rule.zonesOut)
    (resolvable : ∀ name zone, Lists rule.zonesIn (some (.named name zone)) ∨
      Lists rule.zonesOut (some (.named name zone)) → zone.IsResolvable directory) :
    ∃ fragments, outcome directory rule.zoneFragments = .ok fragments := by
  refine exists_outcome_zoneFragments_iff.2 ?_
  rintro ⟨zoneIn, zoneOut⟩ isPair
  obtain ⟨isEntering, isLeaving⟩ := (mem_sidePairs forward entering leaving _ _).1 isPair
  have source : IsUsableSide directory zoneIn :=
    ⟨entering.ne_other isEntering, fun name zone same =>
      resolvable name zone (Or.inl (same ▸ isEntering))⟩
  have destination : IsUsableSide directory zoneOut :=
    ⟨leaving.ne_other isLeaving, fun name zone same =>
      resolvable name zone (Or.inr (same ▸ isLeaving))⟩
  exact exists_pairFragments rule.kind source destination

theorem someSatisfied_zoneFragments
    {fragments : List Fragment}
    (isFilter : rule.kind.table = "filter") (forward : rule.reverse = false)
    (entering : ListsZones rule.zonesIn) (leaving : ListsZones rule.zonesOut)
    (agree : ∀ zoneIn zoneOut, Lists rule.zonesIn zoneIn → Lists rule.zonesOut zoneOut →
      AgreeOnZones zoneIn zoneOut)
    (run : outcome directory rule.zoneFragments = .ok fragments)
    (hook : Hook) (assignment : Assignment) :
    SomeSatisfied fragments (assignment.atHook hook) ↔
      ∃ zoneIn zoneOut, Lists rule.zonesIn zoneIn ∧ Lists rule.zonesOut zoneOut ∧
        MatchesPair directory hook assignment zoneIn zoneOut := by
  rw [outcome_zoneFragments] at run
  obtain ⟨found, isFound, same⟩ := except_bind_eq_ok.1 run
  obtain rfl := Except.ok.inj same
  -- Dropping repeated fragments changes nothing for what they are satisfied by.
  have distinct : SomeSatisfied found.eraseDups (assignment.atHook hook) ↔
      SomeSatisfied found (assignment.atHook hook) := by
    simp [SomeSatisfied, List.mem_eraseDups]
  rw [distinct, someSatisfied_gather (fun _ => determined_pairFragments) isFound
    fun pair isPair part partRun => by
      obtain ⟨isEntering, isLeaving⟩ := (mem_sidePairs forward entering leaving _ _).1 isPair
      exact someSatisfied_pairFragments isFilter (agree _ _ isEntering isLeaving) partRun hook
        assignment]
  constructor
  · rintro ⟨⟨zoneIn, zoneOut⟩, isPair, isMatch⟩
    obtain ⟨isEntering, isLeaving⟩ := (mem_sidePairs forward entering leaving _ _).1 isPair
    exact ⟨zoneIn, zoneOut, isEntering, isLeaving, isMatch⟩
  · rintro ⟨zoneIn, zoneOut, isEntering, isLeaving, isMatch⟩
    exact ⟨(zoneIn, zoneOut),
      (mem_sidePairs forward entering leaving _ _).2 ⟨isEntering, isLeaving⟩, isMatch⟩

/-- The fragments for the zones of a declared rule in the filter table: they are there when the
addresses of the listed zones are known, and at a hook traffic satisfies one of them when it matches
an entering and a leaving side that the rule lists. -/
theorem zoneFragments_of_declare
    {location : String} {source : Entry} {start finish : Context}
    (declared : Rule.declare kind location source start = (.ok rule, finish))
    (isFilter : kind.table = "filter") (forward : rule.reverse = false)
    (entering : ListsZones rule.zonesIn) (leaving : ListsZones rule.zonesOut)
    (before : Context) :
    ((∀ name zone, Lists rule.zonesIn (some (.named name zone)) ∨
          Lists rule.zonesOut (some (.named name zone)) →
        zone.IsResolvable before.hosts.directory) →
      ∃ fragments after, rule.zoneFragments before = (.ok fragments, after)) ∧
    ∀ fragments after, rule.zoneFragments before = (.ok fragments, after) →
      ∀ (hook : Hook) (assignment : Assignment),
        SomeSatisfied fragments (assignment.atHook hook) ↔
          ∃ zoneIn zoneOut, Lists rule.zonesIn zoneIn ∧ Lists rule.zonesOut zoneOut ∧
            MatchesPair before.hosts.directory hook assignment zoneIn zoneOut := by
  obtain ⟨attributes, middle, _, settles⟩ := bind_eq_ok.1 declared
  have isKind : rule.kind = kind := (settledFrom_of_settle settles).kind
  constructor
  · intro resolvable
    obtain ⟨fragments, run⟩ := exists_zoneFragments forward entering leaving resolvable
    exact ⟨fragments, determined_zoneFragments.exists_eq run⟩
  · intro fragments after run hook assignment
    exact someSatisfied_zoneFragments (isKind ▸ isFilter) forward entering leaving
      (fun _ _ isEntering isLeaving => agreeOnZones_of_declare declared isEntering isLeaving)
      (determined_zoneFragments.outcome_eq run) hook assignment

/-- A zone with two interfaces. -/
def lanZone : Zone :=
  { location := "zone lan", attributes := [("iface", .list [.text "eth0", .text "eth1"])] }

/-- A context that knows the zone. -/
def lanContext : Context :=
  { objects := [("zone", .map [(.text "lan", .object (.zone lanZone))])] }

/-- What declares a rule for traffic from the firewall or the zone into the zone. -/
def lanSource : Entry :=
  .raw (.map [(.text "in", .list [.text "_fw", .text "lan"]), (.text "out", .text "lan")])

/-- The rule that is declared so. -/
def lanRule : Rule :=
  { kind := .filter, serial := 0, location := "filter 1"
    attributes := [("in", .list [.text "_fw", .text "lan"]), ("out", .text "lan"),
      ("action", .text "accept"), ("log", .null)]
    zonesIn := some [.firewall, .named (.text "lan") lanZone]
    zonesOut := some [.named (.text "lan") lanZone]
    services := none }

theorem zoneFragments_of_lanRule :
    Rule.declare .filter "filter 1" lanSource lanContext =
        (.ok lanRule, { lanContext with nextSerial := 1 }) ∧
      RuleKind.filter.table = "filter" ∧ lanRule.reverse = false ∧
      ListsZones lanRule.zonesIn ∧ ListsZones lanRule.zonesOut ∧
      ∃ fragments after, lanRule.zoneFragments lanContext = (.ok fragments, after) ∧
        ∀ (hook : Hook) (assignment : Assignment),
          SomeSatisfied fragments (assignment.atHook hook) ↔
            ∃ zoneIn zoneOut, Lists lanRule.zonesIn zoneIn ∧ Lists lanRule.zonesOut zoneOut ∧
              MatchesPair lanContext.hosts.directory hook assignment zoneIn zoneOut := by
  have declared : Rule.declare .filter "filter 1" lanSource lanContext =
      (.ok lanRule, { lanContext with nextSerial := 1 }) := by
    with_unfolding_all rfl
  have entering : ListsZones lanRule.zonesIn := by simp [ListsZones, lanRule]
  have leaving : ListsZones lanRule.zonesOut := by simp [ListsZones, lanRule]
  have resolvable : ∀ name zone, Lists lanRule.zonesIn (some (.named name zone)) ∨
      Lists lanRule.zonesOut (some (.named name zone)) →
        zone.IsResolvable lanContext.hosts.directory := by
    intro name zone listed
    have named : name = .text "lan" ∧ zone = lanZone := by simpa [Lists, lanRule] using listed
    obtain ⟨rfl, rfl⟩ := named
    exact fun addresses => absurd addresses (by decide)
  obtain ⟨total, exactly⟩ :=
    zoneFragments_of_declare declared rfl rfl entering leaving lanContext
  obtain ⟨fragments, after, run⟩ := total resolvable
  exact ⟨declared, rfl, rfl, entering, leaving, fragments, after, run, exactly fragments after run⟩

end Rule

end FirewallPolicy
