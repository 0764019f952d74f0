import FirewallPolicy.Proofs.Rule.Agreement
import FirewallPolicy.Proofs.Rule.Tokens

/-!
# Rules for a new destination

A rule that changes the destination matches IPv4 traffic after the change: at the new address and,
where the port is changed, at the new port with the protocols of the named services.
-/

namespace FirewallPolicy

open Fragment Run Stateful

namespace Rule

variable {rule derived : Rule} {directory : Directory} {address protocol token : String}
  {given : Option (List Fragment)} {part : Fragment} {port : Value}

theorem family_of_mem_restricted
    {family : String} (member : part ∈ combine [given, some [ofFamily family]]) :
    part.family = some family := by
  obtain ⟨restriction, isRestriction, upper⟩ := exists_extends_of_mem_combine member
    (List.mem_cons_of_mem _ (List.mem_cons_self ..))
  rw [List.mem_singleton.1 isRestriction] at upper
  exact upper.family _ rfl

/-- What is restricted to IPv6 does not match IPv4 traffic. -/
theorem not_mem_restricted
    (ofFamily : Allows part.family "inet") : part ∉ combine [given, some [.ofFamily "inet6"]] := by
  intro member
  have other := ofFamily "inet6" (family_of_mem_restricted member)
  exact absurd other (by decide)

/-! ## The new address -/

/-- The address is an IPv4 address, written in its normal form. -/
def IsInet (address : String) : Prop :=
  Literal.parse? address = some ⟨"inet", address⟩

instance (address : String) : Decidable (IsInet address) :=
  inferInstanceAs (Decidable (_ = _))

/-- The match for the new destination. -/
def newDestination (rule : Rule) (address : String) : Fragment :=
  hostFragment (rule.side .outward).addressOption ⟨"inet", address⟩

theorem resolves_of_isInet {addresses : List FamilyAddress} (isInet : IsInet address) :
    Resolves directory address addresses ↔ addresses = [⟨"inet", address⟩] := by
  rw [Resolves, HostBook.answer, isInet]
  simp [eq_comm]

theorem exists_listed_of_changesDestination
    (changes : rule.changesDestination = true) (isInet : IsInet address)
    (resolved : outcome directory rule.dnatAddress = .ok address)
    (run : outcome directory rule.destinationFragments = .ok given) :
    ∃ listed shown, given = some (combine [listed, some [ofFamily "inet6"]] ++ shown) ∧
      ∀ part, part ∈ shown ↔ part = rule.newDestination address := by
  rw [destinationFragments_of_dnat changes, determined_addressFragments.outcome_bind fun _ =>
    determined_dnatAddress.bind fun _ => (determined_hostFragments _ _ _).bind fun _ =>
      determined_pure _] at run
  obtain ⟨listed, _, run⟩ := except_bind_eq_ok.1 run
  rw [determined_dnatAddress.outcome_bind fun _ => (determined_hostFragments _ _ _).bind fun _ =>
    determined_pure _, resolved] at run
  obtain ⟨known, same, run⟩ := except_bind_eq_ok.1 run
  obtain rfl := Except.ok.inj same
  rw [(determined_hostFragments _ _ _).outcome_bind fun _ => determined_pure _] at run
  obtain ⟨shown, isShown, same⟩ := except_bind_eq_ok.1 run
  refine ⟨listed, shown, (Except.ok.inj same).symm, fun part => ?_⟩
  rw [(outcome_hostFragments_eq_ok isShown).2 part]
  simp only [List.mem_singleton, exists_eq_left]
  constructor
  · rintro ⟨addresses, resolves, entry, isEntry, rfl⟩
    rw [(resolves_of_isInet isInet).1 resolves] at isEntry
    rw [List.mem_singleton.1 isEntry]
    rfl
  · rintro rfl
    exact ⟨_, (resolves_of_isInet isInet).2 rfl, _, List.mem_singleton_self _, rfl⟩

/-- Of the destinations only the new one matches IPv4 traffic. -/
theorem mem_destinations_iff_of_inet
    (changes : rule.changesDestination = true) (isInet : IsInet address)
    (resolved : outcome directory rule.dnatAddress = .ok address)
    (run : outcome directory rule.destinationFragments = .ok given)
    (ofFamily : Allows part.family "inet") :
    part ∈ orAny given ↔ part = rule.newDestination address := by
  obtain ⟨listed, shown, rfl, isNew⟩ :=
    exists_listed_of_changesDestination changes isInet resolved run
  rw [← isNew]
  constructor
  · intro member
    have notListed : part ∉ combine [listed, some [.ofFamily "inet6"]] :=
      not_mem_restricted ofFamily
    exact (List.mem_append.1 member).resolve_left notListed
  · exact List.mem_append_right _

/-- Rules with the same new destination have the same new address. -/
theorem outcome_dnatAddress_congr
    (sameDestination : derived.attributes.get "dnat" = rule.attributes.get "dnat")
    (resolved : outcome directory rule.dnatAddress = .ok address) :
    outcome directory derived.dnatAddress = .ok address := by
  have sameHost : derived.dnatHost? = rule.dnatHost? := by
    unfold dnatHost?
    rw [sameDestination]
  rw [outcome_dnatAddress_eq_ok] at resolved ⊢
  rwa [sameHost]

/-! ## The new port -/

/-- The protocols that a port can be changed for. -/
def translatedProtocols : List String := ["tcp", "udp"]

/-- The match for a new port with a protocol. -/
def newPort (protocol token : String) : Fragment where
  family := some "inet"
  tokens := ["-p " ++ protocol, token]

/-- The tokens that match a port, or several ports, which stand for one destination. -/
def newPortTokens (reverse : Bool) (port : Value) : List String :=
  ServiceDefinition.portTokens reverse (port.toItems.map Ports.text)

theorem isEmpty_of_mem_newPortTokens
    {reverse : Bool} (member : token ∈ newPortTokens reverse port) : token.isEmpty = false := by
  obtain ⟨option, _, value, rfl⟩ := ServiceDefinition.hasOption_portTokens reverse _ token member
  exact isEmpty_option option value

/-- The service of a new port matches the port with its protocol. -/
theorem portMatches_eq
    (isTranslated : protocol ∈ translatedProtocols) (isGiven : port.isNull = false) :
    rule.portMatches port protocol =
      .ok ((newPortTokens rule.reverse port).map (newPort protocol)) := by
  have named : Text.lower protocol = protocol ∧ controlProtocol? protocol = none ∧
      portProtocols.contains protocol = true ∧ ("-p " ++ protocol).isEmpty = false := by
    rcases List.mem_pair.1 isTranslated with rfl | rfl <;> decide
  obtain ⟨isProtocol, noControl, hasPorts, notEmpty⟩ := named
  let definition := Service.portDefinition (rule.location ++ " dnat") protocol port
  have isPort : definition.attributes.get "port" = port := rfl
  have same : definition.protocol = protocol := isProtocol
  have noFamily : definition.family = none := by
    unfold ServiceDefinition.family
    simp only [same, noControl]
    rfl
  have isMatched : definition.fragments rule.reverse =
      .ok ((newPortTokens rule.reverse port).map fun token =>
        matching ["-p " ++ protocol, token]) := by
    unfold ServiceDefinition.fragments
    simp only [same, noControl, noFamily, Record.has, isPort, isGiven, hasPorts]
    rfl
  have inInet : combine [some ((newPortTokens rule.reverse port).map fun token =>
      matching ["-p " ++ protocol, token]), some [.ofFamily "inet"]] =
        (newPortTokens rule.reverse port).map (newPort protocol) := by
    rw [combine_pair, product, List.flatMap_map, List.map_eq_flatMap]
    refine List.flatMap_congr fun token isToken => ?_
    have isMatch : matching ["-p " ++ protocol, token] = { tokens := ["-p " ++ protocol, token] } := by
      simp [matching, notEmpty, isEmpty_of_mem_newPortTokens isToken]
    rw [isMatch]
    rfl
  unfold portMatches
  rw [isMatched, ← inInet]
  rfl

/-- Only some protocols have ports that can be changed. -/
theorem mem_translatedProtocols
    {location : String} {selectors : List ServiceSelector} {protocols : List String}
    (read : dnatProtocols location selectors = .ok protocols) :
    ∀ protocol ∈ protocols, protocol ∈ translatedProtocols := by
  induction selectors generalizing protocols with
  | nil =>
      obtain rfl := Except.ok.inj read
      exact fun protocol none => absurd none List.not_mem_nil
  | cons selector rest inductionHypothesis =>
      cases selector with
      | service service =>
          obtain ⟨first, isFirst, read⟩ := except_bind_eq_ok.1 read
          obtain ⟨others, isRest, same⟩ := except_bind_eq_ok.1 read
          obtain rfl := Except.ok.inj same
          intro protocol member
          rcases List.mem_append.1 member with inFirst | inRest
          · obtain ⟨definition, _, accepted⟩ := exists_of_mem_mapM isFirst inFirst
            split at accepted
            · next isTranslated =>
                obtain rfl := Except.ok.inj accepted
                simpa [translatedProtocols] using isTranslated
            · cases accepted
          · exact inductionHypothesis isRest protocol inRest
      | definition definition => cases read
      | other => cases read

/-- Where the port is changed, the services match IPv4 traffic to the new port with their
protocols. -/
theorem exists_protocols_of_inet
    (changes : rule.attributes.flag "dnat" = true) (isPort : rule.dnatField "port" = .ok port)
    (isGiven : port.isNull = false) (read : rule.dnatServiceMatches = .ok given) :
    ∃ protocols, dnatProtocols rule.location (rule.services.getD []) = .ok protocols ∧
      ∀ part, Allows part.family "inet" →
        (part ∈ orAny given ↔ ∃ protocol ∈ protocols, ∃ token ∈ newPortTokens rule.reverse port,
          part = newPort protocol token) := by
  obtain ⟨named, known, _, isKnown, ⟨absent, _⟩ | ⟨_, protocols, shown, areProtocols, isShown,
    rfl⟩⟩ := dnatServiceMatches_eq_ok changes read
  · obtain rfl := Except.ok.inj (isPort.symm.trans isKnown)
    rw [isGiven] at absent
    cases absent
  · obtain rfl := Except.ok.inj (isPort.symm.trans isKnown)
    refine ⟨protocols, areProtocols, fun part ofFamily => ?_⟩
    have translated := mem_translatedProtocols areProtocols
    constructor
    · intro member
      have notNamed : part ∉ combine [named, some [.ofFamily "inet6"]] :=
        not_mem_restricted ofFamily
      obtain ⟨list, isList, inList⟩ :=
        List.mem_flatten.1 ((List.mem_append.1 member).resolve_left notNamed)
      obtain ⟨protocol, isProtocol, isMatched⟩ := exists_of_mem_mapM isShown isList
      have isOne : protocol ∈ protocols := List.mem_eraseDups.1 isProtocol
      rw [portMatches_eq (translated protocol isOne) isGiven] at isMatched
      obtain rfl := Except.ok.inj isMatched
      obtain ⟨token, isToken, rfl⟩ := List.mem_map.1 inList
      exact ⟨protocol, isOne, token, isToken, rfl⟩
    · rintro ⟨protocol, isProtocol, token, isToken, rfl⟩
      obtain ⟨list, isList, isMatched⟩ := exists_of_mem_forall₂
        (forall₂_of_mapM_eq_ok isShown).flip (List.mem_eraseDups.2 isProtocol)
      have matched : rule.portMatches port protocol = .ok list := isMatched
      rw [portMatches_eq (translated protocol isProtocol) isGiven] at matched
      obtain rfl := Except.ok.inj matched
      exact List.mem_append_right _
        (List.mem_flatten.2 ⟨_, isList, List.mem_map_of_mem isToken⟩)

/-! ## Options -/

theorem allTokens_addressFragments
    {name : String} {direction : Direction}
    (run : outcome directory (rule.addressFragments name direction) = .ok given) :
    AllTokens (HasOption [(rule.side direction).addressOption]) (orAny given) := by
  intro part member token isToken
  have isHost := (mem_addressFragments_iff run).1 member
  unfold MatchesHosts at isHost
  split at isHost
  · obtain ⟨_, _, _, _, entry, _, rfl⟩ := isHost
    rw [tokens_hostFragment] at isToken
    rw [List.mem_singleton.1 isToken]
    exact hasOption_of_mem (List.mem_singleton_self _) _
  · rw [isHost] at isToken
    exact absurd isToken List.not_mem_nil

theorem allTokens_setFragments (read : rule.setFragments = .ok given) :
    AllTokens (HasOption ["-m set --match-set"]) (orAny given) := by
  unfold setFragments at read
  extract_lets set at read
  split at read
  · obtain rfl := Except.ok.inj read
    exact allTokens_of_tokens_eq_nil rfl
  · split at read
    · obtain ⟨flags, _, read⟩ := except_bind_eq_ok.1 read
      split at read
      · next name _ =>
          obtain rfl := Except.ok.inj read
          refine allTokens_matching rfl ?_
          intro token isToken
          rw [List.mem_singleton.1 isToken]
          refine ⟨"-m set --match-set", List.mem_singleton_self _, name.written ++ " " ++ flags, ?_⟩
          simp only [← String.append_assoc]
          rfl
      · cases read
    · cases read

/-- The options of tokens that match destination ports. -/
def portOptions : List String := ["--dport", "-m multiport --dports"]

/-- What is matched for IPv4 traffic with a new port states no other one. -/
theorem mem_newPortTokens_of_inet
    (isKind : rule.kind ∈ [.filter, .logging, .related])
    (changes : rule.attributes.flag "dnat" = true) (isPort : rule.dnatField "port" = .ok port)
    (isGiven : port.isNull = false) (read : rule.serviceMatches = .ok given)
    (member : part ∈ orAny given) (ofFamily : Allows part.family "inet")
    (isToken : token ∈ part.tokens) {option : String} (isPortOption : option ∈ portOptions)
    (has : isOption option token = true) :
    token ∈ newPortTokens rule.reverse port := by
  have distinct (options : List String)
      (all : ∀ port ∈ portOptions, ∀ option ∈ options, areDistinct port option = true) :
      ∀ other ∈ options, areDistinct option other = true := all option isPortOption
  have ofPorts (same : rule.serviceMatches = rule.dnatServiceMatches) :
      token ∈ newPortTokens rule.reverse port := by
    rw [same] at read
    obtain ⟨_, _, isMember⟩ := exists_protocols_of_inet changes isPort isGiven read
    obtain ⟨protocol, _, isNew, newMember, rfl⟩ := (isMember part ofFamily).1 member
    rcases List.mem_pair.1 isToken with rfl | rfl
    · have isProtocol : HasOption ["-p"] ("-p " ++ protocol) := ⟨"-p", by decide, protocol, rfl⟩
      exact (isProtocol.false_of_isOption has (distinct ["-p"] (by decide))).elim
    · exact newMember
  simp only [List.mem_cons, List.not_mem_nil, or_false] at isKind
  rcases isKind with isFilter | isLogging | isRelated
  · apply ofPorts
    rw [serviceMatches, isFilter]
  · apply ofPorts
    rw [serviceMatches, isLogging]
  · unfold serviceMatches at read
    rw [isRelated] at read
    obtain ⟨definitions, _, read⟩ := except_bind_eq_ok.1 read
    obtain ⟨helpers, isHelpers, same⟩ := except_bind_eq_ok.1 read
    obtain rfl := Except.ok.inj same
    have isHelper := allTokens_helperFragments isHelpers part member token isToken
    exact (isHelper.false_of_isOption has (distinct _ (by decide))).elim

/-! ## Lines -/

/-- The rule matches the new destination.  Other addresses are only matched for a zone that the
traffic leaves by, and no port is matched but the new one. -/
structure IsTranslated (rule : Rule) (directory : Directory) (address : String)
    (line : Fragment) : Prop where
  stated : "-d " ++ address ∈ line.tokens
  only : ∀ token ∈ line.tokens, isOption "-d" token = true → token = "-d " ++ address ∨
    ∃ name zone listed, Lists rule.zonesOut (some (.named name zone)) ∧
      zone.ListsAddress directory listed ∧ token = "-d " ++ listed
  ports : ∀ port, rule.dnatField "port" = .ok port → port.isNull = false →
    ∀ token ∈ line.tokens, ∀ option ∈ portOptions, isOption option token = true →
      token ∈ newPortTokens false port

/-- The rule changes the destination to the address. -/
structure ChangesTo (rule : Rule) (directory : Directory) (address : String) : Prop where
  changes : rule.attributes.flag "dnat" = true
  isInet : IsInet address
  resolved : outcome directory rule.dnatAddress = .ok address

theorem ChangesTo.congr
    (changesTo : rule.ChangesTo directory address)
    (sameDestination : derived.attributes.get "dnat" = rule.attributes.get "dnat") :
    derived.ChangesTo directory address where
  changes := by
    rw [Record.flag, sameDestination]
    exact changesTo.changes
  isInet := changesTo.isInet
  resolved := outcome_dnatAddress_congr sameDestination changesTo.resolved

namespace Choice

variable {parts : rule.Parts directory} (choice : Choice parts) {hook goal : String}

theorem destination_tokens
    (redirects : rule.kind.redirects = true) (forward : rule.reverse = false)
    (changesTo : rule.ChangesTo directory address) (fits : choice.FitsAt hook "inet") :
    choice.destination.tokens = ["-d " ++ address] := by
  have changesDestination : rule.changesDestination = true := by
    rw [Rule.changesDestination, redirects, changesTo.changes]
    rfl
  have ofFamily : Allows choice.destination.family "inet" :=
    fits.family _ (by simp [fragments])
  have isNew : choice.destination = rule.newDestination address :=
    (mem_destinations_iff_of_inet changesDestination changesTo.isInet changesTo.resolved
      parts.destinationsRun ofFamily).1 choice.isDestination
  rw [isNew, newDestination, tokens_hostFragment]
  simp only [side, forward]
  rfl

/-- Where the tokens of a choice come from. -/
theorem cases_of_mem_tokens
    (forward : rule.reverse = false) (agrees : rule.AgreesOnZones)
    (isNew : choice.destination.tokens = ["-d " ++ address]) (isToken : token ∈ choice.tokens) :
    token = "-d " ++ address ∨ rule.StatedByZones directory token ∨
      HasOption ["-s", "-m set --match-set"] token ∨ token ∈ choice.service.tokens := by
  have member : token ∈ choice.zone.tokens ∨ token ∈ choice.source.tokens ∨
      token ∈ choice.destination.tokens ∨ token ∈ choice.set.tokens ∨
        token ∈ choice.service.tokens := by
    simpa [tokens, fragments] using isToken
  rcases member with inZone | inSource | inNew | inSet | inService
  · have states := allTokens_zoneFragments forward agrees parts.zonesRun
    exact Or.inr (Or.inl (states choice.zone choice.isZone token inZone))
  · have has := allTokens_addressFragments parts.sourcesRun choice.source choice.isSource token
      inSource
    have isSide : (rule.side .inward).addressOption = "-s" := by
      simp only [side, forward]
      rfl
    rw [isSide] at has
    exact Or.inr (Or.inr (Or.inl (has.mono (by decide))))
  · rw [isNew] at inNew
    exact Or.inl (List.mem_singleton.1 inNew)
  · have has := allTokens_setFragments parts.setsRead choice.set choice.isSet token inSet
    exact Or.inr (Or.inr (Or.inl (has.mono (by decide))))
  · exact Or.inr (Or.inr (Or.inr inService))

/-- What a rule with a new destination matches of IPv4 traffic. -/
theorem isTranslated
    (isKind : rule.kind ∈ [.filter, .logging, .related]) (forward : rule.reverse = false)
    (agrees : rule.AgreesOnZones) (changesTo : rule.ChangesTo directory address)
    (fits : choice.FitsAt hook "inet") :
    rule.IsTranslated directory address (choice.placed hook "inet" goal) := by
  have redirects : rule.kind.redirects = true := by
    revert isKind
    cases rule.kind <;> decide
  have isNew := choice.destination_tokens redirects forward changesTo fits
  constructor
  · have member : choice.destination ∈ choice.fragments := by simp [fragments]
    apply List.mem_flatMap.2 ⟨_, member, _⟩
    rw [isNew]
    exact List.mem_singleton_self _
  · intro token isToken isDestination
    rcases choice.cases_of_mem_tokens forward agrees isNew isToken with same | states | has | given
    · exact Or.inl same
    · rcases states with ⟨_, _, _, states⟩ | ⟨name, zone, lists, has | ⟨listed, isListed, rfl⟩⟩
      · exact (states.hasOption.false_of_isOption isDestination (by decide)).elim
      · exact (has.false_of_isOption isDestination (by decide)).elim
      · exact Or.inr ⟨name, zone, listed, lists, isListed, rfl⟩
    · exact (has.false_of_isOption isDestination (by decide)).elim
    · have has := allTokens_serviceMatches parts.servicesRead _ choice.isService token given
      exact (has.false_of_isOption isDestination (by decide)).elim
  · intro port isPort isGiven token isToken option isPortOption isOption
    have distinct (options : List String)
        (all : ∀ port ∈ portOptions, ∀ option ∈ options, areDistinct port option = true) :
        ∀ other ∈ options, areDistinct option other = true := all option isPortOption
    rcases choice.cases_of_mem_tokens forward agrees isNew isToken with rfl | states | has | given
    · have has : HasOption ["-d"] ("-d " ++ address) := ⟨"-d", by decide, address, rfl⟩
      exact (has.false_of_isOption isOption (distinct _ (by decide))).elim
    · rcases states with ⟨_, _, _, states⟩ | ⟨_, _, _, states⟩
      · exact (states.hasOption.false_of_isOption isOption (distinct _ (by decide))).elim
      · exact (states.hasOption.false_of_isOption isOption (distinct _ (by decide))).elim
    · exact (has.false_of_isOption isOption (distinct _ (by decide))).elim
    · have ofFamily : Allows choice.service.family "inet" := fits.family _ (by simp [fragments])
      have isNewPort := mem_newPortTokens_of_inet isKind changesTo.changes isPort isGiven
        parts.servicesRead choice.isService ofFamily given isPortOption isOption
      rwa [forward] at isNewPort

end Choice

end Rule

end FirewallPolicy
