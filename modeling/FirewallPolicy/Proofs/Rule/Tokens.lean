import FirewallPolicy.Proofs.Fragment.Choices
import FirewallPolicy.Proofs.Fragment.Options
import FirewallPolicy.Proofs.Rule.Projection
import FirewallPolicy.Proofs.Rule.Reply

/-!
# Tokens of the dimensions

Every token that a dimension of a rule states is an option with a value.  Addresses of destinations
are stated by the zones that traffic leaves by, by the listed destinations and by a new destination;
ports are stated by the services.
-/

namespace FirewallPolicy

open Fragment Run Stateful

variable {directory : Directory} {direction : Direction} {names : List String}
  {found : List Fragment}

/-! ## Zones -/

/-- The zone lists the address. -/
def Zone.ListsAddress (zone : Zone) (directory : Directory) (address : String) : Prop :=
  zone.attributes.has "addr" = true ∧ ∃ host ∈ (zone.attributes.get "addr").toItems, ∃ addresses,
    Resolves directory host.written addresses ∧ ∃ entry ∈ addresses, entry.address = address

/-- The token matches an interface or an address of the zone on that side. -/
def Zone.States (zone : Zone) (directory : Directory) (direction : Direction) (token : String) :
    Prop :=
  HasOption [direction.interfaceOption] token ∨
    ∃ address, zone.ListsAddress directory address ∧
      token = direction.addressOption ++ " " ++ address

/-- The token matches one of the named interfaces, or an address of the zone, on that side. -/
def Zone.StatesAmong (zone : Zone) (directory : Directory) (direction : Direction)
    (names : List String) (token : String) : Prop :=
  (∃ name ∈ names, token = direction.interfaceOption ++ " " ++ name) ∨
    ∃ address, zone.ListsAddress directory address ∧
      token = direction.addressOption ++ " " ++ address

theorem Zone.StatesAmong.states
    {zone : Zone} {token : String} (among : zone.StatesAmong directory direction names token) :
    zone.States directory direction token := by
  rcases among with ⟨name, -, rfl⟩ | listed
  · exact Or.inl (hasOption_of_mem (List.mem_singleton_self _) name)
  · exact Or.inr listed

theorem Zone.States.hasOption
    {zone : Zone} {token : String} (states : zone.States directory direction token) :
    HasOption [direction.interfaceOption, direction.addressOption] token := by
  rcases states with has | ⟨address, -, rfl⟩
  · exact has.mono (by simp)
  · exact hasOption_of_mem (by simp) address

theorem tokens_hostFragment (option : String) (entry : FamilyAddress) :
    (hostFragment option entry).tokens = [option ++ " " ++ entry.address] :=
  Zone.tokens_matching_pair option entry.address

theorem Zone.allTokens_fragmentsOn
    {zone : Zone} (run : outcome directory (zone.fragmentsOn direction names) = .ok found) :
    AllTokens (zone.StatesAmong directory direction names) found := by
  obtain ⟨given, isGiven, rfl⟩ := fragmentsOn_eq_ok.1 run
  rw [assemble_eq_product]
  apply allTokens_product
  · intro part member token isToken
    rcases mem_interfaceFragments.1 member with ⟨-, rfl⟩ | ⟨name, isName, rfl⟩
    · exact absurd isToken List.not_mem_nil
    · exact Or.inl ⟨name, isName, List.mem_singleton.1 isToken⟩
  · intro part member token isToken
    rcases addressFragments_eq_ok isGiven with ⟨listed, hosts, areHosts, rfl⟩ | ⟨-, rfl⟩
    · obtain ⟨host, isHost, addresses, resolves, entry, isEntry, rfl⟩ :=
        ((outcome_hostFragments_eq_ok areHosts).2 part).1 member
      rw [tokens_hostFragment] at isToken
      rw [List.mem_singleton.1 isToken]
      exact Or.inr ⟨entry.address, ⟨listed, host, isHost, addresses, resolves, entry, isEntry, rfl⟩,
        rfl⟩
    · exact allTokens_of_tokens_eq_nil rfl part member token isToken

namespace Rule

variable {rule : Rule} {kind : RuleKind} {chain : String}
  {entering leaving side : Option ZoneSelector}

/-- The token matches a zone on one of two sides. -/
def StatedBetween (directory : Directory) (entering leaving : Option ZoneSelector)
    (token : String) : Prop :=
  (∃ name zone, entering = some (.named name zone) ∧ zone.States directory .inward token) ∨
    ∃ name zone, leaving = some (.named name zone) ∧ zone.States directory .outward token

theorem allTokens_sideFragments
    {given : Option (List Fragment)}
    (run : outcome directory (sideFragments chain direction side) = .ok given) :
    ∀ list, some list = given → AllTokens (fun token => ∃ name zone,
      side = some (.named name zone) ∧ zone.States directory direction token) list := by
  rintro list rfl
  rcases side with _ | _ | ⟨name, zone⟩ | _
  · cases run
  · cases run
  · obtain ⟨found, isFound, same⟩ := sideFragments_named_eq_ok run
    obtain rfl := Option.some.inj same
    exact (Zone.allTokens_fragmentsOn isFound).imp fun token among =>
      ⟨name, zone, rfl, among.states⟩
  · cases run

theorem allTokens_combine_chain
    {property : String → Prop} {one two : Option (List Fragment)}
    (first : ∀ list, some list = one → AllTokens property list)
    (second : ∀ list, some list = two → AllTokens property list) :
    AllTokens property (combine [one, two, some [ofChain chain]]) := by
  apply allTokens_combine
  intro list given
  simp only [List.mem_cons, List.not_mem_nil, or_false, Option.some.injEq] at given
  rcases given with isFirst | isSecond | rfl
  · exact first list isFirst
  · exact second list isSecond
  · exact allTokens_of_tokens_eq_nil rfl

theorem allTokens_hairpinFragments
    {zone : Zone} {pair : String × String}
    (run : outcome directory (hairpinFragments chain zone pair) = .ok found) :
    AllTokens (fun token => zone.States directory .inward token ∨
      zone.States directory .outward token) found := by
  obtain ⟨enters, leaves, isEntering, isLeaving, rfl⟩ := hairpinFragments_eq_ok run
  apply allTokens_combine_chain
  · rintro list ⟨⟩
    exact (Zone.allTokens_fragmentsOn isEntering).imp fun _ among => Or.inl among.states
  · rintro list ⟨⟩
    exact (Zone.allTokens_fragmentsOn isLeaving).imp fun _ among => Or.inr among.states

theorem allTokens_gather
    {α : Type} {property : String → Prop} {results : α → Run (List Fragment)} {items : List α}
    (determined : ∀ item, Determined (results item))
    (each : ∀ item ∈ items, ∀ part, outcome directory (results item) = .ok part →
      AllTokens property part)
    (run : outcome directory (gather results items) = .ok found) : AllTokens property found := by
  intro fragment member
  obtain ⟨item, isItem, part, partRun, inPart⟩ :=
    ((outcome_gather_eq_ok determined run).2 fragment).1 member
  exact each item isItem part partRun fragment inPart

theorem allTokens_chainFragments
    (agree : AgreeOnZones entering leaving)
    (run : outcome directory (chainFragments entering leaving chain) = .ok found) :
    AllTokens (StatedBetween directory entering leaving) found := by
  cases hairpin : hairpinZone? entering leaving with
  | some zone =>
      unfold chainFragments at run
      rw [hairpin] at run
      obtain ⟨name, other, same, rfl, rfl, sameKey, -⟩ := hairpinZone?_eq_some hairpin
      obtain rfl : same = zone := agree name zone other same rfl rfl sameKey
      refine allTokens_gather (determined_hairpinFragments _) (fun pair _ part partRun => ?_) run
      refine (allTokens_hairpinFragments partRun).imp ?_
      rintro token (enters | leaves)
      · exact Or.inl ⟨name, same, rfl, enters⟩
      · exact Or.inr ⟨other, same, rfl, leaves⟩
  | none =>
      obtain ⟨enters, leaves, isEntering, isLeaving, rfl⟩ := chainFragments_eq_ok hairpin run
      apply allTokens_combine_chain
      · intro list isList
        exact (allTokens_sideFragments isEntering list isList).imp fun _ => Or.inl
      · intro list isList
        exact (allTokens_sideFragments isLeaving list isList).imp fun _ => Or.inr

theorem StatedBetween.of_remaining
    {token : String} (states : StatedBetween directory (remaining entering) (remaining leaving) token) :
    StatedBetween directory entering leaving token := by
  rcases states with ⟨name, zone, same, states⟩ | ⟨name, zone, same, states⟩
  · exact Or.inl ⟨name, zone, (remaining_eq_some.1 same).1, states⟩
  · exact Or.inr ⟨name, zone, (remaining_eq_some.1 same).1, states⟩

/-- The token matches a zone that the rule lists for one of the sides. -/
def StatedByZones (rule : Rule) (directory : Directory) (token : String) : Prop :=
  (∃ name zone, Lists rule.zonesIn (some (.named name zone)) ∧
      zone.States directory .inward token) ∨
    ∃ name zone, Lists rule.zonesOut (some (.named name zone)) ∧
      zone.States directory .outward token

theorem lists_of_mem_sides
    {zones : Option (List ZoneSelector)} {selector : ZoneSelector}
    (member : some selector ∈ sides zones) : Lists zones (some selector) := by
  rcases zones with _ | _ | ⟨first, rest⟩
  · cases List.mem_singleton.1 member
  · cases List.mem_singleton.1 member
  · obtain ⟨zone, isZone, same⟩ := List.mem_map.1 member
    exact ⟨zone, isZone, same.symm⟩

/-- The zones state interfaces and addresses of the zones that are listed for the side. -/
theorem allTokens_zoneFragments
    (forward : rule.reverse = false) (agrees : rule.AgreesOnZones)
    (run : outcome directory rule.zoneFragments = .ok found) :
    AllTokens (rule.StatedByZones directory) found := by
  intro fragment member
  obtain ⟨⟨zoneIn, zoneOut⟩, isPair, part, partRun, inPart⟩ := (mem_zoneFragments_iff run).1 member
  have agree : AgreeOnZones zoneIn zoneOut := agrees.of_mem_sidePairs isPair
  have both : zoneIn ∈ sides rule.zonesIn ∧ zoneOut ∈ sides rule.zonesOut := by
    simpa [sidePairs, forward] using isPair
  rw [pairFragments_eq] at partRun
  refine allTokens_gather (fun _ => determined_chainFragments) (fun chain _ placed placedRun => ?_)
    partRun fragment inPart
  refine (allTokens_chainFragments agree.remaining placedRun).imp ?_
  intro token states
  rcases states.of_remaining with ⟨name, zone, rfl, enters⟩ | ⟨name, zone, rfl, leaves⟩
  · exact Or.inl ⟨name, zone, lists_of_mem_sides both.1, enters⟩
  · exact Or.inr ⟨name, zone, lists_of_mem_sides both.2, leaves⟩

end Rule

/-! ## Services -/

/-- The options of tokens that match services. -/
def serviceOptions : List String :=
  ["-p", "--icmp-type", "--icmpv6-type", "--dport", "--sport", "-m multiport --dports",
    "-m multiport --sports", "-m conntrack --ctstate"]

namespace ServiceDefinition

variable {definition : ServiceDefinition} {reverse : Bool}

theorem hasOption_portTokens (reverse : Bool) (ports : List String) :
    ∀ token ∈ portTokens reverse ports, HasOption serviceOptions token := by
  intro token isToken
  by_cases single : ports.length = 1
  · obtain ⟨port, rfl⟩ := List.length_eq_one_iff.1 single
    rw [portTokens_single] at isToken
    rw [List.mem_singleton.1 isToken]
    apply hasOption_of_mem
    cases reverse <;> decide
  · rw [portTokens_several reverse single] at isToken
    obtain ⟨chunk, _, rfl⟩ := List.mem_map.1 isToken
    apply hasOption_of_mem
    cases reverse <;> decide

theorem hasOption_protocol (protocol : String) : HasOption serviceOptions ("-p " ++ protocol) :=
  ⟨"-p", by decide, protocol, rfl⟩

theorem allTokens_fragments (read : definition.fragments reverse = .ok found) :
    AllTokens (HasOption serviceOptions) found := by
  unfold fragments at read
  split at read
  · next control isControl =>
      obtain rfl := Except.ok.inj read
      refine allTokens_matching rfl ?_
      apply List.forall_mem_cons.2 ⟨hasOption_protocol _, _⟩
      intro token isToken
      split at isToken
      · rw [List.mem_singleton.1 isToken]
        apply hasOption_of_mem
        rcases eq_or_eq_of_controlProtocol? isControl with rfl | rfl <;> decide
      · exact absurd isToken List.not_mem_nil
  · split at read
    · obtain rfl := Except.ok.inj read
      refine allTokens_matching rfl ?_
      simp [hasOption_protocol]
    · split at read
      · cases read
      · obtain rfl := Except.ok.inj read
        intro part member
        obtain ⟨token, isToken, rfl⟩ := List.mem_map.1 member
        have each : ∀ stated ∈ ["-p " ++ definition.protocol, token],
            HasOption serviceOptions stated := by
          simp [hasOption_protocol, hasOption_portTokens reverse _ token isToken]
        exact fun stated isStated => each stated (List.mem_filter.1 isStated).1

end ServiceDefinition

namespace Rule

variable {rule : Rule} {given : Option (List Fragment)} {port : Value} {protocol : String}

theorem allTokens_selectorFragments
    {reverse : Bool} {selector : ServiceSelector}
    (read : selectorFragments reverse selector = .ok found) :
    AllTokens (HasOption serviceOptions) found := by
  cases selector with
  | service service =>
      obtain ⟨lists, run, same⟩ := except_bind_eq_ok.1 read
      obtain rfl := Except.ok.inj same
      intro part member
      obtain ⟨definition, _, list, isRead, inList⟩ := exists_of_mem_flatten_mapM run member
      exact ServiceDefinition.allTokens_fragments isRead part inList
  | definition definition => exact ServiceDefinition.allTokens_fragments read
  | other => cases read

theorem allTokens_namedServiceFragments (read : rule.namedServiceFragments = .ok given) :
    AllTokens (HasOption serviceOptions) (orAny given) := by
  unfold namedServiceFragments at read
  split at read
  · obtain rfl := Except.ok.inj read
    exact allTokens_of_tokens_eq_nil rfl
  · obtain ⟨lists, run, same⟩ := except_bind_eq_ok.1 read
    obtain rfl := Except.ok.inj same
    intro part member
    obtain ⟨selector, _, list, isRead, inList⟩ := exists_of_mem_flatten_mapM run member
    exact allTokens_selectorFragments isRead part inList

theorem allTokens_restricted
    {property : String → Prop} {fragment : Fragment} (isGiven : AllTokens property (orAny given))
    (isRestriction : AllTokens property [fragment]) :
    AllTokens property (combine [given, some [fragment]]) := by
  apply allTokens_combine
  intro list isList
  simp only [List.mem_cons, List.not_mem_nil, or_false, Option.some.injEq] at isList
  rcases isList with rfl | rfl
  · exact isGiven
  · exact isRestriction

theorem allTokens_portMatches (read : rule.portMatches port protocol = .ok found) :
    AllTokens (HasOption serviceOptions) found := by
  obtain ⟨matched, isMatched, same⟩ := except_bind_eq_ok.1 read
  obtain rfl := Except.ok.inj same
  have isGiven : AllTokens (HasOption serviceOptions) (orAny (some matched)) :=
    ServiceDefinition.allTokens_fragments isMatched
  exact allTokens_restricted isGiven (allTokens_of_tokens_eq_nil rfl)

/-- Where the port is changed, IPv6 traffic to the named services is matched, and IPv4 traffic to the
new port with each of their protocols. -/
theorem dnatServiceMatches_eq_ok
    (changes : rule.attributes.flag "dnat" = true) (read : rule.dnatServiceMatches = .ok given) :
    ∃ named port, rule.namedServiceFragments = .ok named ∧ rule.dnatField "port" = .ok port ∧
      ((port.isNull = true ∧ given = named) ∨
        (port.isNull = false ∧ ∃ protocols shown,
          dnatProtocols rule.location (rule.services.getD []) = .ok protocols ∧
          protocols.eraseDups.mapM (rule.portMatches port) = .ok shown ∧
          given = some (combine [named, some [ofFamily "inet6"]] ++ shown.flatten))) := by
  unfold dnatServiceMatches at read
  simp only [changes, if_true] at read
  obtain ⟨named, isNamed, read⟩ := except_bind_eq_ok.1 read
  obtain ⟨port, isPort, read⟩ := except_bind_eq_ok.1 read
  refine ⟨named, port, isNamed, isPort, ?_⟩
  cases isNull : port.isNull with
  | true =>
      rw [isNull, if_pos rfl] at read
      exact Or.inl ⟨rfl, (Except.ok.inj read).symm⟩
  | false =>
      rw [isNull, if_neg Bool.false_ne_true] at read
      obtain ⟨protocols, areProtocols, read⟩ := except_bind_eq_ok.1 read
      obtain ⟨shown, isShown, read⟩ := except_bind_eq_ok.1 read
      exact Or.inr ⟨rfl, protocols, shown, areProtocols, isShown, (Except.ok.inj read).symm⟩

theorem allTokens_dnatServiceMatches (read : rule.dnatServiceMatches = .ok given) :
    AllTokens (HasOption serviceOptions) (orAny given) := by
  cases changes : rule.attributes.flag "dnat" with
  | false =>
      rw [dnatServiceMatches_of_plain changes] at read
      exact allTokens_namedServiceFragments read
  | true =>
      obtain ⟨named, port, isNamed, _, ⟨_, rfl⟩ | ⟨_, protocols, shown, _, isShown, rfl⟩⟩ :=
        dnatServiceMatches_eq_ok changes read
      · exact allTokens_namedServiceFragments isNamed
      · apply AllTokens.append
        · exact allTokens_restricted (allTokens_namedServiceFragments isNamed)
            (allTokens_of_tokens_eq_nil rfl)
        · intro part member
          obtain ⟨protocol, _, list, isRead, inList⟩ := exists_of_mem_flatten_mapM isShown member
          exact allTokens_portMatches isRead part inList

theorem allTokens_helperFragments
    {definitions : List ServiceDefinition} (read : helperFragments definitions = .ok found) :
    AllTokens (HasOption ["-m conntrack --ctstate"]) found := by
  intro part member token isToken
  obtain ⟨definition, helper, rfl⟩ := exists_helper_of_mem_helperFragments read part member
  rw [List.mem_singleton.1 (List.mem_filter.1 isToken).1]
  refine ⟨"-m conntrack --ctstate", List.mem_singleton_self _,
    "RELATED -m helper --helper " ++ helper.written, ?_⟩
  rw [← String.append_assoc]
  rfl

theorem allTokens_serviceMatches (read : rule.serviceMatches = .ok given) :
    AllTokens (HasOption serviceOptions) (orAny given) := by
  unfold serviceMatches at read
  split at read
  · obtain rfl := Except.ok.inj read
    exact allTokens_of_tokens_eq_nil rfl
  · obtain ⟨definitions, _, read⟩ := except_bind_eq_ok.1 read
    obtain ⟨helpers, isHelpers, same⟩ := except_bind_eq_ok.1 read
    obtain rfl := Except.ok.inj same
    exact (allTokens_helperFragments isHelpers).imp fun token has => has.mono (by decide)
  · obtain ⟨named, isNamed, read⟩ := except_bind_eq_ok.1 read
    split at read
    · obtain rfl := Except.ok.inj read
      apply allTokens_restricted (allTokens_dnatServiceMatches isNamed)
      refine allTokens_matching rfl ?_
      intro token isToken
      rw [List.mem_singleton.1 isToken]
      exact ⟨"-m conntrack --ctstate", by decide, "NEW", by decide⟩
    · obtain rfl := Except.ok.inj read
      exact allTokens_dnatServiceMatches isNamed
  · exact allTokens_dnatServiceMatches read
  · exact allTokens_dnatServiceMatches read
  · exact allTokens_dnatServiceMatches read
  · exact allTokens_namedServiceFragments read

end Rule

end FirewallPolicy
