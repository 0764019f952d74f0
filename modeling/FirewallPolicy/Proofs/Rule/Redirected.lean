import FirewallPolicy.Proofs.Rule.Translated

/-!
# Redirected traffic is accepted

A rule for a new address and a new port brings a rule of the nat table.  Where services are named,
the IPv4 rules there match protocols with ports, and the traffic that they redirect is accepted, or
goes to the limit of the rule, at the new address and port.
-/

namespace FirewallPolicy

open Context Fragment Run Stateful

/-! ## Protocols of services -/

namespace ServiceDefinition

variable {definition : ServiceDefinition} {reverse : Bool} {found : List Fragment} {part : Fragment}

theorem family_of_mem_fragments
    (read : definition.fragments reverse = .ok found) (member : part ∈ found) :
    part.family = definition.family := by
  unfold fragments at read
  split at read
  · next control isControl =>
      obtain rfl := Except.ok.inj read
      rw [List.mem_singleton.1 member, family, isControl]
      rfl
  · split at read
    · obtain rfl := Except.ok.inj read
      rw [List.mem_singleton.1 member]
    · split at read
      · cases read
      · obtain rfl := Except.ok.inj read
        obtain ⟨token, _, rfl⟩ := List.mem_map.1 member
        rfl

/-- Where ports can be changed, each match of a definition names its protocol. -/
theorem protocol_of_mem_fragments
    (translated : definition.protocol ∈ Rule.translatedProtocols)
    (read : definition.fragments reverse = .ok found) (member : part ∈ found) :
    "-p " ++ definition.protocol ∈ part.tokens := by
  have plain : controlProtocol? definition.protocol = none ∧
      ("-p " ++ definition.protocol).isEmpty = false := by
    rcases List.mem_pair.1 translated with same | same <;> rw [same] <;> decide
  obtain ⟨noControl, notEmpty⟩ := plain
  unfold fragments at read
  simp only [noControl] at read
  split at read
  · obtain rfl := Except.ok.inj read
    rw [List.mem_singleton.1 member]
    simp [matching, notEmpty]
  · split at read
    · cases read
    · obtain rfl := Except.ok.inj read
      obtain ⟨token, _, rfl⟩ := List.mem_map.1 member
      simp [matching, notEmpty]

end ServiceDefinition

namespace Rule

variable {rule derived : Rule} {directory : Directory} {before after start middle : Context}
  {fragments own : List Fragment} {address : String} {port : Value} {part : Fragment}
  {selectors : List ServiceSelector} {protocols : List String}

/-- All services whose ports are changed are known, and their protocols are among the others. -/
theorem exists_service_of_dnatProtocols
    {location : String} (read : dnatProtocols location selectors = .ok protocols) :
    ∀ selector ∈ selectors, ∃ service found, selector = .service service ∧
      redirectedProtocols location service = .ok found ∧ found ⊆ protocols := by
  induction selectors generalizing protocols with
  | nil => exact fun selector none => absurd none List.not_mem_nil
  | cons first rest inductionHypothesis =>
      cases first with
      | service service =>
          obtain ⟨found, isFound, read⟩ := except_bind_eq_ok.1 read
          obtain ⟨others, areOthers, same⟩ := except_bind_eq_ok.1 read
          obtain rfl := Except.ok.inj same
          intro selector member
          rcases List.mem_cons.1 member with rfl | inRest
          · exact ⟨service, found, rfl, isFound, List.subset_append_left _ _⟩
          · obtain ⟨other, among, same, isAmong, subset⟩ :=
              inductionHypothesis areOthers selector inRest
            exact ⟨other, among, same, isAmong, List.subset_append_of_subset_right _ subset⟩
      | definition definition => cases read
      | other => cases read

/-- A match for IPv4 traffic to a service names a protocol that the port is changed for. -/
theorem exists_protocol_of_named
    {location : String} {reverse : Bool} {found : List Fragment}
    (read : dnatProtocols location selectors = .ok protocols)
    {selector : ServiceSelector} (isSelector : selector ∈ selectors)
    (isMatched : selectorFragments reverse selector = .ok found) (member : part ∈ found)
    (ofFamily : Allows part.family "inet") :
    ∃ protocol ∈ protocols, "-p " ++ protocol ∈ part.tokens := by
  obtain ⟨service, among, rfl, isAmong, subset⟩ :=
    exists_service_of_dnatProtocols read selector isSelector
  obtain ⟨lists, isLists, same⟩ := except_bind_eq_ok.1 isMatched
  obtain rfl := Except.ok.inj same
  obtain ⟨definition, isDefinition, list, isRead, inList⟩ :=
    exists_of_mem_flatten_mapM isLists member
  have notInet6 : definition.family ≠ some "inet6" := by
    intro isInet6
    rw [← ServiceDefinition.family_of_mem_fragments isRead inList] at isInet6
    exact absurd (ofFamily "inet6" isInet6) (by decide)
  have isRedirected : definition ∈ service.definitions.filter fun definition =>
      definition.family != some "inet6" :=
    List.mem_filter.2 ⟨isDefinition, by simpa using notInet6⟩
  obtain ⟨protocol, isProtocol, accepted⟩ :=
    exists_of_mem_forall₂ (forall₂_of_mapM_eq_ok isAmong).flip isRedirected
  split at accepted
  · next isTranslated =>
      obtain rfl := Except.ok.inj accepted
      have translated : definition.protocol ∈ translatedProtocols := by
        simpa [translatedProtocols] using isTranslated
      exact ⟨definition.protocol, subset isProtocol,
        ServiceDefinition.protocol_of_mem_fragments translated isRead inList⟩
  · cases accepted

theorem exists_protocol_of_services
    {given : Option (List Fragment)} (served : rule.services = some selectors)
    (areProtocols : dnatProtocols rule.location selectors = .ok protocols)
    (read : rule.namedServiceFragments = .ok given) (member : part ∈ orAny given)
    (ofFamily : Allows part.family "inet") :
    ∃ protocol ∈ protocols, "-p " ++ protocol ∈ part.tokens := by
  unfold namedServiceFragments at read
  rw [served] at read
  obtain ⟨lists, isLists, same⟩ := except_bind_eq_ok.1 read
  obtain rfl := Except.ok.inj same
  obtain ⟨selector, isSelector, list, isMatched, inList⟩ :=
    exists_of_mem_flatten_mapM isLists member
  exact exists_protocol_of_named areProtocols isSelector isMatched inList ofFamily

/-! ## Redirecting rules -/

/-- What is left out of a derived rule is null there. -/
theorem get_derivedAttributes_of_omitted
    {source : Record} {derivation : Derivation} {name : String}
    (isOmitted : name ∈ derivation.omitted) :
    (derivedAttributes source derivation).get name = .null := by
  refine Record.get_eq_of_mem (fun other member => ?_) fun notNull => by cases notNull
  have kept := (List.mem_filter.1 member).2
  simp [isOmitted] at kept

/-- The rule redirects what the other one matches to the address and port, wherever it leaves. -/
structure IsRedirecting (rule derived : Rule) (address : String) (port : Value) : Prop where
  kind : derived.kind = .dnat
  takes : TakesOver ["in", "src", "service", "ipset"] rule derived
  zonesOut : derived.zonesOut = rule.zonesOut
  forward : derived.reverse = false
  target : derived.target =
    .ok (some ("DNAT --to-destination " ++ (address ++ ":" ++ port.written)))

theorem isRedirecting_of_isDerived
    (isDerived : IsDerived (redirection address port) rule derived start middle)
    (opened : IsOpened rule.attributes) (knows : rule.Knows start)
    (unleft : (rule.attributes.get "out").isNull = true) (isGiven : port.isNull = false) :
    IsRedirecting rule derived address port := by
  have isKind : derived.kind = .dnat := (ObjectKind.rule.inj isDerived.kind).symm
  have settles : ∀ change ∈ (redirection address port).changes, change.1 ∉ openedNames := by
    simp [redirection, openedNames]
  have derivedKnows : derived.Knows start := knows_of_declare isDerived.declares
  constructor
  · exact isKind
  · apply isDerived.takesOver opened knows
    · have among : ["in", "src", "service", "ipset"] ⊆ transferred := by decide
      exact fun name isName => List.mem_append_left _ (among isName)
    · simp [redirection, openedNames]
    · simp [redirection]
  · apply (knows.selects_alike derivedKnows).2.1
    rw [isDerived.get opened settles (by decide), Value.eq_null_of_isNull unleft]
    exact get_derivedAttributes_of_omitted (List.mem_singleton_self _)
  · apply isDerived.reverse_eq_false opened
    simp [redirection, openedNames]
  · have toAddress : derived.attributes.get "to-addr" = .text address := by
      rw [isDerived.get opened settles (by decide)]
      apply get_derivedAttributes_of_change (by decide) (List.mem_cons_self ..)
      · simp [redirection]
      · simp [redirection]
    have toPort : derived.attributes.get "to-port" = port := by
      rw [isDerived.get opened settles (by decide)]
      apply get_derivedAttributes_of_change (by decide)
        (List.mem_cons_of_mem _ (List.mem_cons_self ..))
      · simp [redirection]
      · simp [redirection]
    have newAddress : derived.newAddress? = some (address ++ ":" ++ port.written) := by
      unfold newAddress? Record.has
      rw [toAddress, toPort, isGiven]
      rfl
    rw [Rule.target, isKind]
    simp only [destinationTarget, newAddress]

/-! ## Accepting what is redirected -/

/-- A zone of the redirecting rule is one of the rule, as the chain for its hook sees it. -/
theorem IsRedirecting.exists_zone
    (redirects : IsRedirecting rule derived address port) (isFilter : rule.kind = .filter)
    (forward : rule.reverse = false) (parts : rule.Parts directory)
    (others : derived.Parts directory) {placed : Fragment} (isPlaced : placed ∈ others.zones) :
    ∃ zone ∈ parts.zones, ∃ hook chain, zone.chain = some hook.chainName ∧
      RuleKind.dnat.chainOf? hook = some chain ∧ zone.seenFrom chain = placed := by
  have projects : derived.kind.Projects parts.zones others.zones :=
    Parts.projects_zones isFilter (redirects.forward.trans forward.symm)
      (redirects.takes.zonesIn (by decide)) redirects.zonesOut
  obtain ⟨zone, isZone, projected⟩ := (projects placed).1 isPlaced
  rw [redirects.kind] at projected
  exact ⟨zone, isZone, RuleKind.project?_eq_some.1 projected⟩

/-- A choice for the redirecting rule matches a protocol of the named services, with which the rule
accepts the new port. -/
theorem IsRedirecting.exists_protocol
    (parts : rule.Parts directory) {others : derived.Parts directory}
    (redirects : IsRedirecting rule derived address port) (isFilter : rule.kind = .filter)
    (forward : rule.reverse = false) (changes : rule.attributes.flag "dnat" = true)
    (isPort : rule.dnatField "port" = .ok port) (isGiven : port.isNull = false)
    (served : rule.services = some selectors) (other : Choice others)
    (ofInet : Allows other.service.family "inet") :
    ∃ protocol ∈ translatedProtocols, "-p " ++ protocol ∈ other.service.tokens ∧
      ∀ token ∈ newPortTokens false port, newPort protocol token ∈ orAny parts.services := by
  have sameMatches : rule.serviceMatches = rule.dnatServiceMatches := by
    rw [serviceMatches, isFilter]
  have servicesRead := parts.servicesRead
  rw [sameMatches] at servicesRead
  obtain ⟨protocols, areProtocols, isService⟩ :=
    exists_protocols_of_inet changes isPort isGiven servicesRead
  have notRedirecting : derived.kind.redirects = false := by
    rw [redirects.kind]
    rfl
  obtain ⟨protocol, isProtocol, named⟩ :
      ∃ protocol ∈ protocols, "-p " ++ protocol ∈ other.service.tokens := by
    obtain ⟨given, _, isNamed, _⟩ := dnatServiceMatches_eq_ok changes servicesRead
    have member := other.isService
    rw [Parts.services_eq notRedirecting (redirects.takes.services (by decide))
      (redirects.forward.trans forward.symm) isNamed] at member
    rw [served] at areProtocols
    exact exists_protocol_of_services served areProtocols isNamed member ofInet
  refine ⟨protocol, mem_translatedProtocols areProtocols protocol isProtocol, named, ?_⟩
  intro token isToken
  have inetPort : Allows (newPort protocol token).family "inet" :=
    fun family stated => (Option.some.inj stated).symm
  apply (isService _ inetPort).2
  rw [forward]
  exact ⟨protocol, isProtocol, token, isToken, rfl⟩

/-- With a new port among its services, the rule has a choice at some hook for what the redirecting
rule matches: its own zone and the new address, and the other dimensions as they are. -/
theorem IsRedirecting.exists_choice_of_newPort
    (parts : rule.Parts directory) {others : derived.Parts directory} {chain : String}
    (redirects : IsRedirecting rule derived address port) (isFilter : rule.kind = .filter)
    (forward : rule.reverse = false) (changesTo : rule.ChangesTo directory address)
    (other : Choice others) (fits : other.FitsAt chain "inet") {protocol token : String}
    (isNewPort : newPort protocol token ∈ orAny parts.services) :
    ∃ choice : Choice parts, ∃ hook ∈ hookNames, choice.FitsAt hook "inet" ∧
      "-d " ++ address ∈ choice.tokens ∧ "-p " ++ protocol ∈ choice.tokens ∧
        token ∈ choice.tokens := by
  have takes := redirects.takes
  have sameSide : derived.reverse = rule.reverse := redirects.forward.trans forward.symm
  -- The zone stands at a hook that the chain stands for.
  obtain ⟨zone, isZone, hook, _, stands, _, same⟩ :=
    redirects.exists_zone isFilter forward parts others other.isZone
  have isSource : other.source ∈ orAny parts.sources :=
    (Parts.mem_sources_iff (takes.get "src" (by decide)) sameSide).1 other.isSource
  have isSet : other.set ∈ orAny parts.sets := by
    rw [← Parts.sets_eq (takes.get "ipset" (by decide)) sameSide]
    exact other.isSet
  have redirecting : rule.changesDestination = true := by
    rw [Rule.changesDestination, isFilter, changesTo.changes]
    rfl
  have inetNew : Allows (rule.newDestination address).family "inet" :=
    fun family stated => (Option.some.inj stated).symm
  have isDestination : rule.newDestination address ∈ orAny parts.destinations :=
    (mem_destinations_iff_of_inet redirecting changesTo.isInet changesTo.resolved
      parts.destinationsRun inetNew).2 rfl
  let choice : Choice parts := ⟨zone, other.source, rule.newDestination address, other.set,
    newPort protocol token, isZone, isSource, isDestination, isSet, isNewPort⟩
  have sameFamily : zone.family = other.zone.family := by
    rw [← same]
    rfl
  have choiceFits : choice.FitsAt hook.chainName "inet" := by
    have ofInet : ∀ part ∈ other.fragments, Allows part.family "inet" := fits.family
    refine ⟨stands, ?_⟩
    simp only [Choice.fragments, List.forall_mem_cons, List.not_mem_nil, false_implies,
      implies_true, and_true] at ofInet ⊢
    obtain ⟨ofZone, ofSource, _, ofSet, _⟩ := ofInet
    refine ⟨?_, ofSource, inetNew, ofSet, fun family stated => (Option.some.inj stated).symm⟩
    change Allows zone.family "inet"
    rwa [sameFamily]
  have newTokens : choice.destination.tokens = ["-d " ++ address] := by
    apply choice.destination_tokens _ forward changesTo choiceFits
    rw [isFilter]
    rfl
  refine ⟨choice, hook.chainName, hookName_mem hook, choiceFits, ?_, ?_, ?_⟩
  · apply List.mem_flatMap.2 ⟨choice.destination, by simp [Choice.fragments], _⟩
    rw [newTokens]
    exact List.mem_singleton_self _
  · exact List.mem_flatMap.2 ⟨choice.service, by simp [Choice.fragments], List.mem_cons_self ..⟩
  · exact List.mem_flatMap.2 ⟨choice.service, by simp [Choice.fragments],
      List.mem_cons_of_mem _ (List.mem_singleton_self _)⟩

/-- A choice for the redirecting rule matches a protocol, and for each token of the new port there
is a choice for the rule with the new address, the protocol and the new port. -/
theorem IsRedirecting.exists_choice
    (parts : rule.Parts directory) {others : derived.Parts directory} {chain : String}
    (redirects : IsRedirecting rule derived address port) (isFilter : rule.kind = .filter)
    (forward : rule.reverse = false) (changesTo : rule.ChangesTo directory address)
    (isPort : rule.dnatField "port" = .ok port) (isGiven : port.isNull = false)
    (served : rule.services = some selectors) (other : Choice others)
    (fits : other.FitsAt chain "inet") :
    ∃ protocol ∈ translatedProtocols, "-p " ++ protocol ∈ other.tokens ∧
      ∀ token ∈ newPortTokens false port, ∃ choice : Choice parts, ∃ hook ∈ hookNames,
        choice.FitsAt hook "inet" ∧ "-d " ++ address ∈ choice.tokens ∧
          "-p " ++ protocol ∈ choice.tokens ∧ token ∈ choice.tokens := by
  have isPart : other.service ∈ other.fragments := by simp [Choice.fragments]
  obtain ⟨protocol, isProtocol, named, areServices⟩ := redirects.exists_protocol parts isFilter
    forward changesTo.changes isPort isGiven served other (fits.family _ isPart)
  refine ⟨protocol, isProtocol, List.mem_flatMap.2 ⟨other.service, isPart, named⟩, ?_⟩
  exact fun token isToken => redirects.exists_choice_of_newPort parts isFilter forward changesTo
    other fits (areServices token isToken)

/-- What the redirecting rule brings stands at hooks. -/
theorem IsFinished.exists_zone
    {parts : rule.Parts directory} {position goal : String} {finished : List Fragment}
    (isFinished : rule.IsFinished position (combine parts.lists) finished own after goal)
    (plain : rule.kind.logs = false) {line : Fragment} (member : line ∈ own) :
    ∃ zone ∈ parts.zones, ∀ chain, zone.chain = some chain → line.chain = some chain := by
  obtain ⟨_, goesOn, rfl⟩ := isFinished
  obtain ⟨-, rfl⟩ := goesOn.of_plain plain
  obtain ⟨jump, isJump, upper⟩ := exists_extends_of_mem_combine member (List.mem_cons_self ..)
  obtain ⟨origin, isOrigin, rfl⟩ := List.mem_map.1 isJump
  obtain ⟨zone, isZone, lower⟩ := exists_extends_of_mem_combine isOrigin (List.mem_cons_self ..)
  refine ⟨zone, isZone, fun chain stands => upper.chain chain ?_⟩
  rw [jumpTo_chain]
  exact lower.chain chain stands

/-! ## Tables -/

theorem table_of_mem_derive
    {kind : RuleKind} {depth : Nat} {source : Record} {derivation : Derivation}
    (isKind : derivation.kind = .rule kind) (notFilter : kind.isFilter = false)
    (run : derive (expandTo (depth + 1)) rule source derivation before =
      (.ok fragments, after)) :
    ∀ line ∈ fragments, line.table = some kind.table := by
  obtain ⟨derived, middle, rfl, _, own⟩ := exists_declared_of_derive isKind notFilter run
  exact fun line member => table_of_mem_ownFragments own member

theorem table_of_mem_updateFragments
    {depth : Nat} (run : updateFragments (expandTo (depth + 1)) rule before =
      (.ok fragments, after)) :
    ∀ line ∈ fragments, line.table = some "filter" := by
  unfold updateFragments at run
  split at run
  · obtain ⟨rfl, rfl⟩ := pure_eq_ok.1 run
    exact fun line none => absurd none List.not_mem_nil
  · cases named : Entries.get? (updateMapping (rule.attributes.get "update-limit"))
        (.text "name") with
    | none =>
        simp only [named] at run
        exact (report_eq_ok.1 run).elim
    | some name =>
        simp only [named] at run
        exact table_of_mem_derive rfl rfl run

theorem table_of_mem_finalFragments
    {depth : Nat} (run : finalFragments (expandTo (depth + 1)) rule before =
      (.ok fragments, after)) :
    ∀ line ∈ fragments, line.table = some "filter" := by
  obtain ⟨_, _, _, run⟩ := bind_eq_ok.1 run
  split at run
  · exact table_of_mem_derive rfl rfl run
  · obtain ⟨rfl, rfl⟩ := pure_eq_ok.1 run
    exact fun line none => absurd none List.not_mem_nil

/-- How a rule for related traffic is derived that is listed at an index. -/
def listedDerivation (rule : Rule) (index : Nat) : Derivation where
  label := "related " ++ toString index
  kind := .rule .related
  changes := [("service", rule.attributes.get "service")]

theorem table_of_mem_listedRelated
    {depth index : Nat} {items : List Value}
    (run : listedRelated (expandTo (depth + 1)) rule index items before =
      (.ok fragments, after)) :
    ∀ line ∈ fragments, line.table = some "filter" := by
  induction items generalizing index before fragments with
  | nil =>
      obtain ⟨rfl, rfl⟩ := pure_eq_ok.1 run
      exact fun line none => absurd none List.not_mem_nil
  | cons item rest inductionHypothesis =>
      obtain ⟨source, start, first, middle, others, isFirst, areOthers, rfl⟩ :
          ∃ source start first middle others,
            derive (expandTo (depth + 1)) rule source (listedDerivation rule index) start =
              (.ok first, middle) ∧
            listedRelated (expandTo (depth + 1)) rule (index + 1) rest middle =
              (.ok others, after) ∧
            fragments = first ++ others := by
        unfold listedRelated at run
        split at run <;>
          simp only [bind_eq_ok, pure_eq_ok] at run <;>
          obtain ⟨source, start, _, first, middle, isFirst, others, _, areOthers, rfl, rfl⟩ := run
        · exact ⟨source, start, first, middle, others, isFirst, areOthers, rfl⟩
        · exact ⟨source, start, first, middle, others, isFirst, areOthers, rfl⟩
      intro line member
      rcases List.mem_append.1 member with inFirst | inRest
      · exact table_of_mem_derive rfl rfl isFirst line inFirst
      · exact inductionHypothesis areOthers line inRest

theorem table_of_mem_relatedFragments
    {depth : Nat} (run : relatedFragments (expandTo (depth + 1)) rule before =
      (.ok fragments, after)) :
    ∀ line ∈ fragments, line.table = some "filter" := by
  cases unlisted : (rule.attributes.get "related").isNull with
  | true =>
      obtain ⟨forward, reply, _, isForward, isReply, rfl⟩ := relatedFragments_eq_ok unlisted run
      intro line member
      rcases List.mem_append.1 member with inForward | inReply
      · exact table_of_mem_derive rfl rfl isForward line inForward
      · exact table_of_mem_derive rfl rfl isReply line inReply
  | false =>
      simp only [relatedFragments, unlisted, Bool.false_eq_true, if_false] at run
      exact table_of_mem_listedRelated run

/-! ## Expansions -/

/-- Traffic that goes there is accepted, or it is the chain of the rule's limit. -/
def AcceptsOrLimits (rule : Rule) (after : Context) (rules : List Fragment) (family goal : String) :
    Prop :=
  (∃ name, rule.limitName? = .ok (some name) ∧
      after.chainNames.lookup (rule.serial, "limit") = some goal) ∨
    ∀ traffic depth,
      jumpVerdict (rules ++ after.auxiliary) traffic family (depth + 1) goal = some .accept

theorem Expands.acceptsOrLimits
    {update following matched finished : List Fragment} {finish : Context}
    {position family goal : String}
    (expands : rule.Expands before after update own following start finish)
    (isFinished : rule.IsFinished position matched finished own finish goal)
    (isFilter : rule.kind = .filter) (accepts : rule.action = "accept")
    (isEnabled : family ∈ rule.families finish.settings) (reach : Reach matched family) :
    rule.AcceptsOrLimits after (update ++ own ++ following) family goal := by
  obtain ⟨isMatched, goesOn, spread⟩ := isFinished
  have grows : Grows finish after := expands.brought.grows
  have target : rule.target = .ok (some "ACCEPT") := target_of_accepting isFilter accepts
  cases goesOn with
  | limit limited known _ _ => exact Or.inl ⟨_, limited, grows.nameOf _ _ known⟩
  | route _ _ read route =>
      obtain rfl := Option.some.inj (Except.ok.inj (target.symm.trans read))
      rw [accepts] at route
      have stands := expands.standsAmong
      have inFilter : rule.kind.table = "filter" := by
        rw [isFilter]
        rfl
      rw [spread, inFilter] at stands
      rw [spread, inFilter]
      exact Or.inr (stands.accepts isMatched (route.grows grows) isEnabled reach)
  | jump read _ =>
      obtain rfl := Option.some.inj (Except.ok.inj (target.symm.trans read))
      exact Or.inr fun traffic depth => jumpVerdict_of_targetVerdict? rfl _

theorem newPortTokens_ne_nil (reverse : Bool) (port : Value) : newPortTokens reverse port ≠ [] := by
  unfold newPortTokens ServiceDefinition.portTokens
  split
  · exact List.cons_ne_nil _ _
  · simpa [Ports.chunks] using Ports.chunksFrom_ne_nil [] 0 _

/-- The rule redirects with a protocol, and other rules accept what it redirects: for each token of
the new port one does. -/
structure IsAccepted (rule : Rule) (after : Context) (rules : List Fragment) (address : String)
    (port : Value) (line : Fragment) : Prop where
  target : line.target = some ("DNAT --to-destination " ++ (address ++ ":" ++ port.written))
  accepted : ∃ protocol ∈ translatedProtocols, "-p " ++ protocol ∈ line.tokens ∧
    newPortTokens false port ≠ [] ∧ ∀ token ∈ newPortTokens false port,
      ∃ other ∈ rules, other.family = some "inet" ∧ other.table = some "filter" ∧
        (∃ hook ∈ hookNames, other.chain = some hook) ∧ "-d " ++ address ∈ other.tokens ∧
        "-p " ++ protocol ∈ other.tokens ∧ token ∈ other.tokens ∧
        ∃ goal, other.target = some goal ∧ rule.AcceptsOrLimits after rules "inet" goal

theorem Expands.isAccepted
    {update following redirected : List Fragment} {finish last : Context}
    (expands : rule.Expands before after update own following start finish)
    (isFilter : rule.kind = .filter) (accepts : rule.action = "accept")
    (forward : rule.reverse = false) (changesTo : rule.ChangesTo start.hosts.directory address)
    (isPort : rule.dnatField "port" = .ok port) (isGiven : port.isNull = false)
    (served : rule.services = some selectors) (grows : Grows finish middle)
    (redirects : IsRedirecting rule derived address port) (owns : derived.Owns middle redirected last)
    {line : Fragment} (member : line ∈ redirected) (ofFamily : line.family = some "inet") :
    rule.IsAccepted after (update ++ own ++ following) address port line := by
  have hosts : middle.hosts.directory = start.hosts.directory :=
    grows.directory.trans expands.grows_own.directory
  obtain ⟨parts, finished, goal, isFinished, stands⟩ := exists_standsByChoices
    (target_of_accepting isFilter accepts) expands.sound_start expands.ruleSound_start rfl
    expands.own
  obtain ⟨others, _, target, isRedirected, standsToo⟩ :=
    exists_standsByChoices redirects.target owns.sound owns.ruleSound hosts owns.run
  have notLogging : derived.kind.logs = false := by
    rw [redirects.kind]
    rfl
  have isTarget := (isRedirected.goesOn.of_plain notLogging).1
  rw [redirects.target] at isTarget
  obtain rfl := Option.some.inj (Except.ok.inj isTarget)
  -- The line stands where its zone stands.
  obtain ⟨chain, isHook, inChain⟩ : ∃ chain ∈ hookNames, line.chain = some chain := by
    obtain ⟨placed, isPlaced, inherits⟩ := isRedirected.exists_zone notLogging member
    obtain ⟨zone, _, hook, chain, stands, mapped, rfl⟩ :=
      redirects.exists_zone isFilter forward parts others isPlaced
    exact ⟨chain, mem_hookNames_of_chainOf? mapped, inherits chain (chain_seenFrom stands chain)⟩
  obtain ⟨other, family, isEnabled, fits, rfl⟩ := (standsToo chain isHook line inChain).1 member
  obtain rfl : family = "inet" := Option.some.inj ofFamily
  obtain ⟨protocol, isProtocol, named, accepted⟩ := redirects.exists_choice parts
    isFilter forward changesTo isPort isGiven served other fits
  have enabled : "inet" ∈ rule.families finish.settings := by
    have sameSettings : last.settings = finish.settings :=
      (grows_ownFragments.of_eq owns.run : Grows middle last).settings.trans grows.settings
    have inDerived : "inet" ∈ last.settings.families := by
      unfold families at isEnabled
      rw [redirects.kind] at isEnabled
      exact (List.mem_filter.1 isEnabled).1
    rw [sameSettings] at inDerived
    rw [families, isFilter]
    exact inDerived
  refine ⟨rfl, protocol, isProtocol, named, newPortTokens_ne_nil _ _, fun token isToken => ?_⟩
  obtain ⟨choice, hook, atHook, choiceFits, inAddress, inProtocol, inPort⟩ := accepted token isToken
  have isOwn : choice.placed hook "inet" goal ∈ own :=
    (stands hook atHook _ rfl).2 ⟨choice, "inet", enabled, choiceFits, rfl⟩
  have reach : Reach (combine parts.lists) "inet" := choice.reach_of_fitsAt choiceFits
  refine ⟨_, List.mem_append_left _ (List.mem_append_right _ isOwn), rfl, ?_, ⟨hook, atHook, rfl⟩,
    inAddress, inProtocol, inPort, goal, rfl,
    expands.acceptsOrLimits isFinished isFilter accepts enabled reach⟩
  change some rule.kind.table = _
  rw [isFilter]
  rfl

/-- Where services are named, a rule for a new address and a new port redirects IPv4 traffic of a
protocol with ports only, and accepts all that it redirects.  Without services it redirects all IPv4
traffic and accepts none. -/
theorem accepted_of_isExpanded
    (rule : Rule) (before after : Context) (rules : List Fragment) (address : String) (port : Value)
    (selectors : List ServiceSelector) (expanded : IsExpanded .filter rule before rules after)
    (accepts : rule.action = "accept") (changesTo : rule.ChangesTo before.hosts.directory address)
    (isPort : rule.dnatField "port" = .ok port) (isGiven : port.isNull = false)
    (served : rule.services = some selectors)
    (unleft : (rule.attributes.get "out").isNull = true) (forward : rule.reverse = false)
    (known : before.sectionKind? "dnat" = some (.rule .dnat)) :
    ∀ line ∈ rules, line.family = some "inet" → line.table = some "nat" →
      rule.IsAccepted after rules address port line := by
  obtain ⟨update, own, redirected, final, related, start, finish, expands, followed, rfl⟩ :=
    expanded.exists_translated accepts changesTo known
  obtain ⟨again, redirectsAt, derived, middle, last, isAgain, reached, toRedirect, isDerived,
    owns⟩ := followed.redirects
  obtain ⟨_, _, _, _, finals⟩ := followed.finals
  obtain ⟨_, _, _, _, relates⟩ := followed.relates
  obtain rfl : port = again := Except.ok.inj (isPort.symm.trans isAgain)
  have redirects : IsRedirecting rule derived address port :=
    isRedirecting_of_isDerived isDerived (expanded.isOpened rfl) reached.knows unleft isGiven
  intro line member ofFamily inNat
  have notFilter {fragments : List Fragment}
      (inFilter : ∀ line ∈ fragments, line.table = some "filter") : line ∉ fragments := by
    intro isOther
    rw [inFilter line isOther] at inNat
    exact absurd inNat (by decide)
  have isRedirected : line ∈ redirected := by
    have notUpdate := notFilter (table_of_mem_updateFragments expands.updates)
    have notFinal := notFilter (table_of_mem_finalFragments finals)
    have notRelated := notFilter (table_of_mem_relatedFragments relates)
    have notOwn : line ∉ own := by
      apply notFilter
      intro other isOther
      rw [table_of_mem_ownFragments expands.own isOther, expanded.kind_eq]
      rfl
    simpa [notUpdate, notFinal, notRelated, notOwn] using member
  have sameHosts : start.hosts.directory = before.hosts.directory := expands.update.grows.directory
  have grows : Grows finish middle := toRedirect.trans isDerived.notes.grows
  rw [← sameHosts] at changesTo
  exact expands.isAccepted expanded.kind_eq accepts forward changesTo isPort isGiven served grows
    redirects owns isRedirected ofFamily

/-- What is redirected for the service is accepted at the new address and port. -/
theorem accepted_of_translatingSource :
    ∃ rule rules after port selectors,
      IsExpanded .filter rule (declaredContext translatingSource) rules after ∧
      rule.action = "accept" ∧
      rule.ChangesTo (declaredContext translatingSource).hosts.directory "10.0.0.5" ∧
      rule.dnatField "port" = .ok port ∧ port.isNull = false ∧ port.written = "8080" ∧
      rule.services = some selectors ∧ (rule.attributes.get "out").isNull = true ∧
      rule.reverse = false ∧
      (declaredContext translatingSource).sectionKind? "dnat" = some (.rule .dnat) ∧
      ∃ line ∈ rules, line.family = some "inet" ∧ line.table = some "nat" ∧
        line.chain = some "PREROUTING" ∧ line.tokens = ["-p tcp", "--dport 80"] ∧
        rule.IsAccepted after rules "10.0.0.5" port line := by
  obtain ⟨rule, declares, accepts, changes, unleft, forward, services, resolved, port, isPort,
      isGiven, text, rules, runs, line, member, ofFamily, inTable, inChain, tokens⟩ :
      ∃ rule ∈ (filterDeclaration translatingSource).1.toOption, rule.action = "accept" ∧
        rule.attributes.flag "dnat" = true ∧ (rule.attributes.get "out").isNull = true ∧
        rule.reverse = false ∧ rule.services.isSome = true ∧
        "10.0.0.5" ∈ (rule.dnatAddress (declaredContext translatingSource)).1.toOption ∧
        ∃ port ∈ (rule.dnatField "port").toOption, port.isNull = false ∧ port.written = "8080" ∧
        ∃ rules ∈ (rule.fragments (declaredContext translatingSource)).1.toOption,
        ∃ line ∈ rules, line.family = some "inet" ∧ line.table = some "nat" ∧
          line.chain = some "PREROUTING" ∧ line.tokens = ["-p tcp", "--dport 80"] := by
    decide +kernel
  obtain ⟨selectors, served⟩ := Option.isSome_iff_exists.1 services
  have known := sectionKind_of_declaredContext declares
  have isInet : IsInet "10.0.0.5" := by decide +kernel
  have written : ∀ entries, declaration? translatingSource = some entries →
      (recordOf entries).IsWritten := by
    rintro entries ⟨⟩
    exact isWritten_recordOf (by decide)
  have expanded := isExpanded_of_filterDeclaration written declares runs
  have changesTo := changesTo_of_declaredContext changes isInet resolved
  have stated := eq_ok_of_mem_toOption isPort
  have isAccepted := accepted_of_isExpanded rule _ _ rules "10.0.0.5" port selectors expanded accepts
    changesTo stated isGiven served unleft forward known line member ofFamily inTable
  exact ⟨rule, rules, _, port, selectors, expanded, accepts, changesTo, stated, isGiven, text, served,
    unleft, forward, known, line, member, ofFamily, inTable, inChain, tokens, isAccepted⟩

/-- What declares a rule for a new port without services. -/
def unservedSource : Entry :=
  .raw (.map [
    (.text "dnat", .map [(.text "addr", .text "10.0.0.5"), (.text "port", .int 8080)])])

/-- The rule that redirects before routing whatever the protocol. -/
def unservedLine : Fragment where
  family := some "inet"
  table := some "nat"
  chain := some "PREROUTING"
  target := some "DNAT --to-destination 10.0.0.5:8080"
  position := some "append"

/-- Without services all traffic is redirected, whatever its protocol, and none is accepted. -/
theorem not_accepted_of_unservedSource :
    ∃ rule rules after port,
      IsExpanded .filter rule (declaredContext unservedSource) rules after ∧
      rule.action = "accept" ∧
      rule.ChangesTo (declaredContext unservedSource).hosts.directory "10.0.0.5" ∧
      rule.dnatField "port" = .ok port ∧ port.isNull = false ∧
      (rule.attributes.get "out").isNull = true ∧ rule.reverse = false ∧
      (declaredContext unservedSource).sectionKind? "dnat" = some (.rule .dnat) ∧
      (∀ line ∈ rules, ¬ (line.family = some "inet" ∧ line.table = some "filter")) ∧
      unservedLine ∈ rules ∧ ¬ rule.IsAccepted after rules "10.0.0.5" port unservedLine := by
  obtain ⟨rule, declares, accepts, changes, unleft, forward, resolved, port, isPort, isGiven,
      rules, runs, unaccepted, member⟩ :
      ∃ rule ∈ (filterDeclaration unservedSource).1.toOption, rule.action = "accept" ∧
        rule.attributes.flag "dnat" = true ∧ (rule.attributes.get "out").isNull = true ∧
        rule.reverse = false ∧
        "10.0.0.5" ∈ (rule.dnatAddress (declaredContext unservedSource)).1.toOption ∧
        ∃ port ∈ (rule.dnatField "port").toOption, port.isNull = false ∧
        ∃ rules ∈ (rule.fragments (declaredContext unservedSource)).1.toOption,
        (∀ line ∈ rules, ¬ (line.family = some "inet" ∧ line.table = some "filter")) ∧
        unservedLine ∈ rules := by
    decide +kernel
  have known := sectionKind_of_declaredContext declares
  have isInet : IsInet "10.0.0.5" := by decide +kernel
  have written : ∀ entries, declaration? unservedSource = some entries →
      (recordOf entries).IsWritten := by
    rintro entries ⟨⟩
    exact isWritten_recordOf (by decide)
  have expanded := isExpanded_of_filterDeclaration written declares runs
  have changesTo := changesTo_of_declaredContext changes isInet resolved
  have stated := eq_ok_of_mem_toOption isPort
  refine ⟨rule, rules, _, port, expanded, accepts, changesTo, stated, isGiven, unleft, forward, known,
    unaccepted, member, fun isAccepted => ?_⟩
  obtain ⟨_, _, named, _⟩ := isAccepted.accepted
  exact absurd named List.not_mem_nil

end Rule

end FirewallPolicy
