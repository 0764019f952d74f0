import FirewallPolicy.Proofs.Rule.Dimensions
import FirewallPolicy.Proofs.Rule.ReplyZones
import FirewallPolicy.Proofs.Service.Ports

/-!
# Rules for replies

A rule for the reply direction is one with the same attributes but for the direction.  The fragments
that it matches by its zones, its addresses and its services are the mirror images of those of the
rule, and they are there exactly when those are.
-/

namespace FirewallPolicy

open Fragment Run Stateful

variable {directory : Directory}

/-! ## Services -/

namespace ServiceDefinition

variable {definition : ServiceDefinition}

theorem map_mirrorToken_portTokens (reverse : Bool) (ports : List String) :
    (portTokens reverse ports).map mirrorToken = portTokens (!reverse) ports := by
  have single : (if reverse then "--sport" else "--dport",
      if !reverse then "--sport" else "--dport") ∈ mirroredOptions := by
    cases reverse <;> decide
  have multiple : (if reverse then "-m multiport --sports" else "-m multiport --dports",
      if !reverse then "-m multiport --sports" else "-m multiport --dports") ∈ mirroredOptions := by
    cases reverse <;> decide
  by_cases one : ports.length = 1
  · obtain ⟨port, rfl⟩ := List.length_eq_one_iff.1 one
    rw [portTokens_single, portTokens_single, List.map_singleton, mirrorToken_option single]
  · rw [portTokens_several reverse one, portTokens_several (!reverse) one, List.map_map]
    exact List.map_congr_left fun chunk _ => mirrorToken_option multiple _

theorem mirrorToken_protocol (protocol : String) :
    mirrorToken ("-p " ++ protocol) = "-p " ++ protocol := by
  have distinct : ∀ pair ∈ mirroredOptions, areDistinct pair.1 "-p" = true := by decide
  exact mirrorToken_of_distinct distinct protocol

theorem mirrors_controlFragment
    {control : ControlProtocol} (isControl : controlProtocol? definition.protocol = some control) :
    Mirrors (definition.controlFragment control) (definition.controlFragment control) := by
  have distinct : ∀ pair ∈ mirroredOptions, areDistinct pair.1 control.typeOption = true := by
    rcases eq_or_eq_of_controlProtocol? isControl with rfl | rfl <;> decide
  refine mirrors_matching ?_ _
  split
  · simp [mirrorToken_protocol, mirrorToken_of_distinct distinct]
  · simp [mirrorToken_protocol]

/-- In the reply direction a definition matches the ports on the other side. -/
theorem mirrored_fragments (definition : ServiceDefinition) (reverse : Bool) :
    Follows (Corresponds Mirrors) (definition.fragments reverse)
      (definition.fragments !reverse) := by
  unfold fragments
  split
  · next control isControl =>
      exact Follows.ok (Corresponds.singleton (mirrors_controlFragment isControl))
  · split
    · refine Follows.ok (Corresponds.singleton (mirrors_matching ?_ _))
      rw [List.map_singleton, mirrorToken_protocol]
    · split
      · exact Follows.error
      · refine Follows.ok ?_
        rw [← map_mirrorToken_portTokens reverse, List.map_map]
        have same (tokens : List String) : Corresponds Eq tokens tokens :=
          Corresponds.of_self fun _ _ => rfl
        refine (same _).map ?_
        rintro token _ rfl
        refine mirrors_matching ?_ _
        rw [List.map_cons, List.map_singleton, mirrorToken_protocol]

end ServiceDefinition

theorem mirrors_helperFragment (definition : ServiceDefinition) (helper : Value) :
    Mirrors (Rule.helperFragment definition helper) (Rule.helperFragment definition helper) := by
  have distinct : ∀ pair ∈ mirroredOptions,
      areDistinct pair.1 "-m conntrack --ctstate RELATED -m helper --helper" = true := by
    decide
  have fixed := mirrorToken_of_distinct distinct helper.written
  refine mirrors_matching ?_ _
  rw [List.map_singleton]
  exact congrArg (fun token => [token]) fixed

theorem mirrors_newConnection :
    Mirrors (matching ["-m conntrack --ctstate NEW"]) (matching ["-m conntrack --ctstate NEW"]) := by
  have fixed : ["-m conntrack --ctstate NEW"].map mirrorToken = ["-m conntrack --ctstate NEW"] := by
    decide
  exact mirrors_matching fixed none

/-- Both lists are restricted by what matches both directions alike. -/
theorem mirrored_restricted
    {one two : Option (List Fragment)} {fragment : Fragment} (same : Mirrors fragment fragment)
    (mirrors : Corresponds Mirrors (orAny one) (orAny two)) :
    Corresponds Mirrors (combine [one, some [fragment]]) (combine [two, some [fragment]]) := by
  refine corresponds_combine respectsMerge_mirrors mirrors_empty ⟨[fragment], by simp⟩
    ⟨[fragment], by simp⟩ ?_
  exact .cons mirrors (.cons (Corresponds.singleton same) .nil)

/-! ## Rules -/

namespace Rule

/-- The second rule is the first one for the other direction. -/
structure IsReply (rule reply : Rule) : Prop where
  kind : reply.kind = rule.kind
  location : reply.location = rule.location
  zonesIn : reply.zonesIn = rule.zonesIn
  zonesOut : reply.zonesOut = rule.zonesOut
  services : reply.services = rule.services
  attributes : ∀ name, name ≠ "reverse" → reply.attributes.get name = rule.attributes.get name
  reverse : reply.reverse = !rule.reverse

variable {rule reply : Rule}

theorem IsReply.symm (isReply : IsReply rule reply) : IsReply reply rule :=
  ⟨isReply.kind.symm, isReply.location.symm, isReply.zonesIn.symm, isReply.zonesOut.symm,
    isReply.services.symm, fun name other => (isReply.attributes name other).symm,
    by rw [isReply.reverse, Bool.not_not]⟩

theorem isReply_of_set
    {value : Value} (other : value.isTruthy = !rule.reverse) :
    IsReply rule { rule with attributes := rule.attributes.set "reverse" value } := by
  refine ⟨rfl, rfl, rfl, rfl, rfl, fun name isOther => ?_, ?_⟩
  · exact Record.get_set_of_ne isOther _ _
  · rw [← other, Rule.reverse, Record.flag, Record.get_set_self]

theorem IsReply.side (isReply : IsReply rule reply) (direction : Direction) :
    reply.side direction = (rule.side direction).opposite := by
  unfold Rule.side
  rw [isReply.reverse]
  cases rule.reverse <;> cases direction <;> rfl

/-! ### Zones -/

/-- The listed sides know one zone by each name. -/
def AgreesOnZones (rule : Rule) : Prop :=
  ∀ entering ∈ sides rule.zonesIn, ∀ leaving ∈ sides rule.zonesOut, AgreeOnZones entering leaving

theorem IsReply.mem_sidePairs
    (isReply : IsReply rule reply) (entering leaving : Option ZoneSelector) :
    (leaving, entering) ∈ reply.sidePairs ↔ (entering, leaving) ∈ rule.sidePairs := by
  unfold sidePairs
  rw [isReply.reverse, isReply.zonesIn, isReply.zonesOut]
  cases rule.reverse <;> simp [and_comm]

theorem AgreesOnZones.of_mem_sidePairs
    (agrees : rule.AgreesOnZones) {entering leaving : Option ZoneSelector}
    (isPair : (entering, leaving) ∈ rule.sidePairs) : AgreeOnZones entering leaving := by
  unfold sidePairs at isPair
  cases isReverse : rule.reverse
  · have both : entering ∈ sides rule.zonesIn ∧ leaving ∈ sides rule.zonesOut := by
      simpa [isReverse] using isPair
    exact agrees entering both.1 leaving both.2
  · have both : entering ∈ sides rule.zonesOut ∧ leaving ∈ sides rule.zonesIn := by
      simpa [isReverse] using isPair
    exact (agrees leaving both.2 entering both.1).symm

theorem mirrored_zoneFragments
    (isReply : IsReply rule reply) (isFilter : rule.kind.table = "filter")
    (agrees : rule.AgreesOnZones) :
    Simulates directory (Corresponds Mirrors) rule.zoneFragments reply.zoneFragments := by
  have gathered : Simulates directory (Corresponds Mirrors)
      (gather (fun pair => pairFragments rule.kind pair.1 pair.2) rule.sidePairs)
      (gather (fun pair => pairFragments reply.kind pair.1 pair.2) reply.sidePairs) := by
    rw [isReply.kind]
    refine simulates_gather (fun _ => determined_pairFragments)
      (fun _ => determined_pairFragments) ⟨?_, ?_⟩
    · rintro ⟨entering, leaving⟩ isPair
      exact ⟨(leaving, entering), (isReply.mem_sidePairs _ _).2 isPair,
        mirrored_pairFragments isFilter (agrees.of_mem_sidePairs isPair)⟩
    · rintro ⟨leaving, entering⟩ isPair
      have isOrigin := (isReply.mem_sidePairs entering leaving).1 isPair
      exact ⟨(entering, leaving), isOrigin,
        mirrored_pairFragments isFilter (agrees.of_mem_sidePairs isOrigin)⟩
  refine Simulates.bind (determined_gather fun _ _ => determined_pairFragments)
    (fun _ => determined_pure _) (determined_gather fun _ _ => determined_pairFragments)
    (fun _ => determined_pure _) gathered fun _ _ mirrors => simulates_pure ?_
  exact mirrors.of_mem_iff (fun _ => List.mem_eraseDups) fun _ => List.mem_eraseDups

/-! ### Addresses -/

theorem mirrored_ruleAddresses
    (isReply : IsReply rule reply) {name : String} (other : name ≠ "reverse")
    (direction : Direction) :
    Simulates directory (fun one two => Corresponds Mirrors (orAny one) (orAny two))
      (rule.addressFragments name direction) (reply.addressFragments name direction) := by
  unfold addressFragments
  rw [Record.has, Record.has, isReply.attributes name other, isReply.location, isReply.side]
  split
  · exact Simulates.bind (determined_hostFragments _ _ _) (fun _ => determined_pure _)
      (determined_hostFragments _ _ _) (fun _ => determined_pure _)
      (mirrored_hostFragments _ _ _) fun _ _ related => simulates_pure related
  · exact simulates_pure (Corresponds.singleton mirrors_empty)

theorem IsReply.dnatAddress (isReply : IsReply rule reply) :
    reply.dnatAddress = rule.dnatAddress := by
  have sameHost : reply.dnatHost? = rule.dnatHost? := by
    unfold dnatHost?
    rw [isReply.attributes "dnat" (by decide)]
  rw [dnatAddress_eq, dnatAddress_eq, sameHost, isReply.location]

theorem IsReply.changesDestination (isReply : IsReply rule reply) :
    reply.changesDestination = rule.changesDestination := by
  unfold Rule.changesDestination Record.flag
  rw [isReply.kind, isReply.attributes "dnat" (by decide)]

theorem mirrored_destinationFragments (isReply : IsReply rule reply) :
    Simulates directory (fun one two => Corresponds Mirrors (orAny one) (orAny two))
      rule.destinationFragments reply.destinationFragments := by
  have given : Simulates directory (fun one two => Corresponds Mirrors (orAny one) (orAny two))
      (rule.addressFragments "dest" .outward) (reply.addressFragments "dest" .outward) :=
    mirrored_ruleAddresses isReply (by decide) .outward
  cases changes : rule.changesDestination with
  | false =>
      rw [destinationFragments_of_plain changes,
        destinationFragments_of_plain (isReply.changesDestination.trans changes)]
      exact given
  | true =>
      rw [destinationFragments_of_dnat changes,
        destinationFragments_of_dnat (isReply.changesDestination.trans changes),
        isReply.dnatAddress, isReply.location, isReply.side]
      refine Simulates.bind determined_addressFragments
        (fun _ => determined_dnatAddress.bind fun _ =>
          (determined_hostFragments _ _ _).bind fun _ => determined_pure _)
        determined_addressFragments
        (fun _ => determined_dnatAddress.bind fun _ =>
          (determined_hostFragments _ _ _).bind fun _ => determined_pure _) given
        fun one two related => ?_
      refine Simulates.bind determined_dnatAddress
        (fun _ => (determined_hostFragments _ _ _).bind fun _ => determined_pure _)
        determined_dnatAddress
        (fun _ => (determined_hostFragments _ _ _).bind fun _ => determined_pure _)
        (Follows.of_self (fun _ _ => rfl) : Simulates directory Eq _ _) ?_
      rintro address _ rfl
      refine Simulates.bind (determined_hostFragments _ _ _) (fun _ => determined_pure _)
        (determined_hostFragments _ _ _) (fun _ => determined_pure _)
        (mirrored_hostFragments _ _ _) fun shown others shownMirrored => simulates_pure ?_
      exact (mirrored_restricted (mirrors_ofFamily "inet6") related).append shownMirrored

/-! ### Services -/

theorem mirrored_namedServiceFragments (isReply : IsReply rule reply) :
    Follows (fun one two => Corresponds Mirrors (orAny one) (orAny two))
      rule.namedServiceFragments reply.namedServiceFragments := by
  unfold namedServiceFragments
  rw [isReply.services, isReply.reverse]
  split
  · exact Follows.ok (Corresponds.singleton mirrors_empty)
  · next selectors _ =>
      have each (selector : ServiceSelector) : Follows (Corresponds Mirrors)
          (selectorFragments rule.reverse selector) (selectorFragments (!rule.reverse) selector) := by
        cases selector with
        | service service =>
            refine (Follows.mapM fun definition _ =>
              definition.mirrored_fragments rule.reverse).bind fun _ _ related => Follows.ok ?_
            exact Corresponds.flatten related
        | definition definition => exact definition.mirrored_fragments rule.reverse
        | other => exact Follows.error
      refine (Follows.mapM fun selector _ => each selector).bind fun _ _ related => Follows.ok ?_
      exact Corresponds.flatten related

theorem mirrored_portMatches (isReply : IsReply rule reply) (port : Value) (protocol : String) :
    Follows (Corresponds Mirrors) (rule.portMatches port protocol)
      (reply.portMatches port protocol) := by
  unfold portMatches
  rw [isReply.location, isReply.reverse]
  refine (ServiceDefinition.mirrored_fragments _ _).bind fun one two related => Follows.ok ?_
  have found : Corresponds Mirrors (orAny (some one)) (orAny (some two)) := related
  exact mirrored_restricted (mirrors_ofFamily "inet") found

theorem mirrored_dnatServiceMatches (isReply : IsReply rule reply) :
    Follows (fun one two => Corresponds Mirrors (orAny one) (orAny two))
      rule.dnatServiceMatches reply.dnatServiceMatches := by
  have sameField : reply.dnatField "port" = rule.dnatField "port" := by
    unfold dnatField
    rw [isReply.attributes "dnat" (by decide)]
  unfold dnatServiceMatches
  rw [Record.flag, Record.flag, isReply.attributes "dnat" (by decide), sameField,
    isReply.location, isReply.services]
  refine (mirrored_namedServiceFragments isReply).bind fun one two related => ?_
  split
  · refine (Follows.of_self fun _ _ => rfl : Follows Eq _ _).bind ?_
    rintro port _ rfl
    split
    · exact Follows.ok related
    · refine (Follows.of_self fun _ _ => rfl : Follows Eq _ _).bind ?_
      rintro protocols _ rfl
      refine (Follows.mapM fun protocol _ => mirrored_portMatches isReply port protocol).bind
        fun _ _ shown => Follows.ok ?_
      exact (mirrored_restricted (mirrors_ofFamily "inet6") related).append
        (Corresponds.flatten shown)
  · exact Follows.ok related

theorem mirrored_helperFragments (definitions : List ServiceDefinition) :
    Follows (Corresponds Mirrors) (helperFragments definitions) (helperFragments definitions) := by
  refine Follows.of_self fun found read => Corresponds.of_self fun fragment member => ?_
  obtain ⟨definition, helper, rfl⟩ := exists_helper_of_mem_helperFragments read fragment member
  exact mirrors_helperFragment definition helper

theorem mirrored_serviceFragments (isReply : IsReply rule reply) :
    Simulates directory (fun one two => Corresponds Mirrors (orAny one) (orAny two))
      rule.serviceFragments reply.serviceFragments := by
  unfold Simulates
  rw [computes_serviceFragments.outcome_eq, computes_serviceFragments.outcome_eq]
  unfold serviceMatches
  rw [isReply.kind]
  have named := mirrored_namedServiceFragments isReply
  have shown := mirrored_dnatServiceMatches isReply
  have sameDefinitions : reply.definitions = rule.definitions := by
    unfold definitions
    rw [isReply.services]
  split
  · exact Follows.ok (Corresponds.singleton mirrors_empty)
  · rw [sameDefinitions]
    refine (Follows.of_self fun _ _ => rfl : Follows Eq _ _).bind ?_
    rintro found _ rfl
    exact (mirrored_helperFragments found).bind fun _ _ related => Follows.ok related
  · refine shown.bind fun one two related => ?_
    rw [isReply.attributes "measure" (by decide)]
    split
    · exact Follows.ok (mirrored_restricted mirrors_newConnection related)
    · exact Follows.ok related
  · exact shown
  · exact shown
  · exact shown
  · exact named

/-! ### All that is matched -/

/-- What a rule matches by its zones, its addresses and its services. -/
def selectors (rule : Rule) : Run (List Fragment) := do
  let zones ← rule.zoneFragments
  let sources ← rule.sourceFragments
  let destinations ← rule.destinationFragments
  let services ← rule.serviceFragments
  return combine [some zones, sources, destinations, services]

theorem determined_selectors : Determined rule.selectors :=
  determined_zoneFragments.bind fun _ => determined_addressFragments.bind fun _ =>
    determined_destinationFragments.bind fun _ => computes_serviceFragments.determined.bind fun _ =>
      determined_pure _

theorem mirrored_selectors
    (isReply : IsReply rule reply) (isFilter : rule.kind.table = "filter")
    (agrees : rule.AgreesOnZones) :
    Simulates directory (Corresponds Mirrors) rule.selectors reply.selectors := by
  have serving : ∀ rule : Rule, Determined rule.serviceFragments := fun _ =>
    computes_serviceFragments.determined
  refine Simulates.bind determined_zoneFragments
    (fun _ => determined_addressFragments.bind fun _ => determined_destinationFragments.bind
      fun _ => (serving rule).bind fun _ => determined_pure _)
    determined_zoneFragments
    (fun _ => determined_addressFragments.bind fun _ => determined_destinationFragments.bind
      fun _ => (serving reply).bind fun _ => determined_pure _)
    (mirrored_zoneFragments isReply isFilter agrees) fun zones otherZones zonesMirrored => ?_
  refine Simulates.bind determined_addressFragments
    (fun _ => determined_destinationFragments.bind fun _ => (serving rule).bind fun _ =>
      determined_pure _)
    determined_addressFragments
    (fun _ => determined_destinationFragments.bind fun _ => (serving reply).bind fun _ =>
      determined_pure _)
    (mirrored_ruleAddresses isReply (by decide) .inward) fun _ _ sources => ?_
  refine Simulates.bind determined_destinationFragments
    (fun _ => (serving rule).bind fun _ => determined_pure _) determined_destinationFragments
    (fun _ => (serving reply).bind fun _ => determined_pure _)
    (mirrored_destinationFragments isReply) fun _ _ destinations => ?_
  refine Simulates.bind (serving rule) (fun _ => determined_pure _) (serving reply)
    (fun _ => determined_pure _) (mirrored_serviceFragments isReply) fun _ _ services =>
      simulates_pure ?_
  refine corresponds_combine respectsMerge_mirrors mirrors_empty ⟨zones, by simp⟩
    ⟨otherZones, by simp⟩ ?_
  exact .cons zonesMirrored (.cons sources (.cons destinations (.cons services .nil)))

theorem agreesOnZones_of_declare
    {kind : RuleKind} {location : String} {source : Entry} {start finish : Context}
    (declared : Rule.declare kind location source start = (.ok rule, finish)) :
    rule.AgreesOnZones := by
  intro entering isEntering leaving isLeaving
  -- A side that no attribute lists is unconstrained.
  have listed {zones : Option (List ZoneSelector)} {side : Option ZoneSelector}
      (member : side ∈ sides zones) : side = none ∨ Lists zones side := by
    rcases zones with _ | _ | ⟨first, rest⟩
    · exact Or.inl (List.mem_singleton.1 member)
    · exact Or.inl (List.mem_singleton.1 member)
    · obtain ⟨zone, isZone, rfl⟩ := List.mem_map.1 member
      exact Or.inr ⟨zone, isZone, rfl⟩
  rcases listed isEntering with rfl | entersBy
  · rintro name zone other same ⟨⟩
  · rcases listed isLeaving with rfl | leavesBy
    · rintro name zone other same _ ⟨⟩
    · exact agreeOnZones_of_declare declared entersBy leavesBy

theorem table_of_redirects {kind : RuleKind} (redirects : kind.redirects = true) :
    kind.table = "filter" := by
  cases kind <;> first | rfl | cases redirects

/-- A declared rule and one for its replies match mirror images, or fail both. -/
theorem selectors_of_isReply
    {kind : RuleKind} {location : String} {source : Entry} {start finish : Context}
    (declared : Rule.declare kind location source start = (.ok rule, finish))
    (redirects : kind.redirects = true) (isReply : IsReply rule reply)
    {before later : Context} (sameHosts : later.hosts.directory = before.hosts.directory) :
    ((∃ found after, rule.selectors before = (.ok found, after)) ↔
      ∃ found after, reply.selectors later = (.ok found, after)) ∧
    ∀ found mirrored after afterwards, rule.selectors before = (.ok found, after) →
      reply.selectors later = (.ok mirrored, afterwards) →
        Corresponds Mirrors found mirrored := by
  have agrees : rule.AgreesOnZones := agreesOnZones_of_declare declared
  have replyAgrees : reply.AgreesOnZones := by
    intro entering isEntering leaving isLeaving
    rw [isReply.zonesIn] at isEntering
    rw [isReply.zonesOut] at isLeaving
    exact agrees entering isEntering leaving isLeaving
  have isFilter : rule.kind.table = "filter" := by
    obtain ⟨attributes, middle, _, settles⟩ := bind_eq_ok.1 declared
    rw [(settledFrom_of_settle settles).kind]
    exact table_of_redirects redirects
  have replyFilter : reply.kind.table = "filter" := isReply.kind ▸ isFilter
  have forth : Simulates before.hosts.directory (Corresponds Mirrors) rule.selectors
      reply.selectors :=
    mirrored_selectors isReply isFilter agrees
  have back : Simulates later.hosts.directory (Corresponds Mirrors) reply.selectors
      rule.selectors :=
    mirrored_selectors isReply.symm replyFilter replyAgrees
  refine ⟨⟨?_, ?_⟩, ?_⟩
  · rintro ⟨found, after, run⟩
    obtain ⟨mirrored, isMirrored, -⟩ := forth found (determined_selectors.outcome_eq run)
    obtain ⟨afterwards, replyRun⟩ :=
      determined_selectors.exists_eq (sameHosts ▸ isMirrored)
    exact ⟨mirrored, afterwards, replyRun⟩
  · rintro ⟨mirrored, afterwards, run⟩
    obtain ⟨found, isFound, -⟩ := back mirrored (determined_selectors.outcome_eq run)
    obtain ⟨after, ruleRun⟩ := determined_selectors.exists_eq (sameHosts ▸ isFound)
    exact ⟨found, after, ruleRun⟩
  · intro found mirrored after afterwards run replyRun
    obtain ⟨other, isOther, mirrors⟩ := forth found (determined_selectors.outcome_eq run)
    have isMirrored := determined_selectors.outcome_eq replyRun
    rw [sameHosts, isOther] at isMirrored
    obtain rfl := Except.ok.inj isMirrored
    exact mirrors

/-- What declares a rule with all dimensions, whose destination and port are changed. -/
def forwardSource : Entry :=
  .raw (.map [(.text "in", .list [.text "_fw", .text "lan"]), (.text "out", .text "lan"),
    (.text "src", .text "10.0.0.1"), (.text "dest", .text "10.0.0.2"),
    (.text "service", .map [(.text "proto", .text "tcp"), (.text "port", .int 80)]),
    (.text "dnat", .map [(.text "addr", .text "10.0.0.3"), (.text "port", .int 8080)])])

/-- The declaration of the rule where the zone is known. -/
def forwardDeclaration : Except Failure Rule × Context :=
  Rule.declare .filter "filter 1" forwardSource lanContext

theorem selectors_of_forwardRule :
    ∃ rule reply, Rule.declare .filter "filter 1" forwardSource lanContext =
        (.ok rule, forwardDeclaration.2) ∧
      RuleKind.filter.redirects = true ∧ IsReply rule reply ∧
      ∃ found mirrored after afterwards,
        rule.selectors forwardDeclaration.2 = (.ok found, after) ∧
        reply.selectors forwardDeclaration.2 = (.ok mirrored, afterwards) ∧
        found.length = 4 ∧ Corresponds Mirrors found mirrored := by
  obtain ⟨rule, declares, forward, found, runs, length⟩ :
      ∃ rule ∈ forwardDeclaration.1.toOption, rule.reverse = false ∧
        ∃ found ∈ (rule.selectors forwardDeclaration.2).1.toOption, found.length = 4 := by
    decide +kernel
  have declared : Rule.declare .filter "filter 1" forwardSource lanContext =
      (.ok rule, forwardDeclaration.2) :=
    eq_of_mem_toOption declares
  have isReply :
      IsReply rule { rule with attributes := rule.attributes.set "reverse" (.bool true) } :=
    isReply_of_set (by rw [forward]; rfl)
  have sameHosts : forwardDeclaration.2.hosts.directory = forwardDeclaration.2.hosts.directory := rfl
  obtain ⟨succeeds, mirrors⟩ := selectors_of_isReply declared rfl isReply sameHosts
  have run := eq_of_mem_toOption runs
  obtain ⟨mirrored, afterwards, replyRun⟩ := succeeds.1 ⟨found, _, run⟩
  exact ⟨rule, _, declared, rfl, isReply, found, mirrored, _, afterwards, run, replyRun, length,
    mirrors found mirrored _ afterwards run replyRun⟩

end Rule

end FirewallPolicy
