import FirewallPolicy.Proofs.Rule.Selection
import FirewallPolicy.Proofs.Run.Simulation

/-!
# The dimensions of a rule, by hosts

Every dimension of a rule depends on the context through the directory of hosts at most.  Where the
destination is changed, one address is matched after the change.  The services of a rule do not
depend on hosts either: a new port is matched by the definitions of one protocol each.
-/

namespace FirewallPolicy

open Fragment Run Stateful

variable {directory : Directory}

/-! ## Objects declared on the way -/

/-- The zone of a single address. -/
def Zone.ofAddress (location address : String) : Zone :=
  { location, attributes := [("addr", .text address)] }

theorem Zone.declare_address (location address : String) :
    Zone.declare location (.raw (.map [(.text "addr", .text address)])) =
      (pure (ofAddress location address) : Run Zone) := by
  with_unfolding_all rfl

theorem Zone.fragments_ofAddress (location address : String) (direction : Direction) :
    (Zone.ofAddress location address).fragments direction =
      hostFragments location direction.addressOption [.text address] := by
  have noInterfaces : (Zone.ofAddress location address).interfaces = [] := by
    with_unfolding_all rfl
  have shown : (Zone.ofAddress location address).addressFragments direction =
      hostFragments location direction.addressOption [.text address] >>= fun found =>
        pure (some found) := by
    with_unfolding_all rfl
  have single (found : List Fragment) : assemble none (some found) = found := by
    simp [assemble, combine, combineLists]
  rw [fragments, fragmentsOn, noInterfaces, shown]
  simp [interfaceFragments, single]

/-- The definition of a protocol with a port. -/
def Service.portDefinition (location protocol : String) (port : Value) : ServiceDefinition :=
  { location, protocol := Text.lower protocol
    attributes := [("proto", .text (Text.lower protocol)), ("port", port)] }

theorem Service.declare_port (location protocol : String) (port : Value) (before : Context) :
    Service.declare location
        (.raw (.map [(.text "proto", .text protocol), (.text "port", port)])) before =
      (.ok { serial := before.nextSerial, location,
             definitions := [portDefinition location protocol port] },
        { before with nextSerial := before.nextSerial + 1 }) := by
  with_unfolding_all rfl

theorem Service.fragments_single
    (serial : Nat) (location : String) (definition : ServiceDefinition) (reverse : Bool) :
    Service.fragments { serial, location, definitions := [definition] } reverse =
      definition.fragments reverse := by
  unfold Service.fragments
  simp only [List.mapM_cons, List.mapM_nil]
  cases definition.fragments reverse with
  | error failure => rfl
  | ok found =>
      have same : [found].flatten = found := by simp
      exact congrArg Except.ok same

namespace Rule

variable {rule : Rule}

/-! ## Addresses -/

theorem determined_addressFragments {name : String} {direction : Direction} :
    Determined (rule.addressFragments name direction) := by
  unfold addressFragments
  split
  · exact (determined_hostFragments _ _ _).bind fun _ => determined_pure _
  · exact determined_pure _

/-- The host that the destination is changed to. -/
def dnatHost? (rule : Rule) : Option String :=
  (rule.attributes.get "dnat").entries?.bind fun entries =>
    (Entries.get? entries (.text "addr")).map Value.written

theorem dnatAddress_eq (rule : Rule) :
    rule.dnatAddress =
      match rule.dnatHost? with
      | none => Run.unusable
      | some host =>
        if host.toList.contains '/' then Run.report rule.location .dnatToNetwork
        else Run.resolveHost rule.location host >>= fun addresses =>
          Run.recording (onlyInet rule.location host addresses) := by
  unfold dnatAddress dnatHost?
  cases (rule.attributes.get "dnat").entries? with
  | none => rfl
  | some entries =>
      simp only [Option.bind_some, pure_bind]
      cases Entries.get? entries (.text "addr") with
      | none => rfl
      | some address =>
          simp only [Option.map_some]
          split
          · rfl
          · rfl

theorem determined_dnatAddress : Determined rule.dnatAddress := by
  rw [dnatAddress_eq]
  split
  · exact determined_unusable
  · split
    · exact determined_report _ _
    · exact (determined_resolveHost _ _).bind fun _ => determined_recording _

theorem onlyInet_eq_ok {location host address : String} {addresses : List FamilyAddress} :
    onlyInet location host addresses = .ok address ↔
      addresses.filter (·.family == "inet") = [⟨"inet", address⟩] := by
  unfold onlyInet
  split
  · next none => simp [none]
  · next entry single =>
      have isInet : entry.family = "inet" := by
        have member : entry ∈ addresses.filter (·.family == "inet") := by simp [single]
        simpa using (List.mem_filter.1 member).2
      rw [single]
      constructor
      · intro same
        obtain rfl := Except.ok.inj same
        rw [← isInet]
      · intro same
        obtain rfl := List.singleton_inj.1 same
        rfl
  · next several notSingle =>
      constructor
      · intro same
        cases same
      · intro same
        exact absurd same (notSingle _)

/-- The new destination is the only IPv4 address that its host stands for. -/
theorem outcome_dnatAddress_eq_ok {address : String} :
    outcome directory rule.dnatAddress = .ok address ↔
      ∃ host, rule.dnatHost? = some host ∧ '/' ∉ host.toList ∧ ∃ addresses,
        Resolves directory host addresses ∧
          addresses.filter (·.family == "inet") = [⟨"inet", address⟩] := by
  rw [dnatAddress_eq]
  cases isHost : rule.dnatHost? with
  | none =>
      constructor
      · intro given
        cases given
      · rintro ⟨_, ⟨⟩, _⟩
  | some host =>
      by_cases isNetwork : '/' ∈ host.toList
      · simp only [List.contains_eq_mem, isNetwork, decide_true, if_true, Option.some.injEq,
          exists_eq_left', not_true_eq_false, false_and, iff_false]
        intro given
        cases given
      · simp [isNetwork, (determined_resolveHost _ _).outcome_bind fun _ => determined_recording _,
          except_bind_eq_ok, outcome_resolveHost_eq_ok, onlyInet_eq_ok]

/-- Is the destination of the traffic changed? -/
def changesDestination (rule : Rule) : Bool :=
  rule.kind.redirects && rule.attributes.flag "dnat"

theorem destinationFragments_of_plain (plain : rule.changesDestination = false) :
    rule.destinationFragments = rule.addressFragments "dest" .outward := by
  have unchanged : (rule.kind.redirects && rule.attributes.flag "dnat") = false := plain
  simp [destinationFragments, unchanged]

/-- Where the destination is changed, IPv6 traffic to the listed destinations is matched, and IPv4
traffic to the new one. -/
theorem destinationFragments_of_dnat (changes : rule.changesDestination = true) :
    rule.destinationFragments =
      rule.addressFragments "dest" .outward >>= fun given =>
        rule.dnatAddress >>= fun address =>
          hostFragments (rule.location ++ " dnat") (rule.side .outward).addressOption
              [.text address] >>= fun shown =>
            pure (some (combine [given, some [.ofFamily "inet6"]] ++ shown)) := by
  have changed : (rule.kind.redirects && rule.attributes.flag "dnat") = true := changes
  simp [destinationFragments, changed, Zone.declare_address, Zone.fragments_ofAddress]

theorem determined_destinationFragments : Determined rule.destinationFragments := by
  cases changes : rule.changesDestination with
  | false =>
      rw [destinationFragments_of_plain changes]
      exact determined_addressFragments
  | true =>
      rw [destinationFragments_of_dnat changes]
      exact determined_addressFragments.bind fun _ => determined_dnatAddress.bind fun _ =>
        (determined_hostFragments _ _ _).bind fun _ => determined_pure _

/-! ## Services -/

/-- Matches for the new port with one protocol. -/
def portMatches (rule : Rule) (port : Value) (protocol : String) :
    Except Failure (List Fragment) := do
  let found ← (Service.portDefinition (rule.location ++ " dnat") protocol port).fragments
    rule.reverse
  return combine [some found, some [.ofFamily "inet"]]

/-- Declaring the service of a new port takes a number, which its matches do not depend on. -/
theorem computes_declare_port (rule : Rule) (port : Value) (protocol : String) :
    Computes (Service.declare (rule.location ++ " dnat")
        (.raw (.map [(.text "proto", .text protocol), (.text "port", port)])) >>= fun service =>
      Run.recording (service.fragments rule.reverse) >>= fun found =>
        pure (combine [some found, some [.ofFamily "inet"]]))
      (rule.portMatches port protocol) := by
  intro before
  rw [bind_apply, Service.declare_port]
  simp only [Service.fragments_single]
  exact (computes_recording _).bind (fun _ => computes_pure _)
    { before with nextSerial := before.nextSerial + 1 }

/-- Matches for services where the destination may be changed. -/
def dnatServiceMatches (rule : Rule) : Except Failure (Option (List Fragment)) := do
  let given ← rule.namedServiceFragments
  if rule.attributes.flag "dnat" then
    let port ← rule.dnatField "port"
    if port.isNull then return given
    else
      let protocols ← dnatProtocols rule.location (rule.services.getD [])
      let shown ← protocols.eraseDups.mapM (rule.portMatches port)
      return some (combine [given, some [.ofFamily "inet6"]] ++ shown.flatten)
  else return given

theorem dnatServiceMatches_of_plain (plain : rule.attributes.flag "dnat" = false) :
    rule.dnatServiceMatches = rule.namedServiceFragments := by
  unfold dnatServiceMatches
  rw [plain]
  cases rule.namedServiceFragments <;> rfl

theorem computes_dnatServiceFragments :
    Computes rule.dnatServiceFragments rule.dnatServiceMatches := by
  have same : rule.dnatServiceFragments =
      Run.recording rule.namedServiceFragments >>= fun given =>
        if rule.attributes.flag "dnat" then
          Run.recording (rule.dnatField "port") >>= fun port =>
            if port.isNull then pure given
            else
              Run.recording (dnatProtocols rule.location (rule.services.getD [])) >>=
                fun protocols => rule.dnatPortFragments port protocols.eraseDups >>= fun shown =>
                  pure (some (combine [given, some [.ofFamily "inet6"]] ++ shown))
        else pure given := by
    unfold dnatServiceFragments
    cases rule.attributes.flag "dnat" <;> rfl
  rw [same]
  refine (computes_recording _).bind fun given => ?_
  split
  · refine (computes_recording _).bind fun port => ?_
    split
    · exact computes_pure _
    · refine (computes_recording _).bind fun protocols => ?_
      have gathered : Computes (rule.dnatPortFragments port protocols.eraseDups)
          (protocols.eraseDups.mapM (rule.portMatches port) >>= fun parts =>
            .ok parts.flatten) :=
        computes_gather fun protocol => computes_declare_port rule port protocol
      have shown := gathered.bind fun found =>
        computes_pure (some (combine [given, some [.ofFamily "inet6"]] ++ found))
      cases isMatch : protocols.eraseDups.mapM (rule.portMatches port) with
      | error failure =>
          rw [isMatch] at shown
          exact shown
      | ok parts =>
          rw [isMatch] at shown
          exact shown
  · exact computes_pure _

/-- Matches for the services of a rule. -/
def serviceMatches (rule : Rule) : Except Failure (Option (List Fragment)) := do
  match rule.kind with
  | .policy => return none
  | .related => return some (← helperFragments (← rule.definitions))
  | .limitUpdate =>
    let given ← rule.dnatServiceMatches
    if (rule.attributes.get "measure").isText "conn" then
      return some (combine [given, some [.matching ["-m conntrack --ctstate NEW"]]])
    else return given
  | .redirecting | .logging | .filter => rule.dnatServiceMatches
  | _ => rule.namedServiceFragments

/-- The services of a rule match the same in all contexts. -/
theorem computes_serviceFragments : Computes rule.serviceFragments rule.serviceMatches := by
  unfold serviceFragments serviceMatches
  cases rule.kind with
  | policy => exact computes_pure none
  | related => exact computes_recording _
  | limitUpdate =>
      refine computes_dnatServiceFragments.bind fun given => ?_
      split
      · exact computes_pure _
      · exact computes_pure given
  | redirecting => exact computes_dnatServiceFragments
  | logging => exact computes_dnatServiceFragments
  | filter => exact computes_dnatServiceFragments
  | plain => exact computes_recording _
  | dnat => exact computes_recording _
  | snat => exact computes_recording _
  | noTrack => exact computes_recording _

end Rule

end FirewallPolicy
