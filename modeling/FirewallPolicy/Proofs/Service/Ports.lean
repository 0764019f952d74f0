import FirewallPolicy.Model.Service
import FirewallPolicy.Proofs.Context.LogClasses
import FirewallPolicy.Proofs.Fragment.Options
import FirewallPolicy.Proofs.Run.Contract
import Mathlib.Data.List.Induction

/-!
# The ports of a service

The ports that a definition states are spread over as many matches as they need.  The matches of a
definition with ports restrict its traffic to these ports, for every protocol that has ports and
every list of them that is not empty.
-/

namespace FirewallPolicy

open Stateful Run

/-! ## Spreading ports -/

namespace Ports

/-- The ports that a value states, as matches write them. -/
def ofValue (value : Value) : List String :=
  value.toItems.map text

/-- The slots that ports take in one match. -/
def slotsOf (ports : List String) : Nat :=
  ports.foldl (fun used port => used + weight port) 0

/-- The lists hold the ports in order, and each of them fills a match: it is not empty and takes no
more slots than there are. -/
structure IsSpread (ports : List String) (lists : List (List String)) : Prop where
  joined : lists.flatten = ports
  nonempty : ∀ list ∈ lists, list ≠ []
  fits : ∀ list ∈ lists, slotsOf list ≤ slots

theorem weight_le_slots (port : String) : weight port ≤ slots := by
  unfold weight
  split <;> decide

theorem slotsOf_singleton (port : String) : slotsOf [port] = weight port := by
  simp [slotsOf]

theorem slotsOf_concat (ports : List String) (port : String) :
    slotsOf (ports ++ [port]) = slotsOf ports + weight port := by
  simp [slotsOf]

theorem chunksFrom_ne_nil (current : List String) (used : Nat) (ports : List String) :
    chunksFrom current used ports ≠ [] := by
  fun_induction chunksFrom current used ports with
  | case1 current used => exact List.cons_ne_nil _ _
  | case2 current used port rest full inductionHypothesis => exact List.cons_ne_nil _ _
  | case3 current used port rest free inductionHypothesis => exact inductionHypothesis

theorem flatten_chunksFrom (current : List String) (used : Nat) (ports : List String) :
    (chunksFrom current used ports).flatten = current ++ ports := by
  fun_induction chunksFrom current used ports with
  | case1 current used => simp
  | case2 current used port rest full inductionHypothesis =>
      rw [List.flatten_cons, inductionHypothesis, List.singleton_append]
  | case3 current used port rest free inductionHypothesis =>
      rw [inductionHypothesis, List.append_assoc, List.singleton_append]

/-- The invariant is that the slots are counted and within their number, so that a port either finds
a slot or starts the next list. -/
theorem fits_of_mem_chunksFrom
    {current ports : List String} {used : Nat} (nonempty : current ≠ [])
    (counted : slotsOf current = used) (within : used ≤ slots) :
    ∀ list ∈ chunksFrom current used ports, list ≠ [] ∧ slotsOf list ≤ slots := by
  fun_induction chunksFrom current used ports with
  | case1 current used =>
      intro list member
      obtain rfl := List.mem_singleton.1 member
      exact ⟨nonempty, counted ▸ within⟩
  | case2 current used port rest full inductionHypothesis =>
      refine List.forall_mem_cons.2 ⟨⟨nonempty, counted ▸ within⟩, ?_⟩
      exact inductionHypothesis (List.cons_ne_nil _ _) (slotsOf_singleton port)
        (weight_le_slots port)
  | case3 current used port rest free inductionHypothesis =>
      apply inductionHypothesis
      · simp
      · rw [slotsOf_concat, counted]
      · exact Nat.le_of_not_lt free

theorem chunks_cons (port : String) (rest : List String) :
    chunks (port :: rest) = chunksFrom [port] (weight port) rest := by
  have free : ¬ slots < 0 + weight port := by
    have light := weight_le_slots port
    omega
  rw [chunks, chunksFrom, if_neg free, List.nil_append, Nat.zero_add]

theorem isSpread_chunks {ports : List String} (stated : ports ≠ []) :
    IsSpread ports (chunks ports) := by
  obtain ⟨port, rest, rfl⟩ := List.exists_cons_of_ne_nil stated
  have lists : ∀ list ∈ chunks (port :: rest), list ≠ [] ∧ slotsOf list ≤ slots := by
    rw [chunks_cons]
    exact fits_of_mem_chunksFrom (List.cons_ne_nil _ _) (slotsOf_singleton port)
      (weight_le_slots port)
  exact
    { joined := flatten_chunksFrom [] 0 (port :: rest)
      nonempty := fun list member => (lists list member).1
      fits := fun list member => (lists list member).2 }

theorem isSpread_singleton (port : String) : IsSpread [port] [[port]] where
  joined := rfl
  nonempty := by simp
  fits := by simpa [slotsOf_singleton] using weight_le_slots port

/-- No ports at all are not spread over any match. -/
theorem IsSpread.ne_nil
    {ports : List String} {lists : List (List String)} (spread : IsSpread ports lists)
    (given : lists ≠ []) : ports ≠ [] := by
  obtain ⟨first, rest, rfl⟩ := List.exists_cons_of_ne_nil given
  intro unstated
  have joined := spread.joined
  rw [unstated, List.flatten_cons, List.append_eq_nil_iff] at joined
  exact spread.nonempty first (List.mem_cons_self ..) joined.1

end Ports

namespace ServiceDefinition

variable {definition : ServiceDefinition} {reverse : Bool}

/-! ## Matching ports -/

theorem portTokens_single (reverse : Bool) (port : String) :
    portTokens reverse [port] = [(if reverse then "--sport" else "--dport") ++ " " ++ port] := by
  cases reverse <;> rfl

theorem portTokens_several (reverse : Bool) {ports : List String} (several : ports.length ≠ 1) :
    portTokens reverse ports = (Ports.chunks ports).map fun chunk =>
      (if reverse then "-m multiport --sports" else "-m multiport --dports") ++ " " ++
        ",".intercalate chunk := by
  unfold portTokens
  split
  · simp at several
  · cases reverse
    · simp [portSide]
    · simp [portSide]

/-- The token matches the ports of a list: a single port by itself, or all of them at once. -/
inductive MatchesList (reverse : Bool) : List String → String → Prop where
  | single (port : String) :
      MatchesList reverse [port] ((if reverse then "--sport" else "--dport") ++ " " ++ port)
  | several (ports : List String) :
      MatchesList reverse ports
        ((if reverse then "-m multiport --sports" else "-m multiport --dports") ++ " " ++
          ",".intercalate ports)

/-- A fragment that matches the protocol of the definition and what the token says. -/
def withToken (definition : ServiceDefinition) (token : String) : Fragment where
  family := definition.family
  tokens := ["-p " ++ definition.protocol, token]

/-- There are fragments, each of which matches the protocol and a list of ports, and the lists are
the given ports. -/
def MatchPorts (definition : ServiceDefinition) (reverse : Bool) (ports : List String)
    (fragments : List Fragment) : Prop :=
  fragments ≠ [] ∧ ∃ lists, Ports.IsSpread ports lists ∧
    List.Forall₂ (fun list fragment => ∃ token, MatchesList reverse list token ∧
      fragment = definition.withToken token) lists fragments

/-- The definition restricts traffic to the ports: it matches all of them, or is refused because its
protocol has no ports. -/
inductive RestrictsTo (definition : ServiceDefinition) (reverse : Bool) (ports : List String) :
    Prop where
  | refused :
      definition.protocol ∉ portProtocols →
      definition.fragments reverse =
        .error (.fault definition.location (.portNotAllowed definition.protocol)) →
      RestrictsTo definition reverse ports
  | matched {fragments : List Fragment} :
      definition.fragments reverse = .ok fragments →
      definition.MatchPorts reverse ports fragments →
      RestrictsTo definition reverse ports

theorem exists_spread_portTokens (reverse : Bool) {ports : List String} (stated : ports ≠ []) :
    ∃ lists, lists ≠ [] ∧ Ports.IsSpread ports lists ∧
      List.Forall₂ (MatchesList reverse) lists (portTokens reverse ports) := by
  by_cases one : ports.length = 1
  · obtain ⟨port, rfl⟩ := List.length_eq_one_iff.1 one
    rw [portTokens_single]
    exact ⟨[[port]], List.cons_ne_nil _ _, Ports.isSpread_singleton port,
      .cons (.single port) .nil⟩
  · rw [portTokens_several reverse one]
    refine ⟨Ports.chunks ports, Ports.chunksFrom_ne_nil [] 0 ports, Ports.isSpread_chunks stated,
      ?_⟩
    rw [List.forall₂_map_right_iff, List.forall₂_same]
    intro list _
    exact .several list

theorem matching_portToken
    {list : List String} {token : String} (matched : MatchesList reverse list token) :
    { Fragment.matching ["-p " ++ definition.protocol, token] with family := definition.family } =
      definition.withToken token := by
  have nonempty : token.isEmpty = false := by
    cases matched <;> exact isEmpty_option _ _
  simp [Fragment.matching, withToken, nonempty]

/-! ## What a definition gives -/

theorem fragments_of_portProtocol
    (uncontrolled : controlProtocol? definition.protocol = none)
    (stated : definition.attributes.has "port" = true)
    (hasPorts : definition.protocol ∈ portProtocols) :
    definition.fragments reverse =
      .ok ((portTokens reverse (Ports.ofValue (definition.attributes.get "port"))).map fun token =>
        { Fragment.matching ["-p " ++ definition.protocol, token] with
          family := definition.family }) := by
  simp [fragments, uncontrolled, stated, hasPorts, Ports.ofValue]

theorem fragments_of_portless
    (uncontrolled : controlProtocol? definition.protocol = none)
    (stated : definition.attributes.has "port" = true)
    (hasNone : definition.protocol ∉ portProtocols) :
    definition.fragments reverse =
      .error (.fault definition.location (.portNotAllowed definition.protocol)) := by
  simp [fragments, uncontrolled, stated, hasNone]

theorem fragments_of_control
    {control : ControlProtocol} (isControl : controlProtocol? definition.protocol = some control) :
    definition.fragments reverse = .ok [definition.controlFragment control] := by
  simp [fragments, isControl]

theorem matchPorts_of_portTokens {ports : List String} (stated : ports ≠ []) :
    definition.MatchPorts reverse ports ((portTokens reverse ports).map fun token =>
      { Fragment.matching ["-p " ++ definition.protocol, token] with
        family := definition.family }) := by
  obtain ⟨lists, given, spread, matched⟩ := exists_spread_portTokens reverse stated
  constructor
  · intro none
    rw [List.map_eq_nil_iff] at none
    rw [none, List.forall₂_nil_right_iff] at matched
    exact given matched
  · refine ⟨lists, spread, List.forall₂_map_right_iff.2 (matched.imp fun list token isToken => ?_)⟩
    exact ⟨token, isToken, matching_portToken isToken⟩

/-- The second token of the match of a control message protocol, if there is one, is no match of
ports. -/
theorem controlFragment_ne_withToken
    {control : ControlProtocol} (isControl : controlProtocol? definition.protocol = some control)
    {list : List String} {token : String} (matched : MatchesList reverse list token) :
    definition.controlFragment control ≠ definition.withToken token := by
  have distinct : ∀ option ∈ ["--sport", "--dport", "-m multiport --sports",
      "-m multiport --dports"], areDistinct control.typeOption option = true := by
    rcases eq_or_eq_of_controlProtocol? isControl with rfl | rfl <;> decide
  have isPort : HasOption ["--sport", "--dport", "-m multiport --sports", "-m multiport --dports"]
      token := by
    cases matched <;> cases reverse <;> exact hasOption_of_mem (by decide) _
  intro same
  have tokens := congrArg Fragment.tokens same
  unfold controlFragment withToken at tokens
  by_cases typed : definition.attributes.has "type" = true
  · have both : definition.protocol = control.name ∧
        token = control.typeOption ++ " " ++ (definition.attributes.get "type").written := by
      simpa [typed, Fragment.matching, isEmpty_option] using tokens.symm
    exact isPort.false_of_isOption (both.2 ▸ isOption_self _ _) distinct
  · simp [typed, Fragment.matching] at tokens

theorem restrictsTo_iff
    {ports : List String} (stated : definition.attributes.has "port" = true)
    (isPorts : Ports.ofValue (definition.attributes.get "port") = ports) :
    definition.RestrictsTo reverse ports ↔
      controlProtocol? definition.protocol = none ∧
        (definition.protocol ∈ portProtocols → ports ≠ []) := by
  subst isPorts
  constructor
  · intro restricts
    have uncontrolled : controlProtocol? definition.protocol = none := by
      by_contra controlled
      obtain ⟨control, isControl⟩ := Option.ne_none_iff_exists'.1 controlled
      have read : definition.fragments reverse = .ok [definition.controlFragment control] :=
        fragments_of_control isControl
      cases restricts with
      | refused _ refused =>
          rw [read] at refused
          cases refused
      | matched found matching =>
          rw [read] at found
          obtain rfl := Except.ok.inj found
          obtain ⟨-, lists, -, each⟩ := matching
          cases each with
          | cons isFirst _ =>
              obtain ⟨token, isToken, same⟩ := isFirst
              exact controlFragment_ne_withToken isControl isToken same
    refine ⟨uncontrolled, fun hasPorts => ?_⟩
    cases restricts with
    | refused hasNone _ => exact absurd hasPorts hasNone
    | matched _ matching =>
        obtain ⟨given, lists, spread, each⟩ := matching
        apply spread.ne_nil
        rintro rfl
        exact given (List.forall₂_nil_left_iff.1 each)
  · rintro ⟨uncontrolled, nonempty⟩
    by_cases hasPorts : definition.protocol ∈ portProtocols
    · exact .matched (fragments_of_portProtocol uncontrolled stated hasPorts)
        (matchPorts_of_portTokens (nonempty hasPorts))
    · exact .refused hasPorts (fragments_of_portless uncontrolled stated hasPorts)

/-! ## Declared definitions -/

variable {location : String} {source : Entry} {entries : Entries} {before after : Context}

theorem get_port_of_declare
    (declares : declare location source before = (.ok definition, after))
    (isMap : declaration? source = some entries) :
    definition.attributes.get "port" = (recordOf entries).get "port" := by
  obtain ⟨attributes, middle, reads, settles⟩ := bind_eq_ok.1 declares
  obtain ⟨stated, isStated, rfl, -⟩ := attributesOf_eq_ok reads
  obtain rfl := Option.some.inj (isMap.symm.trans isStated)
  have settled : Gives (fun definition => definition.attributes.get "port" =
      (recordOf entries).get "port") (settle location (recordOf entries)) := by
    unfold settle
    split
    · exact gives_throw_bind
    · dsimp only
      split
      · exact gives_throw_bind
      · exact gives_ok (Record.get_set_of_ne (by decide) _ _)
  exact settled definition (recording_eq_ok.1 settles).1

/-- A declared definition that states ports restricts traffic to them, in both directions, exactly
where it has no control message protocol and, if its protocol has ports, states at least one.  A
control message protocol is matched without the ports, and no ports at all are matched by an empty
list. -/
theorem restrictsTo_of_declare
    (declares : declare location source before = (.ok definition, after))
    (isMap : declaration? source = some entries)
    (stated : (recordOf entries).has "port" = true) (reverse : Bool) :
    definition.RestrictsTo reverse (Ports.ofValue ((recordOf entries).get "port")) ↔
      controlProtocol? definition.protocol = none ∧
        (definition.protocol ∈ portProtocols →
          Ports.ofValue ((recordOf entries).get "port") ≠ []) := by
  have same := get_port_of_declare declares isMap
  apply restrictsTo_iff
  · rwa [Record.has, same]
  · rw [same]

/-- What declares a definition of the protocol with the ports. -/
def portsSource (protocol : String) (ports : List Value) : Entry :=
  .raw (.map [(.text "proto", .text protocol), (.text "port", .list ports)])

/-- Fifteen ports and a range. -/
def manyPorts : List Value :=
  (List.range 15).map (fun n => .int (8000 + n : Nat)) ++ [.text "9000-9010"]

/-- Fifteen ports and a range are spread over two matches, and no port is lost. -/
theorem restrictsTo_manyPorts :
    ∃ definition after, declare "service web" (portsSource "tcp" manyPorts) {} =
        (.ok definition, after) ∧
      definition.RestrictsTo true ((List.range 15).map (fun n => toString (8000 + n)) ++
        ["9000:9010"]) ∧
      ∃ fragments ∈ (definition.fragments true).toOption, fragments.length = 2 := by
  obtain ⟨definition, declares, uncontrolled, fragments, read, length⟩ :
      ∃ definition ∈ (declare "service web" (portsSource "tcp" manyPorts) {}).1.toOption,
        controlProtocol? definition.protocol = none ∧
          ∃ fragments ∈ (definition.fragments true).toOption, fragments.length = 2 := by
    decide +kernel
  have ports : Ports.ofValue (.list manyPorts) =
      (List.range 15).map (fun n => toString (8000 + n)) ++ ["9000:9010"] := by
    decide +kernel
  have restricts := (restrictsTo_of_declare (eq_of_mem_toOption declares) rfl rfl true).2
    ⟨uncontrolled, fun _ => by decide⟩
  exact ⟨definition, _, eq_of_mem_toOption declares, ports ▸ restricts, fragments, read, length⟩

/-- Neither an echo message with a port nor an empty list of ports is matched as declared. -/
theorem exists_not_restrictsTo :
    (∃ definition after, declare "service ping" (portsSource "icmp" [.int 80]) {} =
        (.ok definition, after) ∧ ¬ definition.RestrictsTo false ["80"]) ∧
      ∃ definition after, declare "service web" (portsSource "tcp" []) {} =
        (.ok definition, after) ∧ ¬ definition.RestrictsTo false [] := by
  constructor
  · obtain ⟨definition, declares, stated, ports, controlled⟩ :
        ∃ definition ∈ (declare "service ping" (portsSource "icmp" [.int 80]) {}).1.toOption,
          definition.attributes.has "port" = true ∧
            Ports.ofValue (definition.attributes.get "port") = ["80"] ∧
              (controlProtocol? definition.protocol).isSome = true := by
      decide +kernel
    refine ⟨definition, _, eq_of_mem_toOption declares, fun restricts => ?_⟩
    obtain ⟨uncontrolled, -⟩ := (restrictsTo_iff stated ports).1 restricts
    rw [uncontrolled] at controlled
    cases controlled
  · obtain ⟨definition, declares, stated, ports, hasPorts⟩ :
        ∃ definition ∈ (declare "service web" (portsSource "tcp" []) {}).1.toOption,
          definition.attributes.has "port" = true ∧
            Ports.ofValue (definition.attributes.get "port") = [] ∧
              definition.protocol ∈ portProtocols := by
      decide +kernel
    refine ⟨definition, _, eq_of_mem_toOption declares, fun restricts => ?_⟩
    exact ((restrictsTo_iff stated ports).1 restricts).2 hasPorts rfl

end ServiceDefinition

/-! ## As few matches as ports need

Ports are put into matches one after the other, and a match is closed only when the next port does
not fit any more.  The ports may be cut in other places, but no cut into runs that fit has fewer of
them. -/

namespace Ports

/-- The slots of ports in one match: a range, whose ends are joined by a colon, takes two of them and
any other port one. -/
def taken : List String → Nat
  | [] => 0
  | port :: rest => (if ':' ∈ port.toList then 2 else 1) + taken rest

/-- The ports are cut, in order, into runs that each fit the fifteen slots of a match. -/
structure IsCut (ports : List String) (runs : List (List String)) : Prop where
  joined : runs.flatten = ports
  fits : ∀ run ∈ runs, taken run ≤ 15

/-- The runs are a cut without empty ones, and no cut has fewer of them. -/
structure IsLeastCut (ports : List String) (runs : List (List String)) : Prop where
  cut : IsCut ports runs
  nonempty : ∀ run ∈ runs, run ≠ []
  least : ∀ others, IsCut ports others → runs.length ≤ others.length

theorem taken_cons (port : String) (rest : List String) :
    taken (port :: rest) = weight port + taken rest := by
  simp [taken, weight]

theorem taken_append (ports others : List String) :
    taken (ports ++ others) = taken ports + taken others := by
  induction ports with
  | nil => exact (Nat.zero_add _).symm
  | cons port rest inductionHypothesis =>
      rw [List.cons_append, taken_cons, taken_cons, inductionHypothesis, Nat.add_assoc]

theorem taken_eq_slotsOf (ports : List String) : taken ports = slotsOf ports := by
  induction ports using List.reverseRecOn with
  | nil => rfl
  | append_singleton ports port inductionHypothesis =>
      rw [slotsOf_concat, ← inductionHypothesis, taken_append, taken_cons]
      rfl

/-- Some run of a cut holds the first port, and the runs behind it cut what follows the run. -/
theorem exists_run_of_cut
    {port : String} {ports : List String} {runs : List (List String)}
    (joined : runs.flatten = port :: ports) (fits : ∀ run ∈ runs, taken run ≤ 15) :
    ∃ (tail : List String) (late : List (List String)),
      weight port + taken tail ≤ 15 ∧ ports = tail ++ late.flatten ∧
        (∀ run ∈ late, taken run ≤ 15) ∧ late.length < runs.length := by
  obtain ⟨early, tail, late, rfl, -, isRest⟩ := List.flatten_eq_cons_iff.1 joined
  refine ⟨tail, late, ?_, isRest, fun run member => fits run (by simp [member]), ?_⟩
  · rw [← taken_cons]
    exact fits _ (by simp)
  · simp only [List.length_append, List.length_cons]
    omega

/-- Whoever puts the ports `first` into the match in progress, as long as they fit, and cuts the
others into `runs` needs as many matches. -/
theorem length_chunksFrom_le
    {current : List String} {used : Nat} {ports first : List String} {runs : List (List String)}
    (free : used + taken first ≤ 15) (fits : ∀ run ∈ runs, taken run ≤ 15)
    (joined : ports = first ++ runs.flatten) :
    (chunksFrom current used ports).length ≤ runs.length + 1 := by
  fun_induction chunksFrom current used ports generalizing first runs with
  | case1 current used => simp
  | case2 current used port rest full inductionHypothesis =>
      have none : first = [] := by
        cases first with
        | nil => rfl
        | cons next others =>
            obtain ⟨rfl, -⟩ := List.cons.inj joined
            rw [taken_cons] at free
            exact absurd full (by unfold slots; omega)
      subst none
      obtain ⟨tail, late, fitsTail, isRest, fitsLate, fewer⟩ := exists_run_of_cut joined.symm fits
      have others := inductionHypothesis fitsTail fitsLate isRest
      rw [List.length_cons]
      omega
  | case3 current used port rest some inductionHypothesis =>
      have fitsPort : used + weight port ≤ 15 := Nat.le_of_not_lt some
      cases first with
      | nil =>
          -- The port still fits, but the other cut begins a run with it.  What that run holds behind
          -- the port fits too, so the other cut is compared without the port.
          obtain ⟨tail, late, fitsTail, isRest, fitsLate, fewer⟩ :=
            exists_run_of_cut joined.symm fits
          have fitsRuns : ∀ run ∈ tail :: late, taken run ≤ 15 :=
            List.forall_mem_cons.2 ⟨by omega, fitsLate⟩
          have fitsNone : used + weight port + taken [] ≤ 15 := fitsPort
          have isNext : rest = [] ++ (tail :: late).flatten := isRest
          have others := inductionHypothesis fitsNone fitsRuns isNext
          rw [List.length_cons] at others
          omega
      | cons next others =>
          obtain ⟨rfl, isRest⟩ := List.cons.inj joined
          rw [taken_cons, ← Nat.add_assoc] at free
          exact inductionHypothesis free fits isRest

/-- Ports are spread over matches in order, without an empty match, and over as few of them as can
be. -/
theorem isLeastCut_chunks {ports : List String} (stated : ports ≠ []) :
    IsLeastCut ports (chunks ports) := by
  have spread := isSpread_chunks stated
  refine ⟨⟨spread.joined, fun run member => ?_⟩, spread.nonempty, fun others cut => ?_⟩
  · rw [taken_eq_slotsOf]
    exact spread.fits run member
  · obtain ⟨port, rest, rfl⟩ := List.exists_cons_of_ne_nil stated
    obtain ⟨tail, late, fitsTail, isRest, fitsLate, fewer⟩ := exists_run_of_cut cut.joined cut.fits
    rw [chunks_cons]
    exact Nat.le_trans (length_chunksFrom_le fitsTail fitsLate isRest) fewer

/-- Behind fourteen ports a range begins the next match. -/
theorem isLeastCut_fourteen :
    List.replicate 14 "80" ++ ["90:99", "80"] ≠ [] ∧
      chunks (List.replicate 14 "80" ++ ["90:99", "80"]) =
        [List.replicate 14 "80", ["90:99", "80"]] ∧
      IsLeastCut (List.replicate 14 "80" ++ ["90:99", "80"])
        [List.replicate 14 "80", ["90:99", "80"]] := by
  have lists : chunks (List.replicate 14 "80" ++ ["90:99", "80"]) =
      [List.replicate 14 "80", ["90:99", "80"]] := by
    decide +kernel
  exact ⟨by decide, lists, lists ▸ isLeastCut_chunks (by decide)⟩

end Ports

end FirewallPolicy
