import FirewallPolicy.Proofs.Rule.Final
import FirewallPolicy.Proofs.Rule.Selection
import FirewallPolicy.Proofs.Run.Simulation

/-!
# What derived rules take over

The zones that a rule selects do not depend on where it is declared, and the services that it
declares in place differ in their locations at most.  So a rule that is derived from another one
matches the same zones, addresses and services wherever it takes over the attributes for them.
-/

namespace FirewallPolicy

open Context Fragment Run Stateful

/-! ## Services by their definitions -/

/-- The definitions match the same; they may be declared at different locations. -/
structure ServiceDefinition.Alike (one two : ServiceDefinition) : Prop where
  protocol : one.protocol = two.protocol
  attributes : one.attributes = two.attributes

/-- The selected services have the same definitions, up to locations. -/
inductive ServiceSelector.Alike : ServiceSelector → ServiceSelector → Prop
  | service {one two : Service} :
      List.Forall₂ ServiceDefinition.Alike one.definitions two.definitions →
      Alike (.service one) (.service two)
  | definition {one two : ServiceDefinition} :
      one.Alike two → Alike (.definition one) (.definition two)
  | other : Alike .other .other

/-- The lists of services, if there are any, have the same definitions. -/
def ServicesAlike (one two : Option (List ServiceSelector)) : Prop :=
  Option.Rel (List.Forall₂ ServiceSelector.Alike) one two

namespace ServiceDefinition

variable {definition other : ServiceDefinition}

theorem Alike.refl (definition : ServiceDefinition) : definition.Alike definition :=
  ⟨rfl, rfl⟩

theorem Alike.family (alike : definition.Alike other) : definition.family = other.family := by
  unfold ServiceDefinition.family
  rw [alike.protocol, alike.attributes]

theorem settle_eq_ok
    {location : String} {attributes : Record}
    (run : settle location attributes = .ok definition) :
    definition.protocol = Text.lower (attributes.get "proto").written ∧
      definition.attributes =
        attributes.set "proto" (.text (Text.lower (attributes.get "proto").written)) := by
  unfold settle at run
  extract_lets protocol family settled checked at run
  split at run
  · cases run
  · unfold checked at run
    split at run
    · cases run
    · obtain rfl := Except.ok.inj run
      exact ⟨rfl, rfl⟩

/-- Declared twice, a definition is the same but for its location. -/
theorem alike_of_declare
    {location elsewhere : String} {source : Entry} {before after start finish : Context}
    (run : declare location source before = (.ok definition, after))
    (again : declare elsewhere source start = (.ok other, finish)) :
    definition.Alike other := by
  have opened {location : String} {definition : ServiceDefinition} {before after : Context}
      (run : declare location source before = (.ok definition, after)) :
      ∃ entries, declaration? source = some entries ∧
        settle location (recordOf entries) = .ok definition := by
    simp only [declare, bind_eq_ok, recording_eq_ok] at run
    obtain ⟨attributes, _, reads, settles, -⟩ := run
    obtain ⟨entries, isMap, rfl, -⟩ := attributesOf_eq_ok reads
    exact ⟨entries, isMap, settles⟩
  obtain ⟨entries, isMap, settles⟩ := opened run
  obtain ⟨_, sameMap, settlesAgain⟩ := opened again
  obtain rfl := Option.some.inj (isMap.symm.trans sameMap)
  obtain ⟨protocol, attributes⟩ := settle_eq_ok settles
  obtain ⟨otherProtocol, otherAttributes⟩ := settle_eq_ok settlesAgain
  exact ⟨protocol.trans otherProtocol.symm, attributes.trans otherAttributes.symm⟩

/-- Where both definitions can be matched, they match the same. -/
theorem Alike.fragments (alike : definition.Alike other) (reverse : Bool) :
    Follows Eq (definition.fragments reverse) (other.fragments reverse) := by
  have family := alike.family
  obtain ⟨protocol, attributes⟩ := alike
  unfold ServiceDefinition.fragments controlFragment
  rw [protocol, attributes, family]
  split
  · exact Follows.ok rfl
  · split
    · exact Follows.ok rfl
    · split
      · exact Follows.error
      · exact Follows.ok rfl

end ServiceDefinition

namespace Service

theorem alike_of_declareItems
    {location elsewhere : String} {items : List Entry}
    {definitions others : List ServiceDefinition} {before after start finish : Context}
    (run : declareItems location items before = (.ok definitions, after))
    (again : declareItems elsewhere items start = (.ok others, finish)) :
    List.Forall₂ ServiceDefinition.Alike definitions others := by
  induction items generalizing definitions others before start with
  | nil =>
      obtain ⟨rfl, rfl⟩ := pure_eq_ok.1 run
      obtain ⟨rfl, rfl⟩ := pure_eq_ok.1 again
      exact List.Forall₂.nil
  | cons item rest inductionHypothesis =>
      simp only [declareItems, bind_eq_ok, pure_eq_ok] at run again
      obtain ⟨first, _, declares, later, _, declaresLater, rfl, rfl⟩ := run
      obtain ⟨second, _, declaresAgain, last, _, declaresLast, rfl, rfl⟩ := again
      exact List.Forall₂.cons (ServiceDefinition.alike_of_declare declares declaresAgain)
        (inductionHypothesis declaresLater declaresLast)

/-- A service declares itself, and anything else declares its definitions. -/
theorem declare_eq_ok
    {location : String} {source : Entry} {service : Service} {before after : Context}
    (run : declare location source before = (.ok service, after)) :
    source = .object (.service service) ∨
      (∀ known, source ≠ .object (.service known)) ∧
        ∃ middle later, declareItems location (items source) middle =
          (.ok service.definitions, later) := by
  unfold declare at run
  split at run
  · obtain ⟨rfl, rfl⟩ := pure_eq_ok.1 run
    exact Or.inl rfl
  · next inPlace =>
      simp only [bind_eq_ok] at run
      obtain ⟨serial, middle, _, definitions, later, declares, run⟩ := run
      split at run
      · simp only [bind_eq_ok, report_eq_ok, false_and, exists_false] at run
      · obtain ⟨rfl, rfl⟩ := pure_eq_ok.1 run
        exact Or.inr ⟨fun known same => inPlace known same, middle, _, declares⟩

/-- Declared twice, a service has the same definitions but for their locations. -/
theorem alike_of_declare
    {location elsewhere : String} {source : Entry} {service other : Service}
    {before after start finish : Context}
    (run : declare location source before = (.ok service, after))
    (again : declare elsewhere source start = (.ok other, finish)) :
    List.Forall₂ ServiceDefinition.Alike service.definitions other.definitions := by
  rcases declare_eq_ok run with rfl | ⟨inPlace, _, _, declares⟩
  · rcases declare_eq_ok again with same | ⟨inPlace, _⟩
    · obtain ⟨⟩ := same
      exact List.forall₂_same.2 fun definition _ => ServiceDefinition.Alike.refl definition
    · exact absurd rfl (inPlace service)
  · rcases declare_eq_ok again with rfl | ⟨_, _, _, declaresAgain⟩
    · exact absurd rfl (inPlace other)
    · exact alike_of_declareItems declares declaresAgain

end Service

theorem Follows.eq_ok
    {α : Type} {result other : Except Failure α} {a : α}
    (follows : Follows Eq result other) (given : result = .ok a) : other = .ok a := by
  obtain ⟨b, isOther, rfl⟩ := follows a given
  exact isOther

theorem ServiceSelector.Alike.refl (selector : ServiceSelector) : selector.Alike selector := by
  cases selector with
  | service service =>
      exact .service (List.forall₂_same.2 fun definition _ => .refl definition)
  | definition definition => exact .definition (.refl definition)
  | other => exact .other

namespace Rule

/-! ## Selections -/

section Selections

variable {location elsewhere : String} {before after start finish : Context}

/-- Where a zone is selected matters for messages only. -/
theorem follows_selectZone (location elsewhere : String) (zones : SectionEntries) (name : Value) :
    Follows Eq (selectZone location zones name) (selectZone elsewhere zones name) := by
  unfold selectZone
  split
  · exact Follows.ok rfl
  · refine (Follows.of_self fun _ _ => rfl : Follows Eq _ _).bind ?_
    rintro found _ rfl
    split
    · exact Follows.error
    · exact Follows.error
    · exact Follows.ok rfl
    · exact Follows.of_self fun _ _ => rfl
    · exact Follows.ok rfl

theorem follows_selectZones (location elsewhere : String) (zones : SectionEntries) (names : Value) :
    Follows Eq (selectZones location zones names) (selectZones elsewhere zones names) := by
  unfold selectZones
  split
  · exact Follows.ok rfl
  · refine (Follows.mapM fun name _ => follows_selectZone location elsewhere zones name).bind ?_
    intro one two same
    rw [List.forall₂_eq_eq_eq] at same
    exact Follows.ok (congrArg some same)

/-- A service that is named is an entry of the policy. -/
theorem selectService_text_eq_ok
    {name : String} {selector : ServiceSelector}
    (run : selectService location (.text name) before = (.ok selector, after)) :
    ∃ entry, findEntry (before.entriesOf "service") (.text name) = .ok (some entry) ∧
      selector = serviceSelector entry := by
  simp only [selectService, bind_eq_ok, get_eq_ok, lift_eq_ok] at run
  obtain ⟨_, _, ⟨rfl, rfl⟩, found, _, ⟨finds, rfl⟩, run⟩ := run
  split at run
  · exact (report_eq_ok.1 run).elim
  · exact (report_eq_ok.1 run).elim
  · obtain ⟨rfl, -⟩ := pure_eq_ok.1 run
    exact ⟨_, finds, rfl⟩

/-- Anything else that stands for a service declares it in place. -/
theorem selectService_inPlace_eq_ok
    {item : Value} {selector : ServiceSelector} (notText : ∀ name, item ≠ .text name)
    (run : selectService location item before = (.ok selector, after)) :
    ∃ service, Service.declare (location ++ " service") (.raw item) before = (.ok service, after) ∧
      selector = .service service := by
  unfold selectService at run
  split at run
  · next name => exact absurd rfl (notText name)
  · obtain ⟨service, _, declares, made⟩ := bind_eq_ok.1 run
    obtain ⟨rfl, rfl⟩ := pure_eq_ok.1 made
    exact ⟨service, declares, rfl⟩

theorem alike_of_selectService
    {item : Value} {one two : ServiceSelector}
    (sameEntries : start.entriesOf "service" = before.entriesOf "service")
    (run : selectService location item before = (.ok one, after))
    (again : selectService elsewhere item start = (.ok two, finish)) : one.Alike two := by
  by_cases named : ∃ name, item = .text name
  · obtain ⟨name, rfl⟩ := named
    obtain ⟨entry, finds, rfl⟩ := selectService_text_eq_ok run
    obtain ⟨entryAgain, findsAgain, rfl⟩ := selectService_text_eq_ok again
    rw [sameEntries, finds] at findsAgain
    obtain rfl := Option.some.inj (Except.ok.inj findsAgain)
    exact .refl _
  · have notText (name : String) : item ≠ .text name := fun isText => named ⟨name, isText⟩
    obtain ⟨service, declares, rfl⟩ := selectService_inPlace_eq_ok notText run
    obtain ⟨other, declaresAgain, rfl⟩ := selectService_inPlace_eq_ok notText again
    exact .service (Service.alike_of_declare declares declaresAgain)

theorem alike_of_selectEach
    {items : List Value} {one two : List ServiceSelector}
    (sameEntries : start.entriesOf "service" = before.entriesOf "service")
    (run : selectEach location items before = (.ok one, after))
    (again : selectEach elsewhere items start = (.ok two, finish)) :
    List.Forall₂ ServiceSelector.Alike one two := by
  induction items generalizing one two before start with
  | nil =>
      obtain ⟨rfl, rfl⟩ := pure_eq_ok.1 run
      obtain ⟨rfl, rfl⟩ := pure_eq_ok.1 again
      exact List.Forall₂.nil
  | cons item rest inductionHypothesis =>
      simp only [selectEach, bind_eq_ok, pure_eq_ok] at run again
      obtain ⟨first, middle, selects, later, _, selectsLater, rfl, rfl⟩ := run
      obtain ⟨second, between, selectsAgain, last, _, selectsLast, rfl, rfl⟩ := again
      have notes : Notes before middle := notes_selectService.of_eq selects
      have notesAgain : Notes start between := notes_selectService.of_eq selectsAgain
      have entries : between.entriesOf "service" = middle.entriesOf "service" := by
        rw [notesAgain.entriesOf (by decide), notes.entriesOf (by decide), sameEntries]
      exact List.Forall₂.cons (alike_of_selectService sameEntries selects selectsAgain)
        (inductionHypothesis entries selectsLater selectsLast)

theorem alike_of_selectServices
    {items : Value} {one two : Option (List ServiceSelector)}
    (sameEntries : start.entriesOf "service" = before.entriesOf "service")
    (run : selectServices location items before = (.ok one, after))
    (again : selectServices elsewhere items start = (.ok two, finish)) :
    ServicesAlike one two := by
  unfold selectServices at run again
  split at run
  · next isNull =>
      rw [if_pos isNull] at again
      obtain ⟨rfl, rfl⟩ := pure_eq_ok.1 run
      obtain ⟨rfl, rfl⟩ := pure_eq_ok.1 again
      exact Option.Rel.none
  · next notNull =>
      rw [if_neg notNull] at again
      simp only [bind_eq_ok, pure_eq_ok] at run again
      obtain ⟨_, _, selects, rfl, rfl⟩ := run
      obtain ⟨_, _, selectsAgain, rfl, rfl⟩ := again
      exact Option.Rel.some (alike_of_selectEach sameEntries selects selectsAgain)

end Selections

/-! ## What a declared rule knows -/

/-- The rule has the zones and services that its attributes name among the entries. -/
structure Knows (rule : Rule) (context : Context) : Prop where
  zonesIn : selectZones rule.location (context.entriesOf "zone") (rule.attributes.get "in") =
    .ok rule.zonesIn
  zonesOut : selectZones rule.location (context.entriesOf "zone") (rule.attributes.get "out") =
    .ok rule.zonesOut
  services : ∃ before after, before.entriesOf "service" = context.entriesOf "service" ∧
    selectServices rule.location (rule.attributes.get "service") before =
      (.ok rule.services, after)

section Knowing

variable {rule derived : Rule} {kind : RuleKind} {location : String} {attributes : Record}
  {source : Entry} {before after context : Context}

theorem Knows.grows (knows : rule.Knows before) (grows : Grows before after) :
    rule.Knows after := by
  obtain ⟨start, finish, sameEntries, selects⟩ := knows.services
  refine ⟨?_, ?_, start, finish, ?_, selects⟩
  · rw [grows.entriesOf (by decide)]
    exact knows.zonesIn
  · rw [grows.entriesOf (by decide)]
    exact knows.zonesOut
  · rw [grows.entriesOf (by decide), sameEntries]

/-- Settling its limit changes nothing but attributes of a rule. -/
theorem eq_of_settleFilter
    {settled : Rule} (settles : settleFilter rule before = (.ok settled, after)) :
    settled = { rule with attributes := settled.attributes } := by
  rcases settleFilter_eq_ok settles with ⟨_, rfl, _⟩ | ⟨_, limits, _⟩
  · rfl
  · rcases settleLimit_eq_ok limits with ⟨_, rfl, _⟩ | ⟨_, _, _, _, rfl⟩ <;> rfl

/-- On the way to a declared rule, its zones and services are selected. -/
theorem selects_of_declare
    (declares : Rule.declare kind location source before = (.ok rule, after)) :
    ∃ start finish, Notes before start ∧
      selectZones rule.location (start.entriesOf "zone") (rule.attributes.get "in") =
        .ok rule.zonesIn ∧
      selectZones rule.location (start.entriesOf "zone") (rule.attributes.get "out") =
        .ok rule.zonesOut ∧
      selectServices rule.location (rule.attributes.get "service") start =
        (.ok rule.services, finish) ∧
      Notes finish after := by
  obtain ⟨attributes, first, reads, settles⟩ := bind_eq_ok.1 declares
  have settled := settledFrom_of_settle settles
  obtain ⟨acted, c₁, zonesIn, zonesOut, services, c₂, withSet, withDestination, c₃, logged, c₄,
    measured, c₅, serial, c₆, acts, readIn, readOut, selects, sets, directs, logs, measures,
    numbers, settles⟩ := settle_eq_ok settles
  have early : Notes before c₁ :=
    (notes_attributesOf.of_eq reads : Notes _ _).trans (notes_settleAction.of_eq acts)
  have late : Notes c₂ after :=
    ((((notes_settleDestination.of_eq directs : Notes _ _).trans
      (notes_settleLogging.of_eq logs)).trans (notes_settleMeasure.of_eq measures)).trans
      (notes_freshSerial.of_eq numbers)).trans (notes_settleFilter.of_eq settles)
  have same (name : String) (kept : name ∉ settledNames ++ limitNames) (other : name ≠ "action") :
      rule.attributes.get name = acted.get name := by
    rw [settled.keeps.get kept, (keeps_settleAction.of_eq acts).get (by simpa using other)]
  have shape := eq_of_settleFilter settles
  have isIn : rule.zonesIn = zonesIn := congrArg Rule.zonesIn shape
  have isOut : rule.zonesOut = zonesOut := congrArg Rule.zonesOut shape
  have areServices : rule.services = services := congrArg Rule.services shape
  refine ⟨c₁, c₂, early, ?_, ?_, ?_, late⟩
  · rw [settled.location, same "in" (by decide) (by decide), isIn]
    exact readIn
  · rw [settled.location, same "out" (by decide) (by decide), isOut]
    exact readOut
  · rw [settled.location, same "service" (by decide) (by decide), areServices]
    exact selects

theorem knows_of_declare
    (declares : Rule.declare kind location source before = (.ok rule, after)) :
    rule.Knows before := by
  obtain ⟨start, finish, notes, readIn, readOut, selects, -⟩ := selects_of_declare declares
  have sameZones : start.entriesOf "zone" = before.entriesOf "zone" := notes.entriesOf (by decide)
  rw [sameZones] at readIn readOut
  exact ⟨readIn, readOut, start, finish, notes.entriesOf (by decide), selects⟩

/-- What rules select by the same attributes is the same zones and alike services. -/
theorem Knows.selects_alike
    (knows : rule.Knows context) (others : derived.Knows context) :
    (derived.attributes.get "in" = rule.attributes.get "in" → derived.zonesIn = rule.zonesIn) ∧
      (derived.attributes.get "out" = rule.attributes.get "out" →
        derived.zonesOut = rule.zonesOut) ∧
      (derived.attributes.get "service" = rule.attributes.get "service" →
        ServicesAlike rule.services derived.services) := by
  refine ⟨fun same => ?_, fun same => ?_, fun same => ?_⟩
  · have selected := (follows_selectZones _ derived.location _ _).eq_ok knows.zonesIn
    rw [← same, others.zonesIn] at selected
    exact Except.ok.inj selected
  · have selected := (follows_selectZones _ derived.location _ _).eq_ok knows.zonesOut
    rw [← same, others.zonesOut] at selected
    exact Except.ok.inj selected
  · obtain ⟨start, finish, entries, selects⟩ := knows.services
    obtain ⟨startAgain, finishAgain, entriesAgain, selectsAgain⟩ := others.services
    rw [same] at selectsAgain
    exact alike_of_selectServices (entriesAgain.trans entries.symm) selects selectsAgain

/-- A rule that is declared by attributes without a text for its address set or destination keeps
them, but for those that its kind settles. -/
theorem keeps_of_declare
    (notText : ∀ name ∈ ["ipset", "dnat"], ∀ text, attributes.get name ≠ .text text)
    (declares : Rule.declare kind location (.raw (.map (Record.toEntries attributes))) before =
      (.ok rule, after)) :
    Record.Keeps (["action", "log", "measure", "addr"] ++ limitNames) attributes
      rule.attributes := by
  simp only [List.forall_mem_cons, List.not_mem_nil, false_implies, implies_true, and_true]
    at notText
  have settles := settle_of_declare rfl declares
  rw [recordOf_toEntries] at settles
  obtain ⟨acted, c₁, zonesIn, zonesOut, services, c₂, withSet, withDestination, c₃, logged, c₄,
    measured, c₅, serial, c₆, acts, _, _, selects, sets, directs, logs, measures, numbers,
    settles⟩ := settle_eq_ok settles
  have acting := keeps_settleAction.of_eq acts
  have notSet : ∀ text, acted.get "ipset" ≠ .text text := by
    rw [acting.get (by decide)]
    exact notText.1
  have notDnat : ∀ text, acted.get "dnat" ≠ .text text := by
    rw [acting.get (by decide)]
    exact notText.2
  obtain rfl := (maps_settleSet sets).eq_self notSet
  have same : withDestination = withSet := by
    unfold settleDestination at directs
    split at directs
    · exact (maps_settleDnat (recording_eq_ok.1 directs).1).eq_self notDnat
    · exact (pure_eq_ok.1 directs).1.symm
  subst same
  exact ((acting.mono (by decide)).trans ((keeps_settleLogging.of_eq logs).mono (by decide))).trans
    (((keeps_settleMeasure.of_eq measures).mono (by decide)).trans
      ((keeps_settleFilter settles).mono (by decide)))

end Knowing

end Rule

end FirewallPolicy
