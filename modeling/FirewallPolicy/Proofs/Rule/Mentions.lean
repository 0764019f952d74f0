import FirewallPolicy.Proofs.Rule.Derived
import FirewallPolicy.Proofs.Rule.Selected

/-!
# The services that a rule mentions

A rule mentions services by their names and may declare others in place.  A name stands for the
service that the policy has under it.  A service that is declared in place belongs to the rule alone:
its serial number is given out on the way to the rule.
-/

namespace FirewallPolicy

open Context Run Stateful

/-- The service stands under the name. -/
def SectionEntries.ListsService (services : SectionEntries) (name : String) (service : Service) :
    Prop :=
  services.get? (.text name) = some (.object (.service service))

/-- An item of a list of services, with the service that is selected by it. -/
structure Mention where
  item : Value
  service : Service

namespace Mention

/-- The name that the service is mentioned by; one that is declared in place has none. -/
def name? (mention : Mention) : Option String :=
  match mention.item with
  | .text name => some name
  | _ => none

/-- An item and what is selected by it, where this is a service. -/
def ofSelected : Value × ServiceSelector → Option Mention
  | (item, .service service) => some ⟨item, service⟩
  | _ => none

/-- The serial number of a service that is declared in place. -/
def serials (mention : Mention) : List Nat :=
  if mention.name?.isSome then [] else [mention.service.serial]

/-- A service that is named is the entry of the name, and any other one is what the item declares. -/
inductive StandsIn (services : SectionEntries) : Mention → Prop
  | named {name : String} {service : Service} :
      services.ListsService name service → StandsIn services ⟨.text name, service⟩
  | inPlace {location : String} {mention : Mention} {before after : Context} :
      mention.name? = none →
      Service.declare location (.raw mention.item) before = (.ok mention.service, after) →
      StandsIn services mention

variable {mention : Mention} {services others : SectionEntries} {name : String}

theorem name?_eq_some_iff : mention.name? = some name ↔ mention.item = .text name := by
  unfold name?
  split
  · next known isKnown => simp [isKnown]
  · next notText => exact iff_of_false (by simp) fun isText => notText name isText

theorem name?_eq_none_iff : mention.name? = none ↔ ∀ name, mention.item ≠ .text name := by
  simp only [Option.eq_none_iff_forall_ne_some, ne_eq, name?_eq_some_iff]

theorem mem_serials_iff {serial : Nat} :
    serial ∈ mention.serials ↔ mention.name? = none ∧ mention.service.serial = serial := by
  unfold serials
  cases mention.name? <;> simp [eq_comm]

theorem StandsIn.listsService
    (stands : mention.StandsIn services) (named : mention.name? = some name) :
    services.ListsService name mention.service := by
  cases stands with
  | @named known service found =>
      obtain rfl : known = name := Option.some.inj named
      exact found
  | inPlace unnamed => rw [unnamed] at named; cases named

/-- A mention stands wherever the entry of its name does. -/
theorem StandsIn.mono
    (stands : mention.StandsIn services)
    (kept : ∀ name service, services.ListsService name service →
      others.ListsService name service) :
    mention.StandsIn others := by
  cases stands with
  | named found => exact .named (kept _ _ found)
  | inPlace unnamed declares => exact .inPlace unnamed declares

end Mention

/-! ## Numbers given out -/

/-- The numbers differ from each other, and were given out between two contexts. -/
structure AreFresh (before after : Context) (serials : List Nat) : Prop where
  nodup : serials.Nodup
  fresh : ∀ serial ∈ serials, Rule.IsFresh before after serial

section Numbers

variable {first second third fourth before after : Context} {early late serials : List Nat}

theorem areFresh_nil : AreFresh before after [] :=
  ⟨List.nodup_nil, by simp⟩

theorem AreFresh.widen
    (fresh : AreFresh second third serials) (early : Notes first second)
    (late : Notes third fourth) :
    AreFresh first fourth serials :=
  ⟨fresh.nodup, fun serial member => (fresh.fresh serial member).widen early.grows late.grows⟩

/-- What is given out later is larger. -/
theorem AreFresh.append
    (earlier : AreFresh first second early) (later : AreFresh second third late)
    (starts : Notes first second) (goesOn : Notes second third) :
    AreFresh first third (early ++ late) where
  nodup := by
    refine List.Nodup.append earlier.nodup later.nodup fun serial isEarly isLate => ?_
    exact Nat.not_lt.2 (later.fresh serial isLate).1 (earlier.fresh serial isEarly).2
  fresh serial member := by
    rcases List.mem_append.1 member with isEarly | isLate
    · exact (earlier.fresh serial isEarly).widen (Grows.refl first) goesOn.grows
    · exact (later.fresh serial isLate).widen starts.grows (Grows.refl third)

/-- A service that is declared anew has a number of its own. -/
theorem Service.isFresh_of_declare
    {location : String} {source : Entry} {service : Service}
    (isNew : ∀ known, source ≠ .object (.service known))
    (declares : Service.declare location source before = (.ok service, after)) :
    Rule.IsFresh before after service.serial := by
  unfold Service.declare at declares
  split at declares
  · next known => exact absurd rfl (isNew known)
  · simp only [bind_eq_ok, freshSerial_eq_ok] at declares
    obtain ⟨serial, numbered, ⟨rfl, rfl⟩, definitions, declared, items, declares⟩ := declares
    have notes : Notes { before with nextSerial := before.nextSerial + 1 } declared :=
      notes_declareItems.of_eq items
    split at declares
    · simp only [bind_eq_ok, report_eq_ok, false_and, exists_false] at declares
    · obtain ⟨rfl, rfl⟩ := pure_eq_ok.1 declares
      exact ⟨Nat.le_refl _, notes.serial⟩

end Numbers

/-! ## Mentions of a rule -/

/-- The mentions among the items of a list of services. -/
def mentionsOf (items : List Value) (selectors : List ServiceSelector) : List Mention :=
  (items.zip selectors).filterMap Mention.ofSelected

theorem mentionsOf_cons
    (item : Value) (items : List Value) (selector : ServiceSelector)
    (selectors : List ServiceSelector) :
    mentionsOf (item :: items) (selector :: selectors) =
      (Mention.ofSelected (item, selector)).toList ++ mentionsOf items selectors := by
  unfold mentionsOf
  rw [List.zip_cons_cons, List.filterMap_cons]
  cases Mention.ofSelected (item, selector) <;> rfl

/-- Where each item selects a service, each of them is a mention. -/
theorem mentionsOf_map_service
    {items : List Value} {services : List Service} (length : services.length = items.length) :
    (mentionsOf items (services.map .service)).map Mention.item = items ∧
      (mentionsOf items (services.map .service)).map Mention.service = services := by
  induction items generalizing services with
  | nil =>
      obtain rfl := List.eq_nil_of_length_eq_zero length
      exact ⟨rfl, rfl⟩
  | cons item rest inductionHypothesis =>
      obtain ⟨service, others, rfl⟩ := List.exists_cons_of_length_eq_add_one length
      obtain ⟨areItems, areServices⟩ := inductionHypothesis (Nat.succ.inj length)
      rw [List.map_cons, mentionsOf_cons, List.map_append, List.map_append, areItems, areServices]
      exact ⟨rfl, rfl⟩

/-- What the items mention is there before, or is declared meanwhile. -/
structure AreMentioned (before after : Context) (items : List Value)
    (selectors : List ServiceSelector) : Prop where
  length : selectors.length = items.length
  stand : ∀ mention ∈ mentionsOf items selectors, mention.StandsIn (before.entriesOf "service")
  fresh : AreFresh before after ((mentionsOf items selectors).flatMap Mention.serials)

section Mentions

variable {location : String} {before after : Context}

theorem mention_of_selectService
    {item : Value} {selector : ServiceSelector} {mention : Mention}
    (selects : Rule.selectService location item before = (.ok selector, after))
    (isMention : Mention.ofSelected (item, selector) = some mention) :
    mention.StandsIn (before.entriesOf "service") ∧ AreFresh before after mention.serials := by
  by_cases named : ∃ name, item = .text name
  · obtain ⟨name, rfl⟩ := named
    obtain ⟨entry, finds, rfl⟩ := Rule.selectService_text_eq_ok selects
    obtain ⟨services, key, isMap, isKey, found⟩ := Rule.findEntry_eq_some finds
    obtain rfl := Value.scalar.inj isKey
    unfold Rule.serviceSelector at isMention
    split at isMention
    · next service =>
        obtain rfl := Option.some.inj isMention
        rw [isMap]
        exact ⟨.named found, areFresh_nil⟩
    · cases isMention
    · cases isMention
  · have notText (name : String) : item ≠ .text name := fun isText => named ⟨name, isText⟩
    obtain ⟨service, declares, rfl⟩ := Rule.selectService_inPlace_eq_ok notText selects
    obtain rfl := Option.some.inj isMention
    have unnamed : Mention.name? ⟨item, service⟩ = none := Mention.name?_eq_none_iff.2 notText
    have isFresh := Service.isFresh_of_declare (by simp) declares
    refine ⟨.inPlace unnamed declares, ?_⟩
    unfold Mention.serials
    rw [unnamed]
    exact ⟨List.nodup_singleton _, fun _ member => List.mem_singleton.1 member ▸ isFresh⟩

theorem areMentioned_of_selectEach
    {items : List Value} {selectors : List ServiceSelector}
    (selects : Rule.selectEach location items before = (.ok selectors, after)) :
    AreMentioned before after items selectors := by
  induction items generalizing selectors before with
  | nil =>
      obtain ⟨rfl, rfl⟩ := pure_eq_ok.1 selects
      exact ⟨rfl, by simp [mentionsOf], areFresh_nil⟩
  | cons item rest inductionHypothesis =>
      simp only [Rule.selectEach, bind_eq_ok, pure_eq_ok] at selects
      obtain ⟨selector, middle, first, others, finish, later, rfl, rfl⟩ := selects
      have notes : Notes before middle := Rule.notes_selectService.of_eq first
      have goesOn : Notes middle finish := Rule.notes_selectEach.of_eq later
      have mentioned := inductionHypothesis later
      have sameServices : middle.entriesOf "service" = before.entriesOf "service" :=
        notes.entriesOf (by decide)
      have each : ∀ mention ∈ (Mention.ofSelected (item, selector)).toList,
          mention.StandsIn (before.entriesOf "service") ∧
            AreFresh before middle mention.serials := fun mention member =>
        mention_of_selectService first (Option.mem_toList.1 member)
      refine ⟨by simp [mentioned.length], fun mention member => ?_, ?_⟩
      · rw [mentionsOf_cons] at member
        rcases List.mem_append.1 member with isFirst | isLater
        · exact (each mention isFirst).1
        · exact sameServices ▸ mentioned.stand mention isLater
      · rw [mentionsOf_cons, List.flatMap_append]
        refine AreFresh.append ?_ mentioned.fresh notes goesOn
        cases isMention : Mention.ofSelected (item, selector) with
        | none => exact areFresh_nil
        | some mention =>
            simpa using (each mention (Option.mem_toList.2 isMention)).2

namespace Rule

variable {rule : Rule}

/-- The items of the list of services that the rule states. -/
def serviceItems (rule : Rule) : List Value :=
  (rule.attributes.get "service").toItems

/-- What the rule selects as its services. -/
def selectedServices (rule : Rule) : List ServiceSelector :=
  rule.services.getD []

/-- The services that the rule mentions, in order. -/
def mentions (rule : Rule) : List Mention :=
  mentionsOf rule.serviceItems rule.selectedServices

/-- The rule selects something for each item of its list of services, and the services that it
mentions by their names are those of the policy. -/
structure MentionsIn (rule : Rule) (services : SectionEntries) : Prop where
  length : rule.selectedServices.length = rule.serviceItems.length
  stand : ∀ mention ∈ rule.mentions, mention.StandsIn services

/-- What a rule mentions is in the policy where the rule is declared, or is declared with it. -/
theorem areMentioned_of_declare
    {kind : RuleKind} {source : Entry}
    (declares : Rule.declare kind location source before = (.ok rule, after)) :
    AreMentioned before after rule.serviceItems rule.selectedServices := by
  obtain ⟨start, finish, early, -, -, selects, late⟩ := selects_of_declare declares
  have mentioned : AreMentioned start finish rule.serviceItems rule.selectedServices := by
    unfold serviceItems selectedServices
    unfold selectServices at selects
    split at selects
    · next isNull =>
        obtain ⟨isNone, rfl⟩ := pure_eq_ok.1 selects
        rw [Value.eq_null_of_isNull isNull, ← isNone]
        exact ⟨rfl, by simp [mentionsOf], areFresh_nil⟩
    · obtain ⟨selectors, _, selectsEach, made⟩ := bind_eq_ok.1 selects
      obtain ⟨isSome, rfl⟩ := pure_eq_ok.1 made
      rw [← isSome]
      exact areMentioned_of_selectEach selectsEach
  refine ⟨mentioned.length, fun mention member => ?_, mentioned.fresh.widen early late⟩
  rw [← early.entriesOf (by decide)]
  exact mentioned.stand mention member

end Rule

end Mentions

/-! ## Services apart -/

/-- The services that rules mention, in order. -/
def mentionsAmong (rules : List Rule) : List Mention :=
  rules.flatMap Rule.mentions

/-- Two of the mentions have the same service if and only if they have the same name. -/
def AreIdentified (mentions : List Mention) : Prop :=
  mentions.Pairwise fun one two =>
    one.service.serial = two.service.serial ↔
      ∃ name, one.name? = some name ∧ two.name? = some name

/-- The numbers of the services that the rules declare in place. -/
def inPlaceSerials (rules : List Rule) : List Nat :=
  (mentionsAmong rules).flatMap Mention.serials

/-- What rules mention is there, and no two of the services under names and of those that the rules
declare in place have the same number.  The next number is larger than all of them. -/
structure TellsApart (services : SectionEntries) (rules : List Rule) (next : Nat) : Prop where
  mentioned : ∀ rule ∈ rules, rule.MentionsIn services
  listed : ∀ name other one two, services.ListsService name one →
    services.ListsService other two → one.serial = two.serial → name = other
  inPlace : (inPlaceSerials rules).Nodup
  apart : ∀ name service, services.ListsService name service →
    service.serial ∉ inPlaceSerials rules
  listedBelow : ∀ name service, services.ListsService name service → service.serial < next
  inPlaceBelow : ∀ serial ∈ inPlaceSerials rules, serial < next

namespace TellsApart

variable {services : SectionEntries} {rules early late : List Rule} {old new : List Rule}
  {before after : Context} {next later : Nat}

theorem mono (apart : TellsApart services rules next) (le : next ≤ later) :
    TellsApart services rules later :=
  { apart with
    listedBelow := fun name service listed =>
      Nat.lt_of_lt_of_le (apart.listedBelow name service listed) le
    inPlaceBelow := fun serial member => Nat.lt_of_lt_of_le (apart.inPlaceBelow serial member) le }

/-- Declaring the service under a key changes what stands under that name only, and a service that was
there stays. -/
theorem listsService_put
    {location : String} {key : Scalar} {source : Entry} {service : Service}
    (found : services.get? key = some source)
    (declares : Service.declare location source before = (.ok service, after)) :
    (∀ name known, services.ListsService name known →
      (services.put key (.object (.service service))).ListsService name known) ∧
    ∀ name known, (services.put key (.object (.service service))).ListsService name known →
      services.ListsService name known ∨
        key = .text name ∧ known = service ∧ Rule.IsFresh before after service.serial := by
  have atName (name : String) : (services.put key (.object (.service service))).get? (.text name) =
      if key = .text name then some (.object (.service service))
      else services.get? (.text name) :=
    SectionEntries.get?_put_text found name
  unfold SectionEntries.ListsService
  by_cases isOld : ∃ known, source = .object (.service known)
  · -- A service that is declared again is the same one, so all names stand for what they did.
    obtain ⟨known, rfl⟩ := isOld
    obtain rfl : known = service := (pure_eq_ok.1 declares).1
    have same (name : String) :
        (services.put key (.object (.service known))).get? (.text name) =
          services.get? (.text name) := by
      rw [atName]
      split
      · next isName => rw [← isName, found]
      · rfl
    simp only [same]
    exact ⟨fun _ _ => id, fun _ _ => Or.inl⟩
  · have isNew : ∀ known, source ≠ .object (.service known) := not_exists.1 isOld
    refine ⟨fun name known listed => ?_, fun name known listed => ?_⟩
    · rw [atName, if_neg]
      · exact listed
      · rintro rfl
        rw [found] at listed
        exact isNew known (Option.some.inj listed)
    · rw [atName] at listed
      split at listed
      · next isName =>
          obtain ⟨⟩ := listed
          exact Or.inr ⟨isName, rfl, Service.isFresh_of_declare isNew declares⟩
      · exact Or.inl listed

/-- A service that is declared under a key has a number that no other service has. -/
theorem put_service
    (apart : TellsApart services rules before.nextSerial)
    {location : String} {key : Scalar} {source : Entry} {service : Service}
    (found : services.get? key = some source)
    (declares : Service.declare location source before = (.ok service, after)) :
    TellsApart (services.put key (.object (.service service))) rules after.nextSerial := by
  obtain ⟨kept, origin⟩ := listsService_put found declares
  have notes : Notes before after := Service.notes_declare.of_eq declares
  refine ⟨fun rule member => ?_, ?_, apart.inPlace, ?_, ?_, fun serial member => ?_⟩
  · have mentioned := apart.mentioned rule member
    exact ⟨mentioned.length, fun mention isMention => (mentioned.stand mention isMention).mono kept⟩
  · intro name other one two listsOne listsTwo same
    rcases origin name one listsOne with oldOne | ⟨isName, rfl, freshOne⟩
    · rcases origin other two listsTwo with oldTwo | ⟨_, rfl, freshTwo⟩
      · exact apart.listed name other one two oldOne oldTwo same
      · have below := apart.listedBelow name one oldOne
        exact absurd (same ▸ below) (Nat.not_lt.2 freshTwo.1)
    · rcases origin other two listsTwo with oldTwo | ⟨isOther, _, _⟩
      · have below := apart.listedBelow other two oldTwo
        exact absurd (same ▸ below) (Nat.not_lt.2 freshOne.1)
      · exact Scalar.text.inj (isName.symm.trans isOther)
  · intro name known lists
    rcases origin name known lists with old | ⟨_, rfl, fresh⟩
    · exact apart.apart name known old
    · exact fun member => Nat.not_lt.2 fresh.1 (apart.inPlaceBelow _ member)
  · intro name known lists
    rcases origin name known lists with old | ⟨_, rfl, fresh⟩
    · exact Nat.lt_of_lt_of_le (apart.listedBelow name known old) notes.serial
    · exact fresh.2
  · exact Nat.lt_of_lt_of_le (apart.inPlaceBelow serial member) notes.serial

theorem inPlaceSerials_append (early late : List Rule) :
    inPlaceSerials (early ++ late) = inPlaceSerials early ++ inPlaceSerials late := by
  unfold inPlaceSerials mentionsAmong
  rw [List.flatMap_append, List.flatMap_append]

/-- The services that a rule declares in place have numbers that no other service has. -/
theorem put_rule
    (apart : TellsApart services (early ++ (old ++ late)) before.nextSerial)
    (mentioned : ∀ rule ∈ new, rule.MentionsIn services)
    (fresh : AreFresh before after (inPlaceSerials new)) (notes : Notes before after) :
    TellsApart services (early ++ (new ++ late)) after.nextSerial := by
  have kept : ∀ serial ∈ inPlaceSerials early ++ inPlaceSerials late,
      serial ∈ inPlaceSerials (early ++ (old ++ late)) := by
    intro serial member
    simp only [inPlaceSerials_append, List.mem_append] at member ⊢
    exact member.imp_right Or.inr
  have origin : ∀ serial ∈ inPlaceSerials (early ++ (new ++ late)),
      serial ∈ inPlaceSerials (early ++ (old ++ late)) ∨ Rule.IsFresh before after serial := by
    intro serial member
    simp only [inPlaceSerials_append, List.mem_append] at member
    rcases member with isEarly | isNew | isLate
    · exact Or.inl (kept serial (List.mem_append_left _ isEarly))
    · exact Or.inr (fresh.fresh serial isNew)
    · exact Or.inl (kept serial (List.mem_append_right _ isLate))
  refine ⟨fun rule member => ?_, apart.listed, ?_, fun name service lists member => ?_,
    fun name service lists => ?_, fun serial member => ?_⟩
  · simp only [List.mem_append] at member
    rcases member with isEarly | isNew | isLate
    · exact apart.mentioned rule (List.mem_append_left _ isEarly)
    · exact mentioned rule isNew
    · exact apart.mentioned rule (List.mem_append_right _ (List.mem_append_right _ isLate))
  · have others : (inPlaceSerials early ++ inPlaceSerials late).Nodup := by
      have all := apart.inPlace
      simp only [inPlaceSerials_append] at all
      exact all.sublist ((List.sublist_append_right _ _).append_left _)
    -- The numbers of the other rules were given out before, wherever these rules stand.
    simp only [inPlaceSerials_append]
    rw [(List.perm_append_comm_assoc _ _ _).nodup_iff]
    refine List.Nodup.append fresh.nodup others fun serial isNew isOther => ?_
    exact Nat.not_lt.2 (fresh.fresh serial isNew).1 (apart.inPlaceBelow serial (kept serial isOther))
  · rcases origin _ member with isOld | isNew
    · exact apart.apart name service lists isOld
    · exact Nat.not_lt.2 isNew.1 (apart.listedBelow name service lists)
  · exact Nat.lt_of_lt_of_le (apart.listedBelow name service lists) notes.serial
  · rcases origin serial member with isOld | isNew
    · exact Nat.lt_of_lt_of_le (apart.inPlaceBelow serial isOld) notes.serial
    · exact isNew.2

theorem standsIn_of_mem (apart : TellsApart services rules next) :
    ∀ mention ∈ mentionsAmong rules, mention.StandsIn services := by
  intro mention member
  obtain ⟨rule, isRule, isMention⟩ := List.mem_flatMap.1 member
  exact (apart.mentioned rule isRule).stand mention isMention

theorem areIdentified (apart : TellsApart services rules next) :
    AreIdentified (mentionsAmong rules) := by
  have stands := apart.standsIn_of_mem
  have unlisted : ∀ mention ∈ mentionsAmong rules, mention.name? = none →
      mention.service.serial ∈ inPlaceSerials rules := fun mention member unnamed =>
    List.mem_flatMap.2 ⟨mention, member, Mention.mem_serials_iff.2 ⟨unnamed, rfl⟩⟩
  refine (List.nodup_flatMap.1 apart.inPlace).2.imp_of_mem ?_
  intro one two isOne isTwo disjoint
  -- A service without a name is neither one under a name nor another one that is declared in place.
  cases nameOne : one.name? with
  | none =>
      refine iff_of_false (fun same => ?_) (by simp)
      cases nameTwo : two.name? with
      | none =>
          exact disjoint (Mention.mem_serials_iff.2 ⟨nameOne, rfl⟩)
            (Mention.mem_serials_iff.2 ⟨nameTwo, same.symm⟩)
      | some name =>
          have listed := (stands two isTwo).listsService nameTwo
          exact apart.apart name _ listed (same ▸ unlisted one isOne nameOne)
  | some name =>
      have listed := (stands one isOne).listsService nameOne
      cases nameTwo : two.name? with
      | none =>
          refine iff_of_false (fun same => ?_) (by simp)
          exact apart.apart name _ listed (same ▸ unlisted two isTwo nameTwo)
      | some other =>
          have listedTwo := (stands two isTwo).listsService nameTwo
          constructor
          · intro same
            exact ⟨name, rfl, congrArg some (apart.listed name other _ _ listed listedTwo same).symm⟩
          · rintro ⟨_, ⟨⟩, ⟨⟩⟩
            have same := Option.some.inj (listed.symm.trans listedTwo)
            exact congrArg Service.serial (PolicyObject.service.inj (Entry.object.inj same))

end TellsApart

/-! ## First mentions -/

/-- The services of the mentions, each where it is mentioned first.  Those of the known names were
mentioned before. -/
def firstMentioned (known : List String) : List Mention → List Service
  | [] => []
  | mention :: rest =>
    match mention.name? with
    | none => mention.service :: firstMentioned known rest
    | some name =>
      if name ∈ known then firstMentioned known rest
      else mention.service :: firstMentioned (name :: known) rest

section FirstMentions

variable {mentions : List Mention} {known : List String} {service : Service}

theorem exists_of_mem_firstMentioned (member : service ∈ firstMentioned known mentions) :
    ∃ mention ∈ mentions, mention.service = service ∧
      ∀ name ∈ known, mention.name? ≠ some name := by
  induction mentions generalizing known with
  | nil => exact absurd member List.not_mem_nil
  | cons mention rest inductionHypothesis =>
      have later {names : List String} (wider : known ⊆ names)
          (inRest : service ∈ firstMentioned names rest) :
          ∃ other ∈ mention :: rest, other.service = service ∧
            ∀ name ∈ known, other.name? ≠ some name := by
        obtain ⟨other, isOther, same, unknown⟩ := inductionHypothesis inRest
        exact ⟨other, List.mem_cons_of_mem _ isOther, same, fun name isName =>
          unknown name (wider isName)⟩
      rw [firstMentioned] at member
      split at member
      · next unnamed =>
          rcases List.mem_cons.1 member with rfl | inRest
          · exact ⟨mention, List.mem_cons_self .., rfl, by simp [unnamed]⟩
          · exact later (List.Subset.refl known) inRest
      · next name named =>
          split at member
          · exact later (List.Subset.refl known) member
          · next isNew =>
              rcases List.mem_cons.1 member with rfl | inRest
              · refine ⟨mention, List.mem_cons_self .., rfl, fun other isOther same => isNew ?_⟩
                obtain rfl : name = other := Option.some.inj (named.symm.trans same)
                exact isOther
              · exact later (List.subset_cons_self name known) inRest

/-- No service is listed twice. -/
theorem nodup_firstMentioned (identified : AreIdentified mentions) :
    ((firstMentioned known mentions).map Service.serial).Nodup := by
  induction mentions generalizing known with
  | nil => exact List.nodup_nil
  | cons mention rest inductionHypothesis =>
      obtain ⟨sameAs, identifiedRest⟩ := List.pairwise_cons.1 identified
      have fresh {names : List String}
          (isName : ∀ name, mention.name? = some name → name ∈ names) :
          mention.service.serial ∉ (firstMentioned names rest).map Service.serial := by
        -- A service with the same number would be mentioned by the same name, which is known.
        intro member
        obtain ⟨service, isService, same⟩ := List.mem_map.1 member
        obtain ⟨other, isOther, rfl, unknown⟩ := exists_of_mem_firstMentioned isService
        obtain ⟨name, named, again⟩ := (sameAs other isOther).1 same.symm
        exact unknown name (isName name named) again
      rw [firstMentioned]
      split
      · next unnamed =>
          exact List.nodup_cons.2 ⟨fresh (by simp [unnamed]), inductionHypothesis identifiedRest⟩
      · next name named =>
          split
          · exact inductionHypothesis identifiedRest
          · exact List.nodup_cons.2
              ⟨fresh (by simp [named]), inductionHypothesis identifiedRest⟩

/-- Every service that is mentioned is listed, unless its name was known before. -/
theorem mem_firstMentioned
    {entries : SectionEntries} (stand : ∀ mention ∈ mentions, mention.StandsIn entries)
    {mention : Mention} (member : mention ∈ mentions)
    (unknown : ∀ name ∈ known, mention.name? ≠ some name) :
    mention.service ∈ firstMentioned known mentions := by
  induction mentions generalizing known with
  | nil => exact absurd member List.not_mem_nil
  | cons first rest inductionHypothesis =>
      obtain ⟨standsFirst, standRest⟩ := List.forall_mem_cons.1 stand
      rw [firstMentioned]
      split
      · rcases List.mem_cons.1 member with rfl | inRest
        · exact List.mem_cons_self ..
        · exact List.mem_cons_of_mem _ (inductionHypothesis standRest inRest unknown)
      · next name named =>
          split
          · next isKnown =>
              rcases List.mem_cons.1 member with rfl | inRest
              · exact absurd named (unknown name isKnown)
              · exact inductionHypothesis standRest inRest unknown
          · rcases List.mem_cons.1 member with rfl | inRest
            · exact List.mem_cons_self ..
            by_cases sameName : mention.name? = some name
            · -- Both mentions are of the one service that stands under the name.
              have same := (standsFirst.listsService named).symm.trans
                ((standRest mention inRest).listsService sameName)
              have isService : first.service = mention.service :=
                PolicyObject.service.inj (Entry.object.inj (Option.some.inj same))
              exact isService ▸ List.mem_cons_self ..
            · refine List.mem_cons_of_mem _ (inductionHypothesis standRest inRest ?_)
              exact List.forall_mem_cons.2 ⟨sameName, unknown⟩

end FirstMentions

end FirewallPolicy
