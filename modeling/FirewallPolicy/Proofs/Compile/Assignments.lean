import FirewallPolicy.Proofs.Compile.Layout
import FirewallPolicy.Proofs.Compile.Twins
import FirewallPolicy.Proofs.Rule.Composition
import FirewallPolicy.Proofs.Rule.Mentions

/-!
# Helpers are assigned once

Before the filter rules come the assignments of connection tracking helpers: for each service that
filter rules mention, the ones of its definitions with a helper.  A service that has a name is told by
its serial number wherever it is mentioned, so its helpers are assigned once, where it is mentioned
first.
-/

namespace FirewallPolicy

open Assembly Context Fragment Run Stateful

/-! ## Mentions of a compilation -/

namespace Building

/-- The services of the context can be told apart by their numbers. -/
def TellsServicesApart (context : Context) : Prop :=
  TellsApart (context.entriesOf "service") (context.rulesIn "filter") context.nextSerial

theorem rulesAmong_append (early late : List Entry) :
    rulesAmong (early ++ late) = rulesAmong early ++ rulesAmong late :=
  List.filterMap_append ..

theorem kind_of_name_eq_service :
    ∀ described ∈ Builtin.ordered, described.name = "service" →
      described.kind = some .service := by
  decide

theorem kind_of_name_eq_filter :
    ∀ described ∈ Builtin.ordered, described.name = "filter" →
      described.kind = some (.rule .filter) := by
  decide

theorem TellsServicesApart.grows
    {before after : Context} (apart : TellsServicesApart before) (grows : Grows before after) :
    TellsServicesApart after := by
  unfold TellsServicesApart Context.rulesIn
  rw [grows.entriesOf (by decide), grows.entriesOf (by decide)]
  exact apart.mono grows.serial

theorem tellsServicesApart_withService
    {location : String} {key : Scalar} {source : Entry} {service : Service}
    {before after : Context} (apart : TellsServicesApart before)
    (found : (before.entriesOf "service").get? key = some source)
    (declares : Service.declare location source before = (.ok service, after)) :
    TellsServicesApart (withObject after "service" key (.service service)) := by
  have notes : Notes before after := Service.notes_declare.of_eq declares
  have placed := TellsApart.put_service apart found declares
  unfold TellsServicesApart Context.rulesIn withObject
  rw [entriesOf_set_self, entriesOf_set_of_ne (by decide), notes.entriesOf (by decide),
    notes.entriesOf (by decide)]
  exact placed

theorem tellsServicesApart_withRule
    {kind : RuleKind} {location : String} {key : Scalar} {source : Entry} {rule : Rule}
    {before after : Context} (apart : TellsServicesApart before)
    (found : (before.entriesOf "filter").get? key = some source)
    (declares : Rule.declare kind location source before = (.ok rule, after)) :
    TellsServicesApart (withObject after "filter" key (.rule rule)) := by
  have notes : Notes before after := Rule.notes_declare.of_eq declares
  have mentioned := Rule.areMentioned_of_declare declares
  obtain ⟨early, late, isOld, isNew⟩ :=
    SectionEntries.exists_values_put found (.object (.rule rule))
  have isMentioned : ∀ other ∈ [rule], other.MentionsIn (before.entriesOf "service") := by
    intro other member
    obtain rfl := List.mem_singleton.1 member
    exact ⟨mentioned.length, mentioned.stand⟩
  have areFresh : AreFresh before after (inPlaceSerials [rule]) := by
    unfold inPlaceSerials mentionsAmong
    rw [List.flatMap_singleton]
    exact mentioned.fresh
  unfold TellsServicesApart Context.rulesIn at apart
  rw [isOld, rulesAmong_append, ← List.singleton_append, rulesAmong_append] at apart
  have placed := apart.put_rule isMentioned areFresh notes
  unfold TellsServicesApart Context.rulesIn withObject
  rw [entriesOf_set_self, entriesOf_set_of_ne (by decide), notes.entriesOf (by decide),
    notes.entriesOf (by decide), isNew, rulesAmong_append, ← List.singleton_append,
    rulesAmong_append]
  exact placed

/-- Services can be told apart whatever is declared. -/
theorem survives_tellsServicesApart : Survives TellsServicesApart where
  notes before after notes apart := apart.grows notes.grows
  declares described isBuiltin _ kind isKind location name key source object before after apart found
      declares := by
    by_cases isService : described.name = "service"
    · have isServiceKind := isKind.symm.trans (kind_of_name_eq_service _ isBuiltin isService)
      obtain rfl := Option.some.inj isServiceKind
      obtain ⟨service, _, declaresService, made⟩ := bind_eq_ok.1 declares
      obtain ⟨rfl, rfl⟩ := pure_eq_ok.1 made
      rw [isService] at found ⊢
      exact tellsServicesApart_withService apart found declaresService
    by_cases isFilter : described.name = "filter"
    · have isRuleKind := isKind.symm.trans (kind_of_name_eq_filter _ isBuiltin isFilter)
      obtain rfl := Option.some.inj isRuleKind
      obtain ⟨rule, _, declaresRule, made⟩ := bind_eq_ok.1 declares
      obtain ⟨rfl, rfl⟩ := pure_eq_ok.1 made
      rw [isFilter] at found ⊢
      exact tellsServicesApart_withRule apart found declaresRule
    · have notes : Notes before after := PolicyObject.notes_declare.of_eq declares
      have noted := apart.grows notes.grows
      unfold TellsServicesApart Context.rulesIn withObject
      rw [entriesOf_set_of_ne (Ne.symm isService), entriesOf_set_of_ne (Ne.symm isFilter)]
      exact noted

/-- Nothing is declared yet where a policy is loaded. -/
theorem tellsServicesApart_checked (policy : Policy) (hosts : HostBook) (settings : Settings) :
    TellsServicesApart (checked policy hosts settings) := by
  have noRules : (checked policy hosts settings).rulesIn "filter" = [] := by
    refine List.eq_nil_iff_forall_not_mem.2 fun rule member => ?_
    obtain ⟨_, _, _, _, isRaw⟩ := exists_of_mem_checked (mem_rulesIn.1 member)
    cases isRaw
  have unlisted (name : String) (service : Service) :
      ¬ ((checked policy hosts settings).entriesOf "service").ListsService name service := by
    intro lists
    obtain ⟨_, _, _, _, isRaw⟩ := exists_of_mem_checked (SectionEntries.mem_of_get? lists)
    cases isRaw
  unfold TellsServicesApart
  rw [noRules]
  exact ⟨by simp, fun _ _ _ _ lists => absurd lists (unlisted _ _), List.nodup_nil,
    fun _ _ lists => absurd lists (unlisted _ _), fun _ _ lists => absurd lists (unlisted _ _),
    by simp [inPlaceSerials, mentionsAmong]⟩

end Building

/-! ## Services in the order of their mentions -/

namespace Builtin

theorem selectors_of_servicesNamed
    {entries : List Entry} {selectors : List ServiceSelector}
    (read : servicesNamed entries = .ok selectors) :
    selectors = (rulesAmong entries).flatMap Rule.selectedServices := by
  induction entries generalizing selectors with
  | nil => exact (Except.ok.inj read).symm
  | cons entry rest inductionHypothesis =>
      rcases entry with value | object
      · cases read
      cases object with
      | rule rule =>
          obtain ⟨others, readOthers, made⟩ := except_bind_eq_ok.1 read
          obtain rfl := except_pure_eq_ok.1 made
          rw [inductionHypothesis readOthers]
          rfl
      | _ => cases read

/-- Put a service behind those that were found, unless one of them has its number. -/
def addDistinct (found : List Service) (service : Service) : List Service :=
  if found.any fun other => other.serial == service.serial then found else found ++ [service]

theorem exists_of_distinctServices
    {selectors : List ServiceSelector} {distinct : List Service}
    (read : distinctServices selectors = .ok distinct) :
    ∃ services : List Service,
      selectors = services.map .service ∧ distinct = services.foldl addDistinct [] := by
  obtain ⟨services, reads, made⟩ := except_bind_eq_ok.1 read
  obtain rfl := except_pure_eq_ok.1 made
  refine ⟨services, ?_, rfl⟩
  have each := forall₂_of_mapM_eq_ok reads
  clear reads read made
  induction each with
  | nil => rfl
  | cons isService _ inductionHypothesis =>
      split at isService
      · obtain rfl := Except.ok.inj isService
        rw [inductionHypothesis, List.map_cons]
      · cases isService

/-- Of the services that are mentioned, those are added that are mentioned for the first time.  What
was found before are the services of the known names, and ones that are not mentioned again. -/
theorem foldl_addDistinct
    {mentions : List Mention} {found : List Service} {known : List String}
    (identified : AreIdentified mentions)
    (isKnown : ∀ mention ∈ mentions, (∃ other ∈ found, other.serial = mention.service.serial) ↔
      ∃ name ∈ known, mention.name? = some name) :
    (mentions.map Mention.service).foldl addDistinct found =
      found ++ firstMentioned known mentions := by
  induction mentions generalizing found known with
  | nil => exact (List.append_nil found).symm
  | cons mention rest inductionHypothesis =>
      obtain ⟨sameAs, identifiedRest⟩ := List.pairwise_cons.1 identified
      obtain ⟨isKnownFirst, isKnownRest⟩ := List.forall_mem_cons.1 isKnown
      have test : (found.any fun other => other.serial == mention.service.serial) = true ↔
          ∃ name ∈ known, mention.name? = some name := by
        rw [← isKnownFirst, List.any_eq_true]
        simp only [beq_iff_eq]
      -- A service that is added stands for its name from now on, if it has one.
      have added (names : List String) (isName : ∀ name, name ∈ names ↔ mention.name? = some name) :
          ∀ other ∈ rest,
            (∃ service ∈ found ++ [mention.service], service.serial = other.service.serial) ↔
              ∃ name ∈ names ++ known, other.name? = some name := by
        intro other isOther
        simp only [List.mem_append, List.mem_singleton, or_and_right, exists_or, exists_eq_left,
          isName, sameAs other isOther, isKnownRest other isOther]
        exact or_comm
      rw [List.map_cons, List.foldl_cons, addDistinct, firstMentioned]
      cases isNamed : mention.name? with
      | none =>
          have isNew : ¬ (found.any fun other => other.serial == mention.service.serial) = true := by
            rw [test, isNamed]
            simp
          rw [if_neg isNew, inductionHypothesis identifiedRest (added [] (by simp [isNamed]))]
          simp
      | some name =>
          by_cases isOld : name ∈ known
          · rw [if_pos (test.2 ⟨name, isOld, isNamed⟩), inductionHypothesis identifiedRest isKnownRest]
            simp [isOld]
          · have isNew :
                ¬ (found.any fun other => other.serial == mention.service.serial) = true := by
              rw [test, isNamed]
              simpa using isOld
            rw [if_neg isNew,
              inductionHypothesis identifiedRest (added [name] (by simp [isNamed, eq_comm]))]
            simp [isOld]

/-- Where rules mention nothing but services, these are the services that they select. -/
theorem mentionsAmong_of_services
    {rules : List Rule} {services : List Service} {entries : SectionEntries}
    (mentioned : ∀ rule ∈ rules, rule.MentionsIn entries)
    (selected : rules.flatMap Rule.selectedServices = services.map .service) :
    (mentionsAmong rules).map Mention.item = rules.flatMap Rule.serviceItems ∧
      (mentionsAmong rules).map Mention.service = services := by
  induction rules generalizing services with
  | nil =>
      have isEmpty := List.map_eq_nil_iff.1 selected.symm
      exact ⟨rfl, isEmpty.symm⟩
  | cons rule rest inductionHypothesis =>
      obtain ⟨mentionedFirst, mentionedRest⟩ := List.forall_mem_cons.1 mentioned
      rw [List.flatMap_cons] at selected
      obtain ⟨own, others, rfl, ownSelected, othersSelected⟩ :=
        List.map_eq_append_iff.1 selected.symm
      obtain ⟨areItems, areServices⟩ := inductionHypothesis mentionedRest othersSelected.symm
      have length : own.length = rule.serviceItems.length := by
        rw [← mentionedFirst.length, ← ownSelected, List.length_map]
      obtain ⟨ownItems, ownServices⟩ := mentionsOf_map_service length
      rw [ownSelected] at ownItems ownServices
      unfold mentionsAmong at areItems areServices ⊢
      rw [List.flatMap_cons, List.map_append, List.map_append, List.flatMap_cons, areItems,
        areServices]
      exact ⟨congrArg (· ++ _) ownItems, congrArg (· ++ _) ownServices⟩

/-- The services that helpers are assigned for are those that the rules mention, in the order of their
first mentions. -/
theorem distinctServices_eq_firstMentioned
    {filters : List Entry} {selectors : List ServiceSelector} {distinct : List Service}
    {entries : SectionEntries} {next : Nat} (apart : TellsApart entries (rulesAmong filters) next)
    (named : servicesNamed filters = .ok selectors)
    (read : distinctServices selectors = .ok distinct) :
    (mentionsAmong (rulesAmong filters)).map Mention.item =
        (rulesAmong filters).flatMap Rule.serviceItems ∧
      distinct = firstMentioned [] (mentionsAmong (rulesAmong filters)) := by
  obtain ⟨services, isSelected, rfl⟩ := exists_of_distinctServices read
  rw [selectors_of_servicesNamed named] at isSelected
  obtain ⟨areItems, areServices⟩ := mentionsAmong_of_services apart.mentioned isSelected
  have noneKnown : ∀ mention ∈ mentionsAmong (rulesAmong filters),
      (∃ other ∈ ([] : List Service), other.serial = mention.service.serial) ↔
        ∃ name ∈ ([] : List String), mention.name? = some name := by
    simp
  refine ⟨areItems, ?_⟩
  rw [← areServices, foldl_addDistinct apart.areIdentified noneKnown, List.nil_append]

end Builtin

/-! ## Assignments -/

/-- The lines that assign the helper of a definition in the family, one for each of its fragments that
can be used there. -/
def ServiceDefinition.helperLines (family : String) (definition : ServiceDefinition) :
    List RuleLine :=
  match definition.helper? with
  | none => []
  | some helper =>
    (narrow (· == family) ((definition.fragments false).toOption.getD [])).map fun fragment =>
      { condition := fragment.matchText, target := some ("CT --helper " ++ helper.written) }

/-- The lines that assign the helpers of a service in the family. -/
def Service.helperLines (family : String) (service : Service) : List RuleLine :=
  service.definitions.flatMap (ServiceDefinition.helperLines family)

/-- The service can be matched wherever it names helpers. -/
def Service.IsMatched (service : Service) : Prop :=
  ∀ definition ∈ service.definitions, definition.helper?.isSome = true →
    ∃ matched, definition.fragments false = .ok matched

namespace Builtin

/-- The chains that helpers are assigned in. -/
def helperHooks : List String := ["PREROUTING", "OUTPUT"]

/-- The fragment is one of the family, and stands wherever it is put. -/
structure IsUnplaced (family : String) (fragment : Fragment) : Prop where
  family : fragment.family = some family
  table : fragment.table = none
  chain : fragment.chain = none
  position : fragment.position = none

variable {family hook : String}

theorem helperRules_eq_ok
    {definition : ServiceDefinition} {rules : List Fragment}
    (read : helperRules family definition = .ok rules) :
    rules.map RuleLine.ofFragment = definition.helperLines family ∧
      (∀ rule ∈ rules, IsUnplaced family rule) ∧
      (definition.helper?.isSome = true → ∃ matched, definition.fragments false = .ok matched) := by
  unfold helperRules at read
  unfold ServiceDefinition.helperLines
  split at read
  · next unnamed =>
      obtain rfl := Except.ok.inj read
      simp [unnamed]
  · next helper named =>
      obtain ⟨matched, isMatched, made⟩ := except_bind_eq_ok.1 read
      obtain rfl := except_pure_eq_ok.1 made
      rw [combine_pair, product_ofFamily]
      refine ⟨?_, fun rule member => ?_, fun _ => ⟨matched, isMatched⟩⟩
      · simp only [named, isMatched, List.map_map]
        rfl
      · obtain ⟨restricted, isRestricted, rfl⟩ := List.mem_map.1 member
        obtain ⟨fragment, isKept, rfl⟩ := List.mem_map.1 isRestricted
        have isMatch := Rule.isMatch_definition [] isMatched fragment (List.mem_of_mem_filter isKept)
        refine ⟨rfl, isMatch.table, ?_, isMatch.position⟩
        exact Option.eq_none_iff_forall_ne_some.2 fun chain stands =>
          absurd (isMatch.chain chain stands) List.not_mem_nil

/-- A fragment in a chain of the table for raw packets. -/
def inRaw (hook : String) (fragment : Fragment) : Fragment :=
  { fragment with table := some "raw", chain := some hook }

theorem combine_raw
    {helpers : List Fragment} (unplaced : ∀ helper ∈ helpers, IsUnplaced family helper) :
    combine [some [.ofTable "raw"], some [.ofChain "PREROUTING", .ofChain "OUTPUT"],
        some helpers] =
      helpers.map (inRaw "PREROUTING") ++ helpers.map (inRaw "OUTPUT") := by
  have merged (hook : String) :
      helpers.filterMap (merge { table := some "raw", chain := some hook }) =
        helpers.map (inRaw hook) := by
    rw [← List.filterMap_eq_map]
    refine List.filterMap_congr fun helper member => ?_
    have isUnplaced := unplaced helper member
    simp [merge, agreed?, inRaw, isUnplaced.table, isUnplaced.chain]
  have split : combine [some [.ofTable "raw"], some [.ofChain "PREROUTING", .ofChain "OUTPUT"],
      some helpers] =
        helpers.filterMap (merge { table := some "raw", chain := some "PREROUTING" }) ++
          (helpers.filterMap (merge { table := some "raw", chain := some "OUTPUT" }) ++ []) := rfl
  rw [split, merged, merged, List.append_nil]

theorem linesAt_map_inRaw
    {helpers : List Fragment} (unplaced : ∀ helper ∈ helpers, IsUnplaced family helper)
    (chain : String) :
    linesAt ⟨family, "raw", hook⟩ (helpers.map (inRaw chain)) =
      if chain = hook then helpers.map RuleLine.ofFragment else [] := by
  have stands : ∀ helper ∈ helpers,
      (inRaw chain helper).place? = some ⟨family, "raw", chain⟩ := by
    intro helper member
    simp [inRaw, place?, (unplaced helper member).family]
  split
  · next same =>
      subst same
      unfold linesAt
      rw [appendedAt_eq_map, List.map_map, List.map_map]
      · rfl
      · intro rule member
        obtain ⟨_, isPlaced, rfl⟩ := List.mem_map.1 member
        obtain ⟨helper, isHelper, rfl⟩ := List.mem_map.1 isPlaced
        exact stands helper isHelper
      · intro rule member
        obtain ⟨_, isPlaced, rfl⟩ := List.mem_map.1 member
        obtain ⟨helper, isHelper, rfl⟩ := List.mem_map.1 isPlaced
        simp [isFront, inRaw, (unplaced helper isHelper).position]
  · next different =>
      refine linesAt_eq_nil fun fragment member => ?_
      obtain ⟨helper, isHelper, rfl⟩ := List.mem_map.1 member
      rw [stands helper isHelper]
      simpa using different

/-- The helpers of the services are assigned in both chains, in the order of the services. -/
theorem linesAt_assignmentRules
    {services : List Service} {rules : List Fragment} (isHook : hook ∈ helperHooks)
    (read : assignmentRules family services = .ok rules) :
    linesAt ⟨family, "raw", hook⟩ rules = services.flatMap (Service.helperLines family) ∧
      ∀ service ∈ services, service.IsMatched := by
  obtain ⟨helpers, readHelpers, made⟩ := except_bind_eq_ok.1 read
  obtain rfl := except_pure_eq_ok.1 made
  have unplaced : ∀ helper ∈ helpers.flatten.flatten, IsUnplaced family helper := by
    intro helper member
    obtain ⟨_, _, readRules, inRules⟩ := exists_helperRules_of_mem readHelpers member
    exact (helperRules_eq_ok readRules).2.1 helper inRules
  have ofService (service : Service) (lists : List (List Fragment))
      (readLists : service.definitions.mapM (helperRules family) = .ok lists) :
      lists.flatMap (List.map RuleLine.ofFragment) = service.helperLines family :=
    flatMap_eq_of_mapM (fun _ _ readRules => (helperRules_eq_ok readRules).1) readLists
  have lines : helpers.flatten.flatten.map RuleLine.ofFragment =
      services.flatMap (Service.helperLines family) := by
    rw [← flatMap_eq_of_mapM ofService readHelpers, List.map_flatten, List.map_flatten,
      List.flatten_flatten, List.map_map]
    rfl
  constructor
  · rw [combine_raw unplaced, linesAt_append, linesAt_map_inRaw unplaced,
      linesAt_map_inRaw unplaced, lines]
    simp only [helperHooks, List.mem_cons, List.not_mem_nil, or_false] at isHook
    rcases isHook with rfl | rfl <;> simp
  · intro service isService definition isDefinition named
    obtain ⟨lists, -, readLists⟩ :=
      exists_of_mem_forall₂ (forall₂_of_mapM_eq_ok readHelpers).flip isService
    obtain ⟨rules, -, readRules⟩ :=
      exists_of_mem_forall₂ (forall₂_of_mapM_eq_ok readLists).flip isDefinition
    exact (helperRules_eq_ok readRules).2.2 named

theorem table_establishedRules :
    ∀ family ∈ knownFamilies, ∀ fragment ∈ establishedRules family,
      fragment.table = some "filter" := by
  decide +kernel

/-- The rules before the filter rules assign the helpers of the services that the filter rules mention,
for each family in the chains of that family. -/
theorem linesAt_statefulRules_raw
    {settings : Settings} {filters : List Entry} {rules : List Fragment} {entries : SectionEntries}
    {next : Nat} (apart : TellsApart entries (rulesAmong filters) next)
    (enabled : family ∈ settings.families) (isHook : hook ∈ helperHooks)
    (read : statefulRules settings.families filters = .ok rules) :
    linesAt ⟨family, "raw", hook⟩ rules =
        (firstMentioned [] (mentionsAmong (rulesAmong filters))).flatMap
          (Service.helperLines family) ∧
      (mentionsAmong (rulesAmong filters)).map Mention.item =
        (rulesAmong filters).flatMap Rule.serviceItems ∧
      ∀ service ∈ firstMentioned [] (mentionsAmong (rulesAmong filters)), service.IsMatched := by
  have ofFamily {other : String} {found : List Fragment}
      (readFamily : statefulFamily filters other = .ok found) :
      ∃ assigned, found = establishedRules other ++ assigned ∧
        assignmentRules other (firstMentioned [] (mentionsAmong (rulesAmong filters))) =
          .ok assigned ∧
        (mentionsAmong (rulesAmong filters)).map Mention.item =
          (rulesAmong filters).flatMap Rule.serviceItems := by
    simp only [statefulFamily, except_bind_eq_ok, except_pure_eq_ok] at readFamily
    obtain ⟨selectors, named, distinct, distincts, assigned, assigns, rfl⟩ := readFamily
    obtain ⟨areItems, rfl⟩ := distinctServices_eq_firstMentioned apart named distincts
    exact ⟨assigned, rfl, assigns, areItems⟩
  constructor
  · refine linesAt_statefulRules_of_each enabled (fun other isKnown found readFamily => ?_) read
    split
    · next same =>
        obtain rfl : other = family := same
        obtain ⟨assigned, rfl, assigns, -⟩ := ofFamily readFamily
        have inFilter : linesAt ⟨other, "raw", hook⟩ (establishedRules other) = [] :=
          linesAt_eq_nil fun fragment member => Fragment.place?_ne <| Or.inr <| by
            rw [table_establishedRules other isKnown fragment member]
            simp
        rw [linesAt_append, inFilter, (linesAt_assignmentRules isHook assigns).1, List.nil_append]
    · next different =>
        refine linesAt_eq_nil fun fragment member => Fragment.place?_ne <| Or.inl ?_
        rw [family_of_statefulFamily readFamily fragment member]
        simpa using different
  · obtain ⟨lists, readLists, -⟩ := except_bind_eq_ok.1 read
    obtain ⟨found, -, readFamily⟩ :=
      exists_of_mem_forall₂ (forall₂_of_mapM_eq_ok readLists).flip enabled
    obtain ⟨assigned, -, assigns, areItems⟩ := ofFamily readFamily
    exact ⟨areItems, (linesAt_assignmentRules isHook assigns).2⟩

end Builtin

/-! ## Chains of raw packets -/

section Leaving

variable {batch : Batch} {before after : Context} {family hook : String}

theorem Batch.Expands.raw_of_rule
    (expands : batch.Expands before after) {rule : Rule} (isOrigin : batch.origin = some rule) :
    batch.prepended ⟨family, "raw", hook⟩ = [] ∧
      ∀ line ∈ batch.appended ⟨family, "raw", hook⟩, line.target = some "CT --notrack" := by
  have exempts : ∀ fragment ∈ batch.fragments, fragment.place? = some ⟨family, "raw", hook⟩ →
      fragment.target = some "CT --notrack" ∧ fragment.position ≠ some "prepend" := by
    intro fragment member stands
    cases expands with
    | virtual _ _ => simp at isOrigin
    | object run => exact Rule.exempts_of_raw run member (Fragment.table_of_place stands)
  constructor
  · simp only [Batch.prepended, prependedAt, List.map_eq_nil_iff, List.filter_eq_nil_iff]
    intro other member
    obtain ⟨fragment, isFragment, rfl⟩ := List.mem_map.1 member
    simpa [isFront] using fun stands => (exempts fragment isFragment stands).2
  · intro line isLine
    obtain ⟨other, isOther, rfl⟩ := List.mem_map.1 isLine
    obtain ⟨member, stands⟩ := List.mem_filter.1 isOther
    obtain ⟨fragment, isFragment, rfl⟩ := List.mem_map.1 member
    rw [Bool.and_eq_true, decide_eq_true_iff] at stands
    exact (exempts fragment isFragment stands.1).1

theorem Builtin.table_controlRules : ∀ fragment ∈ controlRules, fragment.table = some "filter" := by
  decide +kernel

theorem Batch.Expands.raw_of_icmp
    (expands : batch.Expands before after) (noRule : batch.origin = none)
    (isControl : batch.described.rules = .icmp) :
    batch.appended ⟨family, "raw", hook⟩ = [] := by
  have run := expands.rules_eq_ok noRule
  simp only [isControl, RuleSource.rules, bind_eq_ok, get_eq_ok] at run
  obtain ⟨_, _, ⟨rfl, rfl⟩, run⟩ := run
  obtain ⟨isRules, -⟩ := pure_eq_ok.1 run
  refine linesAt_eq_nil fun fragment member => Fragment.place?_ne (Or.inr ?_)
  rw [← isRules] at member
  rw [Builtin.table_controlRules fragment (List.mem_of_mem_filter member)]
  simp

end Leaving

/-! ## Helpers in the compiled tree -/

/-- The mentions of the filter rules, in order. -/
def Context.mentions (context : Context) : List Mention :=
  mentionsAmong (context.rulesIn "filter")

section Contributions

open Building

variable {batches : List Batch} {start after : Build} {family hook : String}

theorem prepended_raw (ran : Ran batches start after) :
    batches.reverse.flatMap (Batch.prepended ⟨family, "raw", hook⟩) = [] := by
  refine List.flatMap_eq_nil_iff.2 fun batch member => ?_
  have isBatch := List.mem_reverse.1 member
  obtain ⟨_, _, _, runs, -⟩ := ran.runs.exists_of_mem isBatch
  cases isOrigin : batch.origin with
  | some rule => exact (runs.expands.raw_of_rule isOrigin).1
  | none =>
      have isBuiltin := Builtin.subset_ordered (label_mem_origins ran.labels isBatch).1
      exact runs.expands.prepended_of_virtual isBuiltin isOrigin

/-- Behind the rules for established connections nothing but exemptions from connection tracking is
put into the table of raw packets. -/
theorem target_of_appended_raw
    (ran : Ran batches start after) {described : Section}
    (isLater : described ∈ Builtin.ruleSections.tail) :
    ∀ line ∈ (batchesOf described.name batches).flatMap (Batch.appended ⟨family, "raw", hook⟩),
      line.target = some "CT --notrack" := by
  intro line member
  obtain ⟨batch, isBatch, isLine⟩ := List.mem_flatMap.1 member
  obtain ⟨_, _, _, runs, -⟩ := ran.runs.exists_of_mem (List.mem_of_mem_filter isBatch)
  cases isOrigin : batch.origin with
  | some rule => exact (runs.expands.raw_of_rule isOrigin).2 line isLine
  | none =>
      have isSection : described ∈ Builtin.loadedSection :: Builtin.ruleSections :=
        List.mem_cons_of_mem _ (List.mem_of_mem_tail isLater)
      have isLabel : batch.label ∈ after.context.origins described :=
        (eq_flatMap_batchesOf distinct_names ran.labels).2 described isSection ▸
          List.mem_map_of_mem isBatch
      have isDescribed : batch.described = described := fst_of_mem_origins isLabel
      have isVirtual : described.isVirtual = true := by
        by_contra notVirtual
        obtain ⟨rule, isRule⟩ :=
          runs.expands.exists_origin (isDescribed ▸ Bool.eq_false_iff.2 notVirtual)
        rw [isOrigin] at isRule
        cases isRule
      -- Of the virtual sections only the one for control messages is left.
      have controls : ∀ other ∈ Builtin.ruleSections.tail, other.isVirtual = true →
          other.rules = .icmp := by
        decide
      rw [runs.expands.raw_of_icmp isOrigin
        (isDescribed ▸ controls described isLater isVirtual)] at isLine
      exact absurd isLine List.not_mem_nil

/-- The helpers of the services that filter rules mention are assigned by the section before the filter
rules. -/
theorem appended_assignments
    (ran : Ran batches start after) (apart : TellsServicesApart after.context)
    (enabled : family ∈ after.context.settings.families) (isHook : hook ∈ Builtin.helperHooks) :
    (batchesOf "%filter-before" batches).flatMap (Batch.appended ⟨family, "raw", hook⟩) =
        (firstMentioned [] after.context.mentions).flatMap (Service.helperLines family) ∧
      after.context.mentions.map Mention.item =
        (after.context.rulesIn "filter").flatMap Rule.serviceItems ∧
      ∀ service ∈ firstMentioned [] after.context.mentions, service.IsMatched := by
  obtain ⟨batch, _, _, isBatch, isDescribed, noRule, expands, growing⟩ :=
    batchesOf_virtual ran
      (show Builtin.ruleSections[0] ∈ _ :: Builtin.ruleSections by decide) rfl
  rw [show batchesOf "%filter-before" batches = [batch] from isBatch]
  have run := expands.rules_eq_ok noRule
  simp only [isDescribed, Builtin.ruleSections, List.getElem_cons_zero, RuleSource.rules,
    bind_eq_ok, get_eq_ok] at run
  obtain ⟨_, _, ⟨rfl, rfl⟩, run⟩ := run
  obtain ⟨read, -⟩ := Run.recording_eq_ok.1 run
  rw [← growing.settings, ← growing.entriesOf (by decide)] at read
  obtain ⟨lines, known⟩ := Builtin.linesAt_statefulRules_raw apart enabled isHook read
  refine ⟨?_, known⟩
  rw [List.flatMap_singleton]
  exact lines

/-- Without the chain being brought in, its lines are the assignments of helpers and behind them
exemptions from connection tracking. -/
theorem rules_of_ran_raw
    (ran : Ran batches start after)
    (unbrought : ∀ batch ∈ batches, ∀ owner body,
      batch.source.body owner ⟨family, "raw", hook⟩ = .ok body → body = []) :
    ∃ others, after.assembly.tree.rules ⟨family, "raw", hook⟩ =
        (batchesOf "%filter-before" batches).flatMap (Batch.appended ⟨family, "raw", hook⟩) ++
          others ∧
      ∀ line ∈ others, line.target = some "CT --notrack" := by
  have parts := (eq_flatMap_batchesOf distinct_names ran.labels).1
  have noLines : start.assembly.tree.rules ⟨family, "raw", hook⟩ = [] := by
    rw [ran.empty]
    rfl
  have lines := ran.runs.rules_eq unbrought
  refine ⟨(Builtin.ruleSections.tail.flatMap fun described =>
    batchesOf described.name batches).flatMap (Batch.appended ⟨family, "raw", hook⟩), ?_, ?_⟩
  · have inOrder : batches.flatMap (Batch.appended ⟨family, "raw", hook⟩) =
        (batchesOf "%modules" batches).flatMap (Batch.appended ⟨family, "raw", hook⟩) ++
        ((batchesOf "%filter-before" batches).flatMap (Batch.appended ⟨family, "raw", hook⟩) ++
        (Builtin.ruleSections.tail.flatMap fun described =>
          batchesOf described.name batches).flatMap (Batch.appended ⟨family, "raw", hook⟩)) := by
      rw [← List.flatMap_append, ← List.flatMap_append]
      exact congrArg (List.flatMap (Batch.appended ⟨family, "raw", hook⟩)) parts
    rw [lines, prepended_raw ran, noLines, inOrder, appended_loaded ran]
    rfl
  · intro line member
    obtain ⟨batch, inSections, isLine⟩ := List.mem_flatMap.1 member
    obtain ⟨described, isLater, isBatch⟩ := List.mem_flatMap.1 inSections
    exact target_of_appended_raw ran isLater line (List.mem_flatMap.2 ⟨batch, isBatch, isLine⟩)

end Contributions

namespace Compilation

variable {policy : Policy} {hosts : HostBook} {given : Option Settings}
  {compilation : Compilation} {family hook : String}

/-- Helpers are assigned in the chain for the services that filter rules mention, and for each of them
once. -/
structure HelperLayout (compilation : Compilation) (family hook : String) (batches : List Batch) :
    Prop where
  /-- Every item of the lists of services is a mention. -/
  items : compilation.build.context.mentions.map Mention.item =
    (compilation.build.context.rulesIn "filter").flatMap Rule.serviceItems
  /-- A name stands for the service of the policy that has it. -/
  stand : ∀ mention ∈ compilation.build.context.mentions,
    mention.StandsIn (compilation.build.context.entriesOf "service")
  /-- Two mentions have the same service if and only if they have the same name. -/
  identified : AreIdentified compilation.build.context.mentions
  complete : ∀ mention ∈ compilation.build.context.mentions,
    mention.service ∈ firstMentioned [] compilation.build.context.mentions
  distinct :
    ((firstMentioned [] compilation.build.context.mentions).map Service.serial).Nodup
  matched : ∀ service ∈ firstMentioned [] compilation.build.context.mentions, service.IsMatched
  contributed :
    (batchesOf "%filter-before" batches).flatMap (Batch.appended ⟨family, "raw", hook⟩) =
      (firstMentioned [] compilation.build.context.mentions).flatMap (Service.helperLines family)
  /-- What else is in the chain assigns no helper. -/
  lines : ∃ others, compilation.tree.rules ⟨family, "raw", hook⟩ =
      (batchesOf "%filter-before" batches).flatMap (Batch.appended ⟨family, "raw", hook⟩) ++
        others ∧
    ∀ line ∈ others, line.target = some "CT --notrack"

/-- In each enabled family the helpers of the services that filter rules mention are assigned once, in
the order of their first mentions. -/
theorem helperLayout_of_ofPolicy
    (compiled : ofPolicy policy Builtin.modules hosts given = .ok compilation)
    (enabled : family ∈ compilation.build.context.settings.families)
    (isHook : hook ∈ Builtin.helperHooks) :
    ∃ batches start, Building.Ran batches start compilation.build ∧
      compilation.HelperLayout family hook batches := by
  obtain ⟨settings, run⟩ := ofPolicy_eq_ok compiled
  obtain ⟨start, batches, ran, framed, -, initial⟩ :=
    Building.runs_of_compilePolicy Building.survives_tellsServicesApart
      (Building.tellsServicesApart_checked policy hosts settings) run
  have apart := initial.grows ran.runs.grows
  have names : ∀ name ∈ Builtin.helperHooks,
      customName? name = none ∧ name ≠ "tarpit" ∧ IsOrdinary name := by
    decide
  obtain ⟨notCustom, notTarpit, ordinary⟩ := names hook isHook
  have unbrought : ∀ batch ∈ batches, ∀ owner body,
      batch.source.body owner ⟨family, "raw", hook⟩ = .ok body → body = [] := by
    intro batch member owner body read
    obtain ⟨_, _, grown, runs, -⟩ := ran.runs.exists_of_mem member
    rw [runs.expands.source_eq] at read
    exact body_of_ordinary framed (grown.trans runs.expands.grows) notCustom notTarpit ordinary read
  obtain ⟨contributed, items, matched⟩ := appended_assignments ran apart enabled isHook
  have stand : ∀ mention ∈ compilation.build.context.mentions,
      mention.StandsIn (compilation.build.context.entriesOf "service") :=
    TellsApart.standsIn_of_mem apart
  have identified := TellsApart.areIdentified apart
  exact ⟨batches, start, ran, items, stand, identified,
    fun mention member => mem_firstMentioned stand member (by simp),
    nodup_firstMentioned identified, matched, contributed, rules_of_ran_raw ran unbrought⟩

/-- A service with a helper that two filter rules name, and another one that is declared in place. -/
def assistedPolicy : Policy :=
  { objects := [
      ("service", .map [(.text "ftp", .map [(.text "proto", .text "tcp"), (.text "port", .int 21),
        (.text "ct-helper", .text "ftp")])]),
      ("filter", .list [
        .map [(.text "service", .text "ftp")],
        .map [(.text "service", .list [
          .map [(.text "proto", .text "udp"), (.text "port", .int 69),
            (.text "ct-helper", .text "tftp")],
          .text "ftp"])]])] }

theorem helperLayout_of_assistedPolicy :
    ∃ compilation, ofPolicy assistedPolicy Builtin.modules .none (some {}) = .ok compilation ∧
      "inet6" ∈ compilation.build.context.settings.families ∧ "OUTPUT" ∈ Builtin.helperHooks ∧
      (∃ batches start, Building.Ran batches start compilation.build ∧
        compilation.HelperLayout "inet6" "OUTPUT" batches) ∧
      compilation.tree.rules ⟨"inet6", "raw", "OUTPUT"⟩ =
        [{ condition := "-p tcp --dport 21", target := some "CT --helper ftp" },
          { condition := "-p udp --dport 69", target := some "CT --helper tftp" }] := by
  obtain ⟨compilation, compiled, isBuild⟩ :=
    exists_of_process assistedPolicy .none {} (by decide +kernel) (by decide +kernel)
  have enabled : "inet6" ∈ compilation.build.context.settings.families := by
    rw [isBuild]
    decide +kernel
  refine ⟨compilation, compiled, enabled, by decide,
    helperLayout_of_ofPolicy compiled enabled (by decide), ?_⟩
  rw [tree, isBuild]
  decide +kernel

end Compilation

end FirewallPolicy
