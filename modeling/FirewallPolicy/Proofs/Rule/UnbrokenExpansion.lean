import FirewallPolicy.Proofs.Rule.Derived
import FirewallPolicy.Proofs.Rule.UnbrokenActions
import FirewallPolicy.Section.Builtin

/-!
# Expansion on one line

The fragments of a tidy rule have no line break, and neither have those of the rules derived from
it: a derived rule is declared from attributes of the rule, from the log class that it has and from
texts of the program.
-/

namespace FirewallPolicy

open Fragment Run Stateful

namespace Rule

variable {rule : Rule}

/-! ## The rule itself -/

theorem IsTidy.unbroken_ownFragments (tidy : rule.IsTidy) :
    StaysUnbroken AreUnbroken rule.ownFragments := by
  refine tidy.unbroken_zoneFragments.bind fun zones areZones =>
    (tidy.unbroken_addressFragments (by decide)).bind fun sources areSources =>
    tidy.unbroken_destinationFragments.bind fun destinations areDestinations =>
    (meets_recording tidy.gives_setFragments).bind fun sets areSets =>
    tidy.unbroken_serviceFragments.bind fun services areServices =>
    (meets_recording fun _ _ => trivial).bind fun position _ => ?_
  have matched : AreUnbroken (combine [some zones, sources, destinations, sets, services,
      some [{ position := some position }]]) := by
    have placed : AreUnbroken [{ position := some position }] :=
      areUnbroken_singleton { isUnbroken_empty with }
    refine areUnbroken_combine ?_
    simpa using ⟨areZones, areSources, areDestinations, areSets, areServices, placed⟩
  refine (tidy.unbroken_finish matched).bind fun finished areFinished =>
    meets_get_bind fun context _ => meets_pure (areUnbroken_combine ?_)
  have families : AreUnbroken ((rule.families context.settings).map ofFamily) := by
    refine areUnbroken_map fun family member => isUnbroken_ofFamily ?_
    refine context.settings.isUnbroken_families family ?_
    unfold Rule.families at member
    split at member
    · exact (List.mem_filter.1 member).1
    · exact member
  have table : AreUnbroken [ofTable rule.kind.table] := by
    cases rule.kind <;> decide
  simpa using ⟨areFinished, families, table⟩

/-! ## Derived rules -/

section Extras

variable {expand : Rule → Run (List Fragment)} {source : Record} {derivation : Derivation}

theorem isTidy_derivedAttributes (tidy : source.IsTidy)
    (changes : Record.IsTidy derivation.changes) :
    (derivedAttributes source derivation).IsTidy := by
  intro field member
  rcases Named.mem_setAll (List.mem_filter.1 member).1 with taken | changed
  · obtain ⟨name, -, stated⟩ := List.mem_filterMap.1 taken
    split at stated
    · obtain rfl := Option.some.inj stated
      exact tidy.cases name
    · simp at stated
  · exact changes field changed

/-- Expanding tidy rules gives fragments without line breaks. -/
def ExpandsUnbroken (expand : Rule → Run (List Fragment)) : Prop :=
  ∀ rule : Rule, rule.IsTidy → StaysUnbroken AreUnbroken (expand rule)

theorem unbroken_derive (expanding : ExpandsUnbroken expand) (tidy : source.IsTidy)
    (changes : Record.IsTidy derivation.changes) :
    StaysUnbroken AreUnbroken (derive expand rule source derivation) := by
  intro before after found kept run
  obtain ⟨kind, derived, middle, -, declares, expands⟩ := derive_eq_ok run
  obtain ⟨keptMiddle, isTidy⟩ := unbroken_declare
    (Entry.declaresTidy_toEntries (isTidy_derivedAttributes tidy changes)) before middle derived
    kept declares
  exact expanding derived isTidy middle after found keptMiddle expands

theorem unbroken_sectionKind {name : String} :
    StaysUnbroken (fun _ => True) (rule.sectionKind name) := by
  refine meets_get_bind fun context _ => ?_
  split
  · exact meets_pure trivial
  · exact meets_report

theorem isTidy_nil : Record.IsTidy [] := by
  rintro _ ⟨⟩

theorem isTidy_singleton {name : String} {value : Value} (unbroken : value.isUnbroken = true) :
    Record.IsTidy [(name, value)] :=
  List.forall_mem_singleton.2 (Or.inl unbroken)

theorem IsTidy.unbroken_updateFragments (tidy : rule.IsTidy)
    (expanding : ExpandsUnbroken expand) : StaysUnbroken AreUnbroken (updateFragments expand rule) := by
  have update := tidy.attributes.get (show "update-limit" ∉ logHolders by decide)
  unfold updateFragments
  extract_lets given mapping
  have isMapping : mapping.IsUnbroken := by
    unfold mapping updateMapping
    cases isMap : given.entries? with
    | some entries => exact Value.isUnbroken_of_entries? update isMap
    | none => exact List.forall_mem_singleton.2 ⟨rfl, update⟩
  split
  · exact meets_pure (by simp [AreUnbroken])
  · split
    · exact meets_report
    · next name isName =>
        refine unbroken_derive expanding tidy.attributes (List.forall_mem_cons.2
          ⟨Or.inl (Entries.isUnbroken_of_get? isMapping isName), fun field member => Or.inl ?_⟩)
        obtain ⟨option, -, taken⟩ := List.mem_filterMap.1 member
        obtain ⟨value, found, rfl⟩ := Option.map_eq_some_iff.1 taken
        exact Entries.isUnbroken_of_get? isMapping found

theorem IsTidy.unbroken_dnatFragments (tidy : rule.IsTidy)
    (expanding : ExpandsUnbroken expand) : StaysUnbroken AreUnbroken (dnatFragments expand rule) := by
  unfold dnatFragments
  extract_lets derived unset tracked
  have derives : ∀ u, StaysUnbroken AreUnbroken (derived u) := fun u =>
    tidy.unbroken_dnatAddress.bind fun address isAddress =>
      (meets_recording tidy.gives_dnatField).bind fun port isPort =>
      unbroken_sectionKind.bind fun kind _ => unbroken_derive expanding tidy.attributes
        (List.forall_mem_cons.2 ⟨Or.inl (Value.isUnbroken_text.2 isAddress),
          isTidy_singleton isPort⟩)
  have unsets : ∀ u, StaysUnbroken AreUnbroken (unset u) := by
    intro u
    unfold unset
    split
    · exact meets_report_bind
    · exact derives ()
  have tracks : ∀ u, StaysUnbroken AreUnbroken (tracked u) := by
    intro u
    unfold tracked
    split
    · exact meets_report_bind
    · exact unsets ()
  split
  · exact meets_pure (by simp [AreUnbroken])
  · split
    · exact meets_report_bind
    · exact tracks ()

/-- The attributes that an entry of the list offers; no log class stands in that list. -/
theorem gives_offered {item : Value} (unbroken : item.isUnbroken = true) :
    Gives Record.IsTidy (offered item) := by
  have opened := Value.isUnbroken_opened unbroken
  unfold offered
  split
  · next entries same =>
      rw [same, Value.isUnbroken_map] at opened
      exact gives_ok (Entries.IsUnbroken.isTidy opened).recordOf
  · next same =>
      rw [same] at opened
      simp [Value.isUnbroken] at opened
  · exact gives_error

theorem IsTidy.unbroken_relatedFragments (tidy : rule.IsTidy)
    (expanding : ExpandsUnbroken expand) :
    StaysUnbroken AreUnbroken (relatedFragments expand rule) := by
  have related := tidy.attributes.get (show "related" ∉ logHolders by decide)
  have service := tidy.attributes.get (show "service" ∉ logHolders by decide)
  have listed (index : Nat) (items : List Value) (areItems : ∀ item ∈ items, item.isUnbroken = true) :
      StaysUnbroken AreUnbroken (listedRelated expand rule index items) := by
    induction items generalizing index with
    | nil => exact meets_pure (by simp [AreUnbroken])
    | cons item rest inductionHypothesis =>
        obtain ⟨isFirst, areRest⟩ := List.forall_mem_cons.1 areItems
        have derives : ∀ source : Record, source.IsTidy → StaysUnbroken AreUnbroken (do
            let first ← derive expand rule source
              { label := "related " ++ toString index, kind := .rule .related,
                changes := [("service", rule.attributes.get "service")] }
            return first ++ (← listedRelated expand rule (index + 1) rest) :
              Run (List Fragment)) := fun source isSource =>
          (unbroken_derive expanding isSource (isTidy_singleton service)).bind
            fun first areFirst => (inductionHypothesis (index + 1) areRest).bind
              fun others areOthers => meets_pure (areFirst.append areOthers)
        unfold listedRelated
        split
        · exact (meets_pure tidy.attributes).bind derives
        · exact (meets_lift (gives_offered isFirst)).bind derives
  unfold relatedFragments
  extract_lets given
  split
  · exact (unbroken_derive expanding tidy.attributes isTidy_nil).bind fun forward areForward =>
      (unbroken_derive expanding tidy.attributes (isTidy_singleton rfl)).bind
        fun reply areReply => meets_pure (areForward.append areReply)
  · exact listed 0 _ fun item => Value.isUnbroken_of_mem_toItems related

theorem IsTidy.unbroken_replyFragments (tidy : rule.IsTidy)
    (expanding : ExpandsUnbroken expand) {related : List Fragment} :
    StaysUnbroken AreUnbroken (replyFragments expand rule related) := by
  unfold replyFragments
  extract_lets derived
  have derives : ∀ u, StaysUnbroken AreUnbroken (derived u) := fun u =>
    unbroken_sectionKind.bind fun _ _ =>
      (unbroken_derive expanding tidy.attributes (isTidy_singleton rfl)).bind
        fun untracked areUntracked => unbroken_sectionKind.bind fun _ _ =>
          (unbroken_derive expanding tidy.attributes (isTidy_singleton rfl)).bind
            fun reply areReply => meets_pure (areUntracked.append areReply)
  split
  · exact meets_pure (by simp [AreUnbroken])
  · split
    · exact meets_report_bind
    · exact derives ()

theorem IsTidy.unbroken_followingFragments (tidy : rule.IsTidy)
    (expanding : ExpandsUnbroken expand) :
    StaysUnbroken AreUnbroken (followingFragments expand rule) := by
  have untracks : StaysUnbroken AreUnbroken (untrackedFragments expand rule) := by
    unfold untrackedFragments
    split
    · exact unbroken_sectionKind.bind fun _ _ =>
        unbroken_derive expanding tidy.attributes isTidy_nil
    · exact meets_pure (by simp [AreUnbroken])
  have finishes : StaysUnbroken AreUnbroken (finalFragments expand rule) := by
    refine (meets_recording fun _ _ => trivial).bind fun limitName _ => ?_
    split
    · refine unbroken_derive expanding tidy.attributes (List.forall_mem_singleton.2 ?_)
      exact (LogClass.tidy_optionValue tidy.isUnbroken_log?).imp_right Record.HoldsLog.log
    · exact meets_pure (by simp [AreUnbroken])
  refine (tidy.unbroken_dnatFragments expanding).bind fun redirected areRedirected =>
    untracks.bind fun untracked areUntracked => ?_
  split
  · exact finishes.bind fun final areFinal =>
      (tidy.unbroken_relatedFragments expanding).bind fun related areRelated =>
      (tidy.unbroken_replyFragments expanding).bind fun reply areReply => meets_pure
        ((((areRedirected.append areUntracked).append areFinal).append areRelated).append areReply)
  · exact meets_pure (areRedirected.append areUntracked)

end Extras

/-! ## Expansion -/

/-- The induction is on how deep derived rules are nested. -/
theorem expandsUnbroken_expandTo {depth : Nat} : ExpandsUnbroken (expandTo depth) := by
  induction depth with
  | zero => exact fun _ _ => meets_unusable
  | succ depth inductionHypothesis =>
      intro rule tidy
      change StaysUnbroken AreUnbroken (fragmentsWith (expandTo depth) rule)
      unfold fragmentsWith
      split
      · exact (tidy.unbroken_updateFragments inductionHypothesis).bind fun update areUpdate =>
          tidy.unbroken_ownFragments.bind fun own areOwn =>
          (tidy.unbroken_followingFragments inductionHypothesis).bind
            fun following areFollowing => meets_pure ((areUpdate.append areOwn).append areFollowing)
      · exact tidy.unbroken_ownFragments

/-- A tidy rule has no fragment with a line break. -/
theorem IsTidy.unbroken_fragments (tidy : rule.IsTidy) :
    StaysUnbroken AreUnbroken rule.fragments :=
  expandsUnbroken_expandTo rule tidy

end Rule

/-! ## Rules of sections -/

namespace Builtin

theorem gives_servicesNamed {entries : List Entry} (tidy : ∀ entry ∈ entries, entry.IsTidy) :
    Gives (fun found => ∀ service ∈ found, service.IsUnbroken) (servicesNamed entries) := by
  induction entries with
  | nil => exact gives_ok (by simp)
  | cons entry rest inductionHypothesis =>
      obtain ⟨isFirst, areRest⟩ := List.forall_mem_cons.1 tidy
      unfold servicesNamed
      split
      · next none => cases none
      · next rule others same =>
          obtain ⟨rfl, rfl⟩ := List.cons.inj same
          have isRule : rule.IsTidy := isFirst
          exact (inductionHypothesis areRest).bind fun found areFound =>
            gives_ok (List.forall_mem_append.2 ⟨isRule.mem_services, areFound⟩)
      · exact gives_error

theorem gives_distinctServices {selectors : List ServiceSelector}
    (unbroken : ∀ service ∈ selectors, service.IsUnbroken) :
    Gives (fun found => ∀ service ∈ found, service.IsUnbroken) (distinctServices selectors) := by
  have folded (services found : List Service) (areServices : ∀ service ∈ services, service.IsUnbroken)
      (areFound : ∀ service ∈ found, service.IsUnbroken) :
      ∀ service ∈ services.foldl (fun found service =>
        if found.any fun other => other.serial == service.serial then found
        else found ++ [service]) found, service.IsUnbroken := by
    induction services generalizing found with
    | nil => exact areFound
    | cons service rest inductionHypothesis =>
        obtain ⟨isFirst, areRest⟩ := List.forall_mem_cons.1 areServices
        rw [List.foldl_cons]
        refine inductionHypothesis _ areRest ?_
        split
        · exact areFound
        · exact List.forall_mem_append.2 ⟨areFound, List.forall_mem_singleton.2 isFirst⟩
  refine Gives.bind (?_ : Gives (fun services => ∀ service ∈ services,
    Service.IsUnbroken service) _) fun services areServices =>
      gives_ok (folded services [] areServices (by simp))
  refine gives_mapM fun selector member => ?_
  have isSelected := unbroken selector member
  split
  · exact gives_ok isSelected
  · exact gives_error

theorem gives_helperRules {family : String} (isFamily : Text.IsUnbroken family)
    {definition : ServiceDefinition} (unbroken : definition.IsUnbroken) :
    Gives AreUnbroken (helperRules family definition) := by
  unfold helperRules
  split
  · exact gives_ok (by simp [AreUnbroken])
  · next helper isHelper =>
      have written := Value.isUnbroken_written (unbroken.helper _ isHelper)
      refine (unbroken.fragments false).bind fun found areFound => gives_ok ?_
      have matched := areFound.combine (areUnbroken_singleton (isUnbroken_ofFamily isFamily))
      exact areUnbroken_map fun fragment member => (matched fragment member).withTarget
        (Text.isUnbroken_append.2 ⟨by decide, written⟩)

theorem gives_statefulRules {families : List String} {filters : List Entry}
    (areFamilies : ∀ family ∈ families, Text.IsUnbroken family)
    (tidy : ∀ entry ∈ filters, entry.IsTidy) :
    Gives AreUnbroken (statefulRules families filters) := by
  have established {family : String} (isFamily : Text.IsUnbroken family) :
      AreUnbroken (establishedRules family) := by
    have first : AreUnbroken (combine [some filterChains,
        some [matching ["-m conntrack --ctstate ESTABLISHED"]]] ++
        [{ Fragment.matching ["-i lo"] with chain := some "INPUT" },
          { Fragment.matching ["-o lo"] with chain := some "OUTPUT" }]) :=
      AreUnbroken.append (AreUnbroken.combine (by decide) (by decide)) (by decide)
    refine first.combine (areUnbroken_singleton ?_)
    exact { isUnbroken_empty with
      family := ifGiven_some.2 isFamily
      table := ifGiven_some.2 (by decide)
      target := ifGiven_some.2 (by decide) }
  refine (gives_mapM fun family member => ?_).bind fun found each =>
    gives_ok (areUnbroken_flatten each)
  have isFamily := areFamilies family member
  refine (gives_servicesNamed tidy).bind fun selected areSelected =>
    (gives_distinctServices areSelected).bind fun services areServices =>
    Gives.bind (?_ : Gives AreUnbroken _) fun assigned areAssigned =>
      gives_ok ((established isFamily).append areAssigned)
  refine Gives.bind (?_ : Gives (fun helpers => ∀ lists ∈ helpers, ∀ list ∈ lists,
    AreUnbroken list) _) fun helpers areHelpers => gives_ok (areUnbroken_combine ?_)
  · exact gives_mapM fun service isService => gives_mapM fun definition isDefinition =>
      gives_helperRules isFamily (areServices service isService definition isDefinition)
  · have flat : AreUnbroken helpers.flatten.flatten := by
      refine areUnbroken_flatten fun list member => ?_
      obtain ⟨lists, areLists, inLists⟩ := List.mem_flatten.1 member
      exact areHelpers lists areLists list inLists
    have table : AreUnbroken [ofTable "raw"] := by decide
    have chains : AreUnbroken [ofChain "PREROUTING", ofChain "OUTPUT"] := by decide
    simpa using ⟨table, chains, flat⟩

theorem areUnbroken_icmpRules (families : List String) : AreUnbroken (icmpRules families) := by
  have control : AreUnbroken controlRules := by decide +kernel
  exact fun rule member => control rule (List.mem_filter.1 member).1

end Builtin

/-- The rules that a virtual section contributes have no line break, where those that it lists have
none. -/
theorem RuleSource.unbroken_rules {source : RuleSource}
    (listed : ∀ rules, source = .fixed rules → AreUnbroken rules) :
    StaysUnbroken AreUnbroken source.rules := by
  cases source with
  | fixed rules => exact meets_pure (listed rules rfl)
  | stateful =>
      exact meets_get_bind fun context unbroken => meets_recording
        (Builtin.gives_statefulRules context.settings.isUnbroken_families
          (unbroken.entriesOf "filter").2)
  | icmp => exact meets_get_bind fun context _ =>
      meets_pure (Builtin.areUnbroken_icmpRules context.settings.families)

end FirewallPolicy
