import FirewallPolicy.Proofs.Compile.Phases
import FirewallPolicy.Proofs.Compile.Virtual
import FirewallPolicy.Proofs.Context.Twins
import FirewallPolicy.Proofs.Fragment.Narrowing
import FirewallPolicy.Proofs.Insertion.Narrowing
import FirewallPolicy.Proofs.Rule.TwinExpansion

/-!
# Compilations side by side

Once the named objects are declared, compilations in twin contexts take the same steps: the rules
are declared as the same ones, the batches of each section are expanded to the same fragments, and
what they put into the chains of the kept families is the same.

The rules of virtual sections for established connections and for control messages are made family
by family, and helpers are assigned for each service once, by its serial number.  So twin contexts
contribute the same rules, of which those of the kept families are left.
-/

namespace FirewallPolicy

open Stateful Run Context Fragment

variable {rename : Nat → Nat} {keep : String → Bool}

namespace Builtin

/-! ## Services with other serial numbers -/

theorem follows_servicesNamed (filters : List Entry) :
    Follows (Becomes (List.map (ServiceSelector.renamed rename))) (servicesNamed filters)
      (servicesNamed (filters.map (Entry.renamed rename))) := by
  induction filters with
  | nil => exact Follows.ok rfl
  | cons entry rest inductionHypothesis =>
      rcases entry with value | object
      · exact Follows.error
      cases object with
      | rule rule =>
          refine inductionHypothesis.bind ?_
          rintro others _ rfl
          refine Follows.ok ?_
          cases named : rule.services <;> simp [Becomes, named]
      | _ => exact Follows.error

theorem follows_distinctServices
    (injective : Function.Injective rename) (selectors : List ServiceSelector) :
    Follows (Becomes (List.map (Service.renamed rename))) (distinctServices selectors)
      (distinctServices (selectors.map (ServiceSelector.renamed rename))) := by
  have added (service : Service) (found : List Service) :
      (if (found.map (Service.renamed rename)).any fun other =>
          other.serial == (service.renamed rename).serial then found.map (Service.renamed rename)
        else found.map (Service.renamed rename) ++ [service.renamed rename]) =
      (if found.any fun other => other.serial == service.serial then found
        else found ++ [service]).map (Service.renamed rename) := by
    have sameTest : ((found.map (Service.renamed rename)).any fun other =>
        other.serial == (service.renamed rename).serial) =
        found.any fun other => other.serial == service.serial := by
      rw [List.any_map]
      refine congrArg (List.any found) (funext fun other => ?_)
      rw [Bool.eq_iff_iff]
      simp [Service.renamed, injective.eq_iff]
    rw [sameTest]
    split <;> simp
  have distinct (services found : List Service) :
      (services.map (Service.renamed rename)).foldl (fun found service =>
          if found.any fun other => other.serial == service.serial then found
          else found ++ [service]) (found.map (Service.renamed rename)) =
        (services.foldl (fun found service =>
          if found.any fun other => other.serial == service.serial then found
          else found ++ [service]) found).map (Service.renamed rename) := by
    induction services generalizing found with
    | nil => rfl
    | cons service rest inductionHypothesis =>
        rw [List.map_cons, List.foldl_cons, List.foldl_cons, added, inductionHypothesis]
  unfold distinctServices
  refine Follows.bind
    (?_ : Follows (List.Forall₂ (Becomes (Service.renamed rename))) _ _) fun services others related => ?_
  · refine Follows.mapM_forall₂ ((forall₂_becomes.2 rfl).imp ?_)
    rintro selector _ rfl
    cases selector with
    | service service => exact Follows.ok rfl
    | _ => exact Follows.error
  · obtain rfl := forall₂_becomes.1 related
    exact Follows.ok (distinct services [])

theorem assignmentRules_renamed (family : String) (services : List Service) :
    assignmentRules family (services.map (Service.renamed rename)) =
      assignmentRules family services := by
  have helper (definition : ServiceDefinition) :
      helperRules family (definition.renamed rename) = helperRules family definition := by
    unfold helperRules
    rw [ServiceDefinition.helper?_renamed]
    cases definition.helper? <;> simp
  simp only [assignmentRules, List.mapM_map, Function.comp_def, Service.renamed, helper]

/-! ## Family by family -/

theorem follows_statefulFamily
    (injective : Function.Injective rename) (filters : List Entry) (family : String) :
    Follows Eq (statefulFamily filters family)
      (statefulFamily (filters.map (Entry.renamed rename)) family) := by
  refine (follows_servicesNamed filters).bind ?_
  rintro selectors _ rfl
  refine (follows_distinctServices injective selectors).bind ?_
  rintro services _ rfl
  rw [assignmentRules_renamed]
  exact Follows.of_self fun _ _ => rfl

theorem family_of_statefulFamily
    {filters : List Entry} {family : String} {rules : List Fragment}
    (read : statefulFamily filters family = .ok rules) :
    ∀ rule ∈ rules, rule.family = some family := by
  obtain ⟨_, _, read⟩ := except_bind_eq_ok.1 read
  obtain ⟨services, _, read⟩ := except_bind_eq_ok.1 read
  obtain ⟨assigned, readAssigned, read⟩ := except_bind_eq_ok.1 read
  obtain rfl := except_pure_eq_ok.1 read
  intro rule member
  rcases List.mem_append.1 member with isEstablished | isAssigned
  · obtain ⟨part, isPart, extends_⟩ := exists_extends_of_mem_combine isEstablished
      (List.mem_cons_of_mem _ (List.mem_cons_self ..))
    rw [List.mem_singleton.1 isPart] at extends_
    exact extends_.family family rfl
  · exact family_assignmentRules readAssigned rule isAssigned

/-- The rules before the filter rules: those of the kept families are left. -/
theorem follows_statefulRules
    (injective : Function.Injective rename) (families : List String) (filters : List Entry) :
    Follows (Becomes (narrow keep)) (statefulRules families filters)
      (statefulRules (families.filter keep) (filters.map (Entry.renamed rename))) := by
  have lists : Follows
      (fun found others => others.flatten = narrow keep found.flatten)
      (families.mapM (statefulFamily filters))
      ((families.filter keep).mapM (statefulFamily (filters.map (Entry.renamed rename)))) := by
    induction families with
    | nil => exact Follows.ok rfl
    | cons family rest inductionHypothesis =>
        intro found read
        simp only [List.mapM_cons, except_bind_eq_ok, except_pure_eq_ok] at read
        obtain ⟨first, firstRead, others, othersRead, rfl⟩ := read
        obtain ⟨kept, keptRead, sameKept⟩ := inductionHypothesis others othersRead
        obtain ⟨_, firstAgain, rfl⟩ := follows_statefulFamily injective filters family first firstRead
        have isFamily := family_of_statefulFamily firstRead
        rw [List.filter_cons]
        dsimp only
        rw [List.flatten_cons, narrow_append]
        split
        · next isKept =>
            have allKept : narrow keep first = first := narrow_eq_self fun rule member => by
              simp [Fragment.isKept, isFamily rule member, isKept]
            refine ⟨first :: kept, ?_, ?_⟩
            · rw [List.mapM_cons, firstAgain, keptRead]
              rfl
            · rw [List.flatten_cons, sameKept, allKept]
        · next strange =>
            have noneKept : narrow keep first = [] :=
              List.filter_eq_nil_iff.2 fun rule member => by
                simpa [Fragment.isKept, isFamily rule member] using strange
            rw [noneKept, List.nil_append]
            exact ⟨kept, keptRead, sameKept⟩
  unfold statefulRules
  refine lists.bind fun found others same => Follows.ok ?_
  exact same

/-- The rules for control messages: those of the kept families are left. -/
theorem icmpRules_filter (families : List String) :
    icmpRules (families.filter keep) = narrow keep (icmpRules families) := by
  unfold icmpRules narrow
  rw [List.filter_filter]
  refine List.filter_congr fun rule _ => ?_
  cases isFamily : rule.family with
  | none => simp [Fragment.isKept, isFamily]
  | some family =>
      rw [Bool.eq_iff_iff]
      simp [Fragment.isKept, isFamily, and_comm]

end Builtin

/-- A virtual section of the built-in ones contributes the same rules in twin contexts, of which
those of the kept families are left. -/
theorem RuleSource.lockstep_rules
    {source : RuleSource} (builtin : source = .fixed [] ∨ source = .stateful ∨ source = .icmp) :
    Lockstep (Twin rename keep) (Becomes (narrow keep)) source.rules source.rules := by
  rcases builtin with rfl | rfl | rfl
  · exact lockstep_pure rfl
  · refine lockstep_get_bind fun first second twin => lockstep_recording ?_
    have filters := twin.rules _ (show Builtin.ruleSections[1] ∈ Builtin.ruleSections by decide)
    rw [show Builtin.ruleSections[1].name = "filter" from rfl] at filters
    rw [twin.families, filters, SectionEntries.values_renamed]
    exact Builtin.follows_statefulRules twin.injective _ _
  · refine lockstep_get_bind fun first second twin => lockstep_pure ?_
    rw [twin.families]
    exact Builtin.icmpRules_filter _

/-! ## Declaring rules -/

/-- The sections of rules are neither those of named objects nor those of sets and own chains. -/
theorem name_of_mem_ruleSections :
    ∀ described ∈ Builtin.ruleSections,
      described.name ∉ ["zone", "service", "log", "custom", "ipset"] := by
  decide

theorem kind_of_mem_ruleSections
    {described : Section} (isRule : described ∈ Builtin.ruleSections)
    {kind : ObjectKind} (isKind : described.kind = some kind) :
    ∃ rules, kind = .rule rules := by
  revert isKind
  simp only [Builtin.ruleSections, List.mem_cons, List.not_mem_nil, or_false] at isRule
  rcases isRule with rfl | rfl | rfl | rfl | rfl | rfl | rfl <;> simp +contextual [eq_comm]

/-- The entry of a rule, as an object, is as steady as the rule. -/
theorem Rule.IsSteady.entry
    {rule : Rule} (steady : rule.IsSteady keep) :
    (Entry.object (.rule rule)).IsSteady keep rule.kind := by
  refine ⟨?_, steady.imp_right fun limits isFilter entries isDeclared => ?_⟩
  · rintro _ ⟨⟩
    rfl
  · obtain rfl := Option.some.inj isDeclared
    rw [PolicyObject.attributes, recordOf_toEntries]
    exact limits isFilter

namespace Context.Twin

variable {first second : Context} (twin : Twin rename keep first second)
include twin

theorem withObject
    {described : Section} (isRule : described ∈ Builtin.ruleSections) {kind : RuleKind}
    (isKind : described.kind = some (.rule kind)) {rule : Rule} (sameKind : rule.kind = kind)
    (steady : rule.IsSteady keep) (key : Scalar) :
    Twin rename keep (Building.withObject first described.name key (.rule rule))
      (Building.withObject second described.name key (.rule (rule.renamed rename))) := by
  have others {name : String} (isNamed : name ∈ ["zone", "service", "log", "custom", "ipset"])
      (context : Context) (object : PolicyObject) :
      (Building.withObject context described.name key object).entriesOf name =
        context.entriesOf name := by
    refine entriesOf_set_of_ne ?_ context _
    rintro rfl
    exact name_of_mem_ruleSections described isRule isNamed
  -- The rule stands in its own section, and the named objects are in others.
  refine { twin with
    zones := ?_, services := ?_, logs := ?_, chains := ?_, rules := ?_, steady := ?_,
    sets := ?_ }
  · rw [others (by decide), others (by decide)]
    exact twin.zones
  · rw [others (by decide), others (by decide)]
    exact twin.services
  · rw [others (by decide), others (by decide)]
    exact twin.logs
  · rw [others (by decide), others (by decide)]
    exact twin.chains
  · intro other isOther
    by_cases same : other.name = described.name
    · unfold Building.withObject
      rw [same, entriesOf_set_self, entriesOf_set_self, twin.rules described isRule,
        ← SectionEntries.put_renamed]
      rfl
    · unfold Building.withObject
      rw [entriesOf_set_of_ne same, entriesOf_set_of_ne same]
      exact twin.rules other isOther
  · intro other isOther otherKind isOtherKind entry member
    unfold Building.withObject at member
    by_cases same : other.name = described.name
    · have sameKinds : some (ObjectKind.rule otherKind) = some (.rule kind) :=
        isOtherKind.symm.trans ((Building.kind_eq_of_name_eq other
          (List.mem_append_right _ isOther) described (List.mem_append_right _ isRule) same).trans
            isKind)
      cases sameKinds
      rw [same, entriesOf_set_self] at member
      rcases SectionEntries.mem_put member with old | rfl
      · exact twin.steady described isRule kind isKind entry old
      · exact sameKind ▸ steady.entry
    · rw [entriesOf_set_of_ne same] at member
      exact twin.steady other isOther otherKind isOtherKind entry member
  · rw [others (by decide), others (by decide)]
    exact twin.sets

end Context.Twin

/-- A steady entry declares a steady rule. -/
theorem Entry.IsSteady.of_declare
    {kind : RuleKind} {source : Entry} (steady : source.IsSteady keep kind) {location : String}
    {rule : Rule} {before after : Context}
    (run : Rule.declare kind location source before = (.ok rule, after)) :
    rule.kind = kind ∧ rule.IsSteady keep := by
  obtain ⟨entries, isDeclared, settled⟩ := Rule.settledFrom_of_declare run
  refine ⟨settled.kind, steady.limits.imp_right fun limits isFilter => ?_⟩
  exact Rule.limitsSingly_of_declare (limits (settled.kind ▸ isFilter) entries isDeclared)
    isDeclared run

theorem PolicyObject.lockstep_declare_rule
    {kind : RuleKind} {source : Entry} (steady : source.IsSteady keep kind) (location : String)
    (key : Option Scalar) :
    Lockstep (Twin rename keep)
      (fun object other => ∃ rule : Rule, object = .rule rule ∧ other = .rule (rule.renamed rename) ∧
        rule.kind = kind ∧ rule.IsSteady keep)
      (declare (.rule kind) location key source)
      (declare (.rule kind) location key (source.renamed rename)) := by
  have yields : Yields (fun rule : Rule => rule.kind = kind ∧ rule.IsSteady keep)
      (Rule.declare kind location source) := fun _ _ _ run => steady.of_declare run
  refine ((Rule.lockstep_declare kind location source).and_yields yields).bind ?_
  rintro rule _ ⟨rfl, sameKind, isSteady⟩
  exact lockstep_pure ⟨rule, rfl, rfl, sameKind, isSteady⟩

namespace Building

/-- The entries of rules stand at the same locations in both policies. -/
def SameLocations (policy other : Policy) : Prop :=
  ∀ described ∈ Builtin.ruleSections, ∀ key,
    entryLocation other described.name key = entryLocation policy described.name key

section Declaring

variable {states : Context → Context → Prop} {policy other : Policy}

/-- Sections are declared in lockstep when they have the same keys and the entries of each key are. -/
theorem lockstep_declareSections
    {sections : List Section}
    (keys : ∀ described ∈ sections, ∀ first second, states first second →
      (second.entriesOf described.name).keys = (first.entriesOf described.name).keys)
    (each : ∀ described ∈ sections, ∀ kind, described.kind = some kind → ∀ key,
      Lockstep states Eq (declareKey policy described.name kind key)
        (declareKey other described.name kind key)) :
    Lockstep states Eq (declareSections policy sections) (declareSections other sections) := by
  have listed {name : String} {kind : ObjectKind}
      (each : ∀ key, Lockstep states Eq (declareKey policy name kind key)
        (declareKey other name kind key)) (keys : List Scalar) :
      Lockstep states Eq (declareKeys policy name kind keys) (declareKeys other name kind keys) := by
    induction keys with
    | nil => exact lockstep_pure rfl
    | cons key rest inductionHypothesis =>
        exact (each key).bind_same fun _ => inductionHypothesis
  induction sections with
  | nil => exact lockstep_pure rfl
  | cons described rest inductionHypothesis =>
      rw [List.forall_mem_cons] at keys each
      refine Lockstep.bind_same ?_ fun _ => inductionHypothesis keys.2 each.2
      unfold declareSection
      cases known : (if described.isVirtual then none else described.kind) with
      | none => exact lockstep_pure rfl
      | some kind =>
          have isKind : described.kind = some kind := by
            split at known
            · simp at known
            · exact known
          refine lockstep_get_bind fun first second related => ?_
          rw [keys.1 first second related]
          exact listed (each.1 kind isKind) _

end Declaring

/-- In twin contexts the sections of rules are declared as the same rules. -/
theorem lockstep_declareRules
    {policy other : Policy} (located : SameLocations policy other) :
    Lockstep (Twin rename keep) Eq (declareSections policy Builtin.ruleSections)
      (declareSections other Builtin.ruleSections) := by
  refine lockstep_declareSections (fun described isRule first second twin => ?_)
    fun described isRule kind isKind key => ?_
  · rw [twin.rules described isRule, SectionEntries.keys_renamed]
  obtain ⟨rules, rfl⟩ := kind_of_mem_ruleSections isRule isKind
  unfold declareKey
  split
  · exact lockstep_unusable_bind
  · refine lockstep_get_bind fun first second twin => ?_
    rw [twin.rules described isRule, (SectionEntries.alike_renamed _).get?,
      located described isRule]
    cases found : (first.entriesOf described.name).get? key with
    | none => exact lockstep_unusable
    | some entry =>
        have steady := twin.steady described isRule rules isKind entry
          (SectionEntries.mem_of_get? found)
        refine (PolicyObject.lockstep_declare_rule steady _ _).bind ?_
        rintro _ _ ⟨rule, rfl, rfl, sameKind, isSteady⟩
        exact lockstep_modify fun _ _ twin =>
          twin.withObject isRule isKind sameKind isSteady key

end Building

/-! ## Inserting rules -/

theorem Context.Twin.sameBodies {first second : Context} (twin : Twin rename keep first second) :
    Assembly.SameBodies first.chainSource second.chainSource := by
  intro owner place
  have sameChain (name : String) : CustomChain.find? (second.entriesOf "custom") name =
      CustomChain.find? (first.entriesOf "custom") name := by
    have alike := twin.chains
    generalize first.entriesOf "custom" = chains at alike
    generalize second.entriesOf "custom" = others at alike
    cases alike with
    | list items => rw [List.map_id]
    | map found => simp only [CustomChain.find?, found, Option.map_id_fun, id_eq]
  simp only [ChainSource.body, CustomChain.body, Context.chainSource, twin.auxiliary, sameChain]

/-- Two builds whose contexts are twins; the second one has the chains of the kept families. -/
structure Build.Twin (rename : Nat → Nat) (keep : String → Bool) (first second : Build) : Prop where
  context : Context.Twin rename keep first.context second.context
  assembly : Assembly.Narrows keep first.assembly second.assembly

namespace Building

theorem lockstep_inContext
    {α β : Type} {results : α → β → Prop} {action : Run α} {other : Run β}
    (lockstep : Lockstep (Context.Twin rename keep) results action other) :
    Lockstep (Build.Twin rename keep) results (inContext action) (inContext other) := by
  intro before otherBefore a after twin run
  obtain ⟨run, sameAssembly⟩ := inContext_eq_ok.1 run
  obtain ⟨b, otherAfter, otherRun, related, afterTwin⟩ := lockstep _ _ _ _ twin.context run
  exact ⟨b, ⟨otherAfter, otherBefore.assembly⟩, inContext_eq_ok.2 ⟨otherRun, rfl⟩, related,
    afterTwin, sameAssembly ▸ twin.assembly⟩

theorem lockstep_insertRules (owner : String) (fragments : List Fragment) :
    Lockstep (Build.Twin rename keep) Eq (insertRules owner fragments)
      (insertRules owner (narrow keep fragments)) := by
  intro before otherBefore _ after twin run
  unfold insertRules at run
  dsimp only at run
  cases inserted : Assembly.insert ⟨before.context.auxiliary, before.context.entriesOf "custom"⟩
      owner fragments before.assembly with
  | mk result assembly =>
      rw [inserted] at run
      obtain ⟨recorded, sameAssembly⟩ := inContext_eq_ok.1 run
      obtain ⟨isOk, sameContext⟩ := Run.recording_eq_ok.1 recorded
      obtain rfl : result = .ok () := isOk
      obtain ⟨partAfter, partInserted, narrows⟩ :=
        Assembly.insert_narrow twin.context.sameBodies twin.assembly inserted
      refine ⟨(), ⟨otherBefore.context, partAfter⟩, ?_, rfl, sameContext ▸ twin.context,
        sameAssembly ▸ narrows⟩
      unfold insertRules
      change inContext (recording (Assembly.insert otherBefore.context.chainSource owner _ _).1)
        { otherBefore with
          assembly := (Assembly.insert otherBefore.context.chainSource owner _ _).2 } = _
      rw [partInserted]
      rfl

theorem lockstep_insertObjects
    (selection : IsSelection keep) {kind : RuleKind} {entries : List Entry}
    (steady : ∀ entry ∈ entries, entry.IsSteady keep kind) :
    Lockstep (Build.Twin rename keep) Eq (insertObjects entries)
      (insertObjects (entries.map (Entry.renamed rename))) := by
  induction entries with
  | nil => exact lockstep_pure rfl
  | cons entry rest inductionHypothesis =>
      rw [List.forall_mem_cons] at steady
      have others := inductionHypothesis steady.2
      cases entry with
      | raw value => exact others
      | object object =>
          cases object with
          | rule rule =>
              have isSteady : rule.IsSteady keep := steady.1.limits.imp_right fun limits isFilter => by
                have single := limits (steady.1.sameKind rule rfl ▸ isFilter) _ rfl
                rwa [PolicyObject.attributes, recordOf_toEntries] at single
              refine (lockstep_inContext (Rule.lockstep_fragments selection isSteady)).bind ?_
              rintro fragments _ rfl
              exact (lockstep_insertRules _ _).bind_same fun _ => others
          | _ => exact others

theorem lockstep_insertSection
    (selection : IsSelection keep) {described : Section}
    (isRule : described ∈ Builtin.loadedSection :: Builtin.ruleSections) :
    Lockstep (Build.Twin rename keep) Eq (insertSection described) (insertSection described) := by
  unfold insertSection
  split
  · next isVirtual =>
      have builtin := Builtin.rules_of_isVirtual described (Builtin.subset_ordered isRule) isVirtual
      refine (lockstep_inContext (RuleSource.lockstep_rules builtin)).bind ?_
      rintro fragments _ rfl
      exact lockstep_insertRules "" fragments
  · split
    · next hasKind =>
        obtain ⟨kind, isKind⟩ := Option.isSome_iff_exists.1 hasKind
        have isRule : described ∈ Builtin.ruleSections := by
          rcases List.mem_cons.1 isRule with rfl | isRule
          · simp [Builtin.loadedSection] at isKind
          · exact isRule
        obtain ⟨rules, rfl⟩ := kind_of_mem_ruleSections isRule isKind
        refine lockstep_get_bind fun first second twin => ?_
        rw [twin.context.rules described isRule, SectionEntries.values_renamed]
        exact lockstep_insertObjects selection (twin.context.steady described isRule rules isKind)
    · exact lockstep_pure rfl

theorem lockstep_insertSections
    (selection : IsSelection keep) {sections : List Section}
    (areRules : sections ⊆ Builtin.loadedSection :: Builtin.ruleSections) :
    Lockstep (Build.Twin rename keep) Eq (insertSections sections) (insertSections sections) := by
  induction sections with
  | nil => exact lockstep_pure rfl
  | cons described rest inductionHypothesis =>
      rw [List.cons_subset] at areRules
      exact (lockstep_insertSection selection areRules.1).bind_same fun _ =>
        inductionHypothesis areRules.2

/-! ## Sections of named objects -/

theorem insertObjects_of_noRules
    {entries : List Entry} (noRules : rulesAmong entries = []) :
    insertObjects entries = pure () := by
  induction entries with
  | nil => rfl
  | cons entry rest inductionHypothesis =>
      cases entry with
      | raw value => exact inductionHypothesis noRules
      | object object =>
          cases object with
          | rule rule => simp [rulesAmong] at noRules
          | _ => exact inductionHypothesis noRules

/-- Nothing is inserted for the sections of named objects. -/
theorem insertSections_ordered
    {build : Build} (hasKind : EachEntry HasKind build.context) :
    insertSections Builtin.ordered build =
      insertSections (Builtin.loadedSection :: Builtin.ruleSections) build := by
  have skipped {described : Section} (notVirtual : described.isVirtual = false)
      (noRules : described.kind.isSome = true → build.context.rulesIn described.name = [])
      (rest : List Section) :
      insertSections (described :: rest) build = insertSections rest build := by
    have inserted : insertSection described build = (.ok (), build) := by
      unfold insertSection
      rw [notVirtual, if_neg Bool.false_ne_true]
      split
      · next hasSome =>
          change insertObjects (build.context.entriesOf described.name).values build = _
          rw [insertObjects_of_noRules (noRules hasSome)]
          rfl
      · rfl
    rw [insertSections, bind_apply, inserted]
  have noRules (described : Section) (isObject : described ∈ Builtin.objectSections) :=
    @rulesIn_of_mem_objectSections build.context hasKind described isObject
  simp only [Builtin.ordered, Builtin.objectSections, List.cons_append, List.nil_append]
  rw [skipped (by decide) (noRules _ (by decide)), skipped (by decide) (noRules _ (by decide)),
    skipped (by decide) (noRules _ (by decide)), skipped (by decide) (noRules _ (by decide)),
    skipped (by decide) (noRules _ (by decide))]

/-! ## Whole compilations -/

/-- What is left to do once the named objects are declared. -/
def finish (policy : Policy) : Building (List AddressSet) := do
  inContext (declareSections policy Builtin.ruleSections)
  insertSections Builtin.ordered
  match setDefinitions ((← get).context.entriesOf "ipset") >>= AddressSet.readAll with
  | .ok sets => return sets
  | .error failure => throw failure

theorem declareSections_append (policy : Policy) (sections others : List Section) :
    declareSections policy (sections ++ others) =
      (declareSections policy sections >>= fun _ => declareSections policy others) := by
  induction sections with
  | nil => rfl
  | cons described rest inductionHypothesis =>
      rw [List.cons_append, declareSections, declareSections, inductionHypothesis, bind_assoc]

/-- Processing a policy declares the named objects first. -/
theorem process_eq_ok
    {policy : Policy} {build final : Build} {sets : List AddressSet} :
    process policy build = (.ok sets, final) ↔
      ∃ declared, declareSections policy Builtin.objectSections build.context =
          (.ok (), declared) ∧
        finish policy { build with context := declared } = (.ok sets, final) := by
  unfold process finish Builtin.ordered
  rw [declareSections_append]
  simp only [bind_eq_ok, inContext_eq_ok]
  constructor
  · rintro ⟨_, ⟨context, assembly⟩, ⟨⟨_, declared, objects, rules⟩, sameAssembly⟩, continued⟩
    exact ⟨declared, objects, (), ⟨context, assembly⟩, ⟨rules, sameAssembly⟩, continued⟩
  · rintro ⟨declared, objects, _, ⟨context, assembly⟩, ⟨rules, sameAssembly⟩, continued⟩
    exact ⟨(), ⟨context, assembly⟩, ⟨⟨(), declared, objects, rules⟩, sameAssembly⟩, continued⟩

theorem hasKind_of_declareSections
    {policy : Policy} {sections : List Section} (areBuiltin : sections ⊆ Builtin.ordered)
    {before after : Context} (hasKind : EachEntry HasKind before)
    (run : declareSections policy sections before = (.ok (), after)) :
    EachEntry HasKind after :=
  (survives_hasKind.declareSections areBuiltin ⟨trivial, hasKind⟩ run).2

/-- In twin contexts what is left to do succeeds alike: the chains of the kept families are the same,
the same is warned of, and the address sets print the same. -/
theorem lockstep_finish
    {policy other : Policy} (located : SameLocations policy other) (selection : IsSelection keep)
    {first second : Context} (twin : Twin rename keep first second)
    (hasKind : EachEntry HasKind first) (otherHasKind : EachEntry HasKind second)
    {sets : List AddressSet} {final : Build}
    (run : finish policy { context := first } = (.ok sets, final)) :
    ∃ others otherFinal, finish other { context := second } = (.ok others, otherFinal) ∧
      AddressSet.PrintsAlike sets others ∧ Build.Twin rename keep final otherFinal := by
  have narrows : Assembly.Narrows keep {} {} := ⟨rfl, rfl⟩
  obtain ⟨_, ⟨context, assembly⟩, declares, continued⟩ := bind_eq_ok.1 run
  obtain ⟨declares, rfl⟩ := inContext_eq_ok.1 declares
  obtain ⟨_, otherContext, otherDeclares, rfl, declaredTwin⟩ :=
    lockstep_declareRules located first second _ _ twin declares
  have areRules : Builtin.ruleSections ⊆ Builtin.ordered := fun _ => List.mem_append_right _
  obtain ⟨_, inserted, inserts, continued⟩ := bind_eq_ok.1 continued
  rw [insertSections_ordered (hasKind_of_declareSections areRules hasKind declares)] at inserts
  obtain ⟨_, otherInserted, otherInserts, rfl, insertedTwin⟩ :=
    lockstep_insertSections selection (List.Subset.refl _) _ ⟨otherContext, {}⟩ _ _
      ⟨declaredTwin, narrows⟩ inserts
  rw [← insertSections_ordered
    (hasKind_of_declareSections areRules otherHasKind otherDeclares)] at otherInserts
  obtain ⟨_, _, gets, continued⟩ := bind_eq_ok.1 continued
  obtain ⟨rfl, rfl⟩ := get_eq_ok.1 gets
  cases read : setDefinitions (inserted.context.entriesOf "ipset") >>= AddressSet.readAll with
  | error failure =>
      simp only [read] at continued
      exact (throw_eq_ok.1 continued).elim
  | ok found =>
      simp only [read] at continued
      obtain ⟨rfl, rfl⟩ := pure_eq_ok.1 continued
      obtain ⟨others, otherRead, alike⟩ := insertedTwin.context.sets _ read
      refine ⟨others, otherInserted, ?_, alike, insertedTwin⟩
      refine bind_eq_ok.2 ⟨(), ⟨otherContext, {}⟩, inContext_eq_ok.2 ⟨otherDeclares, rfl⟩,
        bind_eq_ok.2 ⟨(), _, otherInserts, bind_eq_ok.2 ⟨_, _, rfl, ?_⟩⟩⟩
      simp only [otherRead]
      rfl

end Building

end FirewallPolicy
