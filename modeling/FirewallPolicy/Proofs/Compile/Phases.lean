import FirewallPolicy.Proofs.Compile.Batches
import FirewallPolicy.Proofs.Compile.Sections
import FirewallPolicy.Proofs.Rule.Derived

/-!
# The phases of a compilation

A compilation with the built-in modules loads the policy, declares the objects of every section,
and inserts the rules section by section.  Whatever it does to the context keeps it sound, given
that the policy itself holds no log class that was set up before.
-/

namespace FirewallPolicy

open Context Stateful

/-- The values that a section of a policy states. -/
def SectionData.values : SectionData → List Value
  | .list items => items
  | .map entries => entries.map (·.2)

/-- No log class stands in the policy that was set up before. -/
def Policy.IsWritten (policy : Policy) : Prop :=
  ∀ stated ∈ policy.objects, ∀ value ∈ stated.2.values, value.isWritten = true

namespace Building

/-! ## Loading -/

/-- The context once the built-in modules and the policy are loaded. -/
def loaded (policy : Policy) (hosts : HostBook) (settings : Settings) : Context where
  settings := settings
  hosts := hosts
  sections := Builtin.registered
  auxiliary := Builtin.filter.auxiliary
  objects := policy.objects.map fun entry => (entry.1, rawEntries entry.2)

theorem notes_warnUnknown {names : List String} :
    Moves Notes (warnUnknown names) := by
  induction names with
  | nil => exact moves_pure _
  | cons name rest inductionHypothesis => exact Run.notes_warn.bind fun _ => inductionHypothesis

theorem notes_checkKeyed {context : Context} {sections : Named Section} :
    Moves Notes (checkKeyed context sections) := by
  induction sections with
  | nil => exact moves_pure _
  | cons entry rest inductionHypothesis =>
      obtain ⟨name, described⟩ := entry
      unfold checkKeyed
      extract_lets entries continue_
      split
      · exact Run.notes_report.bind fun _ => inductionHypothesis
      · exact inductionHypothesis

/-- The order that is asked for the first time is kept. -/
theorem order_eq_ok
    {names : List String} {before after : Context}
    (unordered : before.knownOrder = none)
    (run : Run.order before = (.ok names, after)) :
    Order.resolve (Run.directives before.sections) = .ok names ∧
      after = { before with knownOrder := some names } := by
  simp only [Run.order, bind_eq_ok, get_eq_ok] at run
  obtain ⟨_, _, ⟨rfl, rfl⟩, run⟩ := run
  simp only [unordered] at run
  cases resolved : Order.resolve (Run.directives before.sections) with
  | ok known =>
      simp only [resolved, bind_eq_ok, pure_eq_ok] at run
      obtain ⟨_, _, stores, rfl, rfl⟩ := run
      exact ⟨rfl, (Prod.mk.inj stores).2.symm⟩
  | error cycle =>
      simp only [resolved] at run
      exact (throw_eq_ok.1 run).elim

theorem order_of_resolve
    {names : List String} {context : Context}
    (unordered : context.knownOrder = none)
    (resolved : Order.resolve (Run.directives context.sections) = .ok names) :
    Run.order context = (.ok names, { context with knownOrder := some names }) := by
  have reads : (get : Run Context) context = (.ok context, context) := rfl
  rw [Run.order, bind_apply, reads]
  simp only [unordered, resolved]
  rfl

/-- The context once the policy is loaded and checked. -/
def checked (policy : Policy) (hosts : HostBook) (settings : Settings) : Context :=
  { loaded policy hosts settings with knownOrder := some (Builtin.ordered.map (·.name)) }

/-! ## Declaring -/

theorem kind_of_name_eq_log :
    ∀ described ∈ Builtin.ordered, described.name = "log" → described.kind = some .log := by
  decide

theorem declareSection_of_kind
    {policy : Policy} {described : Section} {kind : ObjectKind}
    (isKind : described.kind = some kind) (notVirtual : described.isVirtual = false)
    (before : Context) :
    declareSection policy described before =
      declareKeys policy described.name kind (before.entriesOf described.name).keys before := by
  unfold declareSection
  rw [notVirtual, if_neg Bool.false_ne_true, isKind]
  rfl

/-- The context with an object in the place of an entry. -/
def withObject (context : Context) (name : String) (key : Scalar) (object : PolicyObject) :
    Context :=
  { context with
    objects := context.objects.set name ((context.entriesOf name).put key (.object object)) }

/-- What holds of a context survives the declaration of an object: the object is put in the place
of the entry that declares it.  Putting a log class in its place only notes it. -/
structure Survives (invariant : Context → Prop) : Prop where
  notes : ∀ before after, Notes before after → invariant before → invariant after
  declares : ∀ described ∈ Builtin.ordered, described.name ≠ "log" →
    ∀ kind, described.kind = some kind →
    ∀ location name key source object before after, invariant before →
      (before.entriesOf described.name).get? key = some source →
      PolicyObject.declare kind location name source before = (.ok object, after) →
      invariant (withObject after described.name key object)

/-- The entry of a key becomes the object that it declares. -/
theorem declareKey_eq_ok
    {policy : Policy} {name : String} {kind : ObjectKind} {key : Scalar} {before after : Context}
    (run : Building.declareKey policy name kind key before = (.ok (), after)) :
    key.isShowable = true ∧ ∃ entry object middle,
      (before.entriesOf name).get? key = some entry ∧
      PolicyObject.declare kind (entryLocation policy name key) (LogClass.keyOf key) entry before =
        (.ok object, middle) ∧
      after = withObject middle name key object := by
  unfold Building.declareKey at run
  split at run
  · obtain ⟨_, _, stops, _⟩ := bind_eq_ok.1 run
    exact (Run.unusable_eq_ok.1 stops).elim
  · next showable =>
      obtain ⟨_, _, gets, run⟩ := bind_eq_ok.1 run
      obtain ⟨rfl, rfl⟩ := get_eq_ok.1 gets
      cases found : (before.entriesOf name).get? key with
      | none =>
          simp only [found] at run
          exact (Run.unusable_eq_ok.1 run).elim
      | some entry =>
          simp only [found, bind_eq_ok, modify_eq_ok] at run
          obtain ⟨object, middle, declares, _, rfl⟩ := run
          exact ⟨by simpa using showable, entry, object, middle, rfl, declares, rfl⟩

theorem Survives.declareKey
    {invariant : Context → Prop} (survives : Survives invariant)
    {policy : Policy} {described : Section} {kind : ObjectKind} {key : Scalar}
    {before after : Context}
    (isBuiltin : described ∈ Builtin.ordered) (isKind : described.kind = some kind)
    (holds : invariant before)
    (run : Building.declareKey policy described.name kind key before = (.ok (), after)) :
    invariant after := by
  obtain ⟨-, entry, object, middle, found, declares, rfl⟩ := declareKey_eq_ok run
  by_cases isLog : described.name = "log"
  · refine survives.notes _ _ ?_ holds
    have isLogKind : some kind = some .log :=
      isKind.symm.trans (kind_of_name_eq_log described isBuiltin isLog)
    obtain rfl := Option.some.inj isLogKind
    obtain ⟨log, _, declaresLog, made⟩ := bind_eq_ok.1 declares
    obtain ⟨rfl, rfl⟩ := pure_eq_ok.1 made
    rw [isLog] at found ⊢
    exact LogClass.notes_put found declaresLog
  · exact survives.declares described isBuiltin isLog kind isKind _ _ _ _ _ _ _ holds found
      declares

theorem Survives.declareKeys
    {invariant : Context → Prop} (survives : Survives invariant)
    {policy : Policy} {described : Section} {kind : ObjectKind} {keys : List Scalar}
    {before after : Context}
    (isBuiltin : described ∈ Builtin.ordered) (isKind : described.kind = some kind)
    (holds : invariant before)
    (run : Building.declareKeys policy described.name kind keys before = (.ok (), after)) :
    invariant after := by
  induction keys generalizing before with
  | nil =>
      obtain ⟨_, rfl⟩ := pure_eq_ok.1 run
      exact holds
  | cons key rest inductionHypothesis =>
      obtain ⟨_, middle, first, run⟩ := bind_eq_ok.1 run
      exact inductionHypothesis (survives.declareKey isBuiltin isKind holds first) run

theorem Survives.declareSections
    {invariant : Context → Prop} (survives : Survives invariant)
    {policy : Policy} {sections : List Section} {before after : Context}
    (areBuiltin : sections ⊆ Builtin.ordered) (holds : invariant before)
    (run : Building.declareSections policy sections before = (.ok (), after)) :
    invariant after := by
  induction sections generalizing before with
  | nil =>
      obtain ⟨_, rfl⟩ := pure_eq_ok.1 run
      exact holds
  | cons described rest inductionHypothesis =>
      rw [List.cons_subset] at areBuiltin
      obtain ⟨_, middle, first, run⟩ := bind_eq_ok.1 run
      refine inductionHypothesis areBuiltin.2 ?_ run
      unfold declareSection at first
      cases known : (if described.isVirtual then none else described.kind) with
      | none =>
          simp only [known] at first
          obtain ⟨_, rfl⟩ := pure_eq_ok.1 first
          exact holds
      | some kind =>
          simp only [known, bind_eq_ok, get_eq_ok] at first
          obtain ⟨_, _, ⟨rfl, rfl⟩, first⟩ := first
          refine survives.declareKeys areBuiltin.1 ?_ holds first
          split at known
          · simp at known
          · exact known

/-! ## What survives declaring -/

/-- What a compilation has before it expands rules, apart from the objects. -/
structure Framed (start context : Context) : Prop where
  settings : context.settings = start.settings
  directory : context.hosts.directory = start.hosts.directory
  sections : context.sections = start.sections
  auxiliary : context.auxiliary = start.auxiliary
  declared : context.declared = start.declared
  counters : context.counters = start.counters
  chainNames : context.chainNames = start.chainNames
  custom : context.entriesOf "custom" = start.entriesOf "custom"

theorem Framed.refl (context : Context) : Framed context context :=
  ⟨rfl, rfl, rfl, rfl, rfl, rfl, rfl, rfl⟩

theorem Framed.notes
    {start before after : Context}
    (framed : Framed start before) (notes : Notes before after) :
    Framed start after where
  settings := notes.settings.trans framed.settings
  directory := notes.directory.trans framed.directory
  sections := notes.sections.trans framed.sections
  auxiliary := notes.auxiliary.trans framed.auxiliary
  declared := notes.declared.trans framed.declared
  counters := notes.counters.trans framed.counters
  chainNames := notes.chainNames.trans framed.chainNames
  custom := (notes.entriesOf (by decide)).trans framed.custom

theorem name_ne_custom :
    ∀ described ∈ Builtin.ordered, described.kind.isSome = true → described.name ≠ "custom" := by
  decide

theorem survives_framed (start : Context) : Survives (Framed start) where
  notes _ _ notes framed := framed.notes notes
  declares described isBuiltin _ kind isKind location name key source object before after framed _
      declares := by
    have noted := framed.notes (PolicyObject.notes_declare.of_eq declares)
    have notCustom := name_ne_custom described isBuiltin (by rw [isKind]; rfl)
    refine { noted with custom := ?_ }
    exact (entriesOf_set_of_ne (Ne.symm notCustom) after _).trans noted.custom

/-- Every entry of an object section is as it should be for the kind of the section. -/
def EachEntry (property : ObjectKind → Entry → Prop) (context : Context) : Prop :=
  ∀ described ∈ Builtin.ordered, ∀ kind, described.kind = some kind →
    ∀ entry ∈ (context.entriesOf described.name).values, property kind entry

theorem kind_eq_of_name_eq :
    ∀ first ∈ Builtin.ordered, ∀ second ∈ Builtin.ordered,
      first.name = second.name → first.kind = second.kind := by
  decide

theorem EachEntry.grows
    {property : ObjectKind → Entry → Prop} {before after : Context}
    (each : EachEntry property before) (logs : ∀ log, property .log (.object (.log log)))
    (grows : Grows before after) :
    EachEntry property after := by
  intro described isBuiltin kind isKind entry member
  by_cases isLog : described.name = "log"
  · have isLogKind : some kind = some .log :=
      isKind.symm.trans (kind_of_name_eq_log described isBuiltin isLog)
    obtain rfl := Option.some.inj isLogKind
    rw [isLog] at member
    rcases grows.listed entry member with old | ⟨log, rfl⟩
    · exact each described isBuiltin _ isKind entry (isLog ▸ old)
    · exact logs log
  · rw [grows.entriesOf isLog] at member
    exact each described isBuiltin kind isKind entry member

theorem EachEntry.imp
    {property weaker : ObjectKind → Entry → Prop} {context : Context}
    (each : EachEntry property context)
    (implies : ∀ kind entry, property kind entry → weaker kind entry) :
    EachEntry weaker context :=
  fun described isBuiltin kind isKind entry member =>
    implies kind entry (each described isBuiltin kind isKind entry member)

theorem logBook_withObject
    {context : Context} {name : String} {key : Scalar} {object : PolicyObject}
    (notLog : name ≠ "log") :
    (withObject context name key object).logBook = context.logBook := by
  unfold withObject Context.logBook
  rw [entriesOf_set_of_ne (Ne.symm notLog)]

/-- A property of entries survives together with what its preservation relies on.  It may tell of the
log classes that were set up. -/
theorem survives_eachEntry
    {base : Context → Prop} {property : LogBook → ObjectKind → Entry → Prop}
    (baseSurvives : Survives base) (logs : ∀ book log, property book .log (.object (.log log)))
    (keeps : ∀ context book kind entry, base context → context.logBook.Keeps book →
      property context.logBook kind entry → property book kind entry)
    (step : ∀ described ∈ Builtin.ordered, ∀ kind, described.kind = some kind →
      ∀ location name source object before after, base before →
        property before.logBook kind source →
        PolicyObject.declare kind location name source before = (.ok object, after) →
        property after.logBook kind (.object object)) :
    Survives fun context => base context ∧ EachEntry (property context.logBook) context where
  notes before after notes holds :=
    ⟨baseSurvives.notes before after notes holds.1,
      (holds.2.imp fun kind entry => keeps before _ kind entry holds.1 notes.logs).grows
        (logs _) notes.grows⟩
  declares described isBuiltin notLog kind isKind location name key source object before after holds
      found declares := by
    refine ⟨baseSurvives.declares described isBuiltin notLog kind isKind location name key source
      object before after holds.1 found declares, ?_⟩
    have notes : Notes before after := PolicyObject.notes_declare.of_eq declares
    have sourceHolds := holds.2 described isBuiltin kind isKind source
      (SectionEntries.mem_of_get? found)
    have objectHolds := step described isBuiltin kind isKind location name source object before
      after holds.1 sourceHolds declares
    have noted := (holds.2.imp fun kind entry => keeps before _ kind entry holds.1 notes.logs).grows
      (logs _) notes.grows
    rw [logBook_withObject notLog]
    intro other otherBuiltin otherKind isOther entry isEntry
    unfold withObject at isEntry
    by_cases same : other.name = described.name
    · rw [same, entriesOf_set_self] at isEntry
      have sameKind : some otherKind = some kind :=
        isOther.symm.trans ((kind_eq_of_name_eq other otherBuiltin described isBuiltin same).trans
          isKind)
      obtain rfl := Option.some.inj sameKind
      rcases SectionEntries.mem_put isEntry with old | rfl
      · exact noted described isBuiltin _ isKind entry old
      · exact objectHolds
    · rw [entriesOf_set_of_ne same] at isEntry
      exact noted other otherBuiltin otherKind isOther entry isEntry

theorem survives_true : Survives fun _ => True where
  notes _ _ _ _ := trivial
  declares _ _ _ _ _ _ _ _ _ _ _ _ _ _ _ := trivial

/-! ## Kinds of objects -/

/-- An entry that became an object became one of the kind. -/
def HasKind (kind : ObjectKind) (entry : Entry) : Prop :=
  ∀ object, entry = .object object → object.kind = kind

theorem kind_of_declare
    {kind : ObjectKind} {location : String} {key : Option Scalar} {source : Entry}
    {object : PolicyObject} {before after : Context}
    (run : PolicyObject.declare kind location key source before = (.ok object, after)) :
    object.kind = kind := by
  cases kind with
  | rule kind =>
      obtain ⟨rule, _, declares, made⟩ := bind_eq_ok.1 run
      obtain ⟨rfl, rfl⟩ := pure_eq_ok.1 made
      obtain ⟨_, _, settled⟩ := Rule.settledFrom_of_declare declares
      exact congrArg ObjectKind.rule settled.kind
  | _ =>
      obtain ⟨_, _, _, made⟩ := bind_eq_ok.1 run
      obtain ⟨rfl, rfl⟩ := pure_eq_ok.1 made
      rfl

theorem hasKind_log (log : LogClass) : HasKind .log (.object (.log log)) := by
  rintro _ ⟨⟩
  rfl

theorem survives_hasKind :
    Survives fun context => True ∧ EachEntry HasKind context := by
  refine survives_eachEntry survives_true (fun _ => hasKind_log) (fun _ _ _ _ _ _ => id) ?_
  rintro _ _ kind _ _ _ _ _ _ _ _ _ run _ ⟨⟩
  exact kind_of_declare run

/-- No rule stands among the log classes. -/
theorem rulesIn_log
    {context : Context} (hasKind : EachEntry HasKind context) :
    context.rulesIn "log" = [] := by
  rw [List.eq_nil_iff_forall_not_mem]
  intro rule member
  have isLog := hasKind _ (show Builtin.objectSections[2] ∈ Builtin.ordered by decide) _ rfl _
    (mem_rulesIn.1 member) _ rfl
  simp [PolicyObject.kind] at isLog

/-! ## Auxiliary chains -/

theorem chain_of_mem_registered :
    ∀ rule ∈ Builtin.filter.auxiliary, rule.chain = some "tarpit" := by
  decide +kernel

/-- The auxiliary chains are the one that slows attackers down and log chains. -/
theorem chain_of_mem_auxiliary
    {policy : Policy} {hosts : HostBook} {settings : Settings} {start context : Context}
    (framed : Framed (checked policy hosts settings) start) (grows : Grows start context)
    {rule : Fragment} (member : rule ∈ context.auxiliary) :
    ∃ chain, rule.chain = some chain ∧ (chain = "tarpit" ∨ IsLogName chain) := by
  obtain ⟨added, isAdded, declares⟩ := grows.auxiliary
  rw [isAdded, framed.auxiliary] at member
  rcases List.mem_append.1 member with known | isNew
  · exact ⟨"tarpit", chain_of_mem_registered rule known, Or.inl rfl⟩
  · obtain ⟨chain, stands, declared, fresh⟩ := declares rule isNew
    refine ⟨chain, stands, Or.inr ?_⟩
    exact (grows.logNames chain declared).resolve_left fresh

/-! ## Phase by phase -/

/-- The entries of a section of the policy are the values that it states. -/
theorem exists_of_mem_checked
    {policy : Policy} {hosts : HostBook} {settings : Settings} {name : String} {entry : Entry}
    (member : entry ∈ ((checked policy hosts settings).entriesOf name).values) :
    ∃ stated ∈ policy.objects, ∃ value ∈ stated.2.values, entry = .raw value := by
  unfold Context.entriesOf at member
  cases found : (checked policy hosts settings).objects.get? name with
  | none => simp [found, SectionEntries.values] at member
  | some entries =>
      rw [found, Option.getD_some] at member
      obtain ⟨stated, isStated, same⟩ := List.mem_map.1 (Named.mem_of_get? found)
      obtain ⟨-, rfl⟩ := Prod.mk.inj same
      refine ⟨stated, isStated, ?_⟩
      cases data : stated.2 with
      | list items =>
          rw [data] at member
          obtain ⟨value, isItem, rfl⟩ := List.mem_map.1 member
          exact ⟨value, isItem, rfl⟩
      | map entries =>
          rw [data] at member
          simp only [rawEntries, SectionEntries.values, List.map_map, List.mem_map] at member
          obtain ⟨field, isField, rfl⟩ := member
          exact ⟨field.2, List.mem_map_of_mem isField, rfl⟩

/-- The sections of named objects hold no rules. -/
theorem rulesIn_of_mem_objectSections
    {context : Context} (hasKind : EachEntry HasKind context) {described : Section}
    (isObject : described ∈ Builtin.objectSections) (hasSome : described.kind.isSome = true) :
    context.rulesIn described.name = [] := by
  rw [List.eq_nil_iff_forall_not_mem]
  intro rule member
  obtain ⟨kind, isKind⟩ := Option.isSome_iff_exists.1 hasSome
  have isRule : kind = .rule rule.kind := (hasKind described
    (List.mem_append_left _ isObject) kind isKind _ (mem_rulesIn.1 member) _ rfl).symm
  have notRule : ∀ other ∈ Builtin.objectSections, ∀ kind, other.kind ≠ some (.rule kind) := by
    simp [Builtin.objectSections, Builtin.loadedSection]
  exact notRule described isObject _ (isRule ▸ isKind)

/-- The batches of rules, in the order of the sections. -/
theorem origins_ordered
    {context : Context} (hasKind : EachEntry HasKind context) :
    Builtin.ordered.flatMap context.origins =
      (Builtin.loadedSection :: Builtin.ruleSections).flatMap context.origins := by
  have objects : Builtin.objectSections.flatMap context.origins =
      context.origins Builtin.loadedSection := by
    have each : ∀ described ∈ Builtin.objectSections, context.origins described =
        if described.isVirtual then [(described, none)] else [] := by
      intro described isObject
      unfold Context.origins
      split
      · rfl
      · split
        · next hasSome => rw [rulesIn_of_mem_objectSections hasKind isObject hasSome, List.map_nil]
        · rfl
    rw [List.flatMap_congr each]
    simp [Builtin.objectSections, Builtin.loadedSection, Section.isVirtual, modulesLoaded,
      Context.origins]
  rw [Builtin.ordered, List.flatMap_append, objects, List.flatMap_cons]

/-- The batches of the sections in their order lead from an empty tree to the final build. -/
structure Ran (batches : List Batch) (start final : Build) : Prop where
  empty : start.assembly = {}
  runs : RunsAll batches start final
  labels : batches.map Batch.label =
    (Builtin.loadedSection :: Builtin.ruleSections).flatMap final.context.origins

/-- A successful compilation with the built-in modules declares the objects and then runs the
batches of the sections in order.  Whatever survives declaring holds where the batches start. -/
theorem runs_of_compilePolicy
    {invariant : Context → Prop} (survives : Survives invariant)
    {policy : Policy} {hosts : HostBook} {settings : Settings} {sets : List AddressSet}
    {build : Build}
    (initial : invariant (checked policy hosts settings))
    (run : compilePolicy policy Builtin.modules { context := { settings, hosts } } =
      (.ok sets, build)) :
    ∃ start batches, Ran batches start build ∧
      Framed (checked policy hosts settings) start.context ∧
      EachEntry HasKind build.context ∧ invariant start.context := by
  simp only [compilePolicy, bind_eq_ok, get_eq_ok, modify_eq_ok, inContext_eq_ok] at run
  obtain ⟨_, ⟨setUp, _⟩, ⟨sets, rfl⟩, _, _, rfl, _, _, ⟨rfl, rfl⟩, _, warned, ⟨warns, warnedTree⟩,
    _, _, ⟨rfl, rfl⟩, _, known, ⟨checks, knownTree⟩, names, resolved, ⟨resolves, resolvedTree⟩,
    _, declared, ⟨declares, declaredTree⟩, _, inserted, inserts, _, _, ⟨rfl, rfl⟩, run⟩ := run
  rw [Builtin.setUp_modules] at sets
  obtain ⟨-, rfl⟩ := Prod.mk.inj sets
  -- Up to here the sections are as they were loaded, so their order is that of the modules.
  have early : Notes (loaded policy hosts settings) known.context :=
    (notes_warnUnknown.of_eq warns).trans (notes_checkKeyed.of_eq checks)
  obtain ⟨isOrder, isResolved⟩ := order_eq_ok early.knownOrder resolves
  rw [early.sections] at isOrder
  obtain rfl : Builtin.ordered.map (·.name) = names :=
    Except.ok.inj (Builtin.resolve_registered.symm.trans isOrder)
  have noted : Notes (checked policy hosts settings) resolved.context := by
    rw [isResolved]
    exact { early with knownOrder := rfl }
  dsimp only at declares inserts
  rw [Builtin.filterMap_ordered] at declares inserts
  have isKept {holds : Context → Prop} (keeps : Survives holds)
      (first : holds (checked policy hosts settings)) : holds declared.context :=
    keeps.declareSections (List.Subset.refl _) (keeps.notes _ _ noted first) declares
  have hasKind : EachEntry HasKind declared.context := by
    refine (isKept survives_hasKind ⟨trivial, ?_⟩).2
    rintro described _ kind _ entry member object rfl
    obtain ⟨_, _, _, _, isRaw⟩ := exists_of_mem_checked member
    simp at isRaw
  obtain ⟨batches, runs, labels⟩ := insertSections_eq_ok (rulesIn_log hasKind) inserts
  -- The address sets are read last and add nothing to the build.
  have isFinal : inserted = build := by
    cases result : setDefinitions (inserted.context.entriesOf "ipset") >>= AddressSet.readAll with
    | ok found =>
        simp only [result] at run
        exact (pure_eq_ok.1 run).2
    | error failure =>
        simp only [result] at run
        exact (throw_eq_ok.1 run).elim
  subst isFinal
  refine ⟨declared, batches, ⟨?_, runs, ?_⟩, isKept (survives_framed _) (Framed.refl _),
    hasKind.grows hasKind_log runs.grows, isKept survives initial⟩
  · rw [declaredTree, resolvedTree, knownTree, warnedTree]
  · rw [labels, origins_ordered hasKind, origins_eq_of_grows (rulesIn_log hasKind) runs.grows]

/-! ## Policies without unknown sections -/

/-- What is left to do once the policy is loaded and checked. -/
def process (policy : Policy) : Building (List AddressSet) := do
  inContext (declareSections policy Builtin.ordered)
  insertSections Builtin.ordered
  match setDefinitions ((← get).context.entriesOf "ipset") >>= AddressSet.readAll with
  | .ok sets => return sets
  | .error failure => throw failure

/-- The sections of the policy are built-in ones, and those held by key are mappings. -/
def isSettled (policy : Policy) : Bool :=
  policy.objects.names.all (fun name => (Builtin.registered.get? name).isSome) &&
    Builtin.registered.all fun entry =>
      let entries := (loaded policy .none {}).entriesOf entry.1
      !(entry.2.keyed && !entries.isEmpty && !entries.isMap)

/-- The sections that hold their entries by key are mappings, or empty. -/
def isKeyed (policy : Policy) : Bool :=
  Builtin.registered.all fun entry =>
    let entries := (loaded policy .none {}).entriesOf entry.1
    !(entry.2.keyed && !entries.isEmpty && !entries.isMap)

/-- The sections of the policy that no module registered. -/
def unknownNames (policy : Policy) : List String :=
  policy.objects.names.filter fun name => (Builtin.registered.get? name).isNone

/-- The context once the policy is loaded and checked, with a warning for each unknown section. -/
def warned (policy : Policy) (hosts : HostBook) (settings : Settings) : Context :=
  { checked policy hosts settings with
    warnings := (Text.sorted (unknownNames policy)).map fun name => ⟨name, .unknownSection⟩ }

theorem warnUnknown_apply (names : List String) (before : Context) :
    warnUnknown names before =
      (.ok (), { before with
        warnings := before.warnings ++ names.map fun name => ⟨name, .unknownSection⟩ }) := by
  induction names generalizing before with
  | nil =>
      rw [List.map_nil, List.append_nil]
      rfl
  | cons name rest inductionHypothesis =>
      rw [warnUnknown, bind_apply]
      change warnUnknown rest
        { before with warnings := before.warnings ++ [⟨name, .unknownSection⟩] } = _
      rw [inductionHypothesis, List.append_assoc]
      rfl

theorem checkKeyed_eq_ok
    {context before after : Context} {sections : Named Section} :
    checkKeyed context sections before = (.ok (), after) ↔
      (∀ entry ∈ sections, (entry.2.keyed && !(context.entriesOf entry.1).isEmpty &&
        !(context.entriesOf entry.1).isMap) = false) ∧ after = before := by
  induction sections with
  | nil =>
      rw [checkKeyed, pure_eq_ok]
      exact ⟨fun ⟨_, same⟩ => ⟨by simp, same.symm⟩, fun ⟨_, same⟩ => ⟨rfl, same.symm⟩⟩
  | cons entry rest inductionHypothesis =>
      obtain ⟨name, described⟩ := entry
      rw [List.forall_mem_cons]
      unfold checkKeyed
      dsimp only
      split
      · next wrong =>
          rw [wrong]
          refine iff_of_false (fun run => ?_) (by simp)
          obtain ⟨_, _, reports, -⟩ := bind_eq_ok.1 run
          exact (Run.report_eq_ok.1 reports).elim
      · next right =>
          rw [Bool.not_eq_true] at right
          rw [right]
          exact inductionHypothesis.trans (by simp)

theorem inContext_bind_apply
    {α β : Type} {action : Run α} {rest : α → Building β} {a : α} {build : Build} {after : Context}
    (run : action build.context = (.ok a, after)) :
    (inContext action >>= rest) build = rest a { build with context := after } := by
  rw [bind_apply, inContext, run]

/-- The names of the loaded sections are those of the policy. -/
theorem names_loaded (policy : Policy) (hosts : HostBook) (settings : Settings) :
    (loaded policy hosts settings).objects.names = policy.objects.names := by
  simp [loaded, Named.names]

/-- The context once the policy is loaded, with a warning for each unknown section. -/
def announced (policy : Policy) (hosts : HostBook) (settings : Settings) : Context :=
  { loaded policy hosts settings with
    warnings := (Text.sorted (unknownNames policy)).map fun name => ⟨name, .unknownSection⟩ }

/-- What is left to do once the policy is loaded: its sections are checked, put in order and
processed. -/
def checkAndProcess (policy : Policy) (known : Context) : Building (List AddressSet) := do
  inContext (checkKeyed known Builtin.registered)
  let order ← inContext Run.order
  let sections := order.filterMap Builtin.registered.get?
  inContext (declareSections policy sections)
  insertSections sections
  match setDefinitions ((← get).context.entriesOf "ipset") >>= AddressSet.readAll with
  | .ok sets => return sets
  | .error failure => throw failure

theorem compilePolicy_eq_checkAndProcess (policy : Policy) (hosts : HostBook) (settings : Settings) :
    compilePolicy policy Builtin.modules { context := { settings, hosts } } =
      checkAndProcess policy (announced policy hosts settings)
        { context := announced policy hosts settings } := by
  have warns : warnUnknown (Text.sorted ((loaded policy hosts settings).objects.names.filter
      fun name => (Builtin.registered.get? name).isNone)) (loaded policy hosts settings) =
        (.ok (), announced policy hosts settings) := by
    rw [warnUnknown_apply, names_loaded]
    rfl
  unfold compilePolicy
  rw [inContext_bind_apply (Builtin.setUp_modules settings hosts), bind_apply]
  change (inContext (warnUnknown _) >>= _) { context := loaded policy hosts settings } = _
  rw [inContext_bind_apply warns]
  rfl

/-- A policy whose keyed sections are mappings is loaded, with its warnings, and then processed. -/
theorem compilePolicy_of_keyed
    {policy : Policy} (keyed : isKeyed policy = true) (hosts : HostBook) (settings : Settings) :
    compilePolicy policy Builtin.modules { context := { settings, hosts } } =
      process policy { context := warned policy hosts settings } := by
  let known := announced policy hosts settings
  have checks : checkKeyed known Builtin.registered known = (.ok (), known) := by
    refine checkKeyed_eq_ok.2 ⟨fun entry isEntry => ?_, rfl⟩
    have isMapping := List.all_eq_true.1 keyed entry isEntry
    rwa [Bool.not_eq_true'] at isMapping
  have orders : Run.order known =
      (.ok (Builtin.ordered.map (·.name)), warned policy hosts settings) :=
    order_of_resolve rfl Builtin.resolve_registered
  rw [compilePolicy_eq_checkAndProcess]
  unfold checkAndProcess
  rw [inContext_bind_apply checks, inContext_bind_apply orders]
  dsimp only
  rw [Builtin.filterMap_ordered]
  rfl

/-- The keyed sections of a policy that compiles are mappings. -/
theorem isKeyed_of_compilePolicy
    {policy : Policy} {hosts : HostBook} {settings : Settings} {sets : List AddressSet}
    {build : Build}
    (run : compilePolicy policy Builtin.modules { context := { settings, hosts } } =
      (.ok sets, build)) :
    isKeyed policy = true := by
  simp only [compilePolicy, bind_eq_ok, get_eq_ok, modify_eq_ok, inContext_eq_ok] at run
  obtain ⟨_, ⟨setUp, _⟩, ⟨sets, rfl⟩, _, _, rfl, _, _, ⟨rfl, rfl⟩, _, warned, ⟨warns, _⟩,
    _, _, ⟨rfl, rfl⟩, _, known, ⟨checks, _⟩, _⟩ := run
  rw [Builtin.setUp_modules] at sets
  obtain ⟨-, rfl⟩ := Prod.mk.inj sets
  rw [warnUnknown_apply] at warns
  have isWarned := (Prod.mk.inj warns).2
  refine List.all_eq_true.2 fun entry isEntry => ?_
  have isMapping := (checkKeyed_eq_ok.1 checks).1 entry isEntry
  rw [← isWarned] at isMapping
  rw [Bool.not_eq_true']
  exact isMapping

/-- Such a policy is compiled without a warning about its sections. -/
theorem compilePolicy_apply
    {policy : Policy} (settled : isSettled policy = true) (hosts : HostBook)
    (settings : Settings) :
    compilePolicy policy Builtin.modules { context := { settings, hosts } } =
      process policy { context := checked policy hosts settings } := by
  obtain ⟨known, keyed⟩ := Bool.and_eq_true_iff.1 settled
  have noneUnknown : unknownNames policy = [] := by
    refine List.filter_eq_nil_iff.2 fun name member => ?_
    have isKnown := List.all_eq_true.1 known name member
    simpa [Option.isNone_iff_eq_none, Option.isSome_iff_ne_none] using isKnown
  rw [compilePolicy_of_keyed keyed]
  unfold warned
  rw [noneUnknown, Text.sorted_eq List.Perm.nil List.Pairwise.nil]
  rfl

end Building

namespace Compilation

variable {policy : Policy} {hosts : HostBook} {given : Option Settings}
  {compilation : Compilation}

theorem ofRun_eq_ok {outcome : Except Failure (List AddressSet) × Build} :
    ofRun outcome = .ok compilation ↔ outcome = (.ok compilation.sets, compilation.build) := by
  obtain ⟨result, build⟩ := outcome
  cases result with
  | error failure => simp [ofRun]
  | ok sets =>
      obtain ⟨otherBuild, otherSets⟩ := compilation
      simp [ofRun, and_comm]

theorem ofPolicy_given {modules : List Module} {settings : Settings} :
    ofPolicy policy modules hosts (some settings) = .ok compilation ↔
      Building.compilePolicy policy modules { context := { settings, hosts } } =
        (.ok compilation.sets, compilation.build) :=
  ofRun_eq_ok

theorem ofPolicy_eq_ok
    {modules : List Module}
    (compiled : ofPolicy policy modules hosts given = .ok compilation) :
    ∃ settings, Building.compilePolicy policy modules { context := { settings, hosts } } =
      (.ok compilation.sets, compilation.build) := by
  unfold ofPolicy at compiled
  cases given with
  | some settings => exact ⟨settings, ofRun_eq_ok.1 compiled⟩
  | none =>
      obtain ⟨settings, _, compiled⟩ := except_bind_eq_ok.1 compiled
      exact ⟨settings, ofRun_eq_ok.1 compiled⟩

/-- A policy whose sections are known compiles when what is left to do succeeds. -/
theorem exists_of_process
    (policy : Policy) (hosts : HostBook) (settings : Settings)
    (settled : Building.isSettled policy = true)
    (succeeds : (Building.process policy
      { context := Building.checked policy hosts settings }).1.isOk = true) :
    ∃ compilation, ofPolicy policy Builtin.modules hosts (some settings) = .ok compilation ∧
      compilation.build =
        (Building.process policy { context := Building.checked policy hosts settings }).2 := by
  cases run : Building.process policy { context := Building.checked policy hosts settings } with
  | mk result build =>
      rw [run] at succeeds
      cases result with
      | error failure => simp [Except.isOk, Except.toBool] at succeeds
      | ok sets =>
          refine ⟨⟨build, sets⟩, ?_, rfl⟩
          exact ofPolicy_given.2 ((Building.compilePolicy_apply settled hosts settings).trans run)

end Compilation

end FirewallPolicy
