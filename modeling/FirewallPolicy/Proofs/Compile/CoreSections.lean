import FirewallPolicy.Proofs.Section.Requests

/-!
# Core sections come first

The sections of core modules stand before one point in the order of sections, and the sections of
the other modules that a context was set up with stand behind it, whatever else the modules ask for
and whatever is registered later.  So when an entry of a section of another module becomes an
object, the entries of all core sections are objects already.
-/

namespace FirewallPolicy

open Context Stateful

/-! ## The point behind the core sections -/

namespace Order

/-- What stands before a name is among the names that lead up to it. -/
theorem mem_early_of_idxOf_lt
    {early late : List String} {first second : String}
    (distinct : (early ++ second :: late).Nodup)
    (less : (early ++ second :: late).idxOf first < (early ++ second :: late).idxOf second) :
    first ∈ early := by
  by_contra notEarly
  have fresh : second ∉ early := fun member =>
    (List.nodup_append.1 distinct).2.2 second member second (List.mem_cons_self ..) rfl
  rw [List.idxOf_append_of_notMem notEarly, List.idxOf_append_of_notMem fresh,
    List.idxOf_cons_self] at less
  omega

end Order

theorem Named.get?_of_nodup
    {α : Type} {entries : Named α} (distinct : entries.names.Nodup) {name : String} {value : α}
    (member : (name, value) ∈ entries) :
    entries.get? name = some value := by
  refine Named.get?_eq_some_of_mem (fun other isOther => ?_) member
  exact (Prod.mk.inj (List.inj_on_of_nodup_map distinct isOther member rfl)).2

theorem Named.exists_get?_of_mem
    {α : Type} {entries : Named α} {name : String} (member : name ∈ entries.names) :
    ∃ value, entries.get? name = some value := by
  rw [← Option.isSome_iff_exists, Option.isSome_iff_ne_none]
  exact fun missing => Named.get?_eq_none_iff.1 missing member

theorem Section.ne_modulesLoaded
    {described : Section} (isObject : described.isVirtual = false) :
    described.name ≠ modulesLoaded := by
  rintro same
  rw [Section.isVirtual, same] at isObject
  revert isObject
  decide

namespace Request

/-- The core sections stand before the point behind them, and the sections of the other modules that
the context was set up with stand after it. -/
structure PutsCoreFirst (modules : List Module) (requests : List Request) (names : List String) :
    Prop where
  core : ∀ owner, owner ∈ modules ∨ .register owner ∈ requests → owner.core = true →
    ∀ described ∈ owner.sections, described.isVirtual = false →
      Order.StandsBefore names described.name modulesLoaded
  others : ∀ owner ∈ modules, owner.core = false → ∀ described ∈ owner.sections,
    Order.StandsBefore names modulesLoaded described.name

/-- The sections that a granted request adds. -/
def registered : Request → Named Section
  | .register owner => owner.registered
  | .order => []

variable {settings : Settings} {hosts : HostBook} {modules : List Module} {start before : Context}
  {requests : List Request}

theorem sections_after
    (distinct : before.sections.names.Nodup) {request : Request}
    (granted : ¬ IsRefused before request) :
    (after before request).sections = before.sections ++ request.registered := by
  cases request with
  | register owner =>
      rcases Run.register_cases distinct owner with ⟨-, run⟩ | ⟨_, _, _, -, -, -, run⟩
      · rw [after, run]
        rfl
      · exact absurd ⟨_, congrArg Prod.fst run⟩ granted
  | order =>
      rw [after, registered, List.append_nil]
      rcases after_order_cases before with
        ⟨names, -, run⟩ | ⟨names, -, -, run⟩ | ⟨cycle, -, -, run⟩
      all_goals rw [run]

/-- Requests of which none is refused add all sections of the modules. -/
theorem sections_afterAll
    (keeping : Keeping start)
    (granted : Along (fun before request => ¬ IsRefused before request) start requests) :
    (afterAll start requests).sections = start.sections ++ requests.flatMap registered := by
  induction requests generalizing start with
  | nil => exact (List.append_nil _).symm
  | cons request rest inductionHypothesis =>
      have first := sections_after keeping.distinct granted.1
      have others := inductionHypothesis (keeping.after request) granted.2
      rw [first, List.append_assoc] at others
      exact others

/-- Requests of which none is granted or refused ask for no registration. -/
theorem sections_afterAll_of_unanswered
    (ungranted : Along (fun before request => ¬ IsGranted before request) start requests)
    (granted : Along (fun before request => ¬ IsRefused before request) start requests) :
    (afterAll start requests).sections = start.sections := by
  induction requests generalizing start with
  | nil => rfl
  | cons request rest inductionHypothesis =>
      refine (inductionHypothesis ungranted.2 granted.2).trans ?_
      cases request with
      | register owner =>
          cases result : (Run.register owner start).1 with
          | ok names => exact absurd ⟨names, result⟩ ungranted.1
          | error failure => exact absurd ⟨failure, result⟩ granted.1
      | order =>
          rw [after]
          rcases after_order_cases start with
            ⟨names, -, run⟩ | ⟨names, -, -, run⟩ | ⟨cycle, -, -, run⟩
          all_goals rw [run]

/-- Without a refusal no order is stale. -/
theorem not_isStale_of_granted
    (granted : Along (fun before request => ¬ IsRefused before request) start requests) :
    ¬ IsStale start requests := by
  rintro ⟨early, late, names, rfl, -, ungranted, changed⟩
  rw [afterAll_append] at changed
  exact changed (sections_afterAll_of_unanswered ungranted (along_append.1 granted).2)

/-- The order that is told agrees with the directives of all sections. -/
theorem isOrder_of_granted
    (keeping : Keeping start) (unordered : start.knownOrder = none)
    (granted : Along (fun before request => ¬ IsRefused before request) start requests)
    {names : List String} (told : (Run.order (afterAll start requests)).1 = .ok names) :
    Order.IsOrder (Run.directives (afterAll start requests).sections) names := by
  have current := keeping.isCurrent_of_not_isStale unordered (not_isStale_of_granted granted)
  refine (keeping.afterAll requests).isOrder ?_
  rw [IsCurrent, told] at current
  cases resolved : Order.resolve (Run.directives (afterAll start requests).sections) with
  | ok found =>
      rw [resolved] at current
      obtain rfl := Except.ok.inj current
      rfl
  | error cycle =>
      rw [resolved] at current
      cases current

theorem mem_registered
    {owner : Module} {described : Section} (isSection : described ∈ owner.sections) :
    (described.name, described.placedBy owner) ∈ owner.registered :=
  List.mem_map_of_mem isSection

/-- A section of a module that a context was set up with is found as it was registered. -/
theorem get?_of_setUp
    (built : Run.setUp modules { settings, hosts } = (.ok (), start))
    {owner : Module} (isOwner : owner ∈ modules) {described : Section}
    (isSection : described ∈ owner.sections) (isNot : described.name ≠ modulesLoaded) :
    start.sections.get? described.name = some (described.placedBy owner) := by
  obtain ⟨distinct, rfl⟩ := Run.setUp_eq_ok built
  have found : Named.get? (modules.flatMap Module.registered) described.name =
      some (described.placedBy owner) := by
    refine Named.get?_of_nodup ?_ (List.mem_flatMap.2 ⟨owner, isOwner, mem_registered isSection⟩)
    simpa [Named.names, Module.registered, List.map_flatMap, Function.comp_def] using distinct
  exact (Named.get?_set_of_ne isNot ..).trans found

theorem get?_modulesLoaded
    (built : Run.setUp modules { settings, hosts } = (.ok (), start)) :
    start.sections.get? modulesLoaded =
      some { name := modulesLoaded, before := modules.flatMap Module.exported } := by
  obtain ⟨-, rfl⟩ := Run.setUp_eq_ok built
  exact Named.get?_set_self ..

theorem mem_directives
    {sections : Named Section} {name : String} {described : Section}
    (member : (name, described) ∈ sections) :
    ⟨name, described.before, described.after⟩ ∈ Run.directives sections :=
  List.mem_map.2 ⟨_, member, rfl⟩

theorem mem_knownNames
    {sections : Named Section} {name : String} {described : Section}
    (member : (name, described) ∈ sections) :
    name ∈ Order.knownNames (Run.directives sections) :=
  List.mem_map.2 ⟨_, mem_directives member, rfl⟩

/-- Core sections ask to stand before the point behind them. -/
theorem modulesLoaded_mem_before
    {owner : Module} (isCore : owner.core = true) {described : Section}
    (isObject : described.isVirtual = false) :
    modulesLoaded ∈ (described.placedBy owner).before := by
  simp [Section.placedBy, isCore, isObject]

/-- In an order that agrees with the directives, the core sections come first. -/
theorem putsCoreFirst_of_isOrder
    (built : Run.setUp modules { settings, hosts } = (.ok (), start)) {names : List String}
    (isOrder : Order.IsOrder
      (Run.directives (start.sections ++ requests.flatMap registered)) names) :
    PutsCoreFirst modules requests names := by
  have loaded := List.mem_append_left (requests.flatMap registered)
    (Named.mem_of_get? (get?_modulesLoaded built))
  constructor
  · intro owner isOwner isCore described isSection isObject
    have member : (described.name, described.placedBy owner) ∈
        start.sections ++ requests.flatMap registered := by
      rcases isOwner with isOwner | isRequest
      · exact List.mem_append_left _ (Named.mem_of_get? (get?_of_setUp built isOwner isSection
          (Section.ne_modulesLoaded isObject)))
      · exact List.mem_append_right _
          (List.mem_flatMap.2 ⟨_, isRequest, mem_registered isSection⟩)
    exact isOrder.before _ (mem_directives member) _ (modulesLoaded_mem_before isCore isObject)
      (mem_knownNames loaded)
  · intro owner isOwner notCore described isSection
    have isExported : described.name ∈ modules.flatMap Module.exported := by
      refine List.mem_flatMap.2 ⟨owner, isOwner, ?_⟩
      rw [Module.exported, notCore]
      exact List.mem_map_of_mem isSection
    have isKnown : described.name ∈
        Order.knownNames (Run.directives (start.sections ++ requests.flatMap registered)) := by
      by_cases isLoaded : described.name = modulesLoaded
      · rw [isLoaded]
        exact mem_knownNames loaded
      · exact mem_knownNames (List.mem_append_left _
          (Named.mem_of_get? (get?_of_setUp built isOwner isSection isLoaded)))
    exact isOrder.before _ (mem_directives loaded) _ isExported isKnown

end Request

/-! ## Entries become objects -/

/-- In every section the entries are as they were or became objects. -/
def Context.Advances (before after : Context) : Prop :=
  ∀ name, (before.entriesOf name).Advances (after.entriesOf name)

theorem Context.Advances.refl (context : Context) : Context.Advances context context :=
  fun _ => SectionEntries.Advances.refl _

theorem Context.Advances.trans
    {first second third : Context}
    (early : Context.Advances first second) (late : Context.Advances second third) :
    Context.Advances first third :=
  fun name => (early name).trans (late name)

theorem Context.Notes.advancing
    {before after : Context} (notes : Notes before after) :
    Context.Advances before after := by
  intro name
  by_cases isLog : name = "log"
  · rw [isLog]
    exact notes.advances
  · rw [notes.entriesOf isLog]
    exact SectionEntries.Advances.refl _

/-- Under every key of the section an object is found. -/
def Context.HoldsObjects (context : Context) (name : String) : Prop :=
  ∀ key ∈ (context.entriesOf name).keys,
    ∃ object, (context.entriesOf name).get? key = some (.object object)

theorem Context.Advances.exists_object
    {before after : Context} (advances : Context.Advances before after) {name : String}
    {key : Scalar} (isObject : ∃ object, (before.entriesOf name).get? key = some (.object object)) :
    ∃ object, (after.entriesOf name).get? key = some (.object object) := by
  obtain ⟨object, found⟩ := isObject
  obtain ⟨later, foundLater, advanced⟩ := (advances name).found key _ found
  obtain ⟨other, rfl⟩ := advanced.exists_object rfl
  exact ⟨other, foundLater⟩

theorem Context.HoldsObjects.advances
    {before after : Context} {name : String} (holds : before.HoldsObjects name)
    (advances : Context.Advances before after) :
    after.HoldsObjects name := by
  intro key isKey
  rw [(advances name).keys] at isKey
  exact advances.exists_object (holds key isKey)

namespace Building

variable {policy : Policy} {name : String} {kind : ObjectKind} {before after : Context}

theorem advances_of_declareKey
    {key : Scalar} (run : declareKey policy name kind key before = (.ok (), after)) :
    Context.Advances before after ∧
      ∃ object, (after.entriesOf name).get? key = some (.object object) := by
  obtain ⟨-, entry, object, middle, found, declares, rfl⟩ := declareKey_eq_ok run
  unfold withObject
  have declaring := (PolicyObject.notes_declare.of_eq declares).advancing
  obtain ⟨later, foundLater, -⟩ := (declaring name).found key entry found
  constructor
  · intro other
    refine (declaring other).trans ?_
    by_cases same : other = name
    · rw [same, entriesOf_set_self]
      exact SectionEntries.advances_put foundLater object
    · rw [entriesOf_set_of_ne same]
      exact SectionEntries.Advances.refl _
  · refine ⟨object, ?_⟩
    rw [entriesOf_set_self]
    exact SectionEntries.get?_put_self foundLater _

theorem advances_of_declareKeys
    {keys : List Scalar} (run : declareKeys policy name kind keys before = (.ok (), after)) :
    Context.Advances before after ∧
      ∀ key ∈ keys, ∃ object, (after.entriesOf name).get? key = some (.object object) := by
  induction keys generalizing before with
  | nil =>
      obtain ⟨_, rfl⟩ := pure_eq_ok.1 run
      exact ⟨Context.Advances.refl _, by simp⟩
  | cons key rest inductionHypothesis =>
      obtain ⟨_, middle, first, run⟩ := bind_eq_ok.1 run
      obtain ⟨advancesFirst, isObject⟩ := advances_of_declareKey first
      obtain ⟨advancesRest, areObjects⟩ := inductionHypothesis run
      refine ⟨advancesFirst.trans advancesRest, List.forall_mem_cons.2 ⟨?_, areObjects⟩⟩
      exact advancesRest.exists_object isObject

theorem advances_of_declareSection
    {described : Section} (run : declareSection policy described before = (.ok (), after)) :
    Context.Advances before after ∧
      (described.isVirtual = false → described.kind.isSome = true →
        after.HoldsObjects described.name) := by
  by_cases isObject : described.isVirtual = false
  · cases isKind : described.kind with
    | none =>
        simp only [declareSection, isObject, isKind] at run
        obtain ⟨_, rfl⟩ := pure_eq_ok.1 run
        exact ⟨Context.Advances.refl _, by simp⟩
    | some kind =>
        rw [declareSection_of_kind isKind isObject] at run
        obtain ⟨advances, areObjects⟩ := advances_of_declareKeys run
        refine ⟨advances, fun _ _ key isKey => areObjects key ?_⟩
        rwa [(advances described.name).keys] at isKey
  · rw [Bool.not_eq_false] at isObject
    simp only [declareSection, isObject] at run
    obtain ⟨_, rfl⟩ := pure_eq_ok.1 run
    exact ⟨Context.Advances.refl _, by simp [isObject]⟩

theorem advances_of_declareSections
    {sections : List Section} (run : declareSections policy sections before = (.ok (), after)) :
    Context.Advances before after ∧
      ∀ described ∈ sections, described.isVirtual = false → described.kind.isSome = true →
        after.HoldsObjects described.name := by
  induction sections generalizing before with
  | nil =>
      obtain ⟨_, rfl⟩ := pure_eq_ok.1 run
      exact ⟨Context.Advances.refl _, by simp⟩
  | cons described rest inductionHypothesis =>
      obtain ⟨_, middle, first, run⟩ := bind_eq_ok.1 run
      obtain ⟨advancesFirst, holdsFirst⟩ := advances_of_declareSection first
      obtain ⟨advancesRest, holdRest⟩ := inductionHypothesis run
      refine ⟨advancesFirst.trans advancesRest, List.forall_mem_cons.2 ⟨?_, holdRest⟩⟩
      exact fun isObject hasKind => (holdsFirst isObject hasKind).advances advancesRest

/-! ## Compilation up to an object -/

/-- The part of a compilation before any entry becomes an object; the answer is the sections in
their order. -/
def prepare (policy : Policy) (modules : List Module) : Building (List Section) := do
  inContext (Run.setUp modules)
  let objects : Named SectionEntries :=
    policy.objects.map fun entry => (entry.1, rawEntries entry.2)
  modify fun build => { build with context := { build.context with objects := objects } }
  let known := (← get).context.sections
  inContext (warnUnknown (Text.sorted (objects.names.filter fun name =>
    (known.get? name).isNone)))
  inContext (checkKeyed (← get).context known)
  let order ← inContext Run.order
  return order.filterMap known.get?

theorem compilePolicy_eq_prepare (policy : Policy) (modules : List Module) :
    compilePolicy policy modules = (do
      let sections ← prepare policy modules
      inContext (declareSections policy sections)
      insertSections sections
      match setDefinitions ((← get).context.entriesOf "ipset") >>= AddressSet.readAll with
      | .ok sets => return sets
      | .error failure => throw failure) := by
  rw [prepare]
  simp only [bind_assoc, pure_bind]
  rfl

/-- A compilation comes to the entry of the key in the section: `before` is the context in which
the entry is going to become an object. -/
structure Reaches (policy : Policy) (modules : List Module) (start : Context)
    (described : Section) (key : Scalar) (before : Context) : Prop where
  isObject : described.isVirtual = false
  reached : ∃ early late build middle kind earlyKeys lateKeys,
    prepare policy modules { context := start } = (.ok (early ++ described :: late), build) ∧
    declareSections policy early build.context = (.ok (), middle) ∧
    described.kind = some kind ∧
    (middle.entriesOf described.name).keys = earlyKeys ++ key :: lateKeys ∧
    declareKeys policy described.name kind earlyKeys middle = (.ok (), before)

theorem prepare_eq_ok
    {modules : List Module} {start : Context} {sections : List Section} {build : Build}
    (run : prepare policy modules { context := start } = (.ok sections, build)) :
    ∃ known, Run.setUp modules start = (.ok (), known) ∧
      (known.knownOrder = none → ∃ names,
        Order.resolve (Run.directives known.sections) = .ok names ∧
        sections = names.filterMap known.sections.get?) := by
  simp only [prepare, bind_eq_ok, get_eq_ok, modify_eq_ok, inContext_eq_ok, pure_eq_ok] at run
  obtain ⟨_, known, ⟨isSetUp, -⟩, _, _, rfl, _, _, ⟨rfl, rfl⟩, _, warned, ⟨warns, -⟩,
    _, _, ⟨rfl, rfl⟩, _, checked, ⟨checks, -⟩, names, resolved, ⟨resolves, -⟩, rfl, -⟩ := run
  refine ⟨known.context, isSetUp, fun unordered => ⟨names, ?_, rfl⟩⟩
  have early : Notes _ checked.context :=
    (notes_warnUnknown.of_eq warns).trans (notes_checkKeyed.of_eq checks)
  obtain ⟨isOrder, -⟩ := order_eq_ok (early.knownOrder.trans unordered) resolves
  rwa [early.sections] at isOrder

/-- Every section is registered under its own name. -/
theorem name_of_get?
    {modules : List Module} {settings : Settings} {hosts : HostBook} {start : Context}
    (built : Run.setUp modules { settings, hosts } = (.ok (), start)) {described : Section}
    (found : start.sections.get? name = some described) :
    described.name = name := by
  obtain ⟨-, rfl⟩ := Run.setUp_eq_ok built
  rcases Named.mem_set (Named.mem_of_get? found) with isModule | isLoaded
  · obtain ⟨owner, -, isRegistered⟩ := List.mem_flatMap.1 isModule
    obtain ⟨written, -, same⟩ := List.mem_map.1 isRegistered
    obtain ⟨rfl, rfl⟩ := Prod.mk.inj same
    unfold Section.placedBy
    split <;> rfl
  · obtain ⟨rfl, rfl⟩ := Prod.mk.inj isLoaded
    rfl

theorem map_name_filterMap
    {known : Named Section} {names : List String}
    (each : ∀ name ∈ names, ∃ described, known.get? name = some described ∧ described.name = name) :
    (names.filterMap known.get?).map (·.name) = names := by
  induction names with
  | nil => rfl
  | cons name rest inductionHypothesis =>
      obtain ⟨described, found, isName⟩ := each name (List.mem_cons_self ..)
      rw [List.filterMap_cons_some found, List.map_cons, isName,
        inductionHypothesis fun other member => each other (List.mem_cons_of_mem _ member)]

/-- When an entry of a section that is not core is reached, all entries of the core sections are
objects. -/
theorem holdsObjects_of_reaches
    {modules : List Module} {settings : Settings} {hosts : HostBook} {described : Section}
    {key : Scalar} (reaches : Reaches policy modules { settings, hosts } described key before)
    {other : Module} (isOther : other ∈ modules) (notCore : other.core = false)
    (isSection : described ∈ other.sections)
    {owner : Module} (isOwner : owner ∈ modules) (isCore : owner.core = true)
    {core : Section} (isCoreSection : core ∈ owner.sections) (isObject : core.isVirtual = false)
    (hasKind : core.kind.isSome = true) :
    before.HoldsObjects core.name := by
  obtain ⟨early, late, build, middle, kind, earlyKeys, lateKeys, prepared, declared, -, -,
    declaring⟩ := reaches.reached
  obtain ⟨start, built, ordered⟩ := prepare_eq_ok prepared
  obtain ⟨keeping, unordered⟩ := Request.keeping_of_setUp built
  obtain ⟨names, resolved, isSections⟩ := ordered unordered
  have isOrder := keeping.isOrder resolved
  have coreFirst : Request.PutsCoreFirst modules [] names := by
    refine Request.putsCoreFirst_of_isOrder built ?_
    rwa [List.flatMap_nil, List.append_nil]
  -- The sections stand in the order of their names.
  have inOrder : early.map (·.name) ++ described.name :: late.map (·.name) = names := by
    rw [← List.map_cons, ← List.map_append, isSections]
    refine map_name_filterMap fun name isName => ?_
    obtain ⟨found, isFound⟩ := Named.exists_get?_of_mem
      ((keeping.mem_of_resolve resolved name).1 isName)
    exact ⟨found, isFound, name_of_get? built isFound⟩
  have isEarly : core.name ∈ early.map (·.name) := by
    have distinct := isOrder.distinct
    have first := (coreFirst.core owner (Or.inl isOwner) isCore core isCoreSection
      isObject).idxOf_lt distinct
    have second := (coreFirst.others other isOther notCore described isSection).idxOf_lt distinct
    rw [← inOrder] at distinct first second
    exact Order.mem_early_of_idxOf_lt distinct (first.trans second)
  obtain ⟨placed, isPlaced, sameName⟩ := List.mem_map.1 isEarly
  have isRegistered : placed = core.placedBy owner := by
    have member : placed ∈ names.filterMap start.sections.get? :=
      isSections ▸ List.mem_append_left _ isPlaced
    obtain ⟨name, -, found⟩ := List.mem_filterMap.1 member
    have isName : name = core.name := (name_of_get? built found).symm.trans sameName
    rw [isName, Request.get?_of_setUp built isOwner isCoreSection
      (Section.ne_modulesLoaded isObject)] at found
    exact (Option.some.inj found).symm
  have holds := (advances_of_declareSections declared).2 placed isPlaced
  have sameKind : placed.kind = core.kind ∧ placed.isVirtual = core.isVirtual := by
    rw [isRegistered]
    unfold Section.placedBy
    split <;> exact ⟨rfl, rfl⟩
  rw [sameKind.1, sameKind.2, sameName] at holds
  exact (holds isObject hasKind).advances (advances_of_declareKeys declaring).1

end Building

open Request in
/-- The sections of core modules come first.  In every order that a context tells, they stand before
the point that the sections of all other modules of the set-up stand behind, and in every compilation
their entries are objects before an entry of such a section becomes one. -/
theorem core_sections_first (modules : List Module) :
    (∀ settings hosts start requests names,
      Run.setUp modules { settings, hosts } = (.ok (), start) →
      Along (fun before request => ¬ IsRefused before request) start requests →
      (Run.order (afterAll start requests)).1 = .ok names →
      PutsCoreFirst modules requests names) ∧
    (∀ policy settings hosts described key before,
      Building.Reaches policy modules { settings, hosts } described key before →
      ∀ other ∈ modules, other.core = false → described ∈ other.sections →
      ∀ owner ∈ modules, owner.core = true →
      ∀ core ∈ owner.sections, core.isVirtual = false → core.kind.isSome = true →
        before.HoldsObjects core.name) := by
  constructor
  · intro settings hosts start requests names built granted told
    obtain ⟨keeping, unordered⟩ := keeping_of_setUp built
    have isOrder := isOrder_of_granted keeping unordered granted told
    rw [sections_afterAll keeping granted] at isOrder
    exact putsCoreFirst_of_isOrder built isOrder
  · intro policy settings hosts described key before reaches other isOther notCore isSection owner
      isOwner isCore core isCoreSection isObject hasKind
    exact Building.holdsObjects_of_reaches reaches isOther notCore isSection isOwner isCore
      isCoreSection isObject hasKind


/-- Zones as core objects and filter rules that refer to them. -/
def zonesAndRules : List Module := [
  { name := "rules", sections := [{ name := "filter", kind := some (.rule .filter) }] },
  { name := "objects", core := true, sections := [{ name := "zone", kind := some .zone }] }]

/-- A core module that is registered later. -/
def laterServices : Module where
  name := "more"
  core := true
  sections := [{ name := "service", kind := some .service }]

/-- A policy with a filter rule and a zone. -/
def zonePolicy : Policy where
  objects := [("filter", .list [.map []]), ("zone", .map [(.text "lan", .map [])])]

/-- The context with those modules. -/
def zonesContext : Context where
  sections := [
    ("filter", { name := "filter", kind := some (.rule .filter) }),
    ("zone", { name := "zone", kind := some .zone, before := [modulesLoaded] }),
    (modulesLoaded, { name := modulesLoaded, before := ["filter"] })]

theorem setUp_zonesAndRules : Run.setUp zonesAndRules {} = (.ok (), zonesContext) :=
  rfl

theorem resolve_zonesContext :
    Order.resolve (Run.directives zonesContext.sections) =
      .ok ["zone", modulesLoaded, "filter"] := by
  let directives := Run.directives zonesContext.sections
  have names : Text.sorted (directives.map (·.name)) = [modulesLoaded, "filter", "zone"] :=
    Text.sorted_eq (by decide) (by decide)
  let before := Order.required directives [modulesLoaded, "filter", "zone"]
  have required : before "%modules" = ["zone"] ∧ before "filter" = ["%modules"] ∧
      before "zone" = [] := by decide
  change Order.visit (Order.required directives (Text.sorted (directives.map (·.name)))) _ _ _
    (Text.sorted (directives.map (·.name))) = _
  rw [names]
  change Order.visit before _ _ _ _ = _
  simp [Order.visit, required, modulesLoaded]

/-- The context with those modules and the one that is registered later. -/
def servicesContext : Context :=
  { zonesContext with
    sections := zonesContext.sections ++
      [("service", { name := "service", kind := some .service, before := [modulesLoaded] })] }

theorem resolve_servicesContext :
    Order.resolve (Run.directives servicesContext.sections) =
      .ok ["service", "zone", modulesLoaded, "filter"] := by
  let directives := Run.directives servicesContext.sections
  have names : Text.sorted (directives.map (·.name)) =
      [modulesLoaded, "filter", "service", "zone"] :=
    Text.sorted_eq (by decide) (by decide)
  let before := Order.required directives [modulesLoaded, "filter", "service", "zone"]
  have required : before "%modules" = ["service", "zone"] ∧
      before "filter" = ["%modules"] ∧ before "service" = [] ∧ before "zone" = [] := by decide
  change Order.visit (Order.required directives (Text.sorted (directives.map (·.name)))) _ _ _
    (Text.sorted (directives.map (·.name))) = _
  rw [names]
  change Order.visit before _ _ _ _ = _
  simp [Order.visit, required, modulesLoaded]

/-- The order is asked for once before the module is registered. -/
def laterRequests : List Request :=
  [.order, .register laterServices]

theorem afterAll_laterRequests :
    Request.afterAll zonesContext laterRequests = servicesContext := by
  have asked : Run.order zonesContext = _ := Building.order_of_resolve rfl resolve_zonesContext
  rw [laterRequests, Request.afterAll, List.foldl_cons, List.foldl_cons, List.foldl_nil]
  simp only [Request.after, asked]
  rfl

theorem granted_laterRequests :
    Request.Along (fun before request => ¬ Request.IsRefused before request) zonesContext
      laterRequests := by
  have asked : Run.order zonesContext = _ := Building.order_of_resolve rfl resolve_zonesContext
  refine ⟨not_false, ?_, trivial⟩
  rintro ⟨failure, refused⟩
  rw [Request.after, asked] at refused
  cases refused

/-- The build when the sections are known. -/
def preparedZones : Build where
  context :=
    { zonesContext with
      knownOrder := some ["zone", modulesLoaded, "filter"]
      objects := [("filter", .list [.raw (.map [])]), ("zone", .map [(.text "lan", .raw (.map []))])] }

/-- The context once the zone is an object. -/
def declaredZones : Context :=
  { preparedZones.context with
    objects := [("filter", .list [.raw (.map [])]),
      ("zone", .map [(.text "lan", .object (.zone ⟨"zone lan (?)", []⟩))])] }

/-- The section of filter rules. -/
def filterSection : Section where
  name := "filter"
  kind := some (.rule .filter)

theorem prepare_zones :
    Building.prepare zonePolicy zonesAndRules { context := {} } =
      (.ok ([{ name := "zone", kind := some .zone, before := [modulesLoaded] },
        { name := modulesLoaded, before := ["filter"] }] ++ filterSection :: []),
        preparedZones) := by
  let loaded : Context := { preparedZones.context with knownOrder := none }
  have orders : Run.order loaded = (.ok ["zone", modulesLoaded, "filter"], preparedZones.context) :=
    Building.order_of_resolve rfl resolve_zonesContext
  have warns : Building.warnUnknown (Text.sorted []) loaded = (.ok (), loaded) := by
    rw [Text.sorted, List.mergeSort_nil]
    rfl
  have checks : Building.checkKeyed loaded loaded.sections loaded = (.ok (), loaded) := rfl
  unfold Building.prepare
  rw [Building.inContext_bind_apply setUp_zonesAndRules, bind_apply]
  change (Building.inContext (Building.warnUnknown (Text.sorted [])) >>= _)
    { context := loaded } = _
  rw [Building.inContext_bind_apply warns, bind_apply]
  change (Building.inContext (Building.checkKeyed loaded loaded.sections) >>= _)
    { context := loaded } = _
  rw [Building.inContext_bind_apply checks, Building.inContext_bind_apply orders]
  rfl

theorem reaches_filterSection :
    Building.Reaches zonePolicy zonesAndRules {} filterSection (.int 0) declaredZones where
  isObject := rfl
  reached := by
    refine ⟨_, [], preparedZones, declaredZones, .rule .filter, [], [], prepare_zones, ?_, rfl, rfl,
      rfl⟩
    with_unfolding_all rfl

/-- The section that is registered later comes before the filter rules as well, and the zone is an
object when the filter rule is reached. -/
theorem core_sections_first_of_zones :
    Request.PutsCoreFirst zonesAndRules laterRequests
        ["service", "zone", modulesLoaded, "filter"] ∧
      declaredZones.HoldsObjects "zone" := by
  obtain ⟨inOrder, declared⟩ := core_sections_first zonesAndRules
  have told : (Run.order (Request.afterAll zonesContext laterRequests)).1 =
      .ok ["service", "zone", modulesLoaded, "filter"] := by
    have orders : Run.order servicesContext = _ :=
      Building.order_of_resolve rfl resolve_servicesContext
    rw [afterAll_laterRequests, orders]
  constructor
  · exact inOrder {} HostBook.none zonesContext laterRequests _ setUp_zonesAndRules
      granted_laterRequests told
  · exact declared zonePolicy {} HostBook.none filterSection (.int 0) declaredZones
      reaches_filterSection _ (List.mem_cons_self ..) rfl (List.mem_cons_self ..) _
      (List.mem_cons_of_mem _ (List.mem_cons_self ..)) rfl _ (List.mem_cons_self ..) rfl rfl

end FirewallPolicy
