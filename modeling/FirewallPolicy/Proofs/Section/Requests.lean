import FirewallPolicy.Proofs.Compile.Phases

/-!
# Registering sections and asking for their order

A context keeps the order of its sections once it was asked for it and forgets it when a module is
registered.  A module whose registration is refused at a repeated section leaves the sections before
that one registered, and the order that was kept is not forgotten.  The order that a context tells is
therefore that of its sections except in one situation: it was asked for the order, no registration
was granted since then, and one that was refused added sections.
-/

namespace FirewallPolicy

open Stateful

/-! ## One registration -/

namespace Section

/-- Sections have names of their own, or there is a first one whose name is known already. -/
theorem distinct_or_repeated
    {known : List String} (distinct : known.Nodup) (sections : List Section) :
    (known ++ sections.map (·.name)).Nodup ∨
      ∃ early repeated late, sections = early ++ repeated :: late ∧
        (known ++ early.map (·.name)).Nodup ∧
        repeated.name ∈ known ++ early.map (·.name) := by
  induction sections generalizing known with
  | nil => exact Or.inl (by simpa using distinct)
  | cons added rest inductionHypothesis =>
      by_cases fresh : added.name ∈ known
      · exact Or.inr ⟨[], added, rest, rfl, by simpa using distinct, by simpa using fresh⟩
      · have grown : (known ++ [added.name]).Nodup := by
          rw [List.nodup_append]
          exact ⟨distinct, List.nodup_singleton _,
            fun name member other isAdded same =>
              fresh (List.mem_singleton.1 isAdded ▸ same ▸ member)⟩
        rcases inductionHypothesis grown with
          allFresh | ⟨early, repeated, late, rfl, earlyFresh, isKnown⟩
        · exact Or.inl (by simpa using allFresh)
        · exact Or.inr ⟨added :: early, repeated, late, rfl, by simpa using earlyFresh,
            by simpa using isKnown⟩

end Section

namespace Run

variable {before : Context}

theorem registerSection_refused
    {owner : Module} {repeated : Section} (isKnown : repeated.name ∈ before.sections.names) :
    registerSection owner repeated before =
      (.error (.fault ("module " ++ owner.name) (.duplicateSection repeated.name)),
        { before with
          faults := before.faults ++
            [⟨"module " ++ owner.name, .duplicateSection repeated.name⟩] }) := by
  have found : (before.sections.get? repeated.name).isSome = true := by
    rw [Option.isSome_iff_ne_none]
    exact fun missing => Named.get?_eq_none_iff.1 missing isKnown
  unfold registerSection
  rw [bind_apply]
  change (if (before.sections.get? repeated.name).isSome = true then _ else _ : Run Unit) before = _
  rw [found]
  rfl

/-- The sections before one whose name is known stay registered when that one is refused. -/
theorem registerSections_refused
    {owner : Module} {early late : List Section} {repeated : Section}
    (distinct : (before.sections.names ++ early.map (·.name)).Nodup)
    (isKnown : repeated.name ∈ before.sections.names ++ early.map (·.name)) :
    registerSections owner (early ++ repeated :: late) before =
      (.error (.fault ("module " ++ owner.name) (.duplicateSection repeated.name)),
        { before with
          sections := before.sections ++
            early.map fun described => (described.name, described.placedBy owner)
          faults := before.faults ++
            [⟨"module " ++ owner.name, .duplicateSection repeated.name⟩] }) := by
  induction early generalizing before with
  | nil =>
      rw [List.map_nil, List.append_nil] at isKnown
      rw [List.nil_append, registerSections, bind_apply, registerSection_refused isKnown,
        List.map_nil, List.append_nil]
  | cons added rest inductionHypothesis =>
      have fresh : added.name ∉ before.sections.names := by
        simp only [List.map_cons, List.nodup_append, List.mem_cons] at distinct
        exact fun known => distinct.2.2 _ known _ (Or.inl rfl) rfl
      rw [List.cons_append, registerSections, bind_apply, registerSection_apply fresh]
      dsimp only
      rw [inductionHypothesis]
      · simp
      · simpa [Named.names] using distinct
      · simpa [Named.names] using isKnown

/-- A module is registered as a whole, or up to its first section whose name is known. -/
theorem register_cases (distinct : before.sections.names.Nodup) (owner : Module) :
    ((before.sections.names ++ owner.sections.map (·.name)).Nodup ∧
      register owner before = (.ok (owner.sections.map (·.name)), { before with
        sections := before.sections ++ owner.registered
        auxiliary := before.auxiliary ++ owner.auxiliary
        knownOrder := none })) ∨
    ∃ early repeated late, owner.sections = early ++ repeated :: late ∧
      (before.sections.names ++ early.map (·.name)).Nodup ∧
      repeated.name ∈ before.sections.names ++ early.map (·.name) ∧
      register owner before =
        (.error (.fault ("module " ++ owner.name) (.duplicateSection repeated.name)),
          { before with
            sections := before.sections ++
              early.map fun described => (described.name, described.placedBy owner)
            faults := before.faults ++
              [⟨"module " ++ owner.name, .duplicateSection repeated.name⟩] }) := by
  rcases Section.distinct_or_repeated distinct owner.sections with
    allFresh | ⟨early, repeated, late, same, earlyFresh, isKnown⟩
  · exact Or.inl ⟨allFresh, register_apply allFresh⟩
  · refine Or.inr ⟨early, repeated, late, same, earlyFresh, isKnown, ?_⟩
    rw [register, bind_apply, same, registerSections_refused earlyFresh isKnown]

theorem order_of_known
    {names : List String} (isKnown : before.knownOrder = some names) :
    order before = (.ok names, before) := by
  have reads : (get : Run Context) before = (.ok before, before) := rfl
  rw [order, bind_apply, reads]
  simp only [isKnown]
  rfl

theorem order_of_cycle
    {cycle : List String} (unordered : before.knownOrder = none)
    (resolved : Order.resolve (directives before.sections) = .error cycle) :
    order before = (.error (.cycle cycle), before) := by
  have reads : (get : Run Context) before = (.ok before, before) := rfl
  rw [order, bind_apply, reads]
  simp only [unordered, resolved]
  rfl

end Run

/-! ## Requests -/

/-- What a context is asked for: to register a module, or to tell the order of its sections. -/
inductive Request where
  | register (owner : Module)
  | order

namespace Request

/-- The context after a request, whether it is granted or refused. -/
def after (before : Context) : Request → Context
  | .register owner => (Run.register owner before).2
  | .order => (Run.order before).2

/-- The context after some requests. -/
def afterAll (start : Context) (requests : List Request) : Context :=
  requests.foldl after start

/-- The request is a registration that the context grants. -/
def IsGranted (before : Context) : Request → Prop
  | .register owner => ∃ names, (Run.register owner before).1 = .ok names
  | .order => False

/-- The request is a registration that the context refuses. -/
def IsRefused (before : Context) : Request → Prop
  | .register owner => ∃ failure, (Run.register owner before).1 = .error failure
  | .order => False

/-- The condition holds of each of the requests in the context in which it is made. -/
def Along (condition : Context → Request → Prop) : Context → List Request → Prop
  | _, [] => True
  | before, request :: rest => condition before request ∧ Along condition (after before request) rest

/-- The context tells the order that is found for its sections. -/
def IsCurrent (context : Context) : Prop :=
  (Run.order context).1 =
    (Order.resolve (Run.directives context.sections)).mapError Failure.cycle

/-- The order was told at some point; since then no registration was granted, and one that was
refused added sections. -/
def IsStale (start : Context) (requests : List Request) : Prop :=
  ∃ early late names, requests = early ++ .order :: late ∧
    (Run.order (afterAll start early)).1 = .ok names ∧
    Along (fun before request => ¬ IsGranted before request) (afterAll start early)
      (.order :: late) ∧
    (afterAll start requests).sections ≠ (afterAll start early).sections

variable {start before : Context} {requests : List Request}

theorem afterAll_append (start : Context) (early late : List Request) :
    afterAll start (early ++ late) = afterAll (afterAll start early) late :=
  List.foldl_append ..

theorem along_append
    {condition : Context → Request → Prop} {early late : List Request} :
    Along condition start (early ++ late) ↔
      Along condition start early ∧ Along condition (afterAll start early) late := by
  induction early generalizing start with
  | nil => exact (true_and _).symm ▸ Iff.rfl
  | cons request rest inductionHypothesis =>
      rw [List.cons_append, Along, Along, inductionHypothesis, and_assoc]
      rfl

/-! ## The order that a context keeps -/

/-- The sections have names of their own, and an order that is kept has no other names. -/
structure Keeping (context : Context) : Prop where
  distinct : context.sections.names.Nodup
  isKnown : ∀ names ∈ context.knownOrder, names ⊆ context.sections.names

theorem knownNames_directives (sections : Named Section) :
    Order.knownNames (Run.directives sections) = sections.names := by
  simp [Order.knownNames, Run.directives, Named.names]

theorem Keeping.isOrder
    (keeping : Keeping before) {names : List String}
    (resolved : Order.resolve (Run.directives before.sections) = .ok names) :
    Order.IsOrder (Run.directives before.sections) names :=
  Order.isOrder_of_resolve (knownNames_directives before.sections ▸ keeping.distinct) resolved

theorem Keeping.mem_of_resolve
    (keeping : Keeping before) {names : List String}
    (resolved : Order.resolve (Run.directives before.sections) = .ok names) (name : String) :
    name ∈ names ↔ name ∈ before.sections.names := by
  rw [(keeping.isOrder resolved).complete, knownNames_directives]

/-- What a query of the order does: it tells the order that is kept, or finds one and keeps it. -/
theorem after_order_cases (before : Context) :
    (∃ names, before.knownOrder = some names ∧ Run.order before = (.ok names, before)) ∨
    (∃ names, before.knownOrder = none ∧
      Order.resolve (Run.directives before.sections) = .ok names ∧
      Run.order before = (.ok names, { before with knownOrder := some names })) ∨
    (∃ cycle, before.knownOrder = none ∧
      Order.resolve (Run.directives before.sections) = .error cycle ∧
      Run.order before = (.error (.cycle cycle), before)) := by
  cases isKnown : before.knownOrder with
  | some names => exact Or.inl ⟨names, rfl, Run.order_of_known isKnown⟩
  | none =>
      cases resolved : Order.resolve (Run.directives before.sections) with
      | ok names =>
          exact Or.inr (Or.inl ⟨names, rfl, rfl, Building.order_of_resolve isKnown resolved⟩)
      | error cycle =>
          exact Or.inr (Or.inr ⟨cycle, rfl, rfl, Run.order_of_cycle isKnown resolved⟩)

theorem Keeping.after
    (keeping : Keeping before) (request : Request) :
    Keeping (after before request) := by
  cases request with
  | register owner =>
      rcases Run.register_cases keeping.distinct owner with
        ⟨allFresh, run⟩ | ⟨early, repeated, late, -, earlyFresh, -, run⟩
      · rw [Request.after, run]
        exact ⟨by simpa [Named.names, Module.registered, Function.comp_def] using allFresh,
          by simp⟩
      · rw [Request.after, run]
        refine ⟨by simpa [Named.names, Function.comp_def] using earlyFresh, ?_⟩
        intro names isKept name member
        have isKnown := keeping.isKnown names isKept member
        simpa [Named.names] using Or.inl (by simpa [Named.names] using isKnown)
  | order =>
      rcases after_order_cases before with
        ⟨names, -, run⟩ | ⟨names, -, resolved, run⟩ | ⟨cycle, -, -, run⟩
      · rw [Request.after, run]
        exact keeping
      · rw [Request.after, run]
        refine ⟨keeping.distinct, fun kept isKept name member => ?_⟩
        obtain rfl := Option.some.inj isKept
        exact (keeping.mem_of_resolve resolved name).1 member
      · rw [Request.after, run]
        exact keeping

theorem Keeping.afterAll
    (keeping : Keeping start) (requests : List Request) :
    Keeping (afterAll start requests) := by
  induction requests generalizing start with
  | nil => exact keeping
  | cons request rest inductionHypothesis => exact inductionHypothesis (keeping.after request)

/-- A request that is no granted registration forgets no order and no section. -/
theorem Keeping.after_of_not_isGranted
    (keeping : Keeping before) {request : Request} (refused : ¬ IsGranted before request)
    {names : List String} (isKept : before.knownOrder = some names) :
    (Request.after before request).knownOrder = some names ∧
      before.sections <+: (Request.after before request).sections := by
  cases request with
  | register owner =>
      rcases Run.register_cases keeping.distinct owner with
        ⟨-, run⟩ | ⟨early, repeated, late, -, -, -, run⟩
      · exact absurd ⟨_, congrArg Prod.fst run⟩ refused
      · rw [Request.after, run]
        exact ⟨isKept, List.prefix_append ..⟩
  | order =>
      rw [Request.after, Run.order_of_known isKept]
      exact ⟨isKept, List.prefix_refl _⟩

/-- An order that is kept stays while no registration is granted. -/
theorem Keeping.afterAll_of_not_isGranted
    (keeping : Keeping before) {late : List Request}
    (refused : Along (fun before request => ¬ IsGranted before request) before late)
    {names : List String} (isKept : before.knownOrder = some names) :
    (Request.afterAll before late).knownOrder = some names ∧
      before.sections <+: (Request.afterAll before late).sections := by
  induction late generalizing before with
  | nil => exact ⟨isKept, List.prefix_refl _⟩
  | cons request rest inductionHypothesis =>
      obtain ⟨keptNext, grown⟩ := keeping.after_of_not_isGranted refused.1 isKept
      obtain ⟨keptLast, grownMore⟩ := inductionHypothesis (keeping.after request) refused.2 keptNext
      exact ⟨keptLast, grown.trans grownMore⟩

/-- An order that is kept was found for the sections that there were when it was asked for; no
registration was granted since then. -/
theorem Keeping.exists_of_knownOrder
    (keeping : Keeping start) (unordered : start.knownOrder = none)
    {names : List String} (isKept : (Request.afterAll start requests).knownOrder = some names) :
    ∃ early late, requests = early ++ .order :: late ∧
      (Run.order (Request.afterAll start early)).1 = .ok names ∧
      Order.resolve (Run.directives (Request.afterAll start early).sections) = .ok names ∧
      Along (fun before request => ¬ IsGranted before request) (Request.afterAll start early)
        (.order :: late) := by
  induction requests using List.reverseRecOn with
  | nil => exact absurd (unordered.symm.trans isKept) (by simp)
  | append_singleton earlier request inductionHypothesis =>
      have keptBefore := keeping.afterAll earlier
      rw [afterAll_append] at isKept
      -- A request that leaves the order as it is extends those made since it was found.
      have extended (same : (Request.afterAll start earlier).knownOrder = some names)
          (refused : ¬ IsGranted (Request.afterAll start earlier) request) :
          ∃ early late, earlier ++ [request] = early ++ .order :: late ∧
            (Run.order (Request.afterAll start early)).1 = .ok names ∧
            Order.resolve (Run.directives (Request.afterAll start early).sections) = .ok names ∧
            Along (fun before request => ¬ IsGranted before request)
              (Request.afterAll start early) (.order :: late) := by
        obtain ⟨early, late, rfl, told, resolved, along⟩ := inductionHypothesis same
        refine ⟨early, late ++ [request], by simp, told, resolved, ?_⟩
        rw [← List.cons_append, along_append, ← afterAll_append]
        exact ⟨along, refused, trivial⟩
      cases request with
      | register owner =>
          rcases Run.register_cases keptBefore.distinct owner with
            ⟨-, run⟩ | ⟨_, _, _, -, -, -, run⟩
          · change (Run.register owner (Request.afterAll start earlier)).2.knownOrder = _ at isKept
            rw [run] at isKept
            cases isKept
          · refine extended ?_ ?_
            · change (Run.register owner (Request.afterAll start earlier)).2.knownOrder = _ at isKept
              rwa [run] at isKept
            · rintro ⟨_, granted⟩
              rw [run] at granted
              cases granted
      | order =>
          change (Run.order (Request.afterAll start earlier)).2.knownOrder = _ at isKept
          rcases after_order_cases (Request.afterAll start earlier) with
            ⟨known, -, run⟩ | ⟨known, -, resolved, run⟩ | ⟨cycle, isNone, -, run⟩
          · rw [run] at isKept
            exact extended isKept not_false
          · rw [run] at isKept
            obtain rfl := Option.some.inj isKept
            exact ⟨earlier, [], rfl, by rw [run], resolved, not_false, trivial⟩
          · rw [run, isNone] at isKept
            cases isKept

/-- An order that was told is kept. -/
theorem after_order_of_told
    {names : List String} (told : (Run.order before).1 = .ok names) :
    (after before .order).knownOrder = some names ∧
      (after before .order).sections = before.sections := by
  rw [after]
  rcases after_order_cases before with
    ⟨known, isKept, run⟩ | ⟨known, -, -, run⟩ | ⟨cycle, -, -, run⟩
  all_goals rw [run] at told ⊢
  · exact ⟨isKept.trans (congrArg some (Except.ok.inj told)), rfl⟩
  · exact ⟨congrArg some (Except.ok.inj told), rfl⟩
  · cases told

/-- An order that is kept is current exactly when it is found for the sections. -/
theorem isCurrent_of_knownOrder
    {names : List String} (isKept : before.knownOrder = some names) :
    IsCurrent before ↔ Order.resolve (Run.directives before.sections) = .ok names := by
  rw [IsCurrent, Run.order_of_known isKept]
  cases Order.resolve (Run.directives before.sections) with
  | ok found =>
      change Except.ok names = Except.ok found ↔ _
      exact eq_comm.trans (by simp)
  | error cycle => exact ⟨fun same => (nomatch same), fun same => (nomatch same)⟩

theorem isCurrent_of_unordered (unordered : before.knownOrder = none) : IsCurrent before := by
  rcases after_order_cases before with
    ⟨names, isKept, -⟩ | ⟨names, -, resolved, run⟩ | ⟨cycle, -, resolved, run⟩
  · exact absurd (unordered.symm.trans isKept) (by simp)
  · rw [IsCurrent, run, resolved]
    rfl
  · rw [IsCurrent, run, resolved]
    rfl

/-- Sections that were added after the order was kept are missing in it. -/
theorem Keeping.not_isCurrent_of_grown
    (keeping : Keeping before) {later : Context} (keepingLater : Keeping later)
    {names : List String} (isKept : before.knownOrder = some names)
    (stillKept : later.knownOrder = some names)
    (grown : before.sections <+: later.sections) (changed : later.sections ≠ before.sections) :
    ¬ IsCurrent later := by
  rw [isCurrent_of_knownOrder stillKept]
  intro resolved
  obtain ⟨added, isGrown⟩ := grown
  cases added with
  | nil => exact changed (by rw [← isGrown, List.append_nil])
  | cons new rest =>
      have isNew : new.1 ∈ later.sections.names := by
        simp [← isGrown, Named.names]
      have wasKnown : new.1 ∈ before.sections.names :=
        keeping.isKnown names isKept ((keepingLater.mem_of_resolve resolved new.1).2 isNew)
      have distinct := keepingLater.distinct
      rw [← isGrown, Named.names, List.map_append, List.nodup_append] at distinct
      exact distinct.2.2 _ wasKnown _ (by simp) rfl

theorem Keeping.not_isCurrent_of_isStale
    (keeping : Keeping start) (stale : IsStale start requests) :
    ¬ IsCurrent (Request.afterAll start requests) := by
  obtain ⟨early, late, names, rfl, told, refused, changed⟩ := stale
  have keepingNext := (keeping.afterAll early).after .order
  obtain ⟨isKept, sameSections⟩ := after_order_of_told told
  obtain ⟨stillKept, grown⟩ := keepingNext.afterAll_of_not_isGranted refused.2 isKept
  rw [afterAll_append, ← sameSections] at changed
  rw [afterAll_append]
  exact keepingNext.not_isCurrent_of_grown (keepingNext.afterAll late) isKept stillKept grown
    changed

theorem Keeping.isCurrent_of_not_isStale
    (keeping : Keeping start) (unordered : start.knownOrder = none)
    (fresh : ¬ IsStale start requests) :
    IsCurrent (Request.afterAll start requests) := by
  cases isKept : (Request.afterAll start requests).knownOrder with
  | none => exact isCurrent_of_unordered isKept
  | some names =>
      obtain ⟨early, late, same, told, resolved, refused⟩ :=
        keeping.exists_of_knownOrder unordered isKept
      have sameSections : (Request.afterAll start requests).sections =
          (Request.afterAll start early).sections := by
        by_contra changed
        exact fresh ⟨early, late, names, same, told, refused, changed⟩
      rw [isCurrent_of_knownOrder isKept, sameSections]
      exact resolved

end Request

/-! ## From set-up on -/

namespace Run

variable {before after : Context} {modules : List Module}

/-- Modules that are all registered have sections of different names. -/
theorem distinct_of_registerModules
    (distinct : before.sections.names.Nodup) {exported : List String}
    (run : registerModules modules before = (.ok exported, after)) :
    (before.sections.names ++
      modules.flatMap fun owner => owner.sections.map (·.name)).Nodup := by
  induction modules generalizing before after exported with
  | nil => simpa using distinct
  | cons owner rest inductionHypothesis =>
      rw [registerModules, bind_eq_ok] at run
      obtain ⟨names, middle, registered, run⟩ := run
      rw [bind_eq_ok] at run
      obtain ⟨others, last, run, -⟩ := run
      rcases register_cases distinct owner with ⟨allFresh, granted⟩ | ⟨_, _, _, -, -, -, refused⟩
      · obtain ⟨-, isMiddle⟩ := Prod.mk.inj (granted.symm.trans registered)
        have names : middle.sections.names =
            before.sections.names ++ owner.sections.map (·.name) := by
          simp [← isMiddle, Named.names, Module.registered, Function.comp_def]
        have all := inductionHypothesis (names ▸ allFresh) run
        rwa [names, List.append_assoc] at all
      · cases congrArg Prod.fst (refused.symm.trans registered)

/-- A context that is set up has the sections of its modules, all of different names, and the
point behind the core sections. -/
theorem setUp_eq_ok
    {settings : Settings} {hosts : HostBook}
    (built : setUp modules { settings, hosts } = (.ok (), after)) :
    (modules.flatMap fun owner => owner.sections.map (·.name)).Nodup ∧
      after = {
        settings, hosts
        sections := Named.set (modules.flatMap Module.registered) modulesLoaded
          { name := modulesLoaded, before := modules.flatMap Module.exported }
        auxiliary := modules.flatMap Module.auxiliary } := by
  rw [setUp, bind_eq_ok] at built
  obtain ⟨exported, middle, registers, stores⟩ := built
  have unregistered : ({ settings, hosts } : Context).sections.names.Nodup := List.nodup_nil
  have distinct := distinct_of_registerModules unregistered registers
  rw [show ({ settings, hosts } : Context).sections.names = [] from rfl, List.nil_append]
    at distinct
  rw [registerModules_apply rfl (by simpa [Named.names] using distinct)] at registers
  obtain ⟨isExported, rfl⟩ := Prod.mk.inj registers
  obtain rfl := Except.ok.inj isExported
  exact ⟨distinct, (modify_eq_ok.1 stores).symm⟩

end Run

namespace Request

variable {settings : Settings} {hosts : HostBook} {modules : List Module} {start : Context}

theorem keeping_of_setUp
    (built : Run.setUp modules { settings, hosts } = (.ok (), start)) :
    Keeping start ∧ start.knownOrder = none := by
  obtain ⟨distinct, rfl⟩ := Run.setUp_eq_ok built
  refine ⟨⟨Named.nodup_names_set ?_ .., by simp⟩, rfl⟩
  simpa [Named.names, Module.registered, List.map_flatMap, Function.comp_def] using distinct

/-- From set-up on and whatever is asked for, a context tells the order of its sections unless the
order is stale. -/
theorem isCurrent_iff_not_isStale
    (built : Run.setUp modules { settings, hosts } = (.ok (), start))
    (requests : List Request) :
    IsCurrent (afterAll start requests) ↔ ¬ IsStale start requests := by
  obtain ⟨keeping, unordered⟩ := keeping_of_setUp built
  exact ⟨fun current stale => keeping.not_isCurrent_of_isStale stale current,
    keeping.isCurrent_of_not_isStale unordered⟩

/-- A context without modules. -/
def bare : Context where
  sections := [(modulesLoaded, { name := modulesLoaded })]

/-- A module that names its section twice. -/
def repeating : Module where
  name := "m"
  sections := [{ name := "a" }, { name := "a" }]

/-- The order is asked for before and after the registration of that module. -/
def repeatingRequests : List Request :=
  [.order, .register repeating, .order]

theorem setUp_bare : Run.setUp [] {} = (.ok (), bare) :=
  rfl

theorem resolve_bare : Order.resolve (Run.directives bare.sections) = .ok [modulesLoaded] := by
  have names : Text.sorted ((Run.directives bare.sections).map (·.name)) = [modulesLoaded] :=
    Text.sorted_eq (by decide) (by decide)
  have first : Order.required (Run.directives bare.sections) [modulesLoaded] modulesLoaded = [] := by
    decide
  simp [Order.resolve, names, Order.visit, first]

theorem resolve_repeating :
    Order.resolve (Run.directives (bare.sections ++ [("a", { name := "a" })])) =
      .ok [modulesLoaded, "a"] := by
  let directives := Run.directives (bare.sections ++ [("a", { name := "a" })])
  have names : Text.sorted (directives.map (·.name)) = [modulesLoaded, "a"] :=
    Text.sorted_eq (by decide) (by decide)
  have first : Order.required directives [modulesLoaded, "a"] modulesLoaded = [] := by decide
  have second : Order.required directives [modulesLoaded, "a"] "a" = [] := by decide
  have different : "a" ≠ modulesLoaded := by decide
  change Order.visit (Order.required directives (Text.sorted (directives.map (·.name)))) _ _ _
    (Text.sorted (directives.map (·.name))) = _
  rw [names]
  simp [Order.visit, first, second, different]

theorem afterAll_repeating :
    (afterAll bare repeatingRequests).knownOrder = some [modulesLoaded] ∧
      (afterAll bare repeatingRequests).sections = bare.sections ++ [("a", { name := "a" })] := by
  have asked : Run.order bare = _ := Building.order_of_resolve rfl resolve_bare
  let middle : Context := { bare with knownOrder := some [modulesLoaded] }
  have refused : Run.register repeating middle =
      (.error (.fault "module m" (.duplicateSection "a")), { middle with
        sections := bare.sections ++ [("a", { name := "a" })]
        faults := [⟨"module m", .duplicateSection "a"⟩] }) := rfl
  rw [repeatingRequests, afterAll, List.foldl_cons, List.foldl_cons, List.foldl_cons, List.foldl_nil]
  simp only [after, asked]
  rw [refused, Run.order_of_known rfl]
  exact ⟨rfl, rfl⟩

/-- The section that stays registered is missing in the order that is told. -/
theorem not_isCurrent_of_repeating :
    Run.setUp [] {} = (.ok (), bare) ∧ ¬ IsCurrent (afterAll bare repeatingRequests) := by
  refine ⟨setUp_bare, ?_⟩
  obtain ⟨isKept, sections⟩ := afterAll_repeating
  rw [isCurrent_of_knownOrder isKept, sections, resolve_repeating]
  decide

theorem isStale_of_repeating :
    Run.setUp [] {} = (.ok (), bare) ∧ IsStale bare repeatingRequests := by
  obtain ⟨isKept, sections⟩ := afterAll_repeating
  have current_iff := isCurrent_iff_not_isStale setUp_bare repeatingRequests
  rw [isCurrent_of_knownOrder isKept, sections, resolve_repeating] at current_iff
  exact ⟨setUp_bare, not_not.1 (mt current_iff.2 (by decide))⟩

end Request

end FirewallPolicy
