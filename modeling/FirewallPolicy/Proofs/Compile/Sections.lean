import FirewallPolicy.Proofs.Record
import FirewallPolicy.Proofs.Run.Basic
import FirewallPolicy.Proofs.Section.Order
import FirewallPolicy.Section.Builtin

/-!
# The built-in sections and their order

Modules whose sections have different names are all registered.  The built-in sections are
processed in one fixed order: the rules for established connections, the filter rules, the rules
for control messages, and only then the default policies.
-/

namespace FirewallPolicy

open Stateful

/-! ## Registration -/

/-- A section as a module registers it: core sections come before the others. -/
def Section.placedBy (owner : Module) (described : Section) : Section :=
  if owner.core && !described.isVirtual then
    { described with before := described.before ++ [modulesLoaded] }
  else described

/-- The sections that a module registers. -/
def Module.registered (owner : Module) : Named Section :=
  owner.sections.map fun described => (described.name, described.placedBy owner)

/-- The names of the sections of a module that the core sections come before. -/
def Module.exported (owner : Module) : List String :=
  if owner.core then [] else owner.sections.map (·.name)

namespace Run

variable {before : Context}

theorem registerSection_apply
    {owner : Module} {added : Section}
    (fresh : added.name ∉ before.sections.names) :
    registerSection owner added before =
      (.ok (), { before with
        sections := before.sections ++ [(added.name, added.placedBy owner)] }) := by
  have unknown : (before.sections.get? added.name).isSome = false := by
    rw [Named.get?_eq_none_iff.2 fresh]
    rfl
  unfold registerSection
  rw [bind_apply]
  change (if (before.sections.get? added.name).isSome = true then _ else _ : Run Unit) before = _
  rw [unknown, ← Named.set_of_notMem fresh]
  rfl

theorem registerSections_apply
    {owner : Module} {sections : List Section}
    (distinct : (before.sections.names ++ sections.map (·.name)).Nodup) :
    registerSections owner sections before =
      (.ok (), { before with
        sections := before.sections ++
          sections.map fun described => (described.name, described.placedBy owner) }) := by
  induction sections generalizing before with
  | nil =>
      rw [List.map_nil, List.append_nil]
      rfl
  | cons added rest inductionHypothesis =>
      have fresh : added.name ∉ before.sections.names := by
        simp only [List.map_cons, List.nodup_append, List.mem_cons] at distinct
        exact fun known => distinct.2.2 _ known _ (Or.inl rfl) rfl
      rw [registerSections, bind_apply, registerSection_apply fresh]
      dsimp only
      rw [inductionHypothesis]
      · simp
      · simpa [Named.names] using distinct

theorem register_apply
    {owner : Module}
    (distinct : (before.sections.names ++ owner.sections.map (·.name)).Nodup) :
    register owner before =
      (.ok (owner.sections.map (·.name)), { before with
        sections := before.sections ++ owner.registered
        auxiliary := before.auxiliary ++ owner.auxiliary
        knownOrder := none }) := by
  rw [register, bind_apply, registerSections_apply distinct]
  rfl

/-- Modules whose sections have different names are registered in order. -/
theorem registerModules_apply
    {modules : List Module}
    (unordered : before.knownOrder = none)
    (distinct : (before.sections.names ++
      modules.flatMap fun owner => owner.sections.map (·.name)).Nodup) :
    registerModules modules before =
      (.ok (modules.flatMap Module.exported), { before with
        sections := before.sections ++ modules.flatMap Module.registered
        auxiliary := before.auxiliary ++ modules.flatMap Module.auxiliary }) := by
  induction modules generalizing before with
  | nil =>
      rw [List.flatMap_nil, List.flatMap_nil, List.flatMap_nil, List.append_nil, List.append_nil]
      rfl
  | cons owner rest inductionHypothesis =>
      rw [List.flatMap_cons, ← List.append_assoc] at distinct
      rw [registerModules, bind_apply, register_apply distinct.of_append_left]
      dsimp only
      rw [bind_apply, inductionHypothesis rfl]
      · obtain ⟨settings, hosts, sections, knownOrder⟩ := before
        subst unordered
        simp only [List.flatMap_cons, List.append_assoc, Module.exported]
        rfl
      · simpa [Named.names, Module.registered, Function.comp_def] using distinct

end Run

/-! ## The built-in sections -/

namespace Builtin

/-- The built-in sections as they are registered. -/
def registered : Named Section :=
  modules.flatMap Module.registered ++
    [(modulesLoaded, { name := modulesLoaded, before := modules.flatMap Module.exported })]

theorem setUp_modules (settings : Settings) (hosts : HostBook) :
    Run.setUp modules { settings, hosts } =
      (.ok (), { settings, hosts, sections := registered, auxiliary := filter.auxiliary }) := by
  have distinct : (modules.flatMap fun owner => owner.sections.map (·.name)).Nodup := by
    decide
  have fresh : modulesLoaded ∉ Named.names (modules.flatMap Module.registered) := by
    decide
  have auxiliary : modules.flatMap Module.auxiliary = filter.auxiliary := by
    simp [modules, model, nat, noTrack]
  rw [Run.setUp, bind_apply, Run.registerModules_apply rfl (by simpa [Named.names] using distinct)]
  dsimp only
  rw [List.nil_append, List.nil_append, auxiliary]
  change (Except.ok (), _) = _
  simp only [Named.set_of_notMem fresh]
  rfl

/-- The names of the built-in sections in ascending order. -/
def sectionNames : List String :=
  ["%filter-after", "%filter-before", "%modules", "custom", "dnat", "filter", "ipset", "log",
    "no-track", "policy", "service", "snat", "zone"]

theorem sorted_sectionNames :
    Text.sorted ((Run.directives registered).map (·.name)) = sectionNames :=
  Text.sorted_eq (by decide) (by decide)

/-- The point behind the sections of the objects that rules refer to. -/
def loadedSection : Section :=
  { name := modulesLoaded, before := modules.flatMap Module.exported }

/-- The sections of the objects that rules refer to, and the point behind all of them. -/
def objectSections : List Section := [
  { name := "custom", before := [modulesLoaded], keyed := true },
  { name := "ipset", before := [modulesLoaded], keyed := true },
  { name := "log", kind := some .log, before := [modulesLoaded], keyed := true },
  { name := "service", kind := some .service, before := [modulesLoaded], keyed := true },
  { name := "zone", kind := some .zone, before := [modulesLoaded], keyed := true },
  loadedSection]

/-- The sections of rules in the order in which they are processed. -/
def ruleSections : List Section := [
  { name := "%filter-before", rules := .stateful, before := ["filter"] },
  { name := "filter", kind := some (.rule .filter), before := ["dnat", "no-track"] },
  { name := "%filter-after", rules := .icmp, after := ["filter"] },
  { name := "dnat", kind := some (.rule .dnat) },
  { name := "no-track", kind := some (.rule .noTrack) },
  { name := "policy", kind := some (.rule .policy), after := ["%filter-after"] },
  { name := "snat", kind := some (.rule .snat) }]

/-- All built-in sections in the order in which they are processed. -/
def ordered : List Section :=
  objectSections ++ ruleSections

theorem resolve_registered :
    Order.resolve (Run.directives registered) = .ok (ordered.map (·.name)) := by
  let before := Order.required (Run.directives registered) sectionNames
  have core : before "custom" = [] ∧ before "ipset" = [] ∧ before "log" = [] ∧
      before "service" = [] ∧ before "zone" = [] := by decide
  have loaded : before "%modules" = ["custom", "ipset", "log", "service", "zone"] := by decide
  have rules : before "%filter-before" = ["%modules"] ∧
      before "filter" = ["%filter-before", "%modules"] ∧
      before "%filter-after" = ["%modules", "filter"] ∧
      before "dnat" = ["%modules", "filter"] ∧ before "no-track" = ["%modules", "filter"] ∧
      before "policy" = ["%filter-after", "%modules"] ∧ before "snat" = ["%modules"] := by decide
  unfold Order.resolve
  simp only [sorted_sectionNames]
  change Order.visit before sectionNames [] [] sectionNames = _
  simp [sectionNames, Order.visit, core, loaded, rules, ordered, objectSections, ruleSections,
    loadedSection, modulesLoaded]

theorem filterMap_ordered :
    (ordered.map (·.name)).filterMap registered.get? = ordered := by
  decide

theorem subset_ordered : loadedSection :: ruleSections ⊆ ordered := by
  decide

theorem rules_of_isVirtual :
    ∀ described ∈ ordered, described.isVirtual = true →
      described.rules = .fixed [] ∨ described.rules = .stateful ∨ described.rules = .icmp := by
  decide

end Builtin

end FirewallPolicy
