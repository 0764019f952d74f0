import FirewallPolicy.Output.Restore
import FirewallPolicy.Proofs.Compile.Phases
import FirewallPolicy.Proofs.Compile.Virtual
import FirewallPolicy.Proofs.Context.Faults
import FirewallPolicy.Proofs.Insertion.Growth
import FirewallPolicy.Proofs.Rule.Standing

/-!
# Where rules go

Whatever a policy states and whatever hosts answer, every rule that is inserted has a place, and the
place is in an enabled family.  So no compilation with the built-in modules fails because the place
of a rule is incomplete, and every chain of a compiled policy belongs to an enabled family.
-/

namespace FirewallPolicy

open Assembly Context Run Stateful

/-! ## Places of fragments -/

/-- The fragment is bound to a place in one of the families. -/
def Fragment.IsBoundIn (families : List String) (fragment : Fragment) : Prop :=
  ∃ place, fragment.place? = some place ∧ place.family ∈ families

/-- The chain is built into its table, or one of the fragments jumps to it from the same table of
the same family. -/
def Place.IsUsedBy (fragments : List Fragment) (place : Place) : Prop :=
  place.chain ∈ Restore.builtinChains place.table ∨
    ∃ jump ∈ fragments, jump.target = some place.chain ∧
      ∃ origin, jump.place? = some origin ∧ origin.family = place.family ∧
        origin.table = place.table

namespace Builtin

variable {family : String} {families : List String} {fragment : Fragment}

/-! ## The virtual sections -/

/-- The fragment stands in a built-in chain of one of the families. -/
def isBuiltinIn (families : List String) (fragment : Fragment) : Bool :=
  fragment.place?.any fun place => families.contains place.family &&
    (Restore.builtinChains place.table).contains place.chain

theorem exists_place_of_isBuiltinIn
    (isBuiltin : isBuiltinIn families fragment = true) (fragments : List Fragment) :
    ∃ place, fragment.place? = some place ∧ place.family ∈ families ∧
      place.IsUsedBy fragments := by
  obtain ⟨place, stands, holds⟩ := (Option.any_eq_true _ _).1 isBuiltin
  obtain ⟨enabled, isChain⟩ := Bool.and_eq_true_iff.1 holds
  exact ⟨place, stands, by simpa using enabled, Or.inl (by simpa using isChain)⟩

theorem isBuiltinIn_mono
    (enabled : family ∈ families) (isBuiltin : isBuiltinIn [family] fragment = true) :
    isBuiltinIn families fragment = true := by
  obtain ⟨place, stands, holds⟩ := (Option.any_eq_true _ _).1 isBuiltin
  obtain ⟨isFamily, isChain⟩ := Bool.and_eq_true_iff.1 holds
  have isFamily : place.family = family := by simpa using isFamily
  refine (Option.any_eq_true _ _).2 ⟨place, stands, Bool.and_eq_true_iff.2 ⟨?_, isChain⟩⟩
  simpa [isFamily] using enabled

theorem isBuiltinIn_establishedRules :
    ∀ family ∈ knownFamilies, ∀ fragment ∈ establishedRules family,
      isBuiltinIn [family] fragment = true := by
  decide +kernel

/-- Helpers are assigned in the chains of the raw table, in the family that is asked for. -/
theorem isBuiltinIn_assignmentRules
    {services : List Service} {assigned : List Fragment}
    (read : assignmentRules family services = .ok assigned) :
    ∀ fragment ∈ assigned, isBuiltinIn [family] fragment = true := by
  intro fragment member
  have ofFamily := family_assignmentRules read fragment member
  have ofTable := table_assignmentRules read fragment member
  obtain ⟨helpers, -, result⟩ := except_bind_eq_ok.1 read
  obtain rfl := except_pure_eq_ok.1 result
  obtain ⟨_, isChain, inChain⟩ := Fragment.exists_extends_of_mem_combine member
    (show some [Fragment.ofChain "PREROUTING", .ofChain "OUTPUT"] ∈ _ by simp)
  have stands (chain : String) (isOf : fragment.chain = some chain) :
      fragment.place? = some ⟨family, "raw", chain⟩ :=
    Fragment.place?_eq_some_iff.2 ⟨ofFamily, ofTable, isOf⟩
  simp only [List.mem_cons, List.not_mem_nil, or_false] at isChain
  rcases isChain with rfl | rfl
  · rw [isBuiltinIn, stands "PREROUTING" (inChain.chain _ rfl)]
    simp [Restore.builtinChains, Restore.builtinTables]
  · rw [isBuiltinIn, stands "OUTPUT" (inChain.chain _ rfl)]
    simp [Restore.builtinChains, Restore.builtinTables]

theorem isBuiltinIn_statefulRules
    {filters : List Entry} {rules : List Fragment} (known : families ⊆ knownFamilies)
    (read : statefulRules families filters = .ok rules) :
    ∀ fragment ∈ rules, isBuiltinIn families fragment = true := by
  obtain ⟨lists, readLists, result⟩ := except_bind_eq_ok.1 read
  obtain rfl := except_pure_eq_ok.1 result
  intro fragment member
  obtain ⟨family, enabled, list, readFamily, inList⟩ :=
    exists_of_mem_flatten_mapM readLists member
  simp only [statefulFamily, except_bind_eq_ok, except_pure_eq_ok] at readFamily
  obtain ⟨_, _, _, _, assigned, readAssigned, rfl⟩ := readFamily
  refine isBuiltinIn_mono enabled ?_
  rcases List.mem_append.1 inList with established | isAssigned
  · exact isBuiltinIn_establishedRules family (known enabled) fragment established
  · exact isBuiltinIn_assignmentRules readAssigned fragment isAssigned

/-- Control messages are sent on from the chains for the filter hooks to a chain that the rules in it
can be reached in. -/
theorem exists_place_of_mem_icmpRules
    {settings : Settings} (member : fragment ∈ icmpRules settings.families) :
    ∃ place, fragment.place? = some place ∧ place.family ∈ settings.families ∧
      place.IsUsedBy (icmpRules settings.families) := by
  have checked : ∀ families ∈ [[], ["inet"], ["inet6"], knownFamilies],
      ∀ fragment ∈ icmpRules families, isBuiltinIn families fragment = true ∨
        fragment.place?.any (fun place => families.contains place.family &&
          (icmpRules families).any fun jump => jump.target == some place.chain &&
            jump.place?.any fun origin =>
              origin.family == place.family && origin.table == place.table) = true := by
    decide +kernel
  rcases checked _ (families_cases settings) fragment member with isBuiltin | isRouted
  · exact exists_place_of_isBuiltinIn isBuiltin _
  · obtain ⟨place, stands, routed⟩ := (Option.any_eq_true _ _).1 isRouted
    simp only [Bool.and_eq_true, List.contains_eq_mem, decide_eq_true_eq, List.any_eq_true,
      beq_iff_eq, Option.any_eq_true] at routed
    obtain ⟨enabled, jump, isJump, goes, origin, from_, family, table⟩ := routed
    exact ⟨place, stands, enabled, Or.inr ⟨jump, isJump, goes, origin, from_, family, table⟩⟩

/-- The rules of the virtual sections are bound, and the chains that they stand in are used. -/
theorem exists_place_of_mem_rules
    {source : RuleSource} {before after : Context} {rules : List Fragment}
    (builtin : source = .fixed [] ∨ source = .stateful ∨ source = .icmp)
    (run : source.rules before = (.ok rules, after)) (member : fragment ∈ rules) :
    ∃ place, fragment.place? = some place ∧ place.family ∈ before.settings.families ∧
      place.IsUsedBy rules := by
  rcases builtin with rfl | rfl | rfl
  · obtain ⟨rfl, rfl⟩ := pure_eq_ok.1 run
    exact absurd member List.not_mem_nil
  · simp only [RuleSource.rules, bind_eq_ok, get_eq_ok] at run
    obtain ⟨_, _, ⟨rfl, rfl⟩, run⟩ := run
    obtain ⟨read, -⟩ := recording_eq_ok.1 run
    exact exists_place_of_isBuiltinIn
      (isBuiltinIn_statefulRules (fun _ => mem_knownFamilies) read fragment member) rules
  · simp only [RuleSource.rules, bind_eq_ok, get_eq_ok] at run
    obtain ⟨_, _, ⟨rfl, rfl⟩, run⟩ := run
    obtain ⟨rfl, rfl⟩ := pure_eq_ok.1 run
    exact exists_place_of_mem_icmpRules member

end Builtin

/-! ## Rules -/

namespace Rule

variable {rule : Rule} {before after : Context} {fragments : List Fragment} {fragment : Fragment}

theorem families_subset (settings : Settings) : rule.families settings ⊆ settings.families := by
  unfold families
  split
  · exact List.filter_subset_self _
  · exact List.Subset.refl _

/-- Whatever a rule brings with it is bound. -/
theorem isBoundIn_of_mem_fragments
    (run : rule.fragments before = (.ok fragments, after)) (member : fragment ∈ fragments) :
    fragment.IsBoundIn before.settings.families := by
  obtain ⟨pieces, composed⟩ := exists_composed run
  obtain ⟨piece, _, inOwn, _, expands, grown, _⟩ := composed.exists_piece member
  obtain ⟨place, stands, enabled, _⟩ := exists_place_of_mem_ownFragments expands inOwn
  have own : Grows piece.before piece.after := grows_ownFragments.of_eq expands
  have same : piece.after.settings = before.settings := own.settings.trans grown.settings
  exact ⟨place, stands, same ▸ families_subset _ enabled⟩

end Rule

/-! ## Insertions -/

namespace Building

variable {α : Type}

/-- The computation neither stops with a fault for want of a place nor records one. -/
abbrev IsClear (action : Building α) : Prop :=
  StaysClear (fun build : Build => build.context.faults) action

theorem isClear_inContext {action : Run α} (clear : StaysClear Context.faults action) :
    IsClear (inContext action) :=
  fun build before => clear build.context before

/-- Rules that are bound are never refused for want of a place. -/
theorem isClear_insertRules
    {owner : String} {rules : List Fragment}
    (placed : ∀ rule ∈ rules, rule.place?.isSome = true) :
    IsClear (insertRules owner rules) := by
  intro build before
  unfold insertRules
  extract_lets source
  obtain ⟨lookups, performs⟩ := endsWith_insert source owner rules build.assembly
  have isPlaced : (Task.insert owner [] (rules.map fun fragment => { fragment })).IsPlaced := by
    intro rule member
    obtain ⟨fragment, isFragment, rfl⟩ := List.mem_map.1 member
    exact placed fragment isFragment
  have blameless := performs.blameless isPlaced
  exact isClear_inContext (staysClear_recording blameless) _ before

theorem yields_inContext
    {property : α → Prop} {action : Run α} (yields : Yields property action) :
    Yields property (inContext action) :=
  fun _ _ _ run => yields.of_eq (inContext_eq_ok.1 run).1

theorem yields_placed_fragments {rule : Rule} :
    Yields (fun found => ∀ fragment ∈ found, fragment.place?.isSome = true) rule.fragments := by
  intro before after fragments run fragment member
  obtain ⟨place, stands, _⟩ := Rule.isBoundIn_of_mem_fragments run member
  exact Option.isSome_iff_exists.2 ⟨place, stands⟩

theorem isClear_insertObjects {entries : List Entry} : IsClear (insertObjects entries) := by
  induction entries with
  | nil => exact staysClear_pure _
  | cons entry rest inductionHypothesis =>
      cases entry with
      | raw value => exact inductionHypothesis
      | object object =>
          cases object with
          | rule rule =>
              refine (isClear_inContext Rule.records_fragments.staysClear).bind_yields
                (yields_inContext yields_placed_fragments) fun found placed => ?_
              exact (isClear_insertRules placed).bind fun _ => inductionHypothesis
          | _ => exact inductionHypothesis

/-- The rules of the section, if it is virtual, are known. -/
def HasKnownRules (described : Section) : Prop :=
  described.rules = .fixed [] ∨ described.rules = .stateful ∨ described.rules = .icmp

theorem isClear_insertSection
    {described : Section} (known : HasKnownRules described) :
    IsClear (insertSection described) := by
  unfold insertSection
  split
  · have placed : Yields (fun found => ∀ fragment ∈ found, fragment.place?.isSome = true)
        described.rules.rules := by
      intro before after fragments run fragment member
      obtain ⟨place, stands, _⟩ := Builtin.exists_place_of_mem_rules known run member
      exact Option.isSome_iff_exists.2 ⟨place, stands⟩
    exact (isClear_inContext RuleSource.records_rules.staysClear).bind_yields (yields_inContext placed)
      fun found isPlaced => isClear_insertRules isPlaced
  · split
    · exact staysClear_get_bind fun _ => isClear_insertObjects
    · exact staysClear_pure _

theorem isClear_insertSections
    {sections : List Section} (known : ∀ described ∈ sections, HasKnownRules described) :
    IsClear (insertSections sections) := by
  induction sections with
  | nil => exact staysClear_pure _
  | cons described rest inductionHypothesis =>
      rw [List.forall_mem_cons] at known
      exact (isClear_insertSection known.1).bind fun _ => inductionHypothesis known.2

/-! ## Compilations -/

theorem records_warnUnknown {names : List String} : (warnUnknown names).Records := by
  induction names with
  | nil => exact records_pure _
  | cons name rest inductionHypothesis => exact records_warn.bind fun _ => inductionHypothesis

theorem records_checkKeyed {context : Context} {sections : List (String × Section)} :
    (checkKeyed context sections).Records := by
  induction sections with
  | nil => exact records_pure _
  | cons entry rest inductionHypothesis =>
      unfold checkKeyed
      extract_lets entries
      split
      · exact (records_report rfl).bind fun _ => inductionHypothesis
      · exact inductionHypothesis

theorem staysClear_order : StaysClear Context.faults Run.order := by
  refine staysClear_of_get fun before clear => ?_
  cases before.knownOrder with
  | some names => exact ⟨failsOnly_ok _, clear⟩
  | none =>
      dsimp only
      cases Order.resolve (directives before.sections) with
      | ok names => exact ⟨failsOnly_ok _, clear⟩
      | error cycle => exact ⟨failsOnly_error.2 rfl, clear⟩

theorem records_declareKeys
    {policy : Policy} {name : String} {kind : ObjectKind} {keys : List Scalar} :
    (declareKeys policy name kind keys).Records := by
  induction keys with
  | nil => exact records_pure _
  | cons key rest inductionHypothesis =>
      refine Records.bind ?_ fun _ => inductionHypothesis
      unfold declareKey
      extract_lets declared
      have declaredRecords : ∀ u, (declared u).Records := by
        intro u
        refine records_get_bind fun context => ?_
        split
        · exact records_unusable
        · exact PolicyObject.records_declare.bind fun _ => records_modify fun _ => rfl
      split
      · exact records_unusable.bind declaredRecords
      · exact declaredRecords ()

theorem records_declareSections {policy : Policy} {sections : List Section} :
    (declareSections policy sections).Records := by
  induction sections with
  | nil => exact records_pure _
  | cons described rest inductionHypothesis =>
      refine Records.bind ?_ fun _ => inductionHypothesis
      unfold declareSection
      split
      · exact records_pure _
      · exact records_get_bind fun _ => records_declareKeys

theorem hasKnownRules_registered :
    ∀ entry ∈ Builtin.registered, HasKnownRules entry.2 := by
  unfold HasKnownRules
  decide

theorem failsPlainly_sets {entries : SectionEntries} :
    FailsPlainly (setDefinitions entries >>= AddressSet.readAll) := by
  unfold setDefinitions
  split <;> simp [AddressSet.failsPlainly_readAll]

/-- A compilation with the built-in modules never stops for want of a place, and never records such
a fault. -/
theorem isClear_compilePolicy (policy : Policy) (hosts : HostBook) (settings : Settings) :
    EndsClear (fun build : Build => build.context.faults)
      (compilePolicy policy Builtin.modules { context := { settings, hosts } }) := by
  have known (names : List String) :
      ∀ described ∈ names.filterMap Builtin.registered.get?, HasKnownRules described := by
    intro described member
    obtain ⟨name, _, found⟩ := List.mem_filterMap.1 member
    exact hasKnownRules_registered _ (Named.mem_of_get? found)
  -- Setting up ends in a known state; from there on every step stays clear in any state.
  unfold compilePolicy
  rw [inContext_bind_apply (Builtin.setUp_modules settings hosts)]
  have clear : AreClear (loaded policy hosts settings).faults := by simp [loaded, AreClear]
  change EndsClear _ ((inContext (warnUnknown _) >>= _)
    { context := loaded policy hosts settings })
  suffices continues : ∀ names : List String, IsClear (inContext (warnUnknown names) >>= _) from
    continues _ _ clear
  intro names
  refine (isClear_inContext records_warnUnknown.staysClear).bind fun _ => ?_
  refine staysClear_get_bind fun _ => (isClear_inContext records_checkKeyed.staysClear).bind fun _ => ?_
  refine (isClear_inContext staysClear_order).bind fun names => ?_
  refine (isClear_inContext records_declareSections.staysClear).bind fun _ => ?_
  refine (isClear_insertSections (known names)).bind fun _ => staysClear_get_bind fun build => ?_
  split
  · exact staysClear_pure _
  · next failure read =>
      refine staysClear_throw ?_
      exact (failsPlainly_sets.blameless) failure read

end Building

theorem Settings.failsPlainly_ofOptions {options : Entries} :
    FailsPlainly (Settings.ofOptions options) := by
  have assigns (settings : Settings) (name : String) (value : Value) :
      FailsPlainly (settings.assign name value) := by
    unfold assign
    extract_lets invalid flag text
    have isFlag (set : Bool → Settings) : FailsPlainly (flag set) := by
      unfold flag
      split <;> simp [invalid]
    have isText (set : String → Settings) : FailsPlainly (text set) := by
      unfold text
      split <;> simp [invalid]
    split
    · exact isFlag _
    · exact isFlag _
    · split
      · simp
      · split
        · split <;> simp
        · simp [invalid]
      · simp [invalid]
    · exact isText _
    · exact isText _
    · exact isText _
    · simp
  unfold ofOptions assignAll
  simp [failsOnly_foldlM, assigns]

theorem Settings.blameless_ofOptions {options : Entries} :
    Blameless (Settings.ofOptions options) :=
  failsPlainly_ofOptions.blameless

/-! ## Chains of compiled policies -/

namespace Batch

variable {batch : Batch} {before after : Context} {fragment : Fragment}

/-- What a batch inserts is bound, as long as its section is a built-in one. -/
theorem Expands.isBoundIn
    (expands : batch.Expands before after) (builtin : batch.described ∈ Builtin.ordered)
    (member : fragment ∈ batch.fragments) :
    fragment.IsBoundIn before.settings.families := by
  cases expands with
  | object run => exact Rule.isBoundIn_of_mem_fragments run member
  | virtual isVirtual run =>
      obtain ⟨place, stands, enabled, _⟩ := Builtin.exists_place_of_mem_rules
        (Builtin.rules_of_isVirtual _ builtin isVirtual) run member
      exact ⟨place, stands, enabled⟩

end Batch

namespace RunsAll

variable {batches : List Batch} {before after : Build} {place : Place}

theorem jumpsTo_mono
    (runs : RunsAll batches before after) (jumps : before.assembly.tree.JumpsTo place) :
    after.assembly.tree.JumpsTo place := by
  induction runs with
  | nil => exact jumps
  | cons first _ inductionHypothesis =>
      exact inductionHypothesis (first.inserts.jumpsTo_mono jumps)

/-- A chain that is open in the end was open before, or a batch has rules in it, or a batch has rules
beside it and something jumps there. -/
theorem isOpen_cases
    (runs : RunsAll batches before after) (isOpen : after.assembly.tree.isOpen place = true) :
    before.assembly.tree.isOpen place = true ∨ ∃ batch ∈ batches, ∃ rule ∈ batch.rules,
      rule.fragment.place? = some place ∨
        IsBeside rule place ∧ after.assembly.tree.JumpsTo place := by
  induction runs with
  | nil => exact Or.inl isOpen
  | @cons batch rest before middle after first tail inductionHypothesis =>
      rcases inductionHypothesis isOpen with earlier | ⟨other, member, later⟩
      · refine (first.inserts.isOpen_cases earlier).imp_right ?_
        rintro ⟨rule, isRule, stands⟩
        exact ⟨batch, List.mem_cons_self .., rule, isRule,
          stands.imp_right (And.imp_right tail.jumpsTo_mono)⟩
      · exact Or.inr ⟨other, List.mem_cons_of_mem _ member, later⟩

end RunsAll

namespace Compilation

variable {policy : Policy} {hosts : HostBook} {given : Option Settings}

theorem ofRun_eq_error
    {outcome : Except Failure (List AddressSet) × Build} {failure : Failure} :
    ofRun outcome = .error failure ↔ outcome.1 = .error failure := by
  obtain ⟨result, build⟩ := outcome
  cases result <;> simp [ofRun]

/-- The settings that a policy is compiled with. -/
def settingsFor (policy : Policy) (given : Option Settings) : Except Failure Settings :=
  match given with
  | some settings => .ok settings
  | none => Settings.ofOptions policy.options

theorem ofPolicy_eq_of_ok
    {settings : Settings} (isSettings : settingsFor policy given = .ok settings)
    (modules : List Module) :
    ofPolicy policy modules hosts given =
      ofRun (Building.compilePolicy policy modules { context := { settings, hosts } }) := by
  unfold settingsFor at isSettings
  unfold ofPolicy
  cases given with
  | some own =>
      obtain rfl := Except.ok.inj isSettings
      rfl
  | none =>
      dsimp only at isSettings ⊢
      rw [isSettings]
      rfl

theorem ofPolicy_eq_of_error
    {failure : Failure} (isFailure : settingsFor policy given = .error failure)
    (modules : List Module) :
    ofPolicy policy modules hosts given = .error failure := by
  unfold settingsFor at isFailure
  unfold ofPolicy
  cases given with
  | some own => cases isFailure
  | none =>
      dsimp only at isFailure ⊢
      rw [isFailure]
      rfl

/-- No chain of a compiled policy belongs to a family that is not enabled. -/
theorem family_of_mem_chains
    {settings : Settings} {sets : List AddressSet} {build : Build}
    (run : Building.compilePolicy policy Builtin.modules { context := { settings, hosts } } =
      (.ok sets, build))
    {chain : Place × List RuleLine} (member : chain ∈ build.assembly.tree.chains) :
    chain.1.family ∈ settings.families := by
  obtain ⟨start, batches, ran, framed, -, -⟩ :=
    Building.runs_of_compilePolicy Building.survives_true trivial run
  -- Something is inserted in the family of each chain, and what is inserted is bound.
  have inserted {batch : Batch} (isBatch : batch ∈ batches) {rule : ChainRule}
      (isRule : rule ∈ batch.rules) {located : Place}
      (stands : rule.fragment.place? = some located) : located.family ∈ settings.families := by
    obtain ⟨before, after, grown, runs, -⟩ := ran.runs.exists_of_mem isBatch
    obtain ⟨fragment, isFragment, rfl⟩ := List.mem_map.1 isRule
    have builtin := Builtin.subset_ordered (label_mem_origins ran.labels isBatch).1
    obtain ⟨place, isPlace, enabled⟩ := runs.expands.isBoundIn builtin isFragment
    obtain rfl := Option.some.inj (stands.symm.trans isPlace)
    rwa [grown.settings, framed.settings] at enabled
  rcases ran.runs.isOpen_cases (RuleTree.isOpen_of_mem member) with isOpen | opened
  · rw [ran.empty] at isOpen
    cases isOpen
  · obtain ⟨batch, isBatch, rule, isRule, stands | ⟨⟨located, stands, family, -⟩, -⟩⟩ := opened
    · exact inserted isBatch isRule stands
    · exact family ▸ inserted isBatch isRule stands

/-- Compiling a policy with the built-in modules never fails because a rule has no complete place, and
all chains of a compiled policy belong to the families that its settings enable. -/
theorem places_of_ofPolicy (policy : Policy) (hosts : HostBook) (given : Option Settings) :
    (∀ location fragment, ofPolicy policy Builtin.modules hosts given ≠
      .error (.fault location (.incompletePlace fragment))) ∧
    ∀ compilation, ofPolicy policy Builtin.modules hosts given = .ok compilation →
      ∃ settings, settingsFor policy given = .ok settings ∧
        ∀ chain ∈ compilation.tree.chains, chain.1.family ∈ settings.families := by
  cases isSettings : settingsFor policy given with
  | error failure =>
      have blameless : Blameless (settingsFor policy given) := by
        unfold settingsFor
        split
        · exact blameless_ok _
        · exact Settings.blameless_ofOptions
      rw [ofPolicy_eq_of_error isSettings]
      refine ⟨fun location fragment fails => ?_, fun compilation compiled => ?_⟩
      · obtain rfl := Except.error.inj fails
        exact absurd (blameless _ isSettings) (by simp)
      · simp at compiled
  | ok settings =>
      have clear := Building.isClear_compilePolicy policy hosts settings
      rw [ofPolicy_eq_of_ok isSettings]
      refine ⟨fun location fragment fails => ?_, fun compilation compiled => ?_⟩
      · exact absurd (clear.1 _ (ofRun_eq_error.1 fails)) (by simp)
      · exact ⟨settings, rfl, fun chain => family_of_mem_chains (ofRun_eq_ok.1 compiled)⟩

/-- A chain of the policy's own, a rule that jumps to it, and a limited rule that logs. -/
def mixedPolicy : Policy :=
  { objects := [
      ("custom", .map [(.text "c", .list [.map [(.text "target", .text "DROP")]])]),
      ("filter", .list [.map [(.text "action", .text "custom:c")],
        .map [(.text "conn-limit", .int 3)]])] }

theorem places_of_mixedPolicy :
    ∃ compilation, ofPolicy mixedPolicy Builtin.modules .none (some { ipv6 := false }) =
        .ok compilation ∧
      compilation.tree.isOpen ⟨"inet", "filter", "custom:c"⟩ = true ∧
      compilation.tree.isOpen ⟨"inet", "filter", "limit-0"⟩ = true ∧
      ∀ chain ∈ compilation.tree.chains, chain.1.family = "inet" := by
  obtain ⟨compilation, compiled, isBuild⟩ :=
    exists_of_process mixedPolicy .none { ipv6 := false } (by decide +kernel)
      (by decide +kernel)
  obtain ⟨_, places⟩ := places_of_ofPolicy mixedPolicy .none (some { ipv6 := false })
  obtain ⟨settings, isSettings, families⟩ := places compilation compiled
  obtain rfl := Except.ok.inj isSettings
  refine ⟨compilation, compiled, ?_, ?_, fun chain member => ?_⟩
  · rw [tree, isBuild]
    decide +kernel
  · rw [tree, isBuild]
    decide +kernel
  · exact List.mem_singleton.1 (families chain member)

end Compilation

end FirewallPolicy
