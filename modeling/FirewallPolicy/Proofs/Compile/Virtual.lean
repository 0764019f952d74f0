import FirewallPolicy.Proofs.Compile.Batches
import FirewallPolicy.Proofs.Rule.Placed

/-!
# The rules of the virtual sections

The virtual sections accept established connections before the filter rules and route control
messages after them.  In a chain of the filter hooks they leave the same lines whatever services
the filter rules name and whatever families are enabled besides.
-/

namespace FirewallPolicy

open Assembly Context Stateful

/-! ## Lines at a place -/

/-- The lines that fragments leave at the end of a chain. -/
def linesAt (place : Place) (fragments : List Fragment) : List RuleLine :=
  appendedAt place (fragments.map fun fragment => { fragment })

section Lines

variable {place : Place} {fragments : List Fragment}

theorem linesAt_append (first second : List Fragment) :
    linesAt place (first ++ second) = linesAt place first ++ linesAt place second := by
  simp [linesAt, appendedAt]

theorem linesAt_eq_nil
    (elsewhere : ∀ fragment ∈ fragments, fragment.place? ≠ some place) :
    linesAt place fragments = [] := by
  refine appendedAt_eq_nil fun rule member => ?_
  obtain ⟨fragment, isFragment, rfl⟩ := List.mem_map.1 member
  exact elsewhere fragment isFragment

/-- A fragment for another family, or for another table, stands elsewhere. -/
theorem Fragment.place?_ne
    {fragment : Fragment}
    (differs : fragment.family ≠ some place.family ∨ fragment.table ≠ some place.table) :
    fragment.place? ≠ some place := by
  intro stands
  simp only [Fragment.place?, Option.bind_eq_bind, Option.bind_eq_some_iff,
    Option.pure_def, Option.some.injEq] at stands
  obtain ⟨family, isFamily, table, isTable, chain, _, rfl⟩ := stands
  rcases differs with other | other
  · exact other isFamily
  · exact other isTable

theorem Fragment.table_of_place
    {fragment : Fragment} (stands : fragment.place? = some place) :
    fragment.table = some place.table := by
  by_contra other
  exact place?_ne (Or.inr other) stands

end Lines

namespace Builtin

/-! ## Lines in the chains of the filter hooks -/

/-- The address families that can be enabled. -/
def knownFamilies : List String := ["inet", "inet6"]

variable {settings : Settings} {family hook : String} {filters : List Entry}

theorem families_cases (settings : Settings) :
    settings.families ∈ [[], ["inet"], ["inet6"], knownFamilies] := by
  unfold Settings.families
  cases settings.ipv4 <;> cases settings.ipv6 <;> decide

theorem mem_knownFamilies (enabled : family ∈ settings.families) :
    family ∈ knownFamilies := by
  have sublists : ∀ families ∈ [[], ["inet"], ["inet6"], knownFamilies],
      families ⊆ knownFamilies := by
    decide
  exact sublists _ (families_cases settings) enabled

theorem table_assignmentRules
    {services : List Service} {assigned : List Fragment}
    (read : assignmentRules family services = .ok assigned) :
    ∀ fragment ∈ assigned, fragment.table = some "raw" := by
  intro fragment member
  obtain ⟨helpers, _, result⟩ := except_bind_eq_ok.1 read
  obtain rfl := except_pure_eq_ok.1 result
  obtain ⟨part, isPart, extends_⟩ := Fragment.exists_extends_of_mem_combine member
    (List.mem_cons_self ..)
  obtain rfl := List.mem_singleton.1 isPart
  exact extends_.table _ rfl

/-- Where the rules of each family leave lines in a chain of that family alone, those of all enabled
families leave them there once. -/
theorem linesAt_statefulRules_of_each
    {place : Place} {lines : List RuleLine} {rules : List Fragment}
    (enabled : place.family ∈ settings.families)
    (each : ∀ other ∈ knownFamilies, ∀ rules, statefulFamily filters other = .ok rules →
      linesAt place rules = if other = place.family then lines else [])
    (read : statefulRules settings.families filters = .ok rules) :
    linesAt place rules = lines := by
  have inOrder {families : List String} {lists : List (List Fragment)}
      (known : families ⊆ knownFamilies)
      (read : List.Forall₂ (fun other list => statefulFamily filters other = .ok list)
        families lists) :
      linesAt place lists.flatten =
        families.flatMap fun other => if other = place.family then lines else [] := by
    induction read with
    | nil => rfl
    | cons first _ inductionHypothesis =>
        rw [List.cons_subset] at known
        rw [List.flatten_cons, linesAt_append, List.flatMap_cons, each _ known.1 _ first,
          inductionHypothesis known.2]
  obtain ⟨lists, readLists, result⟩ := except_bind_eq_ok.1 read
  obtain rfl := except_pure_eq_ok.1 result
  rw [inOrder (fun _ => mem_knownFamilies) (forall₂_of_mapM_eq_ok readLists)]
  -- No family is enabled twice.
  have once : ∀ families ∈ [[], ["inet"], ["inet6"], knownFamilies], place.family ∈ families →
      (families.flatMap fun other => if other = place.family then lines else []) = lines := by
    intro families isList isMember
    simp only [List.mem_cons, List.not_mem_nil, or_false] at isList
    rcases isList with rfl | rfl | rfl | rfl
    · exact absurd isMember List.not_mem_nil
    all_goals
      simp only [knownFamilies, List.mem_cons, List.not_mem_nil, or_false] at isMember
    · simp [isMember]
    · simp [isMember]
    · rcases isMember with isFamily | isFamily <;> simp [knownFamilies, isFamily]
  exact once _ (families_cases settings) enabled

/-- The fragment is appended to the chain of a hook or to the one that control messages are routed
in, and jumps neither to a log chain nor to one of the policy's own. -/
structure IsStanding (fragment : Fragment) : Prop where
  chain : ∀ chain, fragment.chain = some chain → chain = "icmp-routing" ∨ chain ∈ hookNames
  target : ∀ target, fragment.target = some target → IsOrdinary target
  notCustom : ∀ target, fragment.target = some target → customName? target = none
  position : fragment.position = none

/-- Rules for accepting traffic or routing control messages at a hook stand there. -/
theorem isStanding_of_mem
    {fragment : Fragment}
    (chain : fragment.chain ∈ ("icmp-routing" :: hookNames).map some)
    (target : fragment.target ∈ [some "icmp-routing", some "ACCEPT"])
    (position : fragment.position = none) :
    IsStanding fragment where
  chain name stands := by
    rw [stands] at chain
    simpa using chain
  target name jumps := by
    rw [jumps] at target
    simp only [List.mem_cons, Option.some.injEq, List.not_mem_nil, or_false] at target
    rcases target with rfl | rfl <;> decide
  notCustom name jumps := by
    rw [jumps] at target
    simp only [List.mem_cons, Option.some.injEq, List.not_mem_nil, or_false] at target
    rcases target with rfl | rfl <;> decide
  position := position

theorem isStanding_establishedRules
    {fragment : Fragment}
    (isKnown : family ∈ knownFamilies) (member : fragment ∈ establishedRules family) :
    IsStanding fragment := by
  have checked : ∀ family ∈ knownFamilies, ∀ fragment ∈ establishedRules family,
      fragment.chain ∈ ("icmp-routing" :: hookNames).map some ∧
      fragment.target ∈ [some "icmp-routing", some "ACCEPT"] ∧ fragment.position = none := by
    decide +kernel
  obtain ⟨chain, target, position⟩ := checked family isKnown fragment member
  exact isStanding_of_mem chain target position

theorem isStanding_controlRules
    {fragment : Fragment} (member : fragment ∈ controlRules) :
    IsStanding fragment := by
  have checked : ∀ fragment ∈ controlRules,
      fragment.chain ∈ ("icmp-routing" :: hookNames).map some ∧
      fragment.target ∈ [some "icmp-routing", some "ACCEPT"] ∧ fragment.position = none := by
    decide +kernel
  obtain ⟨chain, target, position⟩ := checked fragment member
  exact isStanding_of_mem chain target position

/-- A product of standing fragments stands there as well. -/
theorem isStanding_combine
    {lists : List (Option (List Fragment))}
    (standing : ∀ list, some list ∈ lists → ∀ fragment ∈ list, IsStanding fragment) :
    ∀ fragment ∈ Fragment.combine lists, IsStanding fragment := by
  intro fragment member
  constructor
  · intro chain stands
    obtain ⟨list, given, part, isPart, partStands⟩ :=
      Fragment.exists_chain_of_mem_combine member stands
    exact (standing list given part isPart).chain chain partStands
  · intro target jumps
    obtain ⟨list, given, part, isPart, partJumps⟩ :=
      Fragment.exists_target_of_mem_combine member jumps
    exact (standing list given part isPart).target target partJumps
  · intro target jumps
    obtain ⟨list, given, part, isPart, partJumps⟩ :=
      Fragment.exists_target_of_mem_combine member jumps
    exact (standing list given part isPart).notCustom target partJumps
  · exact Fragment.eq_none_of_mem_combine Fragment.position (fun _ _ => rfl) member
      fun list given part isPart => (standing list given part isPart).position

theorem isStanding_of_isMatch
    {fragment : Fragment} (isMatch : fragment.IsMatch hookNames) :
    IsStanding fragment where
  chain chain stands := Or.inr (isMatch.chain chain stands)
  target target jumps := by simp [isMatch.target] at jumps
  notCustom target jumps := by simp [isMatch.target] at jumps
  position := isMatch.position

theorem isStanding_helperRules
    {definition : ServiceDefinition} {rules : List Fragment}
    (read : helperRules family definition = .ok rules) :
    ∀ fragment ∈ rules, IsStanding fragment := by
  unfold helperRules at read
  split at read
  · obtain rfl := Except.ok.inj read
    simp
  · obtain ⟨matched, readMatched, result⟩ := except_bind_eq_ok.1 read
    obtain rfl := except_pure_eq_ok.1 result
    intro fragment member
    obtain ⟨part, isPart, rfl⟩ := List.mem_map.1 member
    have partStands : IsStanding part := by
      refine isStanding_combine (fun list given => ?_) part isPart
      simp only [List.mem_cons, Option.some.injEq, List.not_mem_nil, or_false] at given
      rcases given with rfl | rfl
      · exact fun other inList =>
          isStanding_of_isMatch (Rule.isMatch_definition hookNames readMatched other inList)
      · intro other inList
        rw [List.mem_singleton.1 inList]
        exact isStanding_of_isMatch (Fragment.isMatch_ofFamily family)
    refine ⟨partStands.chain, ?_, ?_, partStands.position⟩
    · rintro _ ⟨⟩
      simp [IsOrdinary]
    · rintro _ ⟨⟩
      exact Rule.customName?_append_eq_none _ ⟨_, _, rfl, by decide⟩

/-- A rule that assigns a helper is one of the rules for some definition of a service. -/
theorem exists_helperRules_of_mem
    {services : List Service} {helpers : List (List (List Fragment))} {fragment : Fragment}
    (read : services.mapM (fun service => service.definitions.mapM (helperRules family)) =
      .ok helpers)
    (member : fragment ∈ helpers.flatten.flatten) :
    ∃ definition rules, helperRules family definition = .ok rules ∧ fragment ∈ rules := by
  obtain ⟨rules, inFlat, inRules⟩ := List.mem_flatten.1 member
  obtain ⟨service, _, lists, readService, inLists⟩ := exists_of_mem_flatten_mapM read inFlat
  obtain ⟨definition, _, readRules⟩ := exists_of_mem_mapM readService inLists
  exact ⟨definition, rules, readRules, inRules⟩

theorem family_helperRules
    {definition : ServiceDefinition} {rules : List Fragment}
    (read : helperRules family definition = .ok rules) :
    ∀ fragment ∈ rules, fragment.family = some family := by
  unfold helperRules at read
  split at read
  · obtain rfl := Except.ok.inj read
    simp
  · obtain ⟨matched, _, result⟩ := except_bind_eq_ok.1 read
    obtain rfl := except_pure_eq_ok.1 result
    intro fragment member
    obtain ⟨part, isPart, rfl⟩ := List.mem_map.1 member
    obtain ⟨_, isFamily, upper⟩ := Fragment.exists_extends_of_mem_combine isPart
      (show some [Fragment.ofFamily family] ∈ _ by simp)
    obtain rfl := List.mem_singleton.1 isFamily
    exact upper.family family rfl

theorem family_assignmentRules
    {services : List Service} {assigned : List Fragment}
    (read : assignmentRules family services = .ok assigned) :
    ∀ fragment ∈ assigned, fragment.family = some family := by
  obtain ⟨helpers, readHelpers, result⟩ := except_bind_eq_ok.1 read
  obtain rfl := except_pure_eq_ok.1 result
  intro fragment member
  obtain ⟨helper, isHelper, inFamily⟩ := Fragment.exists_extends_of_mem_combine member
    (show some helpers.flatten.flatten ∈ _ by simp)
  obtain ⟨_, rules, readRules, inRules⟩ := exists_helperRules_of_mem readHelpers isHelper
  exact inFamily.family family (family_helperRules readRules helper inRules)

theorem isStanding_assignmentRules
    {services : List Service} {assigned : List Fragment}
    (read : assignmentRules family services = .ok assigned) :
    ∀ fragment ∈ assigned, IsStanding fragment := by
  obtain ⟨helpers, readHelpers, result⟩ := except_bind_eq_ok.1 read
  obtain rfl := except_pure_eq_ok.1 result
  refine isStanding_combine fun list given => ?_
  simp only [List.mem_cons, Option.some.injEq, List.not_mem_nil, or_false] at given
  rcases given with rfl | rfl | rfl
  · intro fragment member
    rw [List.mem_singleton.1 member]
    exact ⟨by simp [Fragment.ofTable], by simp [Fragment.ofTable], by simp [Fragment.ofTable], rfl⟩
  · intro fragment member
    refine isStanding_of_isMatch ?_
    simp only [List.mem_cons, List.not_mem_nil, or_false] at member
    rcases member with rfl | rfl <;> exact Fragment.isMatch_ofChain (by decide)
  · intro fragment member
    obtain ⟨_, _, readRules, inRules⟩ := exists_helperRules_of_mem readHelpers member
    exact isStanding_helperRules readRules fragment inRules

/-- The rules of the virtual sections are appended to chains of hooks and to the one that control
messages are routed in. -/
theorem isStanding_rules
    {source : RuleSource} {before after : Context} {rules : List Fragment}
    (builtin : source = .fixed [] ∨ source = .stateful ∨ source = .icmp)
    (run : source.rules before = (.ok rules, after)) :
    ∀ fragment ∈ rules, IsStanding fragment := by
  intro fragment member
  rcases builtin with rfl | rfl | rfl
  · obtain ⟨rfl, rfl⟩ := pure_eq_ok.1 run
    exact absurd member List.not_mem_nil
  · simp only [RuleSource.rules, bind_eq_ok, get_eq_ok] at run
    obtain ⟨_, _, ⟨rfl, rfl⟩, run⟩ := run
    obtain ⟨read, -⟩ := Run.recording_eq_ok.1 run
    obtain ⟨lists, readLists, result⟩ := except_bind_eq_ok.1 read
    obtain rfl := except_pure_eq_ok.1 result
    obtain ⟨list, isList, inList⟩ := List.mem_flatten.1 member
    obtain ⟨family, enabled, readFamily⟩ := exists_of_mem_mapM readLists isList
    obtain ⟨_, _, readFamily⟩ := except_bind_eq_ok.1 readFamily
    obtain ⟨_, _, readFamily⟩ := except_bind_eq_ok.1 readFamily
    obtain ⟨assigned, readAssigned, readFamily⟩ := except_bind_eq_ok.1 readFamily
    obtain rfl := except_pure_eq_ok.1 readFamily
    rcases List.mem_append.1 inList with established | isAssigned
    · exact isStanding_establishedRules (mem_knownFamilies enabled) established
    · exact isStanding_assignmentRules readAssigned fragment isAssigned
  · simp only [RuleSource.rules, bind_eq_ok, get_eq_ok] at run
    obtain ⟨_, _, ⟨rfl, rfl⟩, run⟩ := run
    obtain ⟨rfl, rfl⟩ := pure_eq_ok.1 run
    exact isStanding_controlRules (List.mem_of_mem_filter member)

end Builtin

end FirewallPolicy
