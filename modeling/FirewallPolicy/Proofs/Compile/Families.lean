import FirewallPolicy.Proofs.Compile.Twins
import FirewallPolicy.Proofs.Context.Stamps
import FirewallPolicy.Proofs.Policy.Merging

/-!
# One address family alone

The rules of an address family do not depend on whether the other one is enabled.  The named objects
are declared without regard to the families, and from there on a compilation for one family is the
one for both, of which the chains of that family are left.
-/

namespace FirewallPolicy

open Stateful Run Context Fragment

variable {keep : String → Bool}

/-! ## Policies -/

/-- Any limit that a filter rule or a default policy states tracks exactly one address in each
family. -/
def Policy.TracksSingly (policy : Policy) : Prop :=
  ∀ name ∈ ["filter", "policy"], ∀ value ∈ (policy.dataOf name).values,
    ∀ entries, declaration? (.raw value) = some entries → (recordOf entries).LimitsSingly

theorem Building.entriesOf_warned
    (policy : Policy) (hosts : HostBook) (settings : Settings) (name : String) :
    (warned policy hosts settings).entriesOf name = rawEntries (policy.dataOf name) := by
  have found : (warned policy hosts settings).objects.get? name =
      (policy.objects.get? name).map rawEntries :=
    Named.lookup_mapped name
  unfold Context.entriesOf Policy.dataOf
  rw [found]
  cases policy.objects.get? name <;> rfl

theorem Building.values_rawEntries (data : SectionData) :
    (rawEntries data).values = data.values.map .raw := by
  cases data <;> simp [rawEntries, SectionEntries.values, SectionData.values]

theorem name_of_isFilter
    {described : Section} (isRule : described ∈ Builtin.ruleSections) {kind : RuleKind}
    (isKind : described.kind = some (.rule kind)) (isFilter : kind.isFilter = true) :
    described.name ∈ ["filter", "policy"] := by
  revert isKind
  simp only [Builtin.ruleSections, List.mem_cons, List.not_mem_nil, or_false] at isRule
  rcases isRule with rfl | rfl | rfl | rfl | rfl | rfl | rfl <;> rintro ⟨⟩
  · simp
  · exact absurd isFilter Bool.false_ne_true
  · exact absurd isFilter Bool.false_ne_true
  · simp
  · exact absurd isFilter Bool.false_ne_true

/-! ## Declaring named objects -/

/-- The second settings are for those of the families that are kept, and are the same otherwise. -/
structure Settings.Narrows (keep : String → Bool) (whole part : Settings) : Prop where
  families : part.families = whole.families.filter keep
  isEmpty_families : part.families.isEmpty = whole.families.isEmpty
  recentMaxCount : part.recentMaxCount = whole.recentMaxCount
  logMode : part.logMode = whole.logMode
  logLevel : part.logLevel = whole.logLevel

/-- The first context has the settings for all families; the second one is the same context under
the settings for some of them. -/
structure Context.Retuned (whole part : Settings) (first second : Context) : Prop where
  settings : first.settings = whole
  same : second = { first with settings := part }

namespace Building

variable {whole part : Settings} {policy : Policy}

theorem kind_of_mem_objectSections
    {described : Section} (isObject : described ∈ Builtin.objectSections) {kind : ObjectKind}
    (isKind : described.kind = some kind) :
    kind.isNamed = true := by
  revert isKind
  simp only [Builtin.objectSections, List.mem_cons, List.not_mem_nil, or_false] at isObject
  rcases isObject with rfl | rfl | rfl | rfl | rfl | rfl <;> rintro ⟨⟩ <;> rfl

/-- Named objects are declared without regard to the families. -/
theorem lockstep_declareObjects (mode : part.logMode = whole.logMode) :
    Lockstep (Retuned whole part) Eq (declareSections policy Builtin.objectSections)
      (declareSections policy Builtin.objectSections) := by
  have alike : DeclaresAlike id (Retuned whole part) := by
    constructor
    · rintro first _ ⟨rfl, rfl⟩
      exact mode.trans (Value.renamed_id _).symm
    · rintro first _ serial after ⟨rfl, rfl⟩ run
      rw [freshSerial_apply] at run
      obtain ⟨isSerial, rfl⟩ := Prod.mk.inj run
      exact ⟨serial, _, (freshSerial_apply _).trans (by rw [← isSerial]), ⟨rfl, rfl⟩, ⟨rfl, rfl⟩⟩
  refine lockstep_declareSections ?_ fun described isObject kind isKind key => ?_
  · rintro _ _ first _ ⟨_, rfl⟩
    rfl
  · unfold declareKey
    split
    · exact lockstep_unusable_bind
    · refine lockstep_get_bind fun first second retuned => ?_
      have sameEntries : second.entriesOf described.name = first.entriesOf described.name := by
        rw [retuned.same]
        rfl
      rw [sameEntries]
      cases (first.entriesOf described.name).get? key with
      | none => exact lockstep_unusable
      | some entry =>
          have named := kind_of_mem_objectSections isObject isKind
          refine (PolicyObject.lockstep_declare_named alike named _ _ entry).bind_same fun object =>
            lockstep_modify ?_
          rintro before _ ⟨settings, rfl⟩
          exact ⟨settings, rfl⟩

/-- Once the named objects are declared, the contexts for both families and for one are twins. -/
theorem twin_of_retuned
    {first second : Context} (retuned : Retuned whole part first second)
    (narrows : Settings.Narrows keep whole part)
    (steady : ∀ described ∈ Builtin.ruleSections, ∀ kind, described.kind = some (.rule kind) →
      ∀ entry ∈ (first.entriesOf described.name).values, entry.IsSteady keep kind) :
    Twin id keep first second := by
  obtain ⟨rfl, rfl⟩ := retuned
  have same (entries : SectionEntries) : entries.Alike (Entry.renamed id) entries := by
    have alike := @SectionEntries.alike_renamed id entries
    rwa [SectionEntries.renamed_id] at alike
  exact {
    injective := Function.injective_id
    fixes := fun _ _ => rfl
    families := narrows.families
    isEmpty_families := narrows.isEmpty_families
    recentMaxCount := narrows.recentMaxCount
    logMode := narrows.logMode.trans (Value.renamed_id _).symm
    logLevel := narrows.logLevel.trans (Value.renamed_id _).symm
    hosts := rfl, sections := rfl, auxiliary := rfl, declared := rfl, counters := rfl
    chainNames := rfl, nextSerial := rfl, warnings := rfl
    defaultLog := by
      rw [funext LogClass.renamed_id]
      exact (congrFun Option.map_id_fun' _).symm
    zones := SectionEntries.alike_id _
    services := same _
    logs := same _
    chains := SectionEntries.alike_id _
    rules := fun described _ => (SectionEntries.renamed_id _).symm
    steady
    sets := Follows.of_self fun _ _ => rfl }

/-- An entry that declares a rule is steady. -/
def SteadyFor (keep : String → Bool) (kind : ObjectKind) (entry : Entry) : Prop :=
  ∀ rules, kind = .rule rules → entry.IsSteady keep rules

/-- Steady entries are declared as steady rules. -/
theorem survives_steadyFor :
    Survives fun context => True ∧ EachEntry (SteadyFor keep) context := by
  have logs (_ : LogBook) (log : LogClass) : SteadyFor keep .log (.object (.log log)) := by
    rintro _ ⟨⟩
  refine @survives_eachEntry _ (fun _ => SteadyFor keep) survives_true logs
    (fun _ _ _ _ _ _ => id) ?_
  rintro _ _ kind _ _ _ _ _ _ _ _ holds run rules rfl
  obtain ⟨rule, _, declares, made⟩ := bind_eq_ok.1 run
  obtain ⟨rfl, -⟩ := pure_eq_ok.1 made
  obtain ⟨sameKind, isSteady⟩ := (holds rules rfl).of_declare declares
  exact sameKind ▸ isSteady.entry

theorem hasKind_warned (policy : Policy) (hosts : HostBook) (settings : Settings) :
    EachEntry HasKind (warned policy hosts settings) := by
  rintro described - kind - entry member object rfl
  rw [entriesOf_warned, values_rawEntries] at member
  simp at member

theorem steadyFor_warned
    {policy : Policy} (singly : policy.TracksSingly) (hosts : HostBook) (settings : Settings) :
    EachEntry (SteadyFor keep) (warned policy hosts settings) := by
  rintro described isBuiltin _ isKind entry member rules rfl
  rw [entriesOf_warned, values_rawEntries] at member
  obtain ⟨value, isValue, rfl⟩ := List.mem_map.1 member
  refine ⟨fun _ isObject => by simp at isObject, .inr fun isFilter => ?_⟩
  have isRule : described ∈ Builtin.ruleSections := by
    refine (List.mem_append.1 isBuiltin).resolve_left fun isObject => ?_
    exact absurd (kind_of_mem_objectSections isObject isKind) Bool.false_ne_true
  exact singly _ (name_of_isFilter isRule isKind isFilter) value isValue

end Building

/-! ## Compilations -/

namespace Compilation

variable {policy : Policy} {hosts : HostBook}

/-- Where a policy compiles for some families, it does for those of them that are selected, and the
chains are the ones of these families. -/
theorem ofPolicy_narrow
    (singly : policy.TracksSingly) (selection : IsSelection keep) {whole part : Settings}
    (narrows : Settings.Narrows keep whole part) {both : Compilation}
    (compiled : ofPolicy policy Builtin.modules hosts (some whole) = .ok both) :
    ∃ alone, ofPolicy policy Builtin.modules hosts (some part) = .ok alone ∧
      alone.tree = both.tree.narrow keep := by
  have run := ofPolicy_given.1 compiled
  have keyed := Building.isKeyed_of_compilePolicy run
  rw [Building.compilePolicy_of_keyed keyed] at run
  obtain ⟨declared, objects, finishes⟩ := Building.process_eq_ok.1 run
  obtain ⟨_, otherDeclared, otherObjects, -, retuned⟩ := Building.lockstep_declareObjects narrows.logMode
    _ (Building.warned policy hosts part) _ _ ⟨rfl, rfl⟩ objects
  have areBuiltin : Builtin.objectSections ⊆ Builtin.ordered := fun _ => List.mem_append_left _
  have steady : Building.EachEntry (Building.SteadyFor keep) declared :=
    (Building.survives_steadyFor.declareSections areBuiltin
      ⟨trivial, Building.steadyFor_warned singly hosts whole⟩ objects).2
  have twin : Twin id keep declared otherDeclared :=
    Building.twin_of_retuned retuned narrows fun described isRule rules isKind entry member =>
      steady described (List.mem_append_right _ isRule) _ isKind entry member rules rfl
  obtain ⟨others, otherFinal, otherFinishes, -, finalTwin⟩ :=
    Building.lockstep_finish (fun _ _ _ => rfl) selection twin
      (Building.hasKind_of_declareSections areBuiltin
        (Building.hasKind_warned policy hosts whole) objects)
      (Building.hasKind_of_declareSections areBuiltin
        (Building.hasKind_warned policy hosts part) otherObjects)
      finishes
  refine ⟨⟨otherFinal, others⟩, ofPolicy_given.2 ?_, finalTwin.assembly.tree⟩
  rw [Building.compilePolicy_of_keyed keyed]
  exact Building.process_eq_ok.2 ⟨otherDeclared, otherObjects, otherFinishes⟩

/-- The rules of each family do not depend on whether the other one is enabled: a policy that compiles
for both families compiles for each one alone, to the same chains with the same rules in the same
order. -/
theorem chains_of_family_alone
    (singly : policy.TracksSingly) {settings : Settings} {both : Compilation}
    (compiled : ofPolicy policy Builtin.modules hosts
      (some { settings with ipv4 := true, ipv6 := true }) = .ok both) :
    (∃ alone, ofPolicy policy Builtin.modules hosts
        (some { settings with ipv4 := true, ipv6 := false }) = .ok alone ∧
      alone.tree.chains = both.tree.chains.filter (·.1.family == "inet")) ∧
    (∃ alone, ofPolicy policy Builtin.modules hosts
        (some { settings with ipv4 := false, ipv6 := true }) = .ok alone ∧
      alone.tree.chains = both.tree.chains.filter (·.1.family == "inet6")) := by
  have inet : Settings.Narrows (· == "inet") { settings with ipv4 := true, ipv6 := true }
      { settings with ipv4 := true, ipv6 := false } := ⟨rfl, rfl, rfl, rfl, rfl⟩
  have inet6 : Settings.Narrows (· == "inet6") { settings with ipv4 := true, ipv6 := true }
      { settings with ipv4 := false, ipv6 := true } := ⟨rfl, rfl, rfl, rfl, rfl⟩
  obtain ⟨first, firstAlone, firstTree⟩ := ofPolicy_narrow singly (.inr ⟨_, rfl⟩) inet compiled
  obtain ⟨second, secondAlone, secondTree⟩ := ofPolicy_narrow singly (.inr ⟨_, rfl⟩) inet6 compiled
  exact ⟨⟨first, firstAlone, congrArg RuleTree.chains firstTree⟩,
    ⟨second, secondAlone, congrArg RuleTree.chains secondTree⟩⟩

/-- A filter rule with a flow limit, which logs, and a default policy. -/
def flowLimitPolicy : Policy :=
  { objects := [
      ("filter", .list [.map [(.text "action", .text "accept"),
        (.text "flow-limit", .map [(.text "count", .int 3), (.text "interval", .int 60)])]]),
      ("policy", .list [.map [(.text "action", .text "drop")]])] }

theorem tracksSingly_flowLimitPolicy : flowLimitPolicy.TracksSingly := by
  intro name isName value isValue entries isDeclared limit isLimit stated
  have single : Entries.StateSingle [(.text "count", .int 3), (.text "interval", .int 60)] := by
    rintro location limit ⟨⟩
    exact ⟨rfl, rfl⟩
  simp only [List.mem_cons, List.not_mem_nil, or_false] at isName
  rcases isName with rfl | rfl <;>
    obtain rfl := List.mem_singleton.1 isValue <;>
    obtain rfl := Option.some.inj isDeclared <;>
    simp only [limitNames, List.mem_cons, List.not_mem_nil, or_false] at isLimit <;>
    rcases isLimit with rfl | rfl
  · exact absurd stated (by decide)
  · exact single
  · exact absurd stated (by decide)
  · exact absurd stated (by decide)

theorem chains_of_flowLimitPolicy :
    flowLimitPolicy.TracksSingly ∧
      ∃ both, ofPolicy flowLimitPolicy Builtin.modules .none (some {}) = .ok both ∧
        (∃ alone, ofPolicy flowLimitPolicy Builtin.modules .none (some { ipv6 := false }) =
            .ok alone ∧
          alone.tree.chains = both.tree.chains.filter (·.1.family == "inet")) ∧
        (∃ alone, ofPolicy flowLimitPolicy Builtin.modules .none (some { ipv4 := false }) =
            .ok alone ∧
          alone.tree.chains = both.tree.chains.filter (·.1.family == "inet6")) := by
  obtain ⟨both, compiled, -⟩ :=
    exists_of_process flowLimitPolicy .none {} (by decide +kernel) (by decide +kernel)
  exact ⟨tracksSingly_flowLimitPolicy, both, compiled,
    @chains_of_family_alone flowLimitPolicy .none tracksSingly_flowLimitPolicy {} both compiled⟩

end Compilation

end FirewallPolicy
