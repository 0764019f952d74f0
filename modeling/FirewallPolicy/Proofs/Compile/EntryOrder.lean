import FirewallPolicy.Proofs.Compile.Reordered

/-!
# The order of declarations

The order in which a document declares its sections and its named objects does not matter: it
compiles in any order, or in none, and always to the same rules, address sets and warnings.
-/

namespace FirewallPolicy

open Stateful

variable {policy other : Policy}

/-! ## Settings -/

/-- The settings for logging are texts or other values of a document. -/
structure Settings.IsWritten (settings : Settings) : Prop where
  logMode : settings.logMode.isWritten = true
  logLevel : settings.logLevel.isWritten = true

namespace Settings

theorem IsWritten.assign
    {settings next : Settings} (written : settings.IsWritten) {name : String} {value : Value}
    (run : settings.assign name value = .ok next) :
    next.IsWritten := by
  unfold Settings.assign at run
  dsimp only at run
  split at run
  -- The flags for families.
  iterate 2
    split at run
    · obtain rfl := Except.ok.inj run
      exact ⟨written.logMode, written.logLevel⟩
    · cases run
  -- The greatest count of lists of recent events.
  · split at run
    · obtain rfl := Except.ok.inj run
      exact ⟨written.logMode, written.logLevel⟩
    · split at run
      · split at run
        · obtain rfl := Except.ok.inj run
          exact ⟨written.logMode, written.logLevel⟩
        · cases run
      · cases run
    · cases run
  -- The policy of the filter chains, and the mode and level of logging.
  · split at run
    · obtain rfl := Except.ok.inj run
      exact ⟨written.logMode, written.logLevel⟩
    · cases run
  · split at run
    · obtain rfl := Except.ok.inj run
      exact ⟨rfl, written.logLevel⟩
    · cases run
  · split at run
    · obtain rfl := Except.ok.inj run
      exact ⟨written.logMode, rfl⟩
    · cases run
  · cases run

/-- What options ask for is written. -/
theorem isWritten_of_ofOptions
    {options : Entries} {settings : Settings} (run : ofOptions options = .ok settings) :
    settings.IsWritten := by
  have assigned {settings next : Settings} (written : settings.IsWritten) {options : Entries}
      (run : assignAll settings options = .ok next) : next.IsWritten := by
    unfold assignAll at run
    induction options generalizing settings with
    | nil =>
        obtain rfl := Except.ok.inj run
        exact written
    | cons option rest inductionHypothesis =>
        rw [List.foldlM_cons] at run
        obtain ⟨middle, first, others⟩ := except_bind_eq_ok.1 run
        exact inductionHypothesis (written.assign first) others
  obtain ⟨found, assigns, run⟩ := except_bind_eq_ok.1 run
  split at run
  · cases run
  · obtain rfl := Except.ok.inj run
    exact assigned ⟨rfl, rfl⟩ assigns

end Settings

/-! ## Compilations -/

namespace Compilation

open Policy

/-- Two attempts to compile both fail, or both give the same rules, address sets that print the same,
and the same warnings. -/
def Agree : Except Failure Compilation → Except Failure Compilation → Prop
  | .ok compilation, .ok other =>
    other.tree = compilation.tree ∧
      AddressSet.print other.sets = AddressSet.print compilation.sets ∧
      other.build.context.warnings = compilation.build.context.warnings
  | .error _, .error _ => True
  | _, _ => False

/-- Compile a document with the built-in modules. -/
def ofDocument (document : Value) (source : String) (hosts : HostBook)
    (given : Option Settings) : Except Failure Compilation := do
  let policy ← Policy.ofDocuments [(document, source)]
  ofPolicy policy Builtin.modules hosts given

variable {hosts : HostBook} {given : Option Settings}

/-- Where a policy compiles, it does in any order. -/
theorem exists_ofPolicy_of_reordered
    (reordered : policy.Reordered other) (written : policy.StatesWritten) {settings : Settings}
    (writtenSettings : settings.IsWritten) {compilation : Compilation}
    (compiled : ofPolicy policy Builtin.modules hosts (some settings) = .ok compilation) :
    ∃ otherCompilation, ofPolicy other Builtin.modules hosts (some settings) = .ok otherCompilation ∧
      Agree (.ok compilation) (.ok otherCompilation) := by
  have run := ofPolicy_given.1 compiled
  have keyed := Building.isKeyed_of_compilePolicy run
  have otherKeyed : Building.isKeyed other = true :=
    Building.isKeyed_iff.2 fun name isNamed => by
      rw [(reordered.named name isNamed).isKeyed_eq]
      exact Building.isKeyed_iff.1 keyed name isNamed
  rw [Building.compilePolicy_of_keyed keyed] at run
  obtain ⟨declared, objects, finishes⟩ := Building.process_eq_ok.1 run
  obtain ⟨rename, otherDeclared, otherObjects, alike⟩ :=
    Building.exists_holdAlike reordered written writtenSettings.logMode keyed objects
  have twin := alike.twin reordered written writtenSettings.logMode writtenSettings.logLevel
  have areBuiltin : Builtin.objectSections ⊆ Builtin.ordered := fun _ => List.mem_append_left _
  obtain ⟨others, otherFinal, otherFinishes, sets, finalTwin⟩ :=
    Building.lockstep_finish (Building.sameLocations reordered) (.inl fun _ => rfl) twin
      (Building.hasKind_of_declareSections areBuiltin
        (Building.hasKind_warned policy hosts settings) objects)
      (Building.hasKind_of_declareSections areBuiltin
        (Building.hasKind_warned other hosts settings) otherObjects)
      finishes
  refine ⟨⟨otherFinal, others⟩, ofPolicy_given.2 ?_, ?_, sets, finalTwin.context.warnings⟩
  · rw [Building.compilePolicy_of_keyed otherKeyed]
    exact Building.process_eq_ok.2 ⟨otherDeclared, otherObjects, otherFinishes⟩
  · exact finalTwin.assembly.tree.trans (RuleTree.narrow_all _)

/-- Policies that state the same in another order compile alike. -/
theorem agree_of_reordered
    (reordered : policy.Reordered other) (written : policy.StatesWritten) {settings : Settings}
    (writtenSettings : settings.IsWritten) :
    Agree (ofPolicy policy Builtin.modules hosts (some settings))
      (ofPolicy other Builtin.modules hosts (some settings)) := by
  cases compiled : ofPolicy policy Builtin.modules hosts (some settings) with
  | ok compilation =>
      obtain ⟨otherCompilation, otherCompiled, agree⟩ :=
        exists_ofPolicy_of_reordered reordered written writtenSettings compiled
      rw [otherCompiled]
      exact agree
  | error failure =>
      cases otherCompiled : ofPolicy other Builtin.modules hosts (some settings) with
      | ok otherCompilation =>
          obtain ⟨_, again, -⟩ := exists_ofPolicy_of_reordered reordered.symm
            (reordered.statesWritten written) writtenSettings otherCompiled
          rw [compiled] at again
          cases again
      | error => trivial

section Options

variable {modules : List Module}

theorem ofPolicy_of_ok {settings : Settings} (asked : Settings.ofOptions policy.options = .ok settings) :
    ofPolicy policy modules hosts none = ofPolicy policy modules hosts (some settings) := by
  unfold ofPolicy
  dsimp only
  rw [asked]
  rfl

theorem ofPolicy_of_error {failure : Failure}
    (refused : Settings.ofOptions policy.options = .error failure) :
    ofPolicy policy modules hosts none = .error failure := by
  unfold ofPolicy
  dsimp only
  rw [refused]
  rfl

end Options

section Merged

variable {document : Value} {source : String}

theorem ofDocument_of_ok (merged : Policy.ofDocuments [(document, source)] = .ok policy) :
    ofDocument document source hosts given = ofPolicy policy Builtin.modules hosts given := by
  rw [ofDocument, merged]
  exact pure_bind policy _

theorem ofDocument_of_error {failure : Failure}
    (refused : Policy.ofDocuments [(document, source)] = .error failure) :
    ofDocument document source hosts given = .error failure := by
  rw [ofDocument, refused]
  rfl

end Merged

/-- The order of declarations does not matter: a document whose top-level entries are in another
order, or whose named objects are, compiles where the other one does, to the same rules in the same
order, with the same commands for address sets and the same warnings. -/
theorem agree_of_documentReordered
    {document otherDocument : Value} (reordered : DocumentReordered document otherDocument)
    (written : document.isWritten = true) (source : String)
    (writtenSettings : ∀ settings, given = some settings → settings.IsWritten) :
    Agree (ofDocument document source hosts given) (ofDocument otherDocument source hosts given) := by
  cases merged : Policy.ofDocuments [(document, source)] with
  | error failure =>
      rw [ofDocument_of_error merged]
      cases otherMerged : Policy.ofDocuments [(otherDocument, source)] with
      | error otherFailure =>
          rw [ofDocument_of_error otherMerged]
          trivial
      | ok other =>
          obtain ⟨_, again, -⟩ := reordered_of_ofDocuments reordered.symm otherMerged
          rw [merged] at again
          cases again
  | ok policy =>
      obtain ⟨other, otherMerged, same⟩ := reordered_of_ofDocuments reordered merged
      have statesWritten := reordered.statesWritten written merged
      rw [ofDocument_of_ok merged, ofDocument_of_ok otherMerged]
      cases given with
      | some settings => exact agree_of_reordered same statesWritten (writtenSettings settings rfl)
      | none =>
          have sameOptions := congrArg Settings.ofOptions same.options
          cases asked : Settings.ofOptions policy.options with
          | error failure =>
              rw [ofPolicy_of_error asked, ofPolicy_of_error (sameOptions.trans asked)]
              trivial
          | ok settings =>
              rw [ofPolicy_of_ok asked, ofPolicy_of_ok (sameOptions.trans asked)]
              exact agree_of_reordered same statesWritten (Settings.isWritten_of_ofOptions asked)

/-- Two zones, two services, two log classes and two custom chains, with rules that use them. -/
def statedDocument : Value :=
  .map [
    (.text "zone", .map [
      (.text "inside", .map [(.text "iface", .text "eth0")]),
      (.text "outside", .map [(.text "iface", .text "eth1")])]),
    (.text "service", .map [
      (.text "ssh", .map [(.text "proto", .text "tcp"), (.text "port", .int 22)]),
      (.text "web", .map [(.text "proto", .text "tcp"), (.text "port", .int 80)])]),
    (.text "log", .map [(.text "calls", .map []), (.text "drops", .map [])]),
    (.text "custom", .map [
      (.text "slow", .list [.map [(.text "target", .text "DROP")]]),
      (.text "fast", .list [.map [(.text "target", .text "REJECT")]])]),
    (.text "filter", .list [
      .map [(.text "in", .text "inside"), (.text "out", .text "outside"),
        (.text "service", .list [.text "web", .text "ssh"]), (.text "action", .text "accept"),
        (.text "log", .text "calls")],
      .map [(.text "in", .text "outside"), (.text "action", .text "drop"),
        (.text "log", .text "drops")],
      .map [(.text "action", .text "custom:fast")]])]

/-- The same, with the sections and the named objects from the last one to the first one. -/
def turnedDocument : Value :=
  .map [
    (.text "filter", .list [
      .map [(.text "in", .text "inside"), (.text "out", .text "outside"),
        (.text "service", .list [.text "web", .text "ssh"]), (.text "action", .text "accept"),
        (.text "log", .text "calls")],
      .map [(.text "in", .text "outside"), (.text "action", .text "drop"),
        (.text "log", .text "drops")],
      .map [(.text "action", .text "custom:fast")]]),
    (.text "custom", .map [
      (.text "fast", .list [.map [(.text "target", .text "REJECT")]]),
      (.text "slow", .list [.map [(.text "target", .text "DROP")]])]),
    (.text "log", .map [(.text "drops", .map []), (.text "calls", .map [])]),
    (.text "service", .map [
      (.text "web", .map [(.text "proto", .text "tcp"), (.text "port", .int 80)]),
      (.text "ssh", .map [(.text "proto", .text "tcp"), (.text "port", .int 22)])]),
    (.text "zone", .map [
      (.text "outside", .map [(.text "iface", .text "eth1")]),
      (.text "inside", .map [(.text "iface", .text "eth0")])])]

theorem reordered_turnedDocument : DocumentReordered statedDocument turnedDocument := by
  have named {name : String} (isNamed : name ∈ namedSections) {first second : Scalar × Value}
      (distinct : Entries.AreDistinct [first, second]) :
      EntryReordered (.text name, .map [first, second]) (.text name, .map [second, first]) :=
    .named isNamed (.map rfl rfl distinct (.swap ..))
  refine .map rfl rfl (by decide +kernel)
    (.cons (named (by decide) (by decide +kernel)) <| .cons (named (by decide) (by decide +kernel)) <|
      .cons (named (by decide) (by decide +kernel)) <| .cons (named (by decide) (by decide +kernel)) <|
      .cons (.same (by decide)) .nil)
    (List.reverse_perm _).symm

/-- Both documents compile to the same, though services and log classes have other numbers. -/
theorem agree_of_turnedDocument :
    DocumentReordered statedDocument turnedDocument ∧ statedDocument.isWritten = true ∧
      (∀ settings, some ({} : Settings) = some settings → settings.IsWritten) ∧
      (∃ compilation, ofDocument statedDocument "policy" .none (some {}) = .ok compilation) ∧
      Agree (ofDocument statedDocument "policy" .none (some {}))
        (ofDocument turnedDocument "policy" .none (some {})) := by
  have isWritten : ∀ settings, some ({} : Settings) = some settings → settings.IsWritten := by
    rintro _ ⟨⟩
    exact ⟨rfl, rfl⟩
  have merged : Policy.ofDocuments [(statedDocument, "policy")] =
      .ok (Policy.add {} statedDocument "policy").2 := rfl
  obtain ⟨compilation, compiled, -⟩ :=
    exists_of_process (Policy.add {} statedDocument "policy").2 .none {} (by decide +kernel)
      (by decide +kernel)
  refine ⟨reordered_turnedDocument, by decide +kernel, isWritten,
    ⟨compilation, (ofDocument_of_ok merged).trans compiled⟩, ?_⟩
  exact agree_of_documentReordered reordered_turnedDocument (by decide +kernel) "policy" isWritten

end Compilation

end FirewallPolicy
