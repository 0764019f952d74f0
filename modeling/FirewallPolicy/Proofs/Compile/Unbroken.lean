import FirewallPolicy.Proofs.Compile.Phases
import FirewallPolicy.Proofs.Insertion.Unbroken
import FirewallPolicy.Proofs.Output.Shape
import FirewallPolicy.Proofs.Rule.UnbrokenExpansion

/-!
# Compilations of policies without line breaks

Where no text of a policy has a line break, no name and no rule of the compiled tree has one.
-/

namespace FirewallPolicy

open Fragment Run Stateful

/-! ## Policies -/

/-- No text of the section has a line break. -/
def SectionData.IsUnbroken : SectionData → Prop
  | .list items => ∀ item ∈ items, item.isUnbroken = true
  | .map entries => entries.IsUnbroken

/-- No text of the objects or of the options has a line break. -/
structure Policy.IsUnbroken (policy : Policy) : Prop where
  objects : ∀ stated ∈ policy.objects, stated.2.IsUnbroken
  options : policy.options.IsUnbroken

instance : (data : SectionData) → Decidable data.IsUnbroken
  | .list items => inferInstanceAs (Decidable (∀ item ∈ items, item.isUnbroken = true))
  | .map entries => inferInstanceAs (Decidable entries.IsUnbroken)

instance (policy : Policy) : Decidable policy.IsUnbroken :=
  decidable_of_iff
    ((∀ stated ∈ policy.objects, stated.2.IsUnbroken) ∧ policy.options.IsUnbroken)
    ⟨fun ⟨objects, options⟩ => ⟨objects, options⟩, fun unbroken => ⟨unbroken.objects, unbroken.options⟩⟩

theorem SectionData.IsUnbroken.isTidy {data : SectionData} (unbroken : data.IsUnbroken) :
    (Building.rawEntries data).IsTidy := by
  cases data with
  | list items =>
      refine ⟨fun key member => ?_, List.forall_mem_map.2 unbroken⟩
      obtain ⟨index, -, rfl⟩ := List.mem_map.1 member
      rfl
  | map entries =>
      refine ⟨fun key member => ?_, fun entry member => ?_⟩
      · obtain ⟨stated, isStated, rfl⟩ := List.mem_map.1 member
        obtain ⟨entry, isEntry, rfl⟩ := List.mem_map.1 isStated
        exact (unbroken entry isEntry).1
      · obtain ⟨stated, isStated, rfl⟩ := List.mem_map.1 member
        obtain ⟨entry, isEntry, rfl⟩ := List.mem_map.1 isStated
        exact (unbroken entry isEntry).2

/-! ## Settings -/

namespace Settings

theorem isUnbroken_default : IsUnbroken {} :=
  ⟨by decide, rfl, rfl⟩

theorem gives_assign {settings : Settings} (unbroken : settings.IsUnbroken) {name : String}
    {value : Value} (isValue : value.isUnbroken = true) :
    Gives IsUnbroken (settings.assign name value) := by
  unfold assign
  extract_lets invalid flag text
  have refused : Gives IsUnbroken (invalid : Except Failure Settings) := gives_error
  have flags (set : Bool → Settings) (keeps : ∀ b, (set b).IsUnbroken) :
      Gives IsUnbroken (flag set) := by
    unfold flag
    split
    · exact gives_ok (keeps _)
    · exact refused
  have texts (set : String → Settings) (keeps : ∀ s, Text.IsUnbroken s → (set s).IsUnbroken) :
      Gives IsUnbroken (text set) := by
    unfold text
    split
    · exact gives_ok (keeps _ (Value.isUnbroken_text.1 isValue))
    · exact refused
  split
  · exact flags _ fun _ => { unbroken with }
  · exact flags _ fun _ => { unbroken with }
  · split
    · exact gives_ok { unbroken with }
    · split
      · split
        · exact gives_ok { unbroken with }
        · exact gives_error
      · exact refused
    · exact refused
  · exact texts _ fun _ isText => { unbroken with policy := isText }
  · exact texts _ fun _ isText => { unbroken with logMode := Value.isUnbroken_text.2 isText }
  · exact texts _ fun _ isText => { unbroken with logLevel := Value.isUnbroken_text.2 isText }
  · exact gives_error

theorem isUnbroken_migrate {options : Entries} (unbroken : options.IsUnbroken) :
    ∀ option ∈ migrate options, option.2.isUnbroken = true := by
  have each (result : Entries) (areResults : ∀ option ∈ result, True ∧ option.2.isUnbroken = true) :
      ∀ option ∈ options.foldl migrateOne result, True ∧ option.2.isUnbroken = true := by
    induction options generalizing result with
    | nil => exact areResults
    | cons option rest inductionHypothesis =>
        obtain ⟨isFirst, areRest⟩ := List.forall_mem_cons.1 unbroken
        refine inductionHypothesis areRest _ ?_
        unfold migrateOne
        dsimp only
        split
        · exact areResults
        · exact Entries.forall_mem_insert (fun _ => True) (Value.isUnbroken · = true) areResults
            trivial isFirst.2
  exact fun option member => (each [] (by simp) option member).2

/-- Settings that are read from options without line breaks have none. -/
theorem gives_ofOptions {options : Entries} (unbroken : options.IsUnbroken) :
    Gives IsUnbroken (ofOptions options) := by
  refine Gives.bind (gives_foldlM isUnbroken_default fun option member settings isSettings =>
    gives_assign isSettings (isUnbroken_migrate unbroken option member)) fun settings isSettings => ?_
  dsimp only
  split
  · exact gives_throw_bind
  · exact gives_ok isSettings

end Settings

/-! ## Builds -/

/-- Neither the context nor the tree has a line break. -/
structure Build.IsUnbroken (build : Build) : Prop where
  context : build.context.IsUnbroken
  tree : build.assembly.tree.IsUnbroken

namespace Building

variable {α : Type} {property : α → Prop}

theorem unbroken_inContext {action : Run α} (stays : StaysUnbroken property action) :
    Meets Build.IsUnbroken property (inContext action) := by
  intro before after a kept run
  obtain ⟨run, sameAssembly⟩ := inContext_eq_ok.1 run
  obtain ⟨keptContext, holds⟩ := stays before.context after.context a kept.context run
  exact ⟨⟨keptContext, sameAssembly ▸ kept.tree⟩, holds⟩

/-! ### Declaring -/

theorem unbroken_declareKeys {policy : Policy} {name : String} {kind : ObjectKind}
    {keys : List Scalar} (areKeys : ∀ key ∈ keys, key.isUnbroken = true) :
    StaysUnbroken (fun _ => True) (declareKeys policy name kind keys) := by
  have declares (key : Scalar) (isKey : key.isUnbroken = true) :
      StaysUnbroken (fun _ => True) (declareKey policy name kind key) := by
    unfold declareKey
    split
    · exact meets_unusable_bind
    · refine meets_get_bind fun context unbroken => ?_
      split
      · exact meets_unusable
      · next entry found =>
          have isEntry : entry.IsTidy :=
            (unbroken.entriesOf name).2 entry (SectionEntries.mem_of_get? found)
          refine (PolicyObject.unbroken_declare ?_ isEntry).bind
            fun object isObject => meets_modify fun before kept =>
              kept.withEntries (SectionEntries.isTidy_put (kept.entriesOf name) isKey isObject)
          unfold LogClass.keyOf
          split
          · exact ifGiven_none
          · exact ifGiven_some.2 isKey
  induction keys with
  | nil => exact meets_pure trivial
  | cons key rest inductionHypothesis =>
      obtain ⟨isFirst, areRest⟩ := List.forall_mem_cons.1 areKeys
      exact (declares key isFirst).bind fun _ _ => inductionHypothesis areRest

theorem unbroken_declareSections {policy : Policy} {sections : List Section} :
    StaysUnbroken (fun _ => True) (declareSections policy sections) := by
  induction sections with
  | nil => exact meets_pure trivial
  | cons described rest inductionHypothesis =>
      have first : StaysUnbroken (fun _ => True) (declareSection policy described) := by
        unfold declareSection
        split
        · exact meets_pure trivial
        · exact meets_get_bind fun context unbroken =>
            unbroken_declareKeys (unbroken.entriesOf described.name).1
      exact first.bind fun _ _ => inductionHypothesis

/-! ### Inserting -/

theorem unbroken_insertRules {owner : String} {rules : List Fragment}
    (areRules : AreUnbroken rules) :
    Meets Build.IsUnbroken (fun _ => True) (insertRules owner rules) := by
  intro before after _ kept run
  obtain ⟨sameContext, inserts⟩ := insertRules_eq_ok run
  have source : before.context.chainSource.IsUnbroken :=
    ⟨kept.context.auxiliary, kept.context.entriesOf "custom"⟩
  have tree := inserts.isUnbroken source (List.forall_mem_map.2 areRules) kept.tree
  exact ⟨⟨sameContext ▸ kept.context, tree⟩, trivial⟩

theorem unbroken_insertObjects {entries : List Entry}
    (tidy : ∀ entry ∈ entries, entry.IsTidy) :
    Meets Build.IsUnbroken (fun _ => True) (insertObjects entries) := by
  induction entries with
  | nil => exact meets_pure trivial
  | cons entry rest inductionHypothesis =>
      obtain ⟨isFirst, areRest⟩ := List.forall_mem_cons.1 tidy
      have others := inductionHypothesis areRest
      cases entry with
      | raw value => exact others
      | object object =>
          cases object with
          | rule rule =>
              have isRule : rule.IsTidy := isFirst
              exact (unbroken_inContext isRule.unbroken_fragments).bind fun rules areRules =>
                (unbroken_insertRules areRules).bind fun _ _ => others
          | _ => exact others

theorem unbroken_insertSection {described : Section} (isBuiltin : described ∈ Builtin.ordered) :
    Meets Build.IsUnbroken (fun _ => True) (insertSection described) := by
  unfold insertSection
  split
  · next isVirtual =>
      have listed : ∀ rules, described.rules = .fixed rules → AreUnbroken rules := by
        intro rules isFixed
        rcases Builtin.rules_of_isVirtual described isBuiltin isVirtual with same | same | same
        · rw [same] at isFixed
          exact RuleSource.fixed.inj isFixed ▸ by decide
        · rw [same] at isFixed
          cases isFixed
        · rw [same] at isFixed
          cases isFixed
      exact (unbroken_inContext (RuleSource.unbroken_rules listed)).bind fun rules areRules =>
        unbroken_insertRules areRules
  · split
    · exact meets_get_bind fun build unbroken =>
        unbroken_insertObjects (unbroken.context.entriesOf described.name).2
    · exact meets_pure trivial

theorem unbroken_insertSections {sections : List Section} (areBuiltin : sections ⊆ Builtin.ordered) :
    Meets Build.IsUnbroken (fun _ => True) (insertSections sections) := by
  induction sections with
  | nil => exact meets_pure trivial
  | cons described rest inductionHypothesis =>
      obtain ⟨isBuiltin, areRest⟩ := List.cons_subset.1 areBuiltin
      exact (unbroken_insertSection isBuiltin).bind fun _ _ => inductionHypothesis areRest

/-! ### Compiling -/

theorem unbroken_process {policy : Policy} :
    Meets Build.IsUnbroken (fun _ => True) (process policy) := by
  refine (unbroken_inContext unbroken_declareSections).bind fun _ _ =>
    (unbroken_insertSections (List.Subset.refl _)).bind fun _ _ => meets_get_bind fun build _ => ?_
  split
  · exact meets_pure trivial
  · exact meets_throw

/-- The context of a policy without line breaks has none before anything is declared. -/
theorem isUnbroken_warned {policy : Policy} {hosts : HostBook} {settings : Settings}
    (unbroken : policy.IsUnbroken) (isHosts : hosts.IsUnbroken) (isSettings : settings.IsUnbroken) :
    (warned policy hosts settings).IsUnbroken where
  settings := isSettings
  hosts := isHosts
  auxiliary := by
    have tarpit : AreUnbroken Builtin.filter.auxiliary := by decide +kernel
    exact tarpit
  objects stored member := by
    obtain ⟨stated, isStated, rfl⟩ := List.mem_map.1 member
    exact (unbroken.objects stated isStated).isTidy
  defaultLog := ifGiven_none
  chainNames _ named := absurd named List.not_mem_nil

end Building

/-- A compiled policy has no line break, where its texts, the answers for its hosts and the settings
that are given have none. -/
theorem Compilation.isUnbroken
    {policy : Policy} {hosts : HostBook} {given : Option Settings} {compilation : Compilation}
    (unbroken : policy.IsUnbroken) (isHosts : hosts.IsUnbroken)
    (isGiven : IfGiven Settings.IsUnbroken given)
    (compiled : ofPolicy policy Builtin.modules hosts given = .ok compilation) :
    compilation.build.IsUnbroken := by
  have settled {settings : Settings} (isSettings : settings.IsUnbroken)
      (compiled : ofRun (Building.compilePolicy policy Builtin.modules
        { context := { settings, hosts } }) = .ok compilation) : compilation.build.IsUnbroken := by
    have run := ofRun_eq_ok.1 compiled
    rw [Building.compilePolicy_of_keyed (Building.isKeyed_of_compilePolicy run)] at run
    have start : Build.IsUnbroken { context := Building.warned policy hosts settings } :=
      ⟨Building.isUnbroken_warned unbroken isHosts isSettings, by simp [RuleTree.IsUnbroken]⟩
    exact (Building.unbroken_process _ _ _ start run).1
  unfold ofPolicy at compiled
  cases given with
  | some settings => exact settled (isGiven settings rfl) compiled
  | none =>
      obtain ⟨settings, reads, compiled⟩ := except_bind_eq_ok.1 compiled
      exact settled (Settings.gives_ofOptions unbroken.options settings reads) compiled

/-! ## Rules on one line

A text of a policy ends up in a rule as it is.  As long as it has no line break it stays there: the
restore file of a compiled policy has a line for each rule, and no other line looks like one. -/

namespace Compilation

open Restore

/-- The restore file of a family, with the settings that the policy was compiled with. -/
def restoreFile (compilation : Compilation) (family : String) : String :=
  render compilation.build.context.settings compilation.tree family

/-- Where no text of the policy, of the answers for its hosts and of the settings that are given has a
line break, every line of a restore file is one of the five kinds, and as many of them are rules as
the tree has rules of the family. -/
theorem shape_of_restoreFile
    {policy : Policy} {hosts : HostBook} {given : Option Settings} {compilation : Compilation}
    (unbroken : policy.IsUnbroken) (isHosts : hosts.IsUnbroken)
    (isGiven : ∀ settings, given = some settings → settings.IsUnbroken)
    (compiled : ofPolicy policy Builtin.modules hosts given = .ok compilation) (family : String) :
    (∀ line ∈ linesOf (compilation.restoreFile family), ∃ written,
        IsLine compilation.build.context.settings compilation.tree family written ∧
          line = written.toList) ∧
      (linesOf (compilation.restoreFile family)).countP isRuleLine =
        (compilation.tree.narrow (· == family)).size := by
  have build := isUnbroken unbroken isHosts isGiven compiled
  have written : linesOf (compilation.restoreFile family) =
      (lines compilation.build.context.settings compilation.tree family).map String.toList :=
    linesOf_render (build.tree.restore build.context.settings.policy)
  rw [written]
  refine ⟨fun line member => ?_, ?_⟩
  · obtain ⟨text, isText, rfl⟩ := List.mem_map.1 member
    exact ⟨text, isLine_of_mem_lines isText, rfl⟩
  · rw [List.countP_map]
    exact countP_lines

/-- A policy with an interface, an address set, a log class, a limit, ports and a chain of its own. -/
def textualPolicy : Policy :=
  { objects := [
      ("zone", .map [(.text "lan", .map [(.text "iface", .text "eth0 -j ACCEPT")])]),
      ("log", .map [(.text "audit", .map [(.text "prefix", .text "a\" -j ACCEPT"),
        (.text "level", .text "info")])]),
      ("custom", .map [(.text "own", .list [.map [(.text "match", .text "-A INPUT")]])]),
      ("filter", .list [
        .map [(.text "in", .text "lan"), (.text "ipset", .text "blocked"),
          (.text "action", .text "custom:own")],
        .map [(.text "in", .text "lan"), (.text "out", .text "_fw"), (.text "log", .text "audit"),
          (.text "service", .map [(.text "proto", .text "tcp"), (.text "port", .text "22,80")]),
          (.text "conn-limit", .map [(.text "count", .int 3), (.text "name", .text "ssh")])]])] }

theorem shape_of_textualPolicy :
    ∃ compilation, ofPolicy textualPolicy Builtin.modules .none (some { ipv6 := false }) =
        .ok compilation ∧
      (linesOf (compilation.restoreFile "inet")).countP isRuleLine =
        (compilation.tree.narrow (· == "inet")).size := by
  obtain ⟨compilation, compiled, -⟩ :=
    exists_of_process textualPolicy .none { ipv6 := false } (by decide +kernel)
      (by decide +kernel)
  have isHosts : HostBook.none.IsUnbroken := by
    rintro host entries ⟨⟩
  have isSettings : Settings.IsUnbroken { ipv6 := false } := ⟨by decide, rfl, rfl⟩
  refine ⟨compilation, compiled, ?_⟩
  exact (shape_of_restoreFile (by decide +kernel) isHosts (ifGiven_some.2 isSettings) compiled
    "inet").2

/-- An interface with a line break. -/
def brokenPolicy : Policy :=
  { objects := [
      ("zone", .map [(.text "lan", .map [(.text "iface", .text "eth0 -j DROP\n-A INPUT")])]),
      ("filter", .list [.map [(.text "in", .text "lan"), (.text "out", .text "_fw")]])] }

/-- The text after the line break is another rule, one that accepts everything. -/
theorem not_shape_of_brokenPolicy :
    ∃ compilation, ofPolicy brokenPolicy Builtin.modules .none (some { ipv6 := false }) =
        .ok compilation ∧
      "-A INPUT -j ACCEPT".toList ∈
        linesOf (compilation.restoreFile "inet") ∧
      (linesOf (compilation.restoreFile "inet")).countP isRuleLine ≠
        (compilation.tree.narrow (· == "inet")).size := by
  obtain ⟨compilation, compiled, isBuild⟩ :=
    exists_of_process brokenPolicy .none { ipv6 := false } (by decide +kernel)
      (by decide +kernel)
  refine ⟨compilation, compiled, ?_⟩
  rw [restoreFile, render, linesOf_intercalate, tree, isBuild]
  decide +kernel

end Compilation

end FirewallPolicy
