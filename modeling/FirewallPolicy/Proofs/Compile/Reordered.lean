import FirewallPolicy.Proofs.Compile.Families
import FirewallPolicy.Proofs.Compile.NamedObjects
import FirewallPolicy.Proofs.Policy.Reordering

/-!
# Policies in another order

Where the entries of the sections of named objects are given in another order, they become the same
objects with other serial numbers.  From there on both compilations run in twin contexts.
-/

namespace FirewallPolicy

open Stateful Run Context

/-! ## Sections in another order -/

namespace SectionData

variable {data other : SectionData}

/-- Under each key stands the same value. -/
theorem Reordered.alike_rawEntries (reordered : data.Reordered other) :
    (Building.rawEntries data).Alike id (Building.rawEntries other) := by
  cases reordered with
  | list items => exact SectionEntries.alike_id _
  | map distinct perm =>
      refine .map fun key => ?_
      rw [Option.map_id]
      exact Entries.get?_of_perm (Entries.areDistinct_mapped.2 distinct) (perm.map _) key

end SectionData

/-- Objects with different keys are found in any order. -/
theorem SectionEntries.alike_of_perm
    {rename : Nat → Nat} {objects others : List (Scalar × PolicyObject)}
    (distinct : Entries.AreDistinct objects)
    (perm : others.Perm (Entries.mapped (PolicyObject.renamed rename) objects)) :
    (SectionEntries.map (Entries.mapped Entry.object objects)).Alike (Entry.renamed rename)
      (.map (Entries.mapped Entry.object others)) := by
  refine .map fun key => ?_
  have areDistinct : Entries.AreDistinct (Entries.mapped Entry.object others) :=
    Entries.areDistinct_mapped.2 ((Entries.areDistinct_mapped.2 distinct).of_perm perm.symm)
  have samePerm : (Entries.mapped Entry.object others).Perm
      (Entries.mapped (Entry.renamed rename) (Entries.mapped Entry.object objects)) := by
    have mapped := perm.map fun entry => (entry.1, Entry.object entry.2)
    unfold Entries.mapped at mapped ⊢
    rw [List.map_map] at mapped ⊢
    exact mapped
  rw [← Entries.get?_mapped, Entries.get?_of_perm areDistinct samePerm]

namespace Building

/-- The section was declared in both contexts, as the same objects with other numbers of the range. -/
structure DeclaredAlike (rename : Nat → Nat) (name : String) (kind : ObjectKind) (count : Nat)
    (before after otherBefore otherAfter : Context) : Prop where
  injective : Function.Injective rename
  keeps : KeepsOutside before.nextSerial count rename
  first : ∃ entries, Declares name entries count before after
  second : ∃ entries, Declares name entries count otherBefore otherAfter
  alike : ∀ other : Nat → Nat,
    (∀ number, before.nextSerial ≤ number →
      (0 < kind.serials → number < before.nextSerial + count) → other number = rename number) →
    (after.entriesOf name).Alike (Entry.renamed other) (otherAfter.entriesOf name)

section Sections

variable {policy other : Policy} {described : Section} {kind : ObjectKind}

theorem declareSection_of_none (none : described.kind = none) :
    declareSection policy described = pure () := by
  unfold declareSection
  rw [none, ite_self]

/-- Entries in another order become the same objects, but for their numbers. -/
theorem exists_declaredAlike
    (isKind : described.kind = some kind) (notVirtual : described.isVirtual = false)
    (named : kind.isNamed = true)
    {data otherData : SectionData} (reordered : data.Reordered otherData)
    (keyed : data.isKeyed = true) (written : ∀ entry ∈ data.entries, entry.2.isWritten = true)
    (located : ∀ key, entryLocation other described.name key =
      entryLocation policy described.name key)
    {before otherBefore after : Context}
    (mode : otherBefore.settings.logMode = before.settings.logMode)
    (writtenMode : before.settings.logMode.isWritten = true)
    (serial : otherBefore.nextSerial = before.nextSerial)
    (stated : before.entriesOf described.name = rawEntries data)
    (otherStated : otherBefore.entriesOf described.name = rawEntries otherData)
    (run : declareSection policy described before = (.ok (), after)) :
    ∃ rename otherAfter, declareSection other described otherBefore = (.ok (), otherAfter) ∧
      DeclaredAlike rename described.name kind (kind.serials * data.entries.length)
        before after otherBefore otherAfter := by
  rw [declareSection_of_kind isKind notVirtual] at run ⊢
  rw [stated] at run
  cases reordered with
  | list items =>
      obtain rfl := List.isEmpty_iff.1 keyed
      obtain ⟨-, rfl⟩ := pure_eq_ok.1 run
      refine ⟨id, otherBefore, by rw [otherStated]; rfl, Function.injective_id, fun _ _ => rfl,
        ⟨_, rfl, rfl, fun _ _ => rfl⟩, ⟨_, rfl, rfl, fun _ _ => rfl⟩, fun rename _ => ?_⟩
      rw [stated, otherStated]
      exact SectionEntries.alike_renamed _
  | @map entries others distinct perm =>
      have keys (entries : Entries) :
          (rawEntries (.map entries)).keys = entries.map (·.1) := by
        simp [rawEntries, SectionEntries.keys]
      rw [keys] at run
      have areDistinct {entries : Entries} (distinct : Entries.AreDistinct entries) :
          Entries.AreDistinct (partly [] entries) := Entries.areDistinct_mapped.2 distinct
      obtain ⟨objects, stamps⟩ := exists_stamps_of_declareKeys named (areDistinct distinct) stated run
      obtain ⟨_, again, declares⟩ := declareKeys_of_stamps (areDistinct distinct) stated stamps
      obtain rfl := (Prod.mk.inj (run.symm.trans again)).2
      obtain ⟨rename, otherObjects, injective, keeps, otherStamps, samePerm⟩ :=
        stamps.exists_of_perm named written writtenMode perm
      rw [← serial, ← mode, ← funext located] at otherStamps
      obtain ⟨otherAfter, otherRun, otherDeclares⟩ := declareKeys_of_stamps
        (areDistinct (distinct.of_perm perm)) otherStated otherStamps
      rw [← perm.length_eq] at otherDeclares
      refine ⟨rename, otherAfter, ?_, injective, keeps, ⟨_, declares⟩, ⟨_, otherDeclares⟩,
        fun other agree => ?_⟩
      · rw [otherStated, keys]
        exact otherRun
      · rw [declares.own, otherDeclares.own]
        rw [← stamps.mapped_congr named written writtenMode agree] at samePerm
        exact SectionEntries.alike_of_perm
          ((Entries.areDistinct_congr stamps.keys_eq).2 distinct) samePerm

end Sections

end Building

variable {policy other : Policy}

/-! ## Policies in another order -/

namespace Policy

/-- The built-in sections hold no log class that was set up before. -/
def StatesWritten (policy : Policy) : Prop :=
  ∀ name, IsStatedByText name → ∀ value ∈ (policy.dataOf name).values, value.isWritten = true

theorem Reordered.symm (reordered : policy.Reordered other) : other.Reordered policy where
  names := reordered.names.symm
  codes := reordered.names.symm.pairwise reordered.codes fun apart => apart.symm
  named name isNamed := (reordered.named name isNamed).symm
  unnamed name byText unnamed := (reordered.unnamed name byText unnamed).symm
  sources name byText key := (reordered.sources name byText key).symm
  options := reordered.options.symm

theorem Reordered.statesWritten (reordered : policy.Reordered other)
    (written : policy.StatesWritten) : other.StatesWritten := by
  intro name byText value member
  by_cases isNamed : name ∈ namedSections
  · refine written name byText value ?_
    have same := reordered.named name isNamed
    generalize policy.dataOf name = data at same ⊢
    generalize other.dataOf name = otherData at same member
    cases same with
    | list items => exact member
    | map distinct perm => exact (perm.map _).mem_iff.2 member
  · rw [reordered.unnamed name byText isNamed] at member
    exact written name byText value member

theorem isWritten_of_ofValue?
    {value : Value} {data : SectionData} (written : value.isWritten = true)
    (stated : SectionData.ofValue? value = some data) :
    ∀ part ∈ data.values, part.isWritten = true := by
  have openedWritten := Value.isWritten_opened written
  unfold SectionData.ofValue? at stated
  split at stated
  · next items isList =>
      obtain rfl := Option.some.inj stated
      rw [isList, Value.isWritten] at openedWritten
      exact Value.itemsWritten_iff.1 openedWritten
  · next entries isMap =>
      obtain rfl := Option.some.inj stated
      rw [isMap, Value.isWritten] at openedWritten
      intro part member
      obtain ⟨entry, isEntry, rfl⟩ := List.mem_map.1 member
      obtain ⟨known, isKnown, same⟩ := Entries.exists_of_mem_insertAll isEntry
      rw [← same]
      exact Value.entriesWritten_iff.1 openedWritten known (by simpa using isKnown)
  · cases stated

/-- A policy that is merged from a document holds what the document does. -/
theorem DocumentReordered.statesWritten
    {document otherDocument : Value} (reordered : DocumentReordered document otherDocument)
    (written : document.isWritten = true) {source : String}
    (run : ofDocuments [(document, source)] = .ok policy) :
    policy.StatesWritten := by
  intro name byText value member
  cases reordered with
  | same noMap =>
      rw [eq_empty_of_noMap noMap run] at member
      exact absurd member List.not_mem_nil
  | map isMap otherIsMap distinct each perm =>
      rw [ofDocuments_eq_ok, add_of_entries? isMap] at run
      unfold dataOf at member
      rw [(section_addEntries distinct run byText).1] at member
      cases found : Entries.get? _ (.text name) with
      | none =>
          rw [found] at member
          exact absurd member List.not_mem_nil
      | some stated =>
          rw [found, Option.bind_some] at member
          obtain ⟨entry, isEntry, rfl⟩ := Entries.mem_of_get? found
          cases isData : SectionData.ofValue? entry.2 with
          | none =>
              rw [isData] at member
              exact absurd member List.not_mem_nil
          | some data =>
              rw [isData] at member
              exact isWritten_of_ofValue? (Value.isWritten_of_entries? written isMap entry isEntry)
                isData value member

end Policy

namespace Building

open Policy

theorem isKeyed_rawEntries (data : SectionData) :
    ((rawEntries data).isEmpty || (rawEntries data).isMap) = data.isKeyed := by
  cases data with
  | list items => cases items <;> rfl
  | map entries => simp [rawEntries, SectionEntries.isMap, SectionData.isKeyed]

theorem isKeyed_iff :
    isKeyed policy = true ↔ ∀ name ∈ namedSections, (policy.dataOf name).isKeyed = true := by
  have keyed : ∀ entry ∈ Builtin.registered, entry.2.keyed = decide (entry.1 ∈ namedSections) := by
    decide
  have isRegistered : ∀ name ∈ namedSections, ∃ entry ∈ Builtin.registered, entry.1 = name := by
    decide
  have isMapping (entry : String × Section) (isEntry : entry ∈ Builtin.registered) :
      (!(entry.2.keyed && !((loaded policy .none {}).entriesOf entry.1).isEmpty &&
        !((loaded policy .none {}).entriesOf entry.1).isMap)) = true ↔
        (entry.1 ∈ namedSections → (policy.dataOf entry.1).isKeyed = true) := by
    have stated : (loaded policy .none {}).entriesOf entry.1 = rawEntries (policy.dataOf entry.1) :=
      entriesOf_warned policy .none {} entry.1
    rw [stated, ← isKeyed_rawEntries, keyed entry isEntry]
    by_cases isNamed : entry.1 ∈ namedSections <;> simp [isNamed]
  unfold isKeyed
  rw [List.all_eq_true]
  constructor
  · intro each name isNamed
    obtain ⟨entry, isEntry, rfl⟩ := isRegistered name isNamed
    exact (isMapping entry isEntry).1 (each entry isEntry) isNamed
  · exact fun each entry isEntry => (isMapping entry isEntry).2 (each entry.1)

/-- The same is warned of, and the contexts differ only in what the sections hold. -/
theorem warned_of_reordered
    (reordered : policy.Reordered other) (hosts : HostBook) (settings : Settings) :
    warned other hosts settings = { warned policy hosts settings with
      objects := (warned other hosts settings).objects } := by
  have unknown : (unknownNames policy).Perm (unknownNames other) := (reordered.names.filter _).symm
  have sorted : Text.sorted (unknownNames other) = Text.sorted (unknownNames policy) :=
    Text.sorted_eq_of_perm unknown (reordered.codes.filter _)
  simp only [warned, checked, loaded, sorted]

/-! ## Declaring the named objects -/

/-- A section of named objects as it is processed. -/
def objectSection (name : String) (kind : ObjectKind) : Section :=
  { name, kind := some kind, before := [modulesLoaded], keyed := true }

/-- Only log classes, services and zones become objects before the rules do. -/
theorem declareObjects_eq_ok {before after : Context} :
    declareSections policy Builtin.objectSections before = (.ok (), after) ↔
      ∃ logged served, declareSection policy (objectSection "log" .log) before = (.ok (), logged) ∧
        declareSection policy (objectSection "service" .service) logged = (.ok (), served) ∧
        declareSection policy (objectSection "zone" .zone) served = (.ok (), after) := by
  have skipped {described : Section} (none : described.kind = none) (rest : List Section) :
      declareSections policy (described :: rest) = declareSections policy rest := by
    rw [declareSections, declareSection_of_none none, pure_bind]
  unfold Builtin.objectSections
  rw [skipped rfl, skipped rfl]
  rw [declareSections, declareSections, declareSections, skipped rfl, declareSections, bind_pure_unit]
  simp only [bind_eq_ok]
  constructor
  · rintro ⟨_, logged, logs, _, served, services, zones⟩
    exact ⟨logged, served, logs, services, zones⟩
  · rintro ⟨logged, served, logs, services, zones⟩
    exact ⟨(), logged, logs, (), served, services, zones⟩

/-- Numbers of the range are renamed to numbers of the range. -/
theorem KeepsOutside.within
    {start count : Nat} {rename : Nat → Nat} (keeps : KeepsOutside start count rename)
    (injective : Function.Injective rename) {number : Nat} (from_ : start ≤ number)
    (below : number < start + count) :
    start ≤ rename number ∧ rename number < start + count := by
  by_contra outside
  have fixed : rename (rename number) = rename number := keeps _ (by omega)
  rw [injective fixed] at outside
  exact outside ⟨from_, below⟩

/-- The contexts differ only in what the sections hold. -/
def SameBut (first second : Context) : Prop :=
  second = { first with objects := second.objects }

section Declared

variable {rename : Nat → Nat} {name : String} {kind : ObjectKind} {count : Nat}
  {before after otherBefore otherAfter : Context}

theorem DeclaredAlike.sameBut
    (alike : DeclaredAlike rename name kind count before after otherBefore otherAfter)
    (same : SameBut before otherBefore) :
    SameBut after otherAfter := by
  obtain ⟨_, first⟩ := alike.first
  obtain ⟨_, second⟩ := alike.second
  unfold SameBut at same ⊢
  rw [second.same, first.same, same]

theorem DeclaredAlike.nextSerial_eq
    (alike : DeclaredAlike rename name kind count before after otherBefore otherAfter) :
    after.nextSerial = before.nextSerial + count := by
  obtain ⟨_, first⟩ := alike.first
  rw [first.same]

theorem DeclaredAlike.others
    (alike : DeclaredAlike rename name kind count before after otherBefore otherAfter)
    {further : String} (different : further ≠ name) :
    after.entriesOf further = before.entriesOf further ∧
      otherAfter.entriesOf further = otherBefore.entriesOf further := by
  obtain ⟨_, first⟩ := alike.first
  obtain ⟨_, second⟩ := alike.second
  exact ⟨first.others further different, second.others further different⟩

theorem DeclaredAlike.keeps_settings
    (alike : DeclaredAlike rename name kind count before after otherBefore otherAfter) :
    after.settings = before.settings ∧ after.defaultLog = before.defaultLog := by
  obtain ⟨_, first⟩ := alike.first
  rw [first.same]
  exact ⟨rfl, rfl⟩

end Declared

theorem notVirtual_of_mem :
    ∀ name ∈ namedSections, (name.toList.head? == some '%') = false := by
  decide

/-- One section of named objects is declared in another order. -/
theorem exists_declaredAlike_of_reordered
    (reordered : policy.Reordered other) (written : policy.StatesWritten)
    {name : String} (isNamed : name ∈ namedSections) {kind : ObjectKind} (named : kind.isNamed = true)
    (keyed : (policy.dataOf name).isKeyed = true)
    {before otherBefore after : Context} (same : SameBut before otherBefore)
    (writtenMode : before.settings.logMode.isWritten = true)
    (stated : before.entriesOf name = rawEntries (policy.dataOf name))
    (otherStated : otherBefore.entriesOf name = rawEntries (other.dataOf name))
    (run : declareSection policy (objectSection name kind) before = (.ok (), after)) :
    ∃ rename otherAfter,
      declareSection other (objectSection name kind) otherBefore = (.ok (), otherAfter) ∧
      DeclaredAlike rename name kind (kind.serials * (policy.dataOf name).entries.length)
        before after otherBefore otherAfter := by
  have byText := isStatedByText_of_mem name isNamed
  have isKind : (objectSection name kind).kind = some kind := rfl
  refine exists_declaredAlike isKind
    (notVirtual_of_mem name isNamed) named (reordered.named name isNamed) keyed
    (fun entry member => ?_) (fun key => ?_) ?_ writtenMode ?_ stated otherStated run
  · refine written name byText entry.2 ?_
    generalize policy.dataOf name = data at member ⊢
    cases data with
    | list items => exact absurd member List.not_mem_nil
    | map entries => exact List.mem_map_of_mem member
  · simp only [objectSection, entryLocation, reordered.sources name byText]
  · rw [same]
  · rw [same]

theorem renamed_rawEntries
    {data : SectionData} (written : ∀ value ∈ data.values, value.isWritten = true)
    (rename : Nat → Nat) : (rawEntries data).renamed rename = rawEntries data := by
  cases data with
  | list items =>
      simp only [rawEntries, SectionEntries.renamed, List.map_map, SectionEntries.list.injEq]
      refine List.map_congr_left fun value member => congrArg Entry.raw ?_
      exact Value.renamed_of_isWritten value (written value member)
  | map entries =>
      simp only [rawEntries, SectionEntries.renamed, Entries.mapped, List.map_map,
        SectionEntries.map.injEq]
      refine List.map_congr_left fun entry member => ?_
      exact congrArg (fun value => (entry.1, Entry.raw value))
        (Value.renamed_of_isWritten entry.2 (written entry.2 (List.mem_map_of_mem member)))

/-- The definitions of address sets in another order print the same. -/
theorem follows_setDefinitions
    {data otherData : SectionData} (reordered : data.Reordered otherData) :
    Follows AddressSet.PrintsAlike
      (setDefinitions (rawEntries data) >>= AddressSet.readAll)
      (setDefinitions (rawEntries otherData) >>= AddressSet.readAll) := by
  cases reordered with
  | list items => exact Follows.of_self fun _ _ => rfl
  | map distinct perm =>
      have definitions (entries : Entries) :
          setDefinitions (rawEntries (.map entries)) = .ok entries := by
        simp [rawEntries, setDefinitions, Function.comp_def]
      rw [definitions, definitions]
      exact AddressSet.follows_readAll distinct perm

/-! ## Twin contexts -/

/-- The sections whose entries become objects that rules refer to. -/
def declaredSections : List String := ["log", "service", "zone"]

/-- The contexts hold the same named objects, but for their numbers, and all else as it is stated. -/
structure HoldAlike (policy other : Policy) (settings : Settings) (rename : Nat → Nat)
    (first second : Context) : Prop where
  injective : Function.Injective rename
  fixes : ∀ serial, first.nextSerial ≤ serial → rename serial = serial
  same : SameBut first second
  settings : first.settings = settings
  defaultLog : first.defaultLog = none
  logs : (first.entriesOf "log").Alike (Entry.renamed rename) (second.entriesOf "log")
  services : (first.entriesOf "service").Alike (Entry.renamed rename) (second.entriesOf "service")
  zones : (first.entriesOf "zone").Alike id (second.entriesOf "zone")
  stated : ∀ name, name ∉ declaredSections →
    first.entriesOf name = rawEntries (policy.dataOf name) ∧
      second.entriesOf name = rawEntries (other.dataOf name)

/-- Log classes, services and zones were declared in both contexts, in that order. -/
structure DeclaredInTurn (renameLogs renameServices renameZones : Nat → Nat)
    (logCount serviceCount : Nat)
    (start logged served declared otherStart otherLogged otherServed otherDeclared : Context) :
    Prop where
  logs : DeclaredAlike renameLogs "log" .log logCount start logged otherStart otherLogged
  services : DeclaredAlike renameServices "service" .service serviceCount
    logged served otherLogged otherServed
  zones : ∃ count, DeclaredAlike renameZones "zone" .zone (ObjectKind.zone.serials * count)
    served declared otherServed otherDeclared

section InTurn

variable {renameLogs renameServices renameZones : Nat → Nat} {logCount serviceCount : Nat}
  {start logged served declared otherStart otherLogged otherServed otherDeclared : Context}
  (turn : DeclaredInTurn renameLogs renameServices renameZones logCount serviceCount
    start logged served declared otherStart otherLogged otherServed otherDeclared)
include turn

/-- The numbers of log classes are renamed among themselves. -/
theorem DeclaredInTurn.rename_log
    {number : Nat} (from_ : start.nextSerial ≤ number)
    (below : number < start.nextSerial + logCount) :
    (renameServices ∘ renameLogs) number = renameLogs number := by
  have within := turn.logs.keeps.within turn.logs.injective from_ below
  rw [← turn.logs.nextSerial_eq] at within
  exact turn.services.keeps _ (.inl within.2)

/-- The numbers of services come behind those of log classes. -/
theorem DeclaredInTurn.rename_service
    {number : Nat} (from_ : logged.nextSerial ≤ number) :
    (renameServices ∘ renameLogs) number = renameServices number := by
  rw [turn.logs.nextSerial_eq] at from_
  exact congrArg renameServices (turn.logs.keeps number (.inr from_))

/-- Zones have no numbers. -/
theorem DeclaredInTurn.rename_zone :
    renameZones = id ∧ declared.nextSerial = served.nextSerial := by
  obtain ⟨count, zones⟩ := turn.zones
  refine ⟨funext fun number => ?_, by simpa [ObjectKind.serials] using zones.nextSerial_eq⟩
  refine zones.keeps number ((lt_or_ge number served.nextSerial).imp_right fun from_ => ?_)
  simpa [ObjectKind.serials] using from_

theorem DeclaredInTurn.holdAlike
    {policy other : Policy} {settings : Settings} (same : SameBut start otherStart)
    (isSettings : start.settings = settings) (noDefault : start.defaultLog = none)
    (stated : ∀ name, start.entriesOf name = rawEntries (policy.dataOf name) ∧
      otherStart.entriesOf name = rawEntries (other.dataOf name)) :
    HoldAlike policy other settings (renameServices ∘ renameLogs) declared otherDeclared := by
  obtain ⟨noNumbers, sameSerial⟩ := turn.rename_zone
  obtain ⟨count, zones⟩ := turn.zones
  exact {
    injective := turn.services.injective.comp turn.logs.injective
    fixes := fun serial later => by
      rw [sameSerial, turn.services.nextSerial_eq] at later
      rw [turn.rename_service (le_trans (Nat.le_add_right ..) later)]
      exact turn.services.keeps serial (.inr later)
    same := zones.sameBut (turn.services.sameBut (turn.logs.sameBut same))
    settings := by
      rw [zones.keeps_settings.1, turn.services.keeps_settings.1, turn.logs.keeps_settings.1]
      exact isSettings
    defaultLog := by
      rw [zones.keeps_settings.2, turn.services.keeps_settings.2, turn.logs.keeps_settings.2]
      exact noDefault
    logs := by
      have keptServices := turn.services.others (show "log" ≠ "service" by decide)
      have keptZones := zones.others (show "log" ≠ "zone" by decide)
      rw [keptZones.1, keptZones.2, keptServices.1, keptServices.2]
      exact turn.logs.alike _ fun number from_ below => turn.rename_log from_ (below (by decide))
    services := by
      have keptZones := zones.others (show "service" ≠ "zone" by decide)
      rw [keptZones.1, keptZones.2]
      exact turn.services.alike _ fun number from_ _ => turn.rename_service from_
    zones := by
      have unchanged := zones.alike id fun number _ _ => (congrFun noNumbers number).symm
      rwa [funext Entry.renamed_id] at unchanged
    stated := fun name undeclared => by
      simp only [declaredSections, List.mem_cons, List.not_mem_nil, or_false, not_or] at undeclared
      obtain ⟨notLog, notService, notZone⟩ := undeclared
      have keptLogs := turn.logs.others notLog
      have keptServices := turn.services.others notService
      have keptZones := zones.others notZone
      rw [keptZones.1, keptZones.2, keptServices.1, keptServices.2, keptLogs.1, keptLogs.2]
      exact stated name }

end InTurn

theorem stated_of_mem_ruleSections :
    ∀ described ∈ Builtin.ruleSections, described.name ∉ declaredSections ∧
      described.name ∉ namedSections ∧ IsStatedByText described.name := by
  decide +kernel

section Objects

variable (reordered : policy.Reordered other) (written : policy.StatesWritten)
  {hosts : HostBook} {settings : Settings} (writtenMode : settings.logMode.isWritten = true)
include reordered written writtenMode

theorem HoldAlike.twin
    {rename : Nat → Nat} {first second : Context}
    (alike : HoldAlike policy other settings rename first second)
    (writtenLevel : settings.logLevel.isWritten = true) :
    Twin rename (fun _ => true) first second := by
  have ruleEntries (described : Section) (isRule : described ∈ Builtin.ruleSections) :
      first.entriesOf described.name = rawEntries (policy.dataOf described.name) ∧
        second.entriesOf described.name = rawEntries (policy.dataOf described.name) := by
    obtain ⟨undeclared, unnamed, byText⟩ := stated_of_mem_ruleSections described isRule
    rw [← reordered.unnamed _ byText unnamed]
    obtain ⟨stated, otherStated⟩ := alike.stated _ undeclared
    exact ⟨by rw [stated, reordered.unnamed _ byText unnamed], otherStated⟩
  have chains := alike.stated "custom" (by decide)
  have definitions := alike.stated "ipset" (by decide)
  obtain ⟨objects, rfl⟩ : ∃ objects, second = { first with objects } := ⟨_, alike.same⟩
  exact {
    injective := alike.injective
    fixes := alike.fixes
    families := (List.filter_true _).symm
    isEmpty_families := rfl
    recentMaxCount := rfl
    logMode := (Value.renamed_of_isWritten _ (alike.settings ▸ writtenMode)).symm
    logLevel := (Value.renamed_of_isWritten _ (alike.settings ▸ writtenLevel)).symm
    hosts := rfl, sections := rfl, auxiliary := rfl, declared := rfl, counters := rfl
    chainNames := rfl, nextSerial := rfl, warnings := rfl
    defaultLog := by simp [alike.defaultLog]
    zones := alike.zones
    services := alike.services
    logs := alike.logs
    chains := by
      rw [chains.1, chains.2]
      exact (reordered.named "custom" (by decide)).alike_rawEntries
    rules := fun described isRule => by
      obtain ⟨stated, otherStated⟩ := ruleEntries described isRule
      rw [stated, otherStated]
      exact (renamed_rawEntries (written _ (stated_of_mem_ruleSections described isRule).2.2) _).symm
    steady := fun described isRule kind isKind entry member => by
      rw [(ruleEntries described isRule).1, values_rawEntries] at member
      obtain ⟨value, -, rfl⟩ := List.mem_map.1 member
      exact ⟨nofun, .inl fun _ => rfl⟩
    sets := by
      rw [definitions.1, definitions.2]
      exact follows_setDefinitions (reordered.named "ipset" (by decide)) }

/-- The named objects are declared alike in another order. -/
theorem exists_holdAlike
    (keyed : isKeyed policy = true) {declared : Context}
    (run : declareSections policy Builtin.objectSections (warned policy hosts settings) =
      (.ok (), declared)) :
    ∃ rename otherDeclared,
      declareSections other Builtin.objectSections (warned other hosts settings) =
        (.ok (), otherDeclared) ∧
      HoldAlike policy other settings rename declared otherDeclared := by
  have isKeyed := isKeyed_iff.1 keyed
  have start : SameBut (warned policy hosts settings) (warned other hosts settings) :=
    warned_of_reordered reordered hosts settings
  obtain ⟨logged, served, logs, services, zones⟩ := declareObjects_eq_ok.1 run
  obtain ⟨renameLogs, otherLogged, otherLogs, logsAlike⟩ :=
    exists_declaredAlike_of_reordered reordered written (by decide) rfl (isKeyed _ (by decide)) start
      writtenMode (entriesOf_warned ..) (entriesOf_warned ..) logs
  have loggedSame := logsAlike.sameBut start
  have loggedSettings := logsAlike.keeps_settings.1
  have serviceStated := logsAlike.others (show "service" ≠ "log" by decide)
  obtain ⟨renameServices, otherServed, otherServices, servicesAlike⟩ :=
    exists_declaredAlike_of_reordered reordered written (by decide) rfl (isKeyed _ (by decide))
      loggedSame (loggedSettings ▸ writtenMode) (serviceStated.1.trans (entriesOf_warned ..))
      (serviceStated.2.trans (entriesOf_warned ..)) services
  have servedSame := servicesAlike.sameBut loggedSame
  have servedSettings := servicesAlike.keeps_settings.1.trans loggedSettings
  have zoneStated := servicesAlike.others (show "zone" ≠ "service" by decide)
  have zoneLogged := logsAlike.others (show "zone" ≠ "log" by decide)
  obtain ⟨renameZones, otherDeclared, otherZones, zonesAlike⟩ :=
    exists_declaredAlike_of_reordered reordered written (by decide) rfl (isKeyed _ (by decide))
      servedSame (servedSettings ▸ writtenMode)
      ((zoneStated.1.trans zoneLogged.1).trans (entriesOf_warned ..))
      ((zoneStated.2.trans zoneLogged.2).trans (entriesOf_warned ..)) zones
  refine ⟨renameServices ∘ renameLogs, otherDeclared,
    declareObjects_eq_ok.2 ⟨otherLogged, otherServed, otherLogs, otherServices, otherZones⟩, ?_⟩
  have turn : DeclaredInTurn renameLogs renameServices renameZones _ _ _ _ _ _ _ _ _ _ :=
    ⟨logsAlike, servicesAlike, _, zonesAlike⟩
  exact turn.holdAlike start rfl rfl fun name => ⟨entriesOf_warned .., entriesOf_warned ..⟩

end Objects

theorem sameLocations (reordered : policy.Reordered other) : SameLocations policy other := by
  intro described isRule key
  unfold entryLocation
  rw [reordered.sources _ (stated_of_mem_ruleSections described isRule).2.2]

end Building

end FirewallPolicy
