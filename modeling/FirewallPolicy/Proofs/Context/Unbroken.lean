import FirewallPolicy.Model.Service
import FirewallPolicy.Proofs.Address.Unbroken
import FirewallPolicy.Proofs.Context.Tidy
import FirewallPolicy.Proofs.Fragment.Unbroken
import FirewallPolicy.Proofs.Run.Contract
import FirewallPolicy.Proofs.Text.Order

/-!
# Compilations on one line

In a context without line breaks, objects that are declared by tidy attributes have no line break,
no more than the names that are given out.  Every step keeps the context that way.
-/

namespace FirewallPolicy

open Fragment Stateful

/-- The texts of the settings that end up in rules have no line break. -/
structure Settings.IsUnbroken (settings : Settings) : Prop where
  policy : Text.IsUnbroken settings.filterChainPolicy
  logMode : settings.logMode.isUnbroken = true
  logLevel : settings.logLevel.isUnbroken = true

/-- Nothing that the context knows has a line break. -/
structure Context.IsUnbroken (context : Context) : Prop where
  settings : context.settings.IsUnbroken
  hosts : context.hosts.IsUnbroken
  auxiliary : AreUnbroken context.auxiliary
  objects : ∀ stored ∈ context.objects, stored.2.IsTidy
  defaultLog : IfGiven LogClass.IsUnbroken context.defaultLog
  chainNames : ∀ named ∈ context.chainNames, Text.IsUnbroken named.2

theorem Context.IsUnbroken.entriesOf
    {context : Context} (unbroken : context.IsUnbroken) (name : String) :
    (context.entriesOf name).IsTidy := by
  unfold Context.entriesOf
  cases found : context.objects.get? name with
  | none => exact ⟨by simp [SectionEntries.keys], by simp [SectionEntries.values]⟩
  | some entries => exact unbroken.objects (name, entries) (Named.mem_of_get? found)

theorem Context.IsUnbroken.withEntries
    {context : Context} (unbroken : context.IsUnbroken) {name : String} {entries : SectionEntries}
    (tidy : entries.IsTidy) :
    IsUnbroken { context with objects := context.objects.set name entries } where
  settings := unbroken.settings
  hosts := unbroken.hosts
  auxiliary := unbroken.auxiliary
  objects stored member := by
    rcases Named.mem_set member with old | rfl
    · exact unbroken.objects stored old
    · exact tidy
  defaultLog := unbroken.defaultLog
  chainNames := unbroken.chainNames

namespace Run

variable {α : Type}

/-- Where the context has no line break, a success leaves none, and its result has the property. -/
abbrev StaysUnbroken (property : α → Prop) (action : Run α) : Prop :=
  Meets Context.IsUnbroken property action

/-! ## Names -/

theorem unbroken_freshSerial : StaysUnbroken (fun _ => True) freshSerial :=
  meets_get_bind fun _ _ => (meets_modify fun _ kept => { kept with }).bind fun _ _ =>
    meets_pure trivial

theorem unbroken_warn {location : String} {cause : Cause} :
    StaysUnbroken (fun _ => True) (warn location cause) :=
  meets_modify fun _ kept => { kept with }

theorem unbroken_freshName {key : String} (isKey : Text.IsUnbroken key) :
    StaysUnbroken Text.IsUnbroken (freshName key) := by
  refine meets_get_bind fun context _ => (meets_modify fun _ kept => { kept with }).bind fun _ _ =>
    meets_pure ?_
  simpa [isKey] using by decide

theorem unbroken_chainNameOf {serial : Nat} {key : String} (isKey : Text.IsUnbroken key) :
    StaysUnbroken Text.IsUnbroken (chainNameOf serial key) := by
  refine meets_get_bind fun context unbroken => ?_
  cases found : context.chainNames.lookup (serial, key) with
  | some name =>
      obtain ⟨before, after, same, -⟩ := List.lookup_eq_some_iff.1 found
      exact meets_pure (unbroken.chainNames ((serial, key), name) (by simp [same]))
  | none =>
      refine (unbroken_freshName isKey).bind fun name isName => (meets_modify fun before kept => ?_).bind
        fun _ _ => meets_pure isName
      exact { kept with chainNames := List.forall_mem_cons.2 ⟨isName, kept.chainNames⟩ }

theorem unbroken_declareChain
    {chain : String} {rules : List Fragment} (isChain : Text.IsUnbroken chain)
    (unbroken : AreUnbroken rules) :
    StaysUnbroken (fun _ => True) (declareChain chain rules) := by
  refine meets_get_bind fun context _ => ?_
  split
  · exact meets_pure trivial
  · refine (meets_modify fun before kept => ?_).bind fun _ _ => meets_pure trivial
    exact { kept with
      auxiliary := kept.auxiliary.append (areUnbroken_map fun rule member =>
        (unbroken rule member).withChain isChain) }

/-! ## Hosts -/

theorem unbroken_resolveHost {location host : String} (isHost : Text.IsUnbroken host) :
    StaysUnbroken (fun entries => ∀ entry ∈ entries, entry.IsUnbroken)
      (resolveHost location host) := by
  refine meets_get_bind fun context unbroken =>
    (meets_modify fun before kept => ?_).bind fun _ _ => ?_
  · refine { kept with hosts := fun name entries => ?_ }
    have directory : (context.hosts.noting host).directory = context.hosts.directory := by
      unfold HostBook.noting
      split <;> rfl
    rw [directory]
    exact unbroken.hosts name entries
  · split
    · next answers => exact meets_pure (unbroken.hosts.answer isHost answers)
    · exact meets_report
    · exact meets_unusable

theorem isUnbroken_hostFragment
    {option : String} {entry : FamilyAddress} (isOption : Text.IsUnbroken option)
    (unbroken : entry.IsUnbroken) : (hostFragment option entry).IsUnbroken := by
  refine (isUnbroken_matching ?_).withFamily (ifGiven_some.2 unbroken.1)
  simpa [isOption, unbroken.2] using by decide

theorem unbroken_hostFragments
    {location option : String} {hosts : List Value} (isOption : Text.IsUnbroken option)
    (unbroken : ∀ host ∈ hosts, host.isUnbroken = true) :
    StaysUnbroken AreUnbroken (hostFragments location option hosts) :=
  meets_gather fun host member =>
    (unbroken_resolveHost (Value.isUnbroken_written (unbroken host member))).bind
      fun _ areUnbroken => meets_pure (areUnbroken_map fun entry isEntry =>
        isUnbroken_hostFragment isOption (areUnbroken entry isEntry))

end Run

open Run

/-! ## Attributes -/

theorem mem_of_unknownKeys_eq_nil
    {allowed : List String} {entries : Entries} (known : unknownKeys allowed entries = [])
    {field : String × Value} (member : field ∈ recordOf entries) : field.1 ∈ allowed := by
  obtain ⟨⟨key, value⟩, isEntry, taken⟩ := List.mem_filterMap.1 member
  cases key with
  | text name =>
      obtain rfl := Option.some.inj taken
      by_contra isUnknown
      have listed : (Scalar.text name).written ∈ unknownKeys allowed entries :=
        Text.mem_sorted.2 (List.mem_map.2
          ⟨(.text name, value), List.mem_filter.2 ⟨isEntry, by simpa using isUnknown⟩, rfl⟩)
      rw [known] at listed
      exact absurd listed List.not_mem_nil
  | _ => cases taken

theorem unbroken_attributesOf
    {kind : ObjectKind} {location : String} {source : Entry} (tidy : source.DeclaresTidy) :
    StaysUnbroken (fun attributes => attributes.IsTidy ∧
      ∀ field ∈ attributes, field.1 ∈ kind.attributes) (attributesOf kind location source) := by
  unfold attributesOf
  cases isMap : declaration? source with
  | none => exact meets_throw
  | some entries =>
      dsimp only
      split
      · next known =>
          exact meets_pure ⟨tidy entries isMap, fun _ => mem_of_unknownKeys_eq_nil known⟩
      · exact meets_report

/-- The attributes of objects that keep no log classes. -/
theorem unbroken_attributesOf_of_notMem
    {kind : ObjectKind} {location : String} {source : Entry} (tidy : source.DeclaresTidy)
    (others : ∀ name ∈ kind.attributes, name ∉ logHolders) :
    StaysUnbroken Record.IsUnbroken (attributesOf kind location source) :=
  (unbroken_attributesOf tidy).imp fun _ attributes => attributes.1.isUnbroken attributes.2 others

/-! ## Zones -/

namespace Zone

theorem unbroken_declare
    {location : String} {source : Entry} (tidy : source.DeclaresTidy) :
    StaysUnbroken Zone.IsUnbroken (Zone.declare location source) :=
  (unbroken_attributesOf_of_notMem tidy (by decide)).bind fun _ attributes => meets_pure attributes

theorem isUnbroken_interfaceOption (direction : Direction) :
    Text.IsUnbroken direction.interfaceOption := by
  cases direction <;> decide

theorem isUnbroken_addressOption (direction : Direction) :
    Text.IsUnbroken direction.addressOption := by
  cases direction <;> decide

variable {zone : Zone} {direction : Direction}

theorem isUnbroken_interfaces (unbroken : zone.IsUnbroken) :
    ∀ name ∈ zone.interfaces, Text.IsUnbroken name := by
  intro name member
  obtain ⟨item, isItem, rfl⟩ := List.mem_map.1 member
  exact Value.isUnbroken_written
    (Value.isUnbroken_of_mem_toItems (Record.IsUnbroken.get unbroken "iface") isItem)

theorem unbroken_fragmentsOn (unbroken : zone.IsUnbroken) {interfaces : List String}
    (areNames : ∀ name ∈ interfaces, Text.IsUnbroken name) :
    StaysUnbroken AreUnbroken (zone.fragmentsOn direction interfaces) := by
  have addresses : StaysUnbroken (IfGiven AreUnbroken) (zone.addressFragments direction) := by
    unfold Zone.addressFragments
    split
    · exact (unbroken_hostFragments (isUnbroken_addressOption direction) fun _ =>
        Value.isUnbroken_of_mem_toItems (Record.IsUnbroken.get unbroken "addr")).bind
          fun _ found => meets_pure (ifGiven_some.2 found)
    · exact meets_pure ifGiven_none
  have named : IfGiven AreUnbroken (interfaceFragments direction interfaces) := by
    unfold interfaceFragments
    split
    · exact ifGiven_none
    · refine ifGiven_some.2 (areUnbroken_map fun name member => isUnbroken_matching ?_)
      simpa [areNames name member, isUnbroken_interfaceOption] using by decide
  refine addresses.bind fun found areFound => meets_pure ?_
  unfold assemble
  split
  · exact areUnbroken_singleton isUnbroken_empty
  · refine areUnbroken_combine ?_
    simpa using ⟨named, areFound⟩

end Zone

/-! ## Services -/

theorem isUnbroken_of_controlProtocol?
    {name : String} {control : ControlProtocol} (isControl : controlProtocol? name = some control) :
    Text.IsUnbroken control.family ∧ Text.IsUnbroken control.name ∧
      Text.IsUnbroken control.typeOption := by
  rcases eq_or_eq_of_controlProtocol? isControl with rfl | rfl <;> decide

namespace ServiceDefinition

theorem unbroken_declare
    {location : String} {source : Entry} (tidy : source.DeclaresTidy) :
    StaysUnbroken ServiceDefinition.IsUnbroken (ServiceDefinition.declare location source) := by
  refine (unbroken_attributesOf_of_notMem tidy (by decide)).bind fun attributes unbroken =>
    meets_recording ?_
  have protocol : Text.IsUnbroken (Text.lower (attributes.get "proto").written) :=
    Text.isUnbroken_lower (Value.isUnbroken_written (unbroken.get "proto"))
  unfold ServiceDefinition.settle
  dsimp only
  split
  · exact gives_throw_bind
  · split
    · exact gives_throw_bind
    · exact gives_ok ⟨protocol, unbroken.set (Value.isUnbroken_text.2 protocol)⟩

variable {definition : ServiceDefinition}

theorem IsUnbroken.family (unbroken : definition.IsUnbroken) :
    IfGiven Text.IsUnbroken definition.family := by
  unfold ServiceDefinition.family
  split
  · next control isControl => exact ifGiven_some.2 (isUnbroken_of_controlProtocol? isControl).1
  · split
    · next text isText =>
        have isUnbroken := unbroken.attributes.get "family"
        rw [isText, Value.isUnbroken_text] at isUnbroken
        exact ifGiven_some.2 isUnbroken
    · exact ifGiven_none

theorem IsUnbroken.helper (unbroken : definition.IsUnbroken) :
    IfGiven (fun helper => helper.isUnbroken = true) definition.helper? := by
  unfold ServiceDefinition.helper?
  dsimp only
  split
  · exact ifGiven_some.2 (unbroken.attributes.get "ct-helper")
  · exact ifGiven_none

theorem isUnbroken_ports {port : Value} (unbroken : port.isUnbroken = true) :
    Text.IsUnbroken (Ports.text port) := by
  have written := Value.isUnbroken_written unbroken
  rw [Ports.text, Text.isUnbroken_ofList, List.mem_map]
  rintro ⟨c, isChar, same⟩
  split at same
  · exact absurd same (by decide)
  · exact written (same ▸ isChar)

theorem chunksFrom_subset {current ports : List String} {used : Nat} :
    ∀ chunk ∈ Ports.chunksFrom current used ports, chunk ⊆ current ++ ports := by
  fun_induction Ports.chunksFrom current used ports with
  | case1 current used => simp
  | case2 current used port rest _ inductionHypothesis =>
      refine List.forall_mem_cons.2 ⟨List.subset_append_left _ _, fun chunk member => ?_⟩
      exact List.Subset.trans (inductionHypothesis chunk member) (List.subset_append_right _ _)
  | case3 current used port rest _ inductionHypothesis =>
      simpa using inductionHypothesis

theorem isUnbroken_portTokens {reverse : Bool} {ports : List String}
    (unbroken : ∀ port ∈ ports, Text.IsUnbroken port) :
    ∀ token ∈ portTokens reverse ports, Text.IsUnbroken token := by
  have side : Text.IsUnbroken (portSide reverse) := by cases reverse <;> decide
  unfold portTokens
  split
  · next port =>
      have isPort := unbroken port (List.mem_singleton_self port)
      simpa [side, isPort] using by decide
  · intro token member
    obtain ⟨chunk, isChunk, rfl⟩ := List.mem_map.1 member
    have listed : Text.IsUnbroken (",".intercalate chunk) :=
      Text.isUnbroken_intercalate (by decide) fun port isPort =>
        unbroken port (chunksFrom_subset chunk isChunk isPort)
    simpa [side, listed] using by decide

theorem IsUnbroken.fragments (unbroken : definition.IsUnbroken) (reverse : Bool) :
    Gives AreUnbroken (definition.fragments reverse) := by
  have protocol : Text.IsUnbroken ("-p " ++ definition.protocol) := by
    simpa [unbroken.protocol] using by decide
  have within {tokens : List String} (each : ∀ token ∈ tokens, Text.IsUnbroken token) :
      Fragment.IsUnbroken { Fragment.matching tokens with family := definition.family } :=
    (isUnbroken_matching each).withFamily unbroken.family
  unfold ServiceDefinition.fragments
  dsimp only
  split
  · next control isControl =>
      obtain ⟨family, name, option⟩ := isUnbroken_of_controlProtocol? isControl
      have type := Value.isUnbroken_written (unbroken.attributes.get "type")
      refine gives_ok (areUnbroken_singleton ?_)
      refine (isUnbroken_matching ?_).withFamily (ifGiven_some.2 family)
      refine List.forall_mem_cons.2 ⟨by simpa [name] using by decide, ?_⟩
      split
      · simpa [option, type] using by decide
      · simp
  · split
    · exact gives_ok (areUnbroken_singleton (within (by simpa using protocol)))
    · split
      · exact gives_error
      · refine gives_ok (areUnbroken_map fun token isToken => within ?_)
        have isPort : Text.IsUnbroken token := by
          refine isUnbroken_portTokens (fun port member => ?_) token isToken
          obtain ⟨item, isItem, rfl⟩ := List.mem_map.1 member
          exact isUnbroken_ports
            (Value.isUnbroken_of_mem_toItems (unbroken.attributes.get "port") isItem)
        simpa [isPort] using protocol

end ServiceDefinition

namespace Service

theorem unbroken_declare
    {location : String} {source : Entry} (tidy : source.IsTidy) :
    StaysUnbroken Service.IsUnbroken (Service.declare location source) := by
  have items : ∀ item ∈ Service.items source, item.DeclaresTidy := by
    intro item member
    cases source with
    | raw value =>
        obtain ⟨stated, isStated, rfl⟩ := List.mem_map.1 member
        exact Entry.IsTidy.declaresTidy
          (show (Entry.raw stated).IsTidy from Value.isUnbroken_of_mem_toItems tidy isStated)
    | object object =>
        obtain rfl := List.mem_singleton.1 member
        exact Entry.IsTidy.declaresTidy tidy
  have declared (items : List Entry) (tidy : ∀ item ∈ items, item.DeclaresTidy) :
      StaysUnbroken (fun found => ∀ definition ∈ found, definition.IsUnbroken)
        (declareItems location items) := by
    induction items with
    | nil => exact meets_pure (by simp)
    | cons item rest inductionHypothesis =>
        obtain ⟨isFirst, isRest⟩ := List.forall_mem_cons.1 tidy
        exact (ServiceDefinition.unbroken_declare isFirst).bind fun first isUnbroken =>
          (inductionHypothesis isRest).bind fun others areUnbroken =>
            meets_pure (List.forall_mem_cons.2 ⟨isUnbroken, areUnbroken⟩)
  unfold Service.declare
  split
  · exact meets_pure tidy
  · refine unbroken_freshSerial.bind fun serial _ => (declared _ items).bind
      fun definitions areUnbroken => ?_
    dsimp only
    split
    · exact meets_report_bind
    · exact meets_pure areUnbroken

theorem IsUnbroken.fragments {service : Service} (unbroken : service.IsUnbroken) (reverse : Bool) :
    Gives AreUnbroken (service.fragments reverse) :=
  (gives_mapM fun definition member => (unbroken definition member).fragments reverse).bind
    fun _ each => gives_ok (areUnbroken_flatten each)

end Service

/-! ## Log classes -/

namespace LogClass

variable {log : LogClass}

theorem unbroken_declare
    {location : String} {key : Option Scalar} {source : Entry} (tidy : source.DeclaresTidy)
    (isKey : IfGiven (fun name => name.isUnbroken = true) key) :
    StaysUnbroken LogClass.IsUnbroken (LogClass.declare location key source) := by
  refine (unbroken_attributesOf_of_notMem tidy (by decide)).bind fun attributes unbroken =>
    meets_get_bind fun context known => ?_
  refine (meets_recording fun settled settles => ?_).bind fun settled isSettled =>
    unbroken_freshSerial.bind fun serial _ => meets_pure ⟨isKey, isSettled⟩
  obtain ⟨-, rfl⟩ := settle_eq_ok settles
  exact unbroken.setDefault known.settings.logMode

theorem isUnbroken_of_logMode? {name : String} {mode : LogMode} (isMode : logMode? name = some mode) :
    IfGiven Text.IsUnbroken mode.target ∧
      ∀ option ∈ mode.options, Text.IsUnbroken option.2 := by
  have each : ∀ name ∈ ["log", "nflog", "ulog", "none"], ∀ mode ∈ logMode? name,
      (∀ target ∈ mode.target, Text.IsUnbroken target) ∧
        ∀ option ∈ mode.options, Text.IsUnbroken option.2 := by
    decide
  refine each name ?_ mode isMode
  unfold logMode? at isMode
  split at isMode <;> first | decide | cases isMode

theorem isUnbroken_conditions (unbroken : log.IsUnbroken) :
    ∀ condition ∈ log.conditions, Text.IsUnbroken condition := by
  have written (name : String) : Text.IsUnbroken (log.attributes.get name).written :=
    Value.isUnbroken_written (unbroken.attributes.get name)
  have amount : Text.IsUnbroken (log.attributes.get "limit").amountText :=
    Value.isUnbroken_amountText (unbroken.attributes.get "limit")
  unfold conditions
  extract_lets attr thinning limit
  refine List.forall_mem_append.2 ⟨?_, ?_⟩
  · unfold thinning
    split
    · simpa [attr, written] using by decide
    · split
      · simpa [attr, written] using by decide
      · simp
  · unfold limit
    split
    · simpa [attr, amount] using by decide
    · simp

theorem isUnbroken_optionText
    (unbroken : log.IsUnbroken) {option : String × String} (isOption : Text.IsUnbroken option.2) :
    Text.IsUnbroken (log.optionText option) := by
  have written := Value.isUnbroken_written (unbroken.attributes.get option.1)
  unfold optionText
  split
  · extract_lets value quoted
    have isQuoted : Text.IsUnbroken quoted := by
      unfold quoted
      split
      · simpa [value, written] using by decide
      · exact written
    simpa [isOption, isQuoted] using by decide
  · decide

theorem IsUnbroken.fragments (unbroken : log.IsUnbroken) : AreUnbroken log.fragments := by
  have options (options : List (String × String)) (start : String)
      (isStart : Text.IsUnbroken start) (each : ∀ option ∈ options, Text.IsUnbroken option.2) :
      Text.IsUnbroken
        (options.foldl (fun text option => text ++ log.optionText option) start) := by
    induction options generalizing start with
    | nil => exact isStart
    | cons option rest inductionHypothesis =>
        obtain ⟨isFirst, isRest⟩ := List.forall_mem_cons.1 each
        exact inductionHypothesis _
          (Text.isUnbroken_append.2 ⟨isStart, isUnbroken_optionText unbroken isFirst⟩) isRest
  unfold LogClass.fragments
  extract_lets mode
  cases isMode : mode with
  | none => simp [AreUnbroken]
  | some known =>
      obtain ⟨target, given⟩ := known
      cases target with
      | none => simp [AreUnbroken]
      | some target =>
          unfold mode at isMode
          split at isMode
          · obtain ⟨isTarget, areOptions⟩ := isUnbroken_of_logMode? isMode
            exact areUnbroken_singleton
              ((isUnbroken_matching (isUnbroken_conditions unbroken)).withTarget
                (options given target (isTarget target rfl) areOptions))
          · simp at isMode

/-! ### Selection -/

theorem unbroken_lookup {location name : String} (isName : Text.IsUnbroken name) :
    StaysUnbroken LogClass.IsUnbroken (LogClass.lookup location name) := by
  have isKey : (Scalar.text name).isUnbroken = true := Value.isUnbroken_text.2 isName
  refine meets_get_bind fun context unbroken => ?_
  have tidy := unbroken.entriesOf "log"
  cases shape : context.entriesOf "log" with
  | list items =>
      dsimp only
      split
      · exact meets_unusable
      · exact meets_report
  | map entries =>
      rw [shape] at tidy
      cases found : Entries.get? entries (.text name) with
      | none =>
          simp only [found]
          exact meets_report
      | some entry =>
          obtain ⟨stored, isStored, rfl⟩ := Entries.mem_of_get? found
          have isTidy : stored.2.IsTidy := tidy.2 stored.2 (List.mem_map_of_mem isStored)
          have declares : StaysUnbroken LogClass.IsUnbroken (do
              let log ← LogClass.declare ("log " ++ name) (some (.text name)) stored.2
              modify fun context => { context with
                objects := context.objects.set "log"
                  ((context.entriesOf "log").put (.text name) (.object (.log log))) }
              return log : Run LogClass) := by
            refine (unbroken_declare isTidy.declaresTidy (ifGiven_some.2 isKey)).bind
              fun log isUnbroken =>
              (meets_modify fun before kept => kept.withEntries ?_).bind fun _ _ =>
                meets_pure isUnbroken
            exact SectionEntries.isTidy_put (kept.entriesOf "log") isKey isUnbroken
          simp only [found]
          split
          · next same => cases same
          · next log same =>
              rw [Option.some.inj same] at isTidy
              exact meets_pure isTidy
          · next entry _ same =>
              obtain rfl := Option.some.inj same
              exact declares

/-- The log class that the settings make is declared by tidy attributes. -/
theorem declaresTidy_defaultAttributes {settings : Settings} (unbroken : settings.IsUnbroken) :
    (Entry.raw (.map (defaultAttributes settings))).DeclaresTidy := by
  refine Entry.declaresTidy_map (Entries.IsUnbroken.isTidy ?_)
  refine List.forall_mem_cons.2 ⟨⟨rfl, unbroken.logMode⟩, ?_⟩
  split
  · exact List.forall_mem_singleton.2 ⟨rfl, unbroken.logLevel⟩
  · simp

theorem unbroken_default {location : String} :
    StaysUnbroken LogClass.IsUnbroken (LogClass.default location) := by
  refine meets_get_bind fun context unbroken => ?_
  split
  · next log found => exact meets_pure (unbroken.defaultLog log found)
  · refine meets_get_bind fun context _ => ?_
    have keeps (log : LogClass) (isUnbroken : log.IsUnbroken) :
        StaysUnbroken LogClass.IsUnbroken (do
          let log := { log with key := some (.text "") }
          modify fun context : Context => { context with defaultLog := some log }
          return log : Run LogClass) := by
      have named : LogClass.IsUnbroken { log with key := some (.text "") } :=
        { isUnbroken with key := ifGiven_some.2 rfl }
      refine (meets_modify fun before kept => ?_).bind fun _ _ => meets_pure named
      exact { kept with defaultLog := ifGiven_some.2 named }
    split
    · exact (unbroken_lookup (by decide)).bind keeps
    · refine meets_get_bind fun context known => ?_
      exact (unbroken_declare (declaresTidy_defaultAttributes known.settings)
        (by simp)).bind keeps

/-- The log class that a rule asks for, by a value of the policy or by one that was selected
before. -/
theorem unbroken_select {location : String} {directive fallback : Value}
    (isDirective : directive.isUnbroken = true ∨ directive.IsUnbrokenLog)
    (isFallback : fallback.isUnbroken = true ∨ fallback.IsUnbrokenLog) :
    StaysUnbroken (IfGiven LogClass.IsUnbroken)
      (LogClass.select location directive fallback) := by
  unfold LogClass.select
  extract_lets enabled chosen
  have isEnabled (log : LogClass) (unbroken : log.IsUnbroken) :
      IfGiven LogClass.IsUnbroken (enabled log) := by
    unfold enabled
    split
    · exact ifGiven_some.2 unbroken
    · exact ifGiven_none
  have isChosen : chosen.isUnbroken = true ∨ chosen.IsUnbrokenLog := by
    unfold chosen
    split
    · exact isFallback
    · exact isDirective
  have isOpened : chosen.opened.isUnbroken = true ∨ chosen.opened.IsUnbrokenLog := by
    rcases isChosen with unbroken | ⟨log, isUnbroken, same⟩
    · exact Or.inl (Value.isUnbroken_opened unbroken)
    · exact Or.inr ⟨log, isUnbroken, by rw [same]; rfl⟩
  -- What was chosen is null, a log class or its declaration in place, or else the name of one.
  clear_value chosen
  split
  · exact meets_pure (by simp)
  · exact meets_pure (by simp)
  · exact unbroken_default.bind fun log isUnbroken => meets_pure (isEnabled log isUnbroken)
  · next serial origin key attributes isLog =>
      refine meets_pure (isEnabled _ (LogClass.isUnbroken_of_ofValue? isOpened ?_))
      rw [isLog]
      rfl
  · next entries isMap =>
      have isUnbroken : (Value.map entries).isUnbroken = true := by
        rw [isMap] at isOpened
        refine isOpened.resolve_right ?_
        rintro ⟨log, -, same⟩
        cases same
      refine (unbroken_declare (Entry.declaresTidy_map (Entries.IsUnbroken.isTidy
        (Value.isUnbroken_map.1 isUnbroken))) (by simp)).bind fun log isUnbroken =>
          meets_pure (isEnabled log isUnbroken)
  · exact meets_pure (by simp)
  · next notLog _ _ =>
      have isUnbroken : chosen.isUnbroken = true := by
        refine isChosen.resolve_right ?_
        rintro ⟨log, -, same⟩
        exact notLog _ _ _ _ (by rw [same]; rfl)
      exact (unbroken_lookup (Value.isUnbroken_written isUnbroken)).bind fun log isUnbroken =>
        meets_pure (isEnabled log isUnbroken)

end LogClass

end FirewallPolicy
