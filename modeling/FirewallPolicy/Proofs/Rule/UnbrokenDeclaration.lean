import FirewallPolicy.Model.Limit
import FirewallPolicy.Proofs.Context.Unbroken
import FirewallPolicy.Proofs.Rule.Declaration
import FirewallPolicy.Rule.Declaration

/-!
# Limits and rules on one line

The masks of a limit are read in several forms; whatever is read from a value without line breaks
has none, and the matches of a limit are made of numbers, of the masks and of names.  Where the
context has no line break, tidy attributes make tidy rules: each step of settling a rule keeps its
attributes tidy, and the zones and services that it names are those of the context.
-/

namespace FirewallPolicy

open Fragment Run Stateful

/-! ## Masks -/

/-- The characters of a text without line breaks are texts without line breaks. -/
theorem Text.isUnbroken_of_mem_codes
    {s : String} (unbroken : Text.IsUnbroken s) {code : Nat} (member : code ∈ Text.codes s) :
    Text.IsUnbroken (String.ofList (Text.ofCode code)) := by
  refine Text.isUnbroken_ofList.2 (Text.newline_notMem_ofCode ?_)
  rintro rfl
  exact Text.newline_notMem_codesIn unbroken member

namespace Limit

theorem isUnbroken_of_pairOf?
    {value : Value} (unbroken : value.isUnbroken = true) {pair : Scalar × Value}
    (isPair : pairOf? value = some pair) :
    pair.1.isUnbroken = true ∧ pair.2.isUnbroken = true := by
  have opened := Value.isUnbroken_opened unbroken
  unfold pairOf? at isPair
  split at isPair
  · next key item same =>
      obtain rfl := Option.some.inj isPair
      rw [same, Value.isUnbroken_list] at opened
      exact ⟨opened (.scalar key) (by simp), opened item (by simp)⟩
  · next key item same =>
      obtain rfl := Option.some.inj isPair
      rw [same, Value.isUnbroken_pair] at opened
      exact opened
  · next s same =>
      rw [same, Value.isUnbroken_text] at opened
      have each : ∀ text ∈ (Text.codes s).map fun code => String.ofList (Text.ofCode code),
          Text.IsUnbroken text :=
        List.forall_mem_map.2 fun _ => Text.isUnbroken_of_mem_codes opened
      split at isPair
      · next key item characters =>
          obtain rfl := Option.some.inj isPair
          rw [characters] at each
          exact ⟨Value.isUnbroken_text.2 (each key (by simp)),
            Value.isUnbroken_text.2 (each item (by simp))⟩
      · simp at isPair
  · obtain rfl := Option.some.inj isPair
    exact ⟨rfl, rfl⟩
  · next key first item second same =>
      obtain rfl := Option.some.inj isPair
      rw [same, Value.isUnbroken_map] at opened
      exact ⟨(opened (key, first) (by simp)).1, (opened (item, second) (by simp)).1⟩
  · next key item same =>
      obtain rfl := Option.some.inj isPair
      rw [same, Value.isUnbroken_set] at opened
      exact ⟨opened key (by simp), opened item (by simp)⟩
  · simp at isPair

theorem gives_maskEntries {mask : Value} (unbroken : mask.isUnbroken = true) :
    Gives Entries.IsUnbroken (maskEntries mask) := by
  have opened := Value.isUnbroken_opened unbroken
  unfold maskEntries
  split
  · exact gives_ok (by simp [Entries.IsUnbroken])
  · extract_lets ofPairs
    have pairs (items : List Value) (each : ∀ item ∈ items, item.isUnbroken = true) :
        Gives Entries.IsUnbroken (ofPairs items) := by
      unfold ofPairs
      split
      · next found isFound =>
          refine gives_ok (Entries.IsUnbroken.insertAll (by simp [Entries.IsUnbroken]) ?_)
          intro pair member
          obtain ⟨item, isItem, isPair⟩ := exists_of_mem_mapM? isFound member
          exact isUnbroken_of_pairOf? (each item isItem) isPair
      · exact gives_error
    split
    · next entries same =>
        rw [same, Value.isUnbroken_map] at opened
        exact gives_ok opened
    · next items same =>
        rw [same, Value.isUnbroken_list] at opened
        exact pairs items opened
    · next members same =>
        rw [same, Value.isUnbroken_set] at opened
        exact pairs _ (List.forall_mem_map.2 opened)
    · exact gives_error

theorem gives_settleSelector
    {location family selector : String} {bits : Nat} {mask : Entries}
    (unbroken : mask.IsUnbroken) (isSelector : Text.IsUnbroken selector) :
    Gives Entries.IsUnbroken (settleSelector location family bits mask selector) := by
  unfold settleSelector
  dsimp only
  split
  · exact gives_error
  · split
    · exact gives_ok unbroken
    · next notStated =>
        have absent : Entries.get? mask (.text selector) = none := by simpa using notStated
        refine gives_ok (unbroken.insert (Value.isUnbroken_text.2 isSelector) ?_)
        rw [absent]
        rfl

theorem gives_settleMask
    {location family side : String} {bits : Nat} {given : Entries}
    (unbroken : given.IsUnbroken) (isSide : Text.IsUnbroken side) :
    Gives Entries.IsUnbroken (settleMask location family bits side given) := by
  refine (gives_maskEntries (Entries.isUnbroken_get? unbroken _)).bind fun mask isMask => ?_
  have stated : Entries.IsUnbroken (if mask.isEmpty then [(.text side, .int bits)] else mask) := by
    split
    · exact List.forall_mem_singleton.2 ⟨Value.isUnbroken_text.2 isSide, rfl⟩
    · exact isMask
  exact (gives_settleSelector stated (by decide)).bind fun settled isSettled =>
    gives_settleSelector isSettled (by decide)

theorem gives_givenMasks {location : String} {mask : Value} (unbroken : mask.isUnbroken = true) :
    Gives Entries.IsUnbroken (givenMasks location mask) := by
  unfold givenMasks
  split
  · exact gives_ok (by simp [Entries.IsUnbroken])
  · split
    · next entries isMap => exact gives_ok (Value.isUnbroken_of_entries? unbroken isMap)
    · exact gives_error

/-! ## Declaration -/

theorem gives_settle {location : String} {attributes : Record} (tidy : attributes.IsTidy) :
    Gives Limit.IsTidy (Limit.settle location attributes) := by
  unfold Limit.settle
  extract_lets counted timed sided updated
  have updatedTidy : updated.IsTidy :=
    (((tidy.setDefault rfl).setDefault rfl).setDefault rfl).setDefault rfl
  clear_value updated
  refine gives_bind fun count => gives_bind fun interval => ?_
  dsimp only
  split
  · exact gives_throw_bind
  · split
    · exact gives_throw_bind
    · have side : Text.IsUnbroken (updated.get "addr").written :=
        Value.isUnbroken_written (updatedTidy.get (by decide))
      refine (gives_givenMasks (updatedTidy.get (by decide))).bind fun given isGiven =>
        (gives_settleMask isGiven side).bind fun inet isInet =>
        (gives_settleMask isGiven side).bind fun inet6 isInet6 => gives_ok ?_
      refine ⟨updatedTidy.set (Or.inl (Value.isUnbroken_map.2 ?_)), isInet, isInet6⟩
      exact List.forall_mem_cons.2 ⟨⟨rfl, Value.isUnbroken_map.2 isInet⟩,
        List.forall_mem_singleton.2 ⟨rfl, Value.isUnbroken_map.2 isInet6⟩⟩

theorem unbroken_declare
    {kind : ObjectKind} {location : String} {source : Entry} (tidy : source.DeclaresTidy) :
    StaysUnbroken Limit.IsTidy (Limit.declare kind location source) :=
  (unbroken_attributesOf tidy).bind fun _ attributes =>
    meets_recording (gives_settle attributes.1)

end Limit

theorem Settings.isUnbroken_families (settings : Settings) :
    ∀ family ∈ settings.families, Text.IsUnbroken family := by
  have each : ∀ ipv4 ipv6 : Bool, ∀ family ∈
      (if ipv4 then ["inet"] else []) ++ (if ipv6 then ["inet6"] else []),
      Text.IsUnbroken family := by decide
  exact each settings.ipv4 settings.ipv6

namespace Limit

/-! ## Counting filters -/

variable {limit : Limit}

theorem IsTidy.maskOf (tidy : limit.IsTidy) {family : String} :
    Gives Entries.IsUnbroken (limit.maskOf family) := by
  unfold Limit.maskOf
  split
  · exact gives_ok tidy.maskInet
  · exact gives_ok tidy.maskInet6
  · exact gives_error

theorem isUnbroken_groupingTokens {mask : Entries} (unbroken : mask.IsUnbroken) :
    ∀ token ∈ groupingTokens mask, Text.IsUnbroken token := by
  have selectors : ∀ selector ∈ hashSelectors,
      Text.IsUnbroken selector.2.1 ∧ Text.IsUnbroken selector.2.2 := by decide
  unfold groupingTokens
  extract_lets lengthOf active
  have actives : ∀ selector ∈ active, selector ∈ hashSelectors :=
    fun _ member => (List.mem_filter.1 member).1
  split
  · simp
  · refine List.forall_mem_cons.2 ⟨?_, List.forall_mem_map.2 fun selector member => ?_⟩
    · have modes : Text.IsUnbroken (",".intercalate (active.map (·.2.1))) :=
        Text.isUnbroken_intercalate (by decide)
          (List.forall_mem_map.2 fun selector member => (selectors _ (actives _ member)).1)
      simpa [modes] using by decide
    · have written : Text.IsUnbroken (lengthOf selector.1).written :=
        Value.isUnbroken_written (Entries.isUnbroken_get? unbroken _)
      simpa [written, (selectors _ (actives _ member)).2] using by decide

theorem gives_hashRate : Gives Text.IsUnbroken limit.hashRate := by
  refine gives_bind fun rate => ?_
  have units : ∀ unit ∈ rateUnits, Text.IsUnbroken unit.1 := by decide
  have named : Text.IsUnbroken ("/" ++ (rateIn rate).2) := by
    refine Text.isUnbroken_append.2 ⟨by decide, ?_⟩
    unfold rateIn
    split
    · next name seconds found => exact units _ (List.mem_of_find?_eq_some found)
    · exact (by decide : Text.IsUnbroken "day")
  generalize rateIn rate = chosen at named ⊢
  obtain ⟨events, unit⟩ := chosen
  refine gives_bind fun _ => gives_ok ?_
  rw [String.append_assoc, Text.isUnbroken_append]
  exact ⟨isUnbroken_wholeText events, named⟩

theorem IsTidy.hashFragments
    (tidy : limit.IsTidy) {families : List String} {name : String} {above : Bool}
    (areFamilies : ∀ family ∈ families, Text.IsUnbroken family) (isName : Text.IsUnbroken name) :
    Gives AreUnbroken (limit.hashFragments families name above) := by
  refine gives_mapM fun family isFamily => gives_hashRate.bind fun rate isRate =>
    gives_bind fun _ => tidy.maskOf.bind fun mask isMask => gives_ok ?_
  refine (isUnbroken_matching ?_).withFamily (ifGiven_some.2 (areFamilies family isFamily))
  have side : Text.IsUnbroken (if above then "above" else "upto") := by cases above <;> decide
  have burst : Text.IsUnbroken limit.count.text := Value.isUnbroken_amountText (by cases limit.count <;> rfl)
  simp only [List.forall_mem_append]
  refine ⟨⟨?_, isUnbroken_groupingTokens isMask⟩, ?_⟩
  · simpa [side, isRate, burst] using by decide
  · simpa [isName] using by decide

/-! ## Lists of recent events -/

theorem isUnbroken_recentName {fallback : String} (tidy : limit.IsTidy)
    (isFallback : Text.IsUnbroken fallback) : Text.IsUnbroken (limit.recentName fallback) := by
  have written := Value.isUnbroken_written (tidy.attributes.get (show "name" ∉ logHolders by decide))
  unfold recentName
  split
  · simpa [written] using by decide
  · exact isFallback

theorem gives_recentFragment
    {family name : String} (isFamily : Text.IsUnbroken family) (isName : Text.IsUnbroken name) :
    Gives (IfGiven Fragment.IsUnbroken)
      (limit.recentFragment family name) := by
  refine gives_bind fun mask => ?_
  split
  · exact gives_ok (by simp)
  · next side length _ =>
      split
      · next option length isSide _ =>
          refine gives_ok (ifGiven_some.2 ?_)
          have isOption : Text.IsUnbroken option := by
            unfold recentSide? at isSide
            split at isSide <;> first | exact Option.some.inj isSide ▸ by decide | cases isSide
          refine (isUnbroken_matching ?_).withFamily (ifGiven_some.2 isFamily)
          simpa [isName, isOption, Mask.isUnbroken_ofFamily] using by decide
      · exact gives_error

theorem areUnbroken_checkFragment {recent : Fragment} {count interval : Amount}
    (unbroken : recent.IsUnbroken) : AreUnbroken (limit.checkFragment recent count interval) := by
  refine (areUnbroken_singleton unbroken).combine (areUnbroken_singleton (isUnbroken_matching ?_))
  have check : Text.IsUnbroken (if limit.updates then "--update" else "--rcheck") := by
    split <;> decide
  simpa [check, Amount.isUnbroken_written] using by decide

theorem areUnbroken_recordFragment {recent : Fragment} (unbroken : recent.IsUnbroken) :
    AreUnbroken (recordFragment recent) :=
  (areUnbroken_singleton unbroken).combine (by decide)

theorem gives_recentPairs
    {name : String} {count interval : Amount} {families : List String}
    (areFamilies : ∀ family ∈ families, Text.IsUnbroken family) (isName : Text.IsUnbroken name) :
    Gives (IfGiven fun pair => AreUnbroken pair.1 ∧ AreUnbroken pair.2)
      (limit.recentPairs name count interval families) := by
  induction families with
  | nil => exact gives_ok (ifGiven_some.2 (by decide))
  | cons family rest inductionHypothesis =>
      obtain ⟨isFamily, areRest⟩ := List.forall_mem_cons.1 areFamilies
      unfold recentPairs
      refine (gives_recentFragment isFamily isName).bind fun found isFound => ?_
      cases found with
      | none => exact gives_ok (by simp)
      | some recent =>
          have isRecent := isFound recent rfl
          refine gives_bind fun _ => gives_bind fun _ =>
            (inductionHypothesis areRest).bind fun others areOthers => ?_
          cases others with
          | none => exact gives_ok (by simp)
          | some others =>
              obtain ⟨checks, records⟩ := others
              obtain ⟨areChecks, areRecords⟩ := areOthers _ rfl
              refine gives_ok (ifGiven_some.2 ⟨?_, ?_⟩)
              · exact (areUnbroken_checkFragment isRecent).append areChecks
              · refine AreUnbroken.append ?_ areRecords
                split
                · exact areUnbroken_recordFragment isRecent
                · exact areUnbroken_singleton (isUnbroken_ofFamily isFamily)

theorem IsTidy.recentFragments
    (tidy : limit.IsTidy) {settings : Settings} {name : String} (isName : Text.IsUnbroken name) :
    Gives (IfGiven fun pair => AreUnbroken pair.1 ∧ AreUnbroken pair.2)
      (limit.recentFragments settings name) := by
  unfold Limit.recentFragments
  split
  · exact gives_error
  · refine gives_bind fun amounts => ?_
    split
    · exact gives_ok (by simp)
    · exact gives_recentPairs settings.isUnbroken_families (isUnbroken_recentName tidy isName)

theorem IsTidy.recordFragments
    (tidy : limit.IsTidy) {name : String} {families : List String}
    (areFamilies : ∀ family ∈ families, Text.IsUnbroken family) (isName : Text.IsUnbroken name) :
    Gives AreUnbroken (limit.recordFragments name families) := by
  induction families with
  | nil => exact gives_ok (by simp [AreUnbroken])
  | cons family rest inductionHypothesis =>
      obtain ⟨isFamily, areRest⟩ := List.forall_mem_cons.1 areFamilies
      unfold Limit.recordFragments
      refine (gives_recentFragment isFamily (isUnbroken_recentName tidy isName)).bind
        fun found isFound => ?_
      cases found with
      | none => exact gives_error
      | some recent =>
          exact (inductionHypothesis areRest).bind fun others areOthers =>
            gives_ok ((areUnbroken_recordFragment (isFound recent rfl)).append areOthers)

end Limit

/-! ## Attributes -/

namespace Record.IsTidy

variable {record : Record} {name : String}

theorem setText (tidy : record.IsTidy) {text : String} (isText : Text.IsUnbroken text) :
    (record.set name (.text text)).IsTidy :=
  tidy.set (Or.inl (Value.isUnbroken_text.2 isText))

/-- A single text in an attribute may be replaced by a mapping that holds it. -/
theorem setMapping (tidy : record.IsTidy) {field text : String} (notHolder : name ∉ logHolders)
    (isField : Text.IsUnbroken field) (isText : record.get name = .text text) :
    (record.set name (.map [(.text field, .text text)])).IsTidy := by
  have unbroken := tidy.get notHolder
  rw [isText] at unbroken
  exact tidy.set (Or.inl (Value.isUnbroken_map.2
    (List.forall_mem_singleton.2 ⟨Value.isUnbroken_text.2 isField, unbroken⟩)))

theorem setLog (tidy : record.IsTidy) {log : Option LogClass}
    (unbroken : IfGiven LogClass.IsUnbroken log) :
    (record.set "log" (LogClass.optionValue log)).IsTidy :=
  tidy.set ((LogClass.tidy_optionValue unbroken).imp_right Record.HoldsLog.log)

/-- The mapping of a limit is tidy, also where a single value stands for its count. -/
theorem limitMapping (tidy : record.IsTidy) (isLimit : name ∈ limitNames) :
    (Rule.limitMapping (record.get name)).IsTidy := by
  unfold Rule.limitMapping
  cases isMap : (record.get name).entries? with
  | some entries => exact tidy.limit isLimit isMap
  | none =>
      have unbroken : (record.get name).isUnbroken = true := by
        refine (tidy.cases name).resolve_right fun holds => ?_
        generalize record.get name = value at holds isMap
        cases holds with
        | log _ => exact absurd isLimit (by decide)
        | limit _ _ => cases isMap
      exact Entries.IsUnbroken.isTidy (List.forall_mem_singleton.2 ⟨rfl, unbroken⟩)

end Record.IsTidy

namespace Rule

variable {kind : RuleKind} {location : String} {attributes : Record} {rule : Rule}

/-! ## Zones and services -/

theorem gives_findEntry {section_ : SectionEntries} {name : Value} (tidy : section_.IsTidy) :
    Gives (IfGiven Entry.IsTidy) (findEntry section_ name) := by
  unfold findEntry
  split
  · exact gives_error
  · split
    · exact gives_ok (by simp)
    · exact gives_error
  · next entries =>
      split
      · next key =>
          refine gives_ok fun entry found => ?_
          obtain ⟨stored, isStored, rfl⟩ := Entries.mem_of_get? found
          exact tidy.2 stored.2 (List.mem_map_of_mem isStored)
      · split
        · exact gives_ok (by simp)
        · exact gives_error

theorem gives_selectZones {zones : SectionEntries} {names : Value} (tidy : zones.IsTidy) :
    Gives (IfGiven fun zones => ∀ zone ∈ zones, zone.IsUnbroken)
      (selectZones location zones names) := by
  have each (name : Value) : Gives ZoneSelector.IsUnbroken (selectZone location zones name) := by
    unfold selectZone
    split
    · exact gives_ok trivial
    · refine (gives_findEntry tidy).bind fun found isFound => ?_
      split
      · exact gives_error
      · exact gives_error
      · refine gives_ok ?_
        split <;> exact trivial
      · next zone =>
          split
          · exact gives_ok (isFound (.object (.zone zone)) rfl)
          · exact gives_ok trivial
      · exact gives_ok trivial
  unfold selectZones
  split
  · exact gives_ok (by simp)
  · exact (gives_mapM fun name _ => each name).bind fun selected areSelected =>
      gives_ok (ifGiven_some.2 areSelected)

theorem unbroken_selectServices {items : Value} (unbroken : items.isUnbroken = true) :
    StaysUnbroken (IfGiven fun services => ∀ service ∈ services, service.IsUnbroken)
      (selectServices location items) := by
  have single (item : Value) (isItem : item.isUnbroken = true) :
      StaysUnbroken ServiceSelector.IsUnbroken (selectService location item) := by
    unfold selectService
    split
    · refine meets_get_bind fun context known =>
        (meets_lift (gives_findEntry (known.entriesOf "service"))).bind fun found isFound => ?_
      split
      · exact meets_report
      · exact meets_report
      · next entry _ =>
          have tidy := isFound entry rfl
          refine meets_pure ?_
          unfold serviceSelector
          split
          · exact tidy
          · exact tidy
          · exact trivial
    · have stated : (Entry.raw item).IsTidy := isItem
      exact (Service.unbroken_declare stated).bind fun service isService => meets_pure isService
  have each (items : List Value) (areItems : ∀ item ∈ items, item.isUnbroken = true) :
      StaysUnbroken (fun services => ∀ service ∈ services, service.IsUnbroken)
        (selectEach location items) := by
    induction items with
    | nil => exact meets_pure (by simp)
    | cons item rest inductionHypothesis =>
        obtain ⟨isFirst, areRest⟩ := List.forall_mem_cons.1 areItems
        exact (single item isFirst).bind fun first isUnbroken =>
          (inductionHypothesis areRest).bind fun others areOthers =>
            meets_pure (List.forall_mem_cons.2 ⟨isUnbroken, areOthers⟩)
  unfold selectServices
  split
  · exact meets_pure (by simp)
  · exact (each _ fun item => Value.isUnbroken_of_mem_toItems unbroken).bind
      fun services areServices => meets_pure (ifGiven_some.2 areServices)

/-! ## Steps of settling -/

theorem unbroken_settleAction (tidy : attributes.IsTidy) :
    StaysUnbroken Record.IsTidy (settleAction kind location attributes) := by
  have replacements : ∀ replaced ∈ replacedActions, Text.IsUnbroken replaced.2 := by decide
  have replaces : StaysUnbroken Record.IsTidy (replaceAction location attributes) := by
    unfold replaceAction
    extract_lets action replace
    clear_value action
    have replaced : ∀ u, StaysUnbroken Record.IsTidy (replace u) := by
      intro u
      unfold replace
      split
      · split
        · next replacement found =>
            exact unbroken_warn.bind fun _ _ =>
              meets_pure (tidy.setText (replacements _ (Named.mem_of_get? found)))
        · exact meets_pure tidy
      · exact meets_pure tidy
    split
    · exact meets_unusable_bind
    · exact replaced ()
  unfold settleAction
  split
  · exact replaces
  · exact meets_pure tidy

theorem gives_settleCollection (tidy : attributes.IsTidy) {field key : String} {missing : Failure}
    (notHolder : field ∉ logHolders) (isKey : Text.IsUnbroken key) :
    Gives Record.IsTidy (settleCollection field key missing attributes) := by
  unfold settleCollection
  split
  · exact gives_ok tidy
  · next name isText => exact gives_ok (tidy.setMapping notHolder isKey isText)
  · refine gives_bind fun holds => ?_
    split
    · exact gives_ok tidy
    · exact gives_error

theorem gives_settleSet (tidy : attributes.IsTidy) :
    Gives Record.IsTidy (settleSet location attributes) := by
  rw [settleSet_eq]
  exact gives_settleCollection tidy (by decide) (by decide)

theorem unbroken_settleDestination (tidy : attributes.IsTidy) :
    StaysUnbroken Record.IsTidy (settleDestination kind location attributes) := by
  unfold settleDestination
  split
  · refine meets_recording ?_
    rw [settleDnat_eq]
    exact gives_settleCollection tidy (by decide) (by decide)
  · exact meets_pure tidy

theorem unbroken_settleLogging (tidy : attributes.IsTidy) :
    StaysUnbroken Record.IsTidy (settleLogging kind location attributes) := by
  have logs : StaysUnbroken Record.IsTidy (settleLog kind location attributes) := by
    unfold settleLog
    extract_lets withAction action settled custom directive check
    have settledTidy : settled.IsTidy := by
      have acted : withAction.IsTidy := tidy.setDefault rfl
      exact acted.setText (Value.isUnbroken_written (acted.get (by decide)))
    have checked (logged : Record) (isLogged : logged.IsTidy) :
        StaysUnbroken Record.IsTidy (check logged) := by
      unfold check
      extract_lets done
      split
      · exact meets_report_bind
      · exact meets_pure isLogged
    clear_value settled
    split
    · exact (meets_pure settledTidy).bind checked
    · exact (LogClass.unbroken_select settledTidy.log (Or.inl rfl)).bind fun log isLog =>
        (meets_pure (settledTidy.setLog isLog)).bind checked
  unfold settleLogging
  split
  · exact logs
  · exact meets_pure tidy

theorem unbroken_settleMeasure (tidy : attributes.IsTidy) :
    StaysUnbroken Record.IsTidy (settleMeasure kind location attributes) := by
  have settles : Gives Record.IsTidy (settleUpdate location attributes) := by
    unfold settleUpdate
    dsimp only
    split
    · exact gives_throw_bind
    · split
      · exact gives_throw_bind
      · exact gives_ok ((tidy.setDefault rfl).setDefault rfl)
  unfold settleMeasure
  split
  · exact meets_recording settles
  · exact meets_pure tidy

theorem gives_limitName? :
    Gives (fun found => ∀ name, found = some name → name ∈ limitNames) rule.limitName? := by
  rintro found read name rfl
  exact (mem_limitNames_of_limitName? read).1

theorem unbroken_settleFilter (tidy : rule.IsTidy) :
    StaysUnbroken Rule.IsTidy (settleFilter rule) := by
  have limits : StaysUnbroken Rule.IsTidy (settleLimit rule) := by
    refine (meets_recording gives_limitName?).bind fun limitName isLimit => ?_
    cases limitName with
    | none => exact meets_pure tidy
    | some name =>
        have mapping := tidy.attributes.limitMapping (isLimit name rfl)
        have logged : StaysUnbroken Rule.IsTidy (do
            let log ← LogClass.select rule.location
              (limitDirective rule.attributes name) (.bool true)
            return withLimitLog rule name log) :=
          (LogClass.unbroken_select (mapping.log _) (Or.inl rfl)).bind fun log isLog =>
            meets_pure { tidy with
              attributes := tidy.attributes.set (Or.inr (Record.HoldsLog.limit (isLimit name rfl)
                (mapping.insert (LogClass.tidy_optionValue isLog)))) }
        dsimp only
        split
        · exact meets_report_bind
        · exact logged
  unfold settleFilter
  split
  · exact limits.bind fun settled isTidy =>
      (meets_recording fun _ _ => trivial).bind fun _ _ => meets_pure isTidy
  · exact meets_pure tidy

/-! ## Declaration -/

theorem unbroken_declare {source : Entry} (tidy : source.DeclaresTidy) :
    StaysUnbroken Rule.IsTidy (Rule.declare kind location source) := by
  refine (unbroken_attributesOf tidy).bind fun attributes declared =>
    (unbroken_settleAction declared.1).bind fun acted isActed => meets_get_bind fun context known =>
    (meets_recording (gives_selectZones (known.entriesOf "zone"))).bind fun zonesIn areIn =>
    (meets_recording (gives_selectZones (known.entriesOf "zone"))).bind fun zonesOut areOut => ?_
  refine (unbroken_selectServices (isActed.get (by decide))).bind fun services areServices =>
    (meets_recording (gives_settleSet isActed)).bind fun withSet isSet =>
    (unbroken_settleDestination isSet).bind fun directed isDirected =>
    (unbroken_settleLogging isDirected).bind fun logged isLogged =>
    (unbroken_settleMeasure isLogged).bind fun measured isMeasured =>
    unbroken_freshSerial.bind fun serial _ => unbroken_settleFilter ?_
  exact ⟨isMeasured, areIn, areOut, areServices⟩

end Rule

/-- Objects of every kind are tidy when they are declared by an entry that is. -/
theorem PolicyObject.unbroken_declare
    {kind : ObjectKind} {location : String} {key : Option Scalar} {source : Entry}
    (isKey : IfGiven (fun name => name.isUnbroken = true) key) (tidy : source.IsTidy) :
    StaysUnbroken PolicyObject.IsTidy (PolicyObject.declare kind location key source) := by
  have declares := tidy.declaresTidy
  cases kind with
  | zone => exact (Zone.unbroken_declare declares).bind fun zone isZone => meets_pure isZone
  | service => exact (Service.unbroken_declare tidy).bind fun service isService => meets_pure isService
  | definition =>
      exact (ServiceDefinition.unbroken_declare declares).bind fun definition isDefinition =>
        meets_pure isDefinition
  | log => exact (LogClass.unbroken_declare declares isKey).bind fun log isLog => meets_pure isLog
  | limit => exact (Limit.unbroken_declare declares).bind fun limit isLimit => meets_pure isLimit
  | filterLimit =>
      exact (Limit.unbroken_declare declares).bind fun limit isLimit => meets_pure isLimit
  | rule kind => exact (Rule.unbroken_declare declares).bind fun rule isRule => meets_pure isRule

end FirewallPolicy
