import FirewallPolicy.Proofs.Rule.Destination
import FirewallPolicy.Proofs.Rule.Limit
import FirewallPolicy.Proofs.Rule.UnbrokenDeclaration

/-!
# Matches and actions on one line

What a tidy rule matches has no line break: interfaces, addresses, address sets and services are
written as they stand in its attributes and in the objects that it names.  Targets are written with
the attributes too, and auxiliary chains are named after actions and log classes.  So attaching
actions to matches without line breaks gives no line break, neither in the rules nor in the names of
the chains that are declared.
-/

namespace FirewallPolicy.Rule

open Fragment Run Stateful

variable {rule : Rule} {location : String} {matched : List Fragment}

/-! ## Zones -/

/-- The zone of a side, if it names one, has no line break. -/
def SideUnbroken (side : Option ZoneSelector) : Prop :=
  IfGiven ZoneSelector.IsUnbroken side

theorem isUnbroken_of_chainOf? {kind : RuleKind} {hook : Hook} {chain : String}
    (isChain : kind.chainOf? hook = some chain) : Text.IsUnbroken chain := by
  have each : ∀ hook ∈ [Hook.input, .output, .forward], ∀ chain ∈ kind.chainOf? hook,
      Text.IsUnbroken chain := by
    cases kind <;> decide
  exact each hook (by cases hook <;> decide) chain isChain

theorem sideUnbroken_of_mem_sides {zones : Option (List ZoneSelector)}
    (unbroken : IfGiven (fun list => ∀ zone ∈ list, zone.IsUnbroken) zones)
    {side : Option ZoneSelector} (member : side ∈ sides zones) : SideUnbroken side := by
  unfold sides at member
  split at member
  · next first rest =>
      obtain ⟨selected, isSelected, rfl⟩ := List.mem_map.1 member
      exact ifGiven_some.2 (unbroken _ rfl selected isSelected)
  · obtain rfl := List.mem_singleton.1 member
    exact ifGiven_none

theorem IsTidy.sidePairs (tidy : rule.IsTidy) :
    ∀ pair ∈ rule.sidePairs, SideUnbroken pair.1 ∧ SideUnbroken pair.2 := by
  intro pair member
  obtain ⟨zoneIn, isIn, inPairs⟩ := List.mem_flatMap.1 member
  obtain ⟨zoneOut, isOut, rfl⟩ := List.mem_map.1 inPairs
  refine ⟨sideUnbroken_of_mem_sides ?_ isIn, sideUnbroken_of_mem_sides ?_ isOut⟩
  · split
    · exact tidy.zonesOut
    · exact tidy.zonesIn
  · split
    · exact tidy.zonesIn
    · exact tidy.zonesOut

theorem sideUnbroken_hooksBetween {zoneIn zoneOut : Option ZoneSelector}
    (isIn : SideUnbroken zoneIn) (isOut : SideUnbroken zoneOut) :
    SideUnbroken (hooksBetween zoneIn zoneOut).2.1 ∧
      SideUnbroken (hooksBetween zoneIn zoneOut).2.2 := by
  have none : SideUnbroken none := ifGiven_none
  unfold hooksBetween
  split
  · exact ⟨none, none⟩
  · split
    · exact ⟨none, isOut⟩
    · split
      · exact ⟨isIn, none⟩
      · exact ⟨isIn, isOut⟩

theorem isUnbroken_visibleIn
    {chain : String} {direction : Direction} {interfaces : List String}
    (unbroken : ∀ name ∈ interfaces, Text.IsUnbroken name) :
    ∀ name ∈ visibleIn chain direction interfaces, Text.IsUnbroken name := by
  unfold visibleIn
  split
  · exact unbroken
  · simp

theorem mem_of_mem_distinctPairs
    {α : Type} {items : List α} {pair : α × α} (member : pair ∈ distinctPairs items) :
    pair.1 ∈ items ∧ pair.2 ∈ items := by
  obtain ⟨first, isFirst, inPairs⟩ := List.mem_flatMap.1 member
  obtain ⟨second, isSecond, taken⟩ := List.mem_filterMap.1 inPairs
  split at taken
  · simp at taken
  · obtain rfl := Option.some.inj taken
    exact ⟨List.fst_mem_of_mem_zipIdx isFirst, List.fst_mem_of_mem_zipIdx isSecond⟩

theorem isUnbroken_of_hairpinZone? {zoneIn zoneOut : Option ZoneSelector} {zone : Zone}
    (isIn : SideUnbroken zoneIn) (isHairpin : hairpinZone? zoneIn zoneOut = some zone) :
    zone.IsUnbroken := by
  unfold hairpinZone? at isHairpin
  split at isHairpin
  · split at isHairpin
    · obtain rfl := Option.some.inj isHairpin
      exact isIn _ rfl
    · simp at isHairpin
  · simp at isHairpin

theorem unbroken_chainFragments {zoneIn zoneOut : Option ZoneSelector} {chain : String}
    (isIn : SideUnbroken zoneIn) (isOut : SideUnbroken zoneOut) (isChain : Text.IsUnbroken chain) :
    StaysUnbroken AreUnbroken (chainFragments zoneIn zoneOut chain) := by
  have placed : AreUnbroken [ofChain chain] :=
    areUnbroken_singleton (isUnbroken_ofChain isChain)
  have sided (direction : Direction) (side : Option ZoneSelector) (isSide : SideUnbroken side) :
      StaysUnbroken (IfGiven AreUnbroken) (sideFragments chain direction side) := by
    unfold sideFragments
    split
    · exact meets_pure ifGiven_none
    · next zone =>
        have isZone : zone.IsUnbroken := isSide _ rfl
        exact (Zone.unbroken_fragmentsOn isZone
          (isUnbroken_visibleIn (Zone.isUnbroken_interfaces isZone))).bind
            fun found areFound => meets_pure (ifGiven_some.2 areFound)
    · exact meets_unusable
  unfold chainFragments
  split
  · next zone isHairpin =>
      have isZone := isUnbroken_of_hairpinZone? isIn isHairpin
      have interface {name : String} (member : name ∈ zone.interfaces) :
          ∀ other ∈ [name], Text.IsUnbroken other :=
        List.forall_mem_singleton.2 (Zone.isUnbroken_interfaces isZone name member)
      refine meets_gather fun pair isPair => ?_
      obtain ⟨isFirst, isSecond⟩ := mem_of_mem_distinctPairs isPair
      exact (Zone.unbroken_fragmentsOn isZone (isUnbroken_visibleIn (interface isFirst))).bind
        fun entering areEntering =>
        (Zone.unbroken_fragmentsOn isZone (isUnbroken_visibleIn (interface isSecond))).bind
        fun leaving areLeaving => meets_pure (areUnbroken_combine (by
          simpa using ⟨areEntering, areLeaving, placed⟩))
  · exact (sided .inward zoneIn isIn).bind fun entering areEntering =>
      (sided .outward zoneOut isOut).bind fun leaving areLeaving =>
        meets_pure (areUnbroken_combine (by simpa using ⟨areEntering, areLeaving, placed⟩))

theorem IsTidy.unbroken_zoneFragments (tidy : rule.IsTidy) :
    StaysUnbroken AreUnbroken rule.zoneFragments := by
  have gathered : StaysUnbroken AreUnbroken
      (Run.gather (fun pair => pairFragments rule.kind pair.1 pair.2) rule.sidePairs) := by
    refine meets_gather fun pair isPair => ?_
    obtain ⟨isIn, isOut⟩ := tidy.sidePairs pair isPair
    obtain ⟨isRemainingIn, isRemainingOut⟩ := sideUnbroken_hooksBetween isIn isOut
    unfold pairFragments
    generalize hooksBetween pair.1 pair.2 = between at isRemainingIn isRemainingOut ⊢
    obtain ⟨hooks, remainingIn, remainingOut⟩ := between
    refine meets_gather fun chain member => ?_
    obtain ⟨hook, -, isChain⟩ := List.mem_filterMap.1 member
    exact unbroken_chainFragments isRemainingIn isRemainingOut (isUnbroken_of_chainOf? isChain)
  exact gathered.bind fun found areFound => meets_pure fun fragment member =>
    areFound fragment (List.mem_eraseDups.1 member)

/-! ## Addresses -/

theorem IsTidy.unbroken_addressFragments (tidy : rule.IsTidy) {name : String}
    (notHolder : name ∉ logHolders) {direction : Direction} :
    StaysUnbroken (IfGiven AreUnbroken) (rule.addressFragments name direction) := by
  unfold addressFragments
  split
  · exact (unbroken_hostFragments (Zone.isUnbroken_addressOption _) fun host =>
      Value.isUnbroken_of_mem_toItems (tidy.attributes.get notHolder)).bind
        fun found areFound => meets_pure (ifGiven_some.2 areFound)
  · exact meets_pure ifGiven_none

theorem IsTidy.unbroken_dnatAddress (tidy : rule.IsTidy) :
    StaysUnbroken Text.IsUnbroken rule.dnatAddress := by
  have dnat := tidy.attributes.get (show "dnat" ∉ logHolders by decide)
  unfold dnatAddress
  extract_lets read
  have reads (entries : Entries) (unbroken : entries.IsUnbroken) :
      StaysUnbroken Text.IsUnbroken (read entries) := by
    unfold read
    split
    · exact meets_unusable
    · next address found =>
        extract_lets host resolve
        have isHost : Text.IsUnbroken host :=
          Value.isUnbroken_written (Entries.isUnbroken_of_get? unbroken found)
        have resolved : ∀ u, StaysUnbroken Text.IsUnbroken (resolve u) := by
          intro u
          refine (unbroken_resolveHost isHost).bind fun addresses areAddresses =>
            meets_recording ?_
          unfold onlyInet
          split
          · exact gives_error
          · next entry only =>
              have isEntry : entry ∈ addresses.filter (·.family == "inet") := by simp [only]
              exact gives_ok (areAddresses entry (List.mem_filter.1 isEntry).1).2
          · exact gives_error
        split
        · exact meets_report_bind
        · exact resolved ()
  split
  · next entries isMap =>
      exact (meets_pure (Value.isUnbroken_of_entries? dnat isMap)).bind reads
  · exact meets_unusable_bind

theorem IsTidy.unbroken_destinationFragments (tidy : rule.IsTidy) :
    StaysUnbroken (IfGiven AreUnbroken) rule.destinationFragments := by
  refine (tidy.unbroken_addressFragments (by decide)).bind fun given areGiven => ?_
  split
  · refine tidy.unbroken_dnatAddress.bind fun address isAddress => ?_
    have declares : (Entry.raw (.map [(.text "addr", .text address)])).DeclaresTidy :=
      Entry.declaresTidy_map (Entries.IsUnbroken.isTidy
        (List.forall_mem_singleton.2 ⟨rfl, Value.isUnbroken_text.2 isAddress⟩))
    have others : AreUnbroken (combine [given, some [ofFamily "inet6"]]) :=
      areUnbroken_restricted areGiven (by decide)
    exact (Zone.unbroken_declare declares).bind fun zone isZone =>
      (Zone.unbroken_fragmentsOn isZone (Zone.isUnbroken_interfaces isZone)).bind
        fun found areFound => meets_pure (ifGiven_some.2 (others.append areFound))
  · exact meets_pure areGiven

/-! ## Address sets -/

theorem gives_setFlags {given : Value} (unbroken : given.isUnbroken = true) :
    Gives Text.IsUnbroken (rule.setFlags given) := by
  have opened := Value.isUnbroken_opened unbroken
  unfold setFlags
  split
  · refine gives_ok ?_
    split <;> decide
  · split
    · next items same =>
        rw [same, Value.isUnbroken_list] at opened
        refine (gives_mapM fun item member => ?_).bind fun flags areFlags =>
          gives_ok (Text.isUnbroken_intercalate (by decide) areFlags)
        have isItem := opened item member
        split
        · exact gives_ok (Value.isUnbroken_text.1 isItem)
        · exact gives_error
    · exact gives_ok (Value.isUnbroken_written unbroken)

theorem IsTidy.gives_setFragments (tidy : rule.IsTidy) :
    Gives (IfGiven AreUnbroken) rule.setFragments := by
  have set := tidy.attributes.get (show "ipset" ∉ logHolders by decide)
  unfold setFragments
  extract_lets given
  split
  · exact gives_ok ifGiven_none
  · split
    · next entries isMap =>
        have unbroken := Value.isUnbroken_of_entries? set isMap
        refine (gives_setFlags (Entries.isUnbroken_get? unbroken _)).bind fun flags areFlags => ?_
        split
        · next name isName =>
            have written := Value.isUnbroken_written (Entries.isUnbroken_of_get? unbroken isName)
            refine gives_ok (ifGiven_some.2 (areUnbroken_singleton (isUnbroken_matching ?_)))
            simpa [written, areFlags] using by decide
        · exact gives_error
    · exact gives_error

/-! ## Services -/

theorem IsTidy.mem_services (tidy : rule.IsTidy) :
    ∀ service ∈ rule.services.getD [], service.IsUnbroken := by
  cases given : rule.services with
  | none => simp
  | some services => exact tidy.services services given

theorem IsTidy.gives_namedServiceFragments (tidy : rule.IsTidy) :
    Gives (IfGiven AreUnbroken) rule.namedServiceFragments := by
  unfold namedServiceFragments
  split
  · exact gives_ok ifGiven_none
  · next selectors given =>
      refine (gives_mapM fun selector member => ?_).bind fun found each =>
        gives_ok (ifGiven_some.2 (areUnbroken_flatten each))
      have unbroken := tidy.services selectors given selector member
      cases selector with
      | service service => exact Service.IsUnbroken.fragments unbroken rule.reverse
      | definition definition => exact ServiceDefinition.IsUnbroken.fragments unbroken rule.reverse
      | other => exact gives_error

theorem IsTidy.gives_dnatField (tidy : rule.IsTidy) {name : String} :
    Gives (fun value => value.isUnbroken = true) (rule.dnatField name) := by
  have dnat := tidy.attributes.get (show "dnat" ∉ logHolders by decide)
  unfold dnatField
  split
  · next entries isMap =>
      exact gives_ok (Entries.isUnbroken_get? (Value.isUnbroken_of_entries? dnat isMap) _)
  · exact gives_error

theorem unbroken_dnatPortFragments
    {port : Value} {protocols : List String} (isPort : port.isUnbroken = true)
    (areProtocols : ∀ protocol ∈ protocols, protocol ∈ translatedProtocols) :
    StaysUnbroken AreUnbroken (rule.dnatPortFragments port protocols) := by
  have translated : ∀ protocol ∈ translatedProtocols, Text.IsUnbroken protocol := by decide
  refine meets_gather fun protocol member => ?_
  have tidy : (Entry.raw (.map [(.text "proto", .text protocol), (.text "port", port)])).IsTidy := by
    have isProtocol := translated protocol (areProtocols protocol member)
    refine Value.isUnbroken_map.2 (List.forall_mem_cons.2 ⟨⟨rfl, ?_⟩, ?_⟩)
    · exact Value.isUnbroken_text.2 isProtocol
    · exact List.forall_mem_singleton.2 ⟨rfl, isPort⟩
  exact (Service.unbroken_declare tidy).bind fun service isService =>
    (meets_recording (isService.fragments rule.reverse)).bind fun found areFound =>
      meets_pure (areFound.combine (by decide))

theorem IsTidy.unbroken_dnatServiceFragments (tidy : rule.IsTidy) :
    StaysUnbroken (IfGiven AreUnbroken) rule.dnatServiceFragments := by
  refine (meets_recording tidy.gives_namedServiceFragments).bind fun given areGiven => ?_
  split
  · exact meets_pure areGiven
  · refine (meets_recording tidy.gives_dnatField).bind fun port isPort => ?_
    split
    · exact meets_pure areGiven
    · have others : AreUnbroken (combine [given, some [ofFamily "inet6"]]) :=
        areUnbroken_restricted areGiven (by decide)
      refine (meets_recording fun protocols read => mem_translatedProtocols read).bind
        fun protocols areProtocols => ?_
      refine (unbroken_dnatPortFragments isPort fun protocol member =>
        areProtocols protocol (List.mem_eraseDups.1 member)).bind fun found areFound =>
          meets_pure (ifGiven_some.2 (others.append areFound))

theorem gives_helperFragments {definitions : List ServiceDefinition}
    (unbroken : ∀ definition ∈ definitions, definition.IsUnbroken) :
    Gives AreUnbroken (helperFragments definitions) := by
  refine Gives.bind (?_ : Gives (fun found : List (Scalar × Fragment) =>
    ∀ entry ∈ found, True ∧ entry.2.IsUnbroken) _) fun found areFound => ?_
  · refine gives_foldlM (by simp) fun definition member found areFound => ?_
    have isDefinition := unbroken definition member
    split
    · exact gives_ok areFound
    · next key isHelper =>
        have written := Value.isUnbroken_written (isDefinition.helper _ isHelper)
        refine gives_ok (Entries.forall_mem_insert (fun _ => True) Fragment.IsUnbroken areFound
          trivial ?_)
        refine (isUnbroken_matching ?_).withFamily isDefinition.family
        simpa [written] using by decide
    · exact gives_error
  · exact gives_ok (List.forall_mem_map.2 fun entry member => (areFound entry member).2)

theorem IsTidy.unbroken_serviceFragments (tidy : rule.IsTidy) :
    StaysUnbroken (IfGiven AreUnbroken) rule.serviceFragments := by
  have definitions : Gives (fun found => ∀ definition ∈ found, definition.IsUnbroken)
      rule.definitions := by
    refine Gives.bind (?_ : Gives (fun found => ∀ definitions ∈ found,
      ∀ definition ∈ definitions, ServiceDefinition.IsUnbroken definition) _) fun found each => ?_
    · refine gives_mapM fun selector member => ?_
      have unbroken := tidy.mem_services selector member
      split
      · exact gives_ok unbroken
      · exact gives_error
    · refine gives_ok fun definition member => ?_
      obtain ⟨list, isList, inList⟩ := List.mem_flatten.1 member
      exact each list isList definition inList
  unfold serviceFragments
  split
  · exact meets_pure ifGiven_none
  · exact meets_recording (definitions.bind fun found areFound =>
      (gives_helperFragments areFound).bind fun matched areMatched =>
        gives_ok (ifGiven_some.2 areMatched))
  · refine tidy.unbroken_dnatServiceFragments.bind fun given areGiven => ?_
    split
    · exact meets_pure (ifGiven_some.2 (areUnbroken_restricted areGiven (by decide)))
    · exact meets_pure areGiven
  all_goals first
    | exact tidy.unbroken_dnatServiceFragments
    | exact meets_recording tidy.gives_namedServiceFragments

/-! ## Targets -/

theorem IsTidy.isUnbroken_written (tidy : rule.IsTidy) {name : String}
    (notHolder : name ∉ logHolders) : Text.IsUnbroken (rule.attributes.get name).written :=
  Value.isUnbroken_written (tidy.attributes.get notHolder)

theorem IsTidy.isUnbroken_action (tidy : rule.IsTidy) : Text.IsUnbroken rule.action :=
  tidy.isUnbroken_written (by decide)

theorem IsTidy.isUnbroken_newAddress? (tidy : rule.IsTidy) :
    IfGiven Text.IsUnbroken rule.newAddress? := by
  have address : Text.IsUnbroken (rule.attributes.get "to-addr").written :=
    tidy.isUnbroken_written (by decide)
  have port : Text.IsUnbroken (rule.attributes.get "to-port").written :=
    tidy.isUnbroken_written (by decide)
  unfold newAddress?
  split
  · dsimp only
    split
    · refine ifGiven_some.2 ?_
      simpa [address, port] using by decide
    · exact ifGiven_some.2 address
  · exact ifGiven_none

/-- The target of a rule, if it has one, has no line break. -/
theorem IsTidy.gives_target (tidy : rule.IsTidy) :
    Gives (IfGiven Text.IsUnbroken) rule.target := by
  have port : Text.IsUnbroken (rule.attributes.get "to-port").written :=
    tidy.isUnbroken_written (by decide)
  have stated {text : String} (unbroken : Text.IsUnbroken text) :
      Gives (IfGiven Text.IsUnbroken) (.ok (some text)) :=
    gives_ok (ifGiven_some.2 unbroken)
  have filter : Gives (IfGiven Text.IsUnbroken) rule.filterTarget := by
    unfold filterTarget
    extract_lets action
    split
    · exact gives_ok (by simp)
    · split
      · exact stated tidy.isUnbroken_action
      · split_ifs
        · exact stated (by decide)
        · exact stated (by decide)
        · exact stated (by decide)
        · exact stated (by decide)
        · exact gives_error
  unfold target
  split
  · exact gives_ok (by simp)
  · exact gives_ok (by simp)
  · exact gives_ok (by simp)
  · exact stated (by decide)
  · exact stated (by decide)
  · exact filter
  · exact filter
  · unfold destinationTarget
    split
    · next address isAddress =>
        refine stated (Text.isUnbroken_append.2 ⟨by decide, ?_⟩)
        exact tidy.isUnbroken_newAddress? address isAddress
    · split
      · exact stated (Text.isUnbroken_append.2 ⟨by decide, port⟩)
      · exact gives_error
  · refine stated ?_
    unfold sourceTarget
    split
    · next address isAddress =>
        refine Text.isUnbroken_append.2 ⟨by decide, ?_⟩
        exact tidy.isUnbroken_newAddress? address isAddress
    · split
      · exact Text.isUnbroken_append.2 ⟨by decide, port⟩
      · decide
  · exact stated (by decide)

/-! ## Auxiliary chains -/

theorem isUnbroken_sharedName {key : String} {name : Scalar} (isKey : Text.IsUnbroken key)
    (isName : name.isUnbroken = true) : Text.IsUnbroken (sharedName key name) := by
  have written := Scalar.isUnbroken_written isName
  unfold sharedName
  split
  · simpa [isKey, written] using by decide
  · exact isKey

theorem areUnbroken_chainBody {jumps actions : List Fragment} (areJumps : AreUnbroken jumps)
    (areActions : AreUnbroken actions) : AreUnbroken (chainBody jumps actions) := by
  unfold chainBody
  extract_lets families
  split
  · exact areActions
  · refine areActions.combine (areUnbroken_map fun family member => isUnbroken_ofFamily ?_)
    obtain ⟨given, isGiven, same⟩ := List.mem_filterMap.1 (Text.mem_sorted.1 member)
    obtain ⟨jump, isJump, stated⟩ := List.mem_map.1 (List.mem_eraseDups.1 isGiven)
    exact (areJumps jump isJump).family family (stated.trans same)

theorem isUnbroken_of_nameIn
    {log : LogClass} (unbroken : log.IsUnbroken) {context : Context} {name : Scalar}
    (isName : log.nameIn context = some name) : name.isUnbroken = true := by
  unfold LogClass.nameIn at isName
  split at isName
  · split at isName
    · exact Option.some.inj isName ▸ rfl
    · exact unbroken.key name isName
  · exact unbroken.key name isName

theorem unbroken_attach
    {actions : List Fragment} {key : String} {log : Option LogClass} {own : Bool}
    (areMatched : AreUnbroken matched) (areActions : AreUnbroken actions)
    (isKey : Text.IsUnbroken key) (isLog : IfGiven LogClass.IsUnbroken log) :
    StaysUnbroken AreUnbroken (rule.attach matched actions key log own) := by
  unfold attach
  split
  · exact meets_pure (areMatched.combine areActions)
  · refine meets_get_bind fun context _ => ?_
    split
    · next name isName =>
        have named : name.isUnbroken = true := by
          split at isName
          · simp at isName
          · obtain ⟨found, given, isName⟩ := Option.bind_eq_some_iff.1 isName
            exact isUnbroken_of_nameIn (isLog found given) isName
        have isChain := isUnbroken_sharedName isKey named
        exact (unbroken_declareChain isChain areActions).bind fun _ _ =>
          meets_pure (areMatched.combine (areUnbroken_singleton (isUnbroken_ofTarget isChain)))
    · refine (unbroken_chainNameOf isKey).bind fun chain isChain => meets_pure ?_
      have jumps : AreUnbroken (matched.map (jumpTo chain)) := by
        refine areUnbroken_map fun fragment member => ?_
        unfold jumpTo
        split
        · exact areMatched fragment member
        · exact (areMatched fragment member).withTarget isChain
      refine jumps.append (areUnbroken_chainBody jumps (areUnbroken_map fun fragment member => ?_))
      unfold placeIn
      split
      · exact areActions fragment member
      · exact (areActions fragment member).withChain isChain

/-! ## Logging -/

theorem IsTidy.isUnbroken_log? (tidy : rule.IsTidy) :
    IfGiven LogClass.IsUnbroken rule.log? :=
  fun _ => LogClass.isUnbroken_of_ofValue? tidy.attributes.log

theorem areUnbroken_actionFragments
    {log : Option LogClass} {target : Option String}
    (isLog : IfGiven LogClass.IsUnbroken log)
    (isTarget : IfGiven Text.IsUnbroken target) :
    AreUnbroken (actionFragments log target) := by
  refine AreUnbroken.append ?_ ?_
  · cases log with
    | none => simp [AreUnbroken]
    | some log => exact (isLog log rfl).fragments
  · cases target with
    | none => simp [AreUnbroken]
    | some text => exact areUnbroken_singleton (isUnbroken_ofTarget (isTarget text rfl))

theorem unbroken_attachLog
    {log : Option LogClass} {action : String} {target : Option String}
    (areMatched : AreUnbroken matched) (isLog : IfGiven LogClass.IsUnbroken log)
    (isAction : Text.IsUnbroken action)
    (isTarget : IfGiven Text.IsUnbroken target) :
    StaysUnbroken AreUnbroken (rule.attachLog matched log action target) := by
  have actions := areUnbroken_actionFragments isLog isTarget
  unfold attachLog
  split
  · exact meets_pure areMatched
  · exact unbroken_attach areMatched actions (Text.isUnbroken_append.2 ⟨by decide, isAction⟩) isLog

theorem IsTidy.unbroken_attachAction (tidy : rule.IsTidy) (areMatched : AreUnbroken matched) :
    StaysUnbroken AreUnbroken (rule.attachAction matched) :=
  (meets_recording tidy.gives_target).bind fun _ isTarget =>
    unbroken_attachLog areMatched tidy.isUnbroken_log? tidy.isUnbroken_action isTarget

/-! ## Limits -/

theorem isUnbroken_limitLog? {mapping : Entries} (tidy : mapping.IsTidy) :
    IfGiven LogClass.IsUnbroken (limitLog? mapping) := by
  intro log isLog
  have logged := tidy.log (.text "log")
  obtain ⟨value, found, isValue⟩ := Option.bind_eq_some_iff.1 isLog
  rw [found] at logged
  exact LogClass.isUnbroken_of_ofValue? logged isValue

section Limits

variable {limit : Limit} {log : Option LogClass} {name : String} {connection : Bool}
  {target : Option String}

/-- Traffic above a limit is dropped. -/
theorem isUnbroken_drop : IfGiven Text.IsUnbroken (some "DROP") :=
  ifGiven_some.2 (by decide)

theorem IsTidy.unbroken_recentChain (tidy : rule.IsTidy) {checks records : List Fragment}
    (areChecks : AreUnbroken checks) (areRecords : AreUnbroken records)
    (isLog : IfGiven LogClass.IsUnbroken log)
    (isTarget : IfGiven Text.IsUnbroken target) :
    StaysUnbroken AreUnbroken (rule.recentChain checks records log connection target) := by
  refine (unbroken_attachLog areChecks isLog (by decide) isUnbroken_drop).bind
    fun dropped areDropped => ?_
  extract_lets logged recorded
  have areLogged : AreUnbroken logged := by
    unfold logged
    split
    · exact areUnbroken_actionFragments tidy.isUnbroken_log? (by simp)
    · simp [AreUnbroken]
  have isRecorded : recorded.IsUnbroken := by
    refine { isUnbroken_empty with target := fun text same => isTarget text ?_ }
    unfold recorded at same
    dsimp only at same
    split at same
    · exact same
    · simp at same
  exact meets_pure ((areDropped.append areLogged).append
    (areRecords.combine (areUnbroken_singleton isRecorded)))

theorem IsTidy.unbroken_passingChain (tidy : rule.IsTidy) (isLimit : limit.IsTidy)
    (isName : Text.IsUnbroken name) (isLog : IfGiven LogClass.IsUnbroken log) :
    StaysUnbroken AreUnbroken (rule.passingChain limit name log) :=
  meets_get_bind fun context _ =>
    (meets_recording (isLimit.hashFragments context.settings.isUnbroken_families isName)).bind
      fun _ areAbove => (unbroken_attachLog areAbove isLog (by decide) isUnbroken_drop).bind
        fun _ areDropped => meets_pure (areDropped.append
          (areUnbroken_actionFragments tidy.isUnbroken_log? (by simp)))

theorem IsTidy.unbroken_countingChain (tidy : rule.IsTidy) (isLimit : limit.IsTidy)
    (isName : Text.IsUnbroken name) (isLog : IfGiven LogClass.IsUnbroken log) :
    StaysUnbroken AreUnbroken (rule.countingChain limit name log connection) := by
  have closes : AreUnbroken (actionFragments log (some "DROP")) :=
    areUnbroken_actionFragments isLog isUnbroken_drop
  refine meets_get_bind fun context _ =>
    (meets_recording (isLimit.hashFragments context.settings.isUnbroken_families isName)).bind
      fun within areWithin => ?_
  dsimp only
  split
  · exact (tidy.unbroken_attachAction areWithin).bind fun passed arePassed =>
      meets_pure (arePassed.append closes)
  · exact (meets_pure (areWithin.combine (by decide))).bind fun passed arePassed =>
      meets_pure (arePassed.append closes)

end Limits

theorem IsTidy.unbroken_attachLimit (tidy : rule.IsTidy) (areMatched : AreUnbroken matched)
    {name : String} (isLimit : name ∈ limitNames) :
    StaysUnbroken AreUnbroken (rule.attachLimit matched name) := by
  intro before after attached kept run
  obtain ⟨chain, mapping, limit, target, body, named, declared, filled, -, names, isMap, declares,
    read, builds, attaches⟩ := attachLimit_eq_ok run
  have isMapping : mapping.IsTidy := tidy.attributes.limit isLimit isMap
  have isLog := isUnbroken_limitLog? isMapping
  have isTarget := tidy.gives_target target read
  obtain ⟨keptNamed, isChain⟩ := unbroken_chainNameOf (by decide) before named chain kept names
  obtain ⟨keptDeclared, isDeclared⟩ := Limit.unbroken_declare
    (Entry.declaresTidy_map isMapping) named declared limit keptNamed declares
  have built : filled.IsUnbroken ∧ AreUnbroken body := by
    cases builds with
    | recent recentRead builds =>
        obtain ⟨areChecks, areRecords⟩ :=
          isDeclared.recentFragments isChain _ recentRead _ rfl
        exact tidy.unbroken_recentChain areChecks areRecords isLog isTarget declared filled body
          keptDeclared builds
    | passing _ _ builds =>
        exact tidy.unbroken_passingChain isDeclared isChain isLog declared filled body
          keptDeclared builds
    | counting _ _ builds =>
        exact tidy.unbroken_countingChain isDeclared isChain isLog declared filled body
          keptDeclared builds
  exact unbroken_attach areMatched built.2 (by decide) (by simp) filled after attached built.1
    attaches

theorem IsTidy.unbroken_attachUpdate (tidy : rule.IsTidy) (areMatched : AreUnbroken matched) :
    StaysUnbroken AreUnbroken (rule.attachUpdate matched) := by
  have name := tidy.attributes.get (show "limit" ∉ logHolders by decide)
  have addr := tidy.attributes.get (show "addr" ∉ logHolders by decide)
  have declares : (Entry.raw (.map [(.text "name", rule.attributes.get "limit"),
      (.text "addr", rule.attributes.get "addr")])).DeclaresTidy :=
    Entry.declaresTidy_map (Entries.IsUnbroken.isTidy
      (List.forall_mem_cons.2 ⟨⟨rfl, name⟩, List.forall_mem_singleton.2 ⟨rfl, addr⟩⟩))
  exact (Limit.unbroken_declare declares).bind fun limit isLimit => meets_get_bind fun context _ =>
    (meets_recording (isLimit.recordFragments context.settings.isUnbroken_families
      (Value.isUnbroken_written name))).bind fun records areRecords =>
        meets_pure (areMatched.combine areRecords)

/-! ## Attaching -/

/-- What a tidy rule does to matches without line breaks adds none. -/
theorem IsTidy.unbroken_finish (tidy : rule.IsTidy) (areMatched : AreUnbroken matched) :
    StaysUnbroken AreUnbroken (rule.finish matched) := by
  have filter : StaysUnbroken AreUnbroken (rule.attachFilter matched) := by
    refine (meets_recording gives_limitName?).bind fun limitName isLimit => ?_
    cases limitName with
    | some name => exact tidy.unbroken_attachLimit areMatched (isLimit name rfl)
    | none => exact tidy.unbroken_attachAction areMatched
  unfold finish
  split
  · exact tidy.unbroken_attachUpdate areMatched
  · exact tidy.unbroken_attachAction areMatched
  · exact filter
  · exact filter
  · refine (meets_recording tidy.gives_target).bind fun target isTarget => ?_
    cases target with
    | none => exact meets_pure areMatched
    | some text => exact meets_pure (areMatched.combine
        (areUnbroken_singleton (isUnbroken_ofTarget (isTarget text rfl))))

end FirewallPolicy.Rule
