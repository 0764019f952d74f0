import FirewallPolicy.Proofs.Rule.Narrowing
import FirewallPolicy.Proofs.Rule.TwinDeclaration

/-!
# Matches and actions in twin contexts

What a rule matches is the same in twin contexts: serial numbers do not show in matches, and hosts
are looked up in the same order.

In twin contexts the actions and limits of a rule are attached to its matches in the same way: the
same chains are named and declared, and of the fragments the same are left for the kept families.  A
limit that could be kept in lists of recent events for some families and not for others is left
aside: the limits of filter rules have to track one address in each family, unless all families are
kept.
-/

namespace FirewallPolicy.Rule

open Stateful Run Context Fragment

variable {rename : Nat → Nat} {keep : String → Bool} (rule : Rule)

/-! ## Zones and addresses -/

theorem lockstep_chainFragments (zoneIn zoneOut : Option ZoneSelector) (chain : String) :
    Lockstep (Twin rename keep) Eq (chainFragments zoneIn zoneOut chain)
      (chainFragments zoneIn zoneOut chain) := by
  have side (direction : Direction) (selector : Option ZoneSelector) :
      Lockstep (Twin rename keep) Eq (sideFragments chain direction selector)
        (sideFragments chain direction selector) := by
    unfold sideFragments
    split
    · exact lockstep_pure rfl
    · exact (Zone.lockstep_fragmentsOn _ _ _).bind_same fun _ => lockstep_pure rfl
    · exact lockstep_unusable
  unfold chainFragments
  split
  · refine lockstep_gather (List.forall₂_same.2 fun _ _ => ?_)
    exact (Zone.lockstep_fragmentsOn _ _ _).bind_same fun _ =>
      (Zone.lockstep_fragmentsOn _ _ _).bind_same fun _ => lockstep_pure rfl
  · exact (side .inward _).bind_same fun _ => (side .outward _).bind_same fun _ => lockstep_pure rfl

theorem lockstep_zoneFragments :
    Lockstep (Twin rename keep) Eq rule.zoneFragments (rule.renamed rename).zoneFragments := by
  unfold zoneFragments
  rw [sidePairs_renamed, kind_renamed]
  refine Lockstep.bind_same (lockstep_gather (List.forall₂_same.2 fun _ _ => ?_)) fun _ =>
    lockstep_pure rfl
  exact lockstep_gather (List.forall₂_same.2 fun _ _ => lockstep_chainFragments _ _ _)

theorem lockstep_addressFragments (name : String) (direction : Direction) :
    Lockstep (Twin rename keep) Eq (rule.addressFragments name direction)
      ((rule.renamed rename).addressFragments name direction) := by
  unfold addressFragments
  rw [attributes_renamed, Record.has_renamed, Record.get_renamed, Value.toItems_renamed,
    location_renamed, side_renamed]
  split
  · exact (lockstep_hostFragments _ _ _).bind_same fun _ => lockstep_pure rfl
  · exact lockstep_pure rfl

theorem lockstep_dnatAddress :
    Lockstep (Twin rename keep) Eq rule.dnatAddress (rule.renamed rename).dnatAddress := by
  unfold dnatAddress
  rw [attributes_renamed, Record.get_renamed, Value.entries?_renamed, location_renamed]
  cases (rule.attributes.get "dnat").entries? with
  | none => exact lockstep_unusable_bind
  | some entries =>
      have read : Lockstep (Twin rename keep) (Becomes (Entries.mapped (Value.renamed rename)))
          (pure entries : Run Entries) (pure (Entries.mapped (Value.renamed rename) entries)) :=
        lockstep_pure rfl
      refine read.bind ?_
      rintro entries _ rfl
      dsimp only
      rw [Entries.get?_mapped]
      cases Entries.get? entries (.text "addr") with
      | none => exact lockstep_unusable
      | some address =>
          simp only [Option.map_some, Value.written_renamed]
          split
          · exact lockstep_report_bind
          · exact (lockstep_resolveHost _ _).bind_same fun _ => lockstep_recording_same rfl

theorem lockstep_destinationFragments :
    Lockstep (Twin rename keep) Eq rule.destinationFragments
      (rule.renamed rename).destinationFragments := by
  unfold destinationFragments
  rw [kind_renamed, attributes_renamed, Record.flag_renamed, location_renamed, side_renamed]
  refine (lockstep_addressFragments rule _ _).bind_same fun given => ?_
  split
  · exact (lockstep_dnatAddress rule).bind_same fun _ => (Zone.lockstep_declare _ _).bind_same
      fun _ => (Zone.lockstep_fragmentsOn _ _ _).bind_same fun _ => lockstep_pure rfl
  · exact lockstep_pure rfl

/-! ## Services -/

theorem lockstep_dnatServiceFragments :
    Lockstep (Twin rename keep) Eq rule.dnatServiceFragments
      (rule.renamed rename).dnatServiceFragments := by
  have selected : (rule.renamed rename).services.getD [] =
      (rule.services.getD []).map (ServiceSelector.renamed rename) := by
    rw [services_renamed]
    cases rule.services <;> rfl
  have ported (port : Value) (protocols : List String) : Lockstep (Twin rename keep) Eq
      (rule.dnatPortFragments port protocols)
      ((rule.renamed rename).dnatPortFragments (port.renamed rename) protocols) := by
    refine lockstep_gather (List.forall₂_same.2 fun protocol _ => ?_)
    refine (Service.lockstep_declare declaresAlike_twin _ (.raw (.map [(.text "proto", .text protocol),
      (.text "port", port)]))).bind ?_
    rintro service _ rfl
    rw [Service.fragments_renamed, reverse_renamed]
    exact (lockstep_recording_same rfl).bind_same fun _ => lockstep_pure rfl
  unfold dnatServiceFragments
  rw [namedServiceFragments_renamed, attributes_renamed, Record.flag_renamed, dnatField_renamed,
    location_renamed, selected, dnatProtocols_renamed]
  refine (lockstep_recording_same rfl).bind_same fun given => ?_
  split
  · exact lockstep_pure rfl
  · refine (lockstep_recording (follows_map _)).bind ?_
    rintro port _ rfl
    rw [Value.isNull_renamed]
    split
    · exact lockstep_pure rfl
    · exact (lockstep_recording_same rfl).bind_same fun _ =>
        (ported port _).bind_same fun _ => lockstep_pure rfl

theorem lockstep_serviceFragments :
    Lockstep (Twin rename keep) Eq rule.serviceFragments
      (rule.renamed rename).serviceFragments := by
  have redirected := @lockstep_dnatServiceFragments rename keep rule
  have named : Lockstep (Twin rename keep) Eq (recording rule.namedServiceFragments)
      (recording (rule.renamed rename).namedServiceFragments) :=
    lockstep_recording_same (namedServiceFragments_renamed rule)
  unfold serviceFragments
  rw [kind_renamed, attributes_renamed, Record.get_renamed, Value.isText_renamed]
  cases rule.kind with
  | policy => exact lockstep_pure rfl
  | related =>
      refine lockstep_recording ((follows_definitions rule).bind ?_)
      rintro definitions _ rfl
      rw [helperFragments_renamed]
      exact Follows.of_self fun _ _ => rfl
  | limitUpdate =>
      refine redirected.bind_same fun given => ?_
      split <;> exact lockstep_pure rfl
  | redirecting => exact redirected
  | logging => exact redirected
  | filter => exact redirected
  | _ => exact named

variable {rule}

/-- Either all families are kept, or any limit of the rule, if it can have some, tracks exactly one
address in each family. -/
def IsSteady (keep : String → Bool) (rule : Rule) : Prop :=
  (∀ family, keep family = true) ∨ (rule.kind.isFilter = true → rule.attributes.LimitsSingly)

/-! ## Attaching actions -/

theorem lockstep_attach
    (selection : IsSelection keep) {matched otherMatched : List Fragment}
    (alike : Alike keep matched otherMatched) (actions : List Fragment) (key : String)
    (log : Option LogClass) :
    Lockstep (Twin rename keep) (SameKept keep) (rule.attach matched actions key log false)
      ((rule.renamed rename).attach otherMatched actions key (log.map (LogClass.renamed rename))
        false) := by
  unfold attach
  rw [serial_renamed]
  split
  · exact lockstep_pure (alike.kept.combine_left _)
  · refine lockstep_get_bind fun first second twin => ?_
    have sameName : (if false = true then none else
        (log.map (LogClass.renamed rename)).bind (LogClass.nameIn second)) =
        if false = true then none else log.bind (LogClass.nameIn first) := by
      cases log with
      | none => rfl
      | some log => exact LogClass.nameIn_renamed twin log
    rw [sameName]
    split
    · exact (lockstep_declareChain _ _).bind_same fun _ =>
        lockstep_pure (alike.kept.combine_left _)
    · refine (lockstep_chainNameOf _ _).bind_same fun chain => lockstep_pure ?_
      have jumps : Alike keep (matched.map (jumpTo chain)) (otherMatched.map (jumpTo chain)) :=
        alike.map fun fragment => by
          unfold jumpTo
          split <;> rfl
      exact jumps.kept.append (sameKept_chainBody selection jumps rfl)

theorem lockstep_attach_own
    (selection : IsSelection keep) (matched : List Fragment) {actions others : List Fragment}
    (same : SameKept keep actions others) (key : String) :
    Lockstep (Twin rename keep) (SameKept keep) (rule.attach matched actions key none true)
      ((rule.renamed rename).attach matched others key none true) := by
  unfold attach
  rw [serial_renamed]
  refine lockstep_get_bind fun first second twin => ?_
  refine (lockstep_chainNameOf _ _).bind_same fun chain => lockstep_pure ?_
  have placed : SameKept keep (actions.map (placeIn chain)) (others.map (placeIn chain)) := by
    have sameFamily (fragment : Fragment) : (placeIn chain fragment).family = fragment.family := by
      unfold placeIn
      split <;> rfl
    unfold SameKept
    rw [narrow_map sameFamily, narrow_map sameFamily, same]
  exact SameKept.append rfl (sameKept_chainBody selection (Alike.refl _) placed)

theorem lockstep_attachLog
    (selection : IsSelection keep) {matched otherMatched : List Fragment}
    (alike : Alike keep matched otherMatched) (log : Option LogClass) (action : String)
    (target : Option String) :
    Lockstep (Twin rename keep) (SameKept keep) (rule.attachLog matched log action target)
      ((rule.renamed rename).attachLog otherMatched (log.map (LogClass.renamed rename)) action
        target) := by
  unfold attachLog
  rw [actionFragments_renamed]
  split
  · exact lockstep_pure alike.kept
  · exact lockstep_attach selection alike _ _ log

theorem lockstep_attachAction
    (selection : IsSelection keep) {matched otherMatched : List Fragment}
    (alike : Alike keep matched otherMatched) :
    Lockstep (Twin rename keep) (SameKept keep) (rule.attachAction matched)
      ((rule.renamed rename).attachAction otherMatched) := by
  unfold attachAction
  rw [target_renamed, log?_renamed, action_renamed]
  exact (lockstep_recording_same rfl).bind_same fun _ => lockstep_attachLog selection alike _ _ _

/-! ## Attaching limits -/

theorem follows_hashFragments
    {first second : Context} (twin : Twin rename keep first second) (limit : Limit)
    (name : String) (above : Bool) :
    Follows (Alike keep) (limit.hashFragments first.settings.families name above)
      ((limit.renamed rename).hashFragments second.settings.families name above) := by
  intro found read
  obtain ⟨readToo, isEmpty⟩ := Limit.hashFragments_filter keep read
  rw [Limit.hashFragments_renamed, twin.families]
  refine ⟨_, readToo, (narrow_narrow found).symm, ?_⟩
  rw [isEmpty, ← twin.isEmpty_families, twin.families]
  have filtered := Limit.hashFragments_filter keep readToo
  rw [narrow_narrow] at filtered
  exact filtered.2.symm

/-- Lists of recent events are used for all families or for none; where one address is tracked in
each family, only the amounts decide. -/
theorem follows_recentFragments
    {first second : Context} (twin : Twin rename keep first second) {limit : Limit}
    (steady : (∀ family, keep family = true) ∨ limit.TracksSingly) (name : String) :
    Follows
      (Option.Rel fun found others =>
        Alike keep found.1 others.1 ∧ SameKept keep found.2 others.2)
      (limit.recentFragments first.settings name)
      ((limit.renamed rename).recentFragments second.settings name) := by
  have pairs (count interval : Amount) : Follows
      (Option.Rel fun found others =>
        Alike keep found.1 others.1 ∧ SameKept keep found.2 others.2)
      (limit.recentPairs (limit.recentName name) count interval first.settings.families)
      ((limit.renamed rename).recentPairs ((limit.renamed rename).recentName name) count interval
        second.settings.families) := by
    intro found read
    rw [Limit.recentPairs_renamed, Limit.recentName_renamed, twin.families]
    cases found with
    | none =>
        rcases steady with all | single
        · rw [List.filter_eq_self.2 fun family _ => all family]
          exact ⟨none, read, .none⟩
        · exact (single.recentPairs_ne_none read).elim
    | some pair =>
        obtain ⟨checks, records⟩ := pair
        obtain ⟨readToo, isEmpty⟩ := Limit.recentPairs_filter keep read
        have filtered := Limit.recentPairs_filter keep readToo
        rw [← twin.families] at filtered
        rw [narrow_narrow] at filtered
        refine ⟨_, readToo, .some ⟨⟨(narrow_narrow checks).symm, ?_⟩, (narrow_narrow records).symm⟩⟩
        rw [isEmpty, filtered.2, twin.isEmpty_families]
  unfold Limit.recentFragments
  rw [twin.recentMaxCount]
  cases first.settings.recentMaxCount with
  | none => exact Follows.throw
  | some maxCount =>
      have sameAmounts : Follows Eq (limit.recentAmounts maxCount)
          ((limit.renamed rename).recentAmounts maxCount) := Follows.of_self fun _ _ => rfl
      refine sameAmounts.bind ?_
      rintro amounts _ rfl
      cases amounts with
      | none => exact Follows.ok .none
      | some amounts => exact pairs _ _

theorem lockstep_recentChain
    (selection : IsSelection keep) {checks otherChecks records otherRecords : List Fragment}
    (alike : Alike keep checks otherChecks) (same : SameKept keep records otherRecords)
    (log : Option LogClass) (connection : Bool) (target : Option String) :
    Lockstep (Twin rename keep) (SameKept keep)
      (rule.recentChain checks records log connection target)
      ((rule.renamed rename).recentChain otherChecks otherRecords
        (log.map (LogClass.renamed rename)) connection target) := by
  unfold recentChain
  rw [log?_renamed, actionFragments_renamed]
  refine (lockstep_attachLog selection alike log "drop" (some "DROP")).bind ?_
  intro dropped otherDropped sameDropped
  exact lockstep_pure ((sameDropped.append rfl).append (same.combine_left _))

theorem lockstep_passingChain
    (selection : IsSelection keep) (limit : Limit) (name : String) (log : Option LogClass) :
    Lockstep (Twin rename keep) (SameKept keep) (rule.passingChain limit name log)
      ((rule.renamed rename).passingChain (limit.renamed rename) name
        (log.map (LogClass.renamed rename))) := by
  unfold passingChain
  rw [log?_renamed, actionFragments_renamed]
  refine lockstep_get_bind fun first second twin => ?_
  refine (lockstep_recording (follows_hashFragments twin limit name true)).bind ?_
  intro above otherAbove alike
  refine (lockstep_attachLog selection alike log "drop" (some "DROP")).bind ?_
  intro dropped otherDropped sameDropped
  exact lockstep_pure (sameDropped.append rfl)

theorem lockstep_countingChain
    (selection : IsSelection keep) (limit : Limit) (name : String) (log : Option LogClass)
    (connection : Bool) :
    Lockstep (Twin rename keep) (SameKept keep) (rule.countingChain limit name log connection)
      ((rule.renamed rename).countingChain (limit.renamed rename) name
        (log.map (LogClass.renamed rename)) connection) := by
  unfold countingChain
  rw [actionFragments_renamed]
  refine lockstep_get_bind fun first second twin => ?_
  refine (lockstep_recording (follows_hashFragments twin limit name false)).bind ?_
  intro within otherWithin alike
  dsimp only
  split
  · refine (lockstep_attachAction selection alike).bind ?_
    intro passed otherPassed samePassed
    exact lockstep_pure (samePassed.append rfl)
  · exact lockstep_pure ((alike.kept.combine_left _).append rfl)

/-- A limit that filter rules state tracks one address in each family, as all of them do. -/
theorem tracksSingly_of_declare
    (single : rule.attributes.LimitsSingly) {name : String} (isLimit : name ∈ limitNames)
    {mapping : Entries} (isMapping : (rule.attributes.get name).entries? = some mapping)
    (location : String) :
    Yields Limit.TracksSingly (Limit.declare .filterLimit location (.raw (.map mapping))) := by
  have stated : rule.attributes.has name = true := by
    unfold Record.has
    cases given : rule.attributes.get name with
    | scalar s =>
        rw [given] at isMapping
        cases isMapping
    | _ => rfl
  have singleMapping := single name isLimit stated
  unfold limitMapping at singleMapping
  rw [isMapping, Option.getD_some] at singleMapping
  intro before after limit run
  obtain ⟨attributes, middle, reads, settles⟩ := bind_eq_ok.1 run
  obtain ⟨entries, isEntries, rfl, -⟩ := attributesOf_eq_ok reads
  obtain rfl := Option.some.inj isEntries
  exact singleMapping location limit (recording_eq_ok.1 settles).1

theorem lockstep_attachLimit
    (selection : IsSelection keep) (steady : rule.IsSteady keep) {name : String}
    (isName : rule.limitName? = .ok (some name)) (matched : List Fragment) :
    Lockstep (Twin rename keep) (SameKept keep) (rule.attachLimit matched name)
      ((rule.renamed rename).attachLimit matched name) := by
  have isFilter : rule.kind.isFilter = true := by
    by_contra notFilter
    simp [limitName?, notFilter] at isName
  unfold attachLimit
  rw [action_renamed, location_renamed, serial_renamed, attributes_renamed, Record.get_renamed,
    Value.entries?_renamed, target_renamed]
  dsimp only
  split
  · exact lockstep_report_bind
  · refine (lockstep_chainNameOf _ _).bind_same fun chain => ?_
    cases isMapping : (rule.attributes.get name).entries? with
    | none => exact lockstep_unusable_bind
    | some mapping =>
        simp only [Option.map_some, pure_bind, limitLog?_renamed]
        have tracks : Yields (fun limit => (∀ family, keep family = true) ∨ limit.TracksSingly)
            (Limit.declare .filterLimit (rule.location ++ " limit") (.raw (.map mapping))) := by
          rcases steady with all | single
          · exact fun _ _ _ _ => .inl all
          · exact fun before after limit run => .inr (tracksSingly_of_declare (single isFilter)
              (mem_limitNames_of_limitName? isName).1 isMapping _ before after limit run)
        have declared := @Limit.lockstep_declare rename (Twin rename keep) .filterLimit
          (rule.location ++ " limit") (.raw (.map mapping))
        rw [Entry.renamed, Value.renamed_map] at declared
        refine (declared.and_yields tracks).bind ?_
        rintro limit _ ⟨rfl, steady⟩
        refine (lockstep_recording_same rfl).bind_same fun target => ?_
        refine lockstep_get_bind fun first second twin => ?_
        refine (lockstep_recording (follows_recentFragments twin steady chain)).bind ?_
        intro recent otherRecent related
        cases related with
        | some pair =>
            refine (lockstep_recentChain selection pair.1 pair.2 _ _ _).bind ?_
            exact fun body others same => lockstep_attach_own selection matched same "limit"
        | none =>
            dsimp only
            split
            · refine (lockstep_passingChain selection limit chain _).bind ?_
              exact fun body others same => lockstep_attach_own selection matched same "limit"
            · refine (lockstep_countingChain selection limit chain _ _).bind ?_
              exact fun body others same => lockstep_attach_own selection matched same "limit"

/-! ## Finishing -/

theorem lockstep_attachUpdate (matched : List Fragment) :
    Lockstep (Twin rename keep) (SameKept keep) (rule.attachUpdate matched)
      ((rule.renamed rename).attachUpdate matched) := by
  unfold attachUpdate
  rw [attributes_renamed, Record.get_renamed, Record.get_renamed, location_renamed]
  have declared := @Limit.lockstep_declare rename (Twin rename keep) .filterLimit
    (rule.location ++ " limit") (.raw (.map [(.text "name", rule.attributes.get "limit"),
      (.text "addr", rule.attributes.get "addr")]))
  refine declared.bind ?_
  rintro limit _ rfl
  refine lockstep_get_bind fun first second twin => ?_
  dsimp only
  rw [Value.written_renamed, Limit.recordFragments_renamed, twin.families]
  have records : Follows (SameKept keep)
      (limit.recordFragments (rule.attributes.get "limit").written first.settings.families)
      (limit.recordFragments (rule.attributes.get "limit").written
        (first.settings.families.filter keep)) :=
    fun found read => ⟨_, Limit.recordFragments_filter read, (narrow_narrow found).symm⟩
  refine (lockstep_recording records).bind fun found others same => lockstep_pure ?_
  refine sameKept_combine ?_
  rw [List.map_cons, List.map_cons, List.map_cons, List.map_cons, Option.map_some, Option.map_some,
    Option.map_some, same]

theorem lockstep_finish
    (selection : IsSelection keep) (steady : rule.IsSteady keep) (matched : List Fragment) :
    Lockstep (Twin rename keep) (SameKept keep) (rule.finish matched)
      ((rule.renamed rename).finish matched) := by
  have filter : Lockstep (Twin rename keep) (SameKept keep) (rule.attachFilter matched)
      ((rule.renamed rename).attachFilter matched) := by
    unfold attachFilter
    rw [limitName?_renamed]
    have named : Follows
        (fun name other => other = name ∧ rule.limitName? = .ok name) rule.limitName?
        rule.limitName? := Follows.of_self fun name isName => ⟨rfl, isName⟩
    refine (lockstep_recording named).bind ?_
    rintro _ name ⟨rfl, isName⟩
    cases name with
    | some name => exact lockstep_attachLimit selection steady isName matched
    | none => exact lockstep_attachAction selection (Alike.refl matched)
  have target : Lockstep (Twin rename keep) (SameKept keep) (rule.attachTarget matched)
      ((rule.renamed rename).attachTarget matched) := by
    unfold attachTarget
    rw [target_renamed]
    refine (lockstep_recording_same rfl).bind_same fun target => ?_
    cases target <;> exact lockstep_pure rfl
  unfold finish
  rw [kind_renamed]
  cases rule.kind with
  | limitUpdate => exact lockstep_attachUpdate matched
  | logging => exact lockstep_attachAction selection (Alike.refl matched)
  | filter => exact filter
  | policy => exact filter
  | _ => exact target

/-- The fragments of a rule itself: those of the kept families are left. -/
theorem lockstep_ownFragments (selection : IsSelection keep) (steady : rule.IsSteady keep) :
    Lockstep (Twin rename keep) (Becomes (narrow keep)) rule.ownFragments
      (rule.renamed rename).ownFragments := by
  unfold ownFragments
  rw [setFragments_renamed, position_renamed, families_renamed, kind_renamed]
  refine (lockstep_zoneFragments rule).bind_same fun zones => ?_
  refine (lockstep_addressFragments rule "src" .inward).bind_same fun sources => ?_
  refine (lockstep_destinationFragments rule).bind_same fun destinations => ?_
  refine (lockstep_recording_same rfl).bind_same fun sets => ?_
  refine (lockstep_serviceFragments rule).bind_same fun services => ?_
  refine (lockstep_recording_same rfl).bind_same fun position => ?_
  refine (lockstep_finish selection steady _).bind fun finished others same => ?_
  refine lockstep_get_bind fun first second twin => lockstep_pure ?_
  have families : rule.families second.settings = (rule.families first.settings).filter keep := by
    unfold Rule.families
    rw [twin.families]
    split
    · rw [List.filter_filter, List.filter_filter]
      exact List.filter_congr fun family _ => Bool.and_comm ..
    · rfl
  rw [families]
  refine (narrow_combine_of_mem (List.mem_cons_of_mem _ (List.mem_cons_self ..)) ?_).symm.trans
    (Eq.symm (sameKept_combine ?_))
  · intro fragment member
    obtain ⟨family, isFamily, rfl⟩ := List.mem_map.1 member
    exact ⟨family, rfl, (List.mem_filter.1 isFamily).2⟩
  · simp only [List.map_cons, List.map_nil, Option.map_some, narrow_map_ofFamily,
      List.filter_filter, Bool.and_self]
    rw [same]

end FirewallPolicy.Rule
