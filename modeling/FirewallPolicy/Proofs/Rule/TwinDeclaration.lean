import FirewallPolicy.Proofs.Context.Twins

/-!
# Declaring rules in twin contexts

In twin contexts a rule is declared as the same rule, but for the serial numbers of the services and
log classes that it holds.
-/

namespace FirewallPolicy

open Stateful Run Context

namespace Rule

variable {rename : Nat → Nat} {keep : String → Bool}

/-! ## Zones and services -/

theorem follows_findEntry
    {change : Entry → Entry} {entries others : SectionEntries} (alike : entries.Alike change others)
    (name : Value) :
    Follows (Becomes (Option.map change)) (findEntry entries name)
      (findEntry others (name.renamed rename)) := by
  cases alike with
  | list items =>
      cases items with
      | nil =>
          simp only [findEntry, List.map_nil, Value.isHashable_renamed]
          exact Follows.ite (fun _ => Follows.ok rfl) fun _ => Follows.error
      | cons first rest => exact Follows.error
  | map found =>
      have unnamed : Follows (Becomes (Option.map change))
          (if name.isHashable then Except.ok (none : Option Entry) else .error .unusable)
          (if (name.renamed rename).isHashable then Except.ok (none : Option Entry)
            else .error .unusable) := by
        rw [Value.isHashable_renamed]
        exact Follows.ite (fun _ => Follows.ok rfl) fun _ => Follows.error
      cases name with
      | scalar key =>
          rw [Value.renamed_scalar]
          exact Follows.ok (found key)
      | _ => exact unnamed

theorem follows_selectZone_renamed
    {zones others : SectionEntries} (alike : zones.Alike id others) (location : String)
    (name : Value) :
    Follows Eq (selectZone location zones name)
      (selectZone location others (name.renamed rename)) := by
  unfold selectZone
  rw [Value.isText_renamed]
  refine Follows.ite (fun _ => Follows.ok rfl) fun _ => ?_
  refine (follows_findEntry alike name).bind ?_
  rintro entry _ rfl
  rw [Option.map_id_fun, id_eq]
  split
  · exact Follows.error
  · exact Follows.error
  · exact Follows.ok rfl
  · cases name with
    | scalar key =>
        rw [Value.renamed_scalar]
        exact Follows.ok rfl
    | _ => exact Follows.ok rfl
  · exact Follows.ok rfl

theorem follows_selectZones_renamed
    {zones others : SectionEntries} (alike : zones.Alike id others) (location : String)
    (names : Value) :
    Follows Eq (selectZones location zones names)
      (selectZones location others (names.renamed rename)) := by
  unfold selectZones
  rw [Value.isNull_renamed, Value.toItems_renamed, List.mapM_map]
  refine Follows.ite (fun _ => Follows.ok rfl) fun _ => ?_
  refine Follows.bind (Follows.mapM fun name _ => follows_selectZone_renamed alike location name) ?_
  intro selected others same
  rw [List.forall₂_eq_eq_eq] at same
  exact Follows.ok (congrArg some same)

theorem lockstep_selectService (location : String) (item : Value) :
    Lockstep (Twin rename keep) (Becomes (ServiceSelector.renamed rename))
      (selectService location item) (selectService location (item.renamed rename)) := by
  have declared (item : Value) :
      Lockstep (Twin rename keep) (Becomes (ServiceSelector.renamed rename))
        (Service.declare (location ++ " service") (.raw item) >>=
          fun service => pure (.service service))
        (Service.declare (location ++ " service") (.raw (item.renamed rename)) >>=
          fun service => pure (.service service)) := by
    refine (Service.lockstep_declare declaresAlike_twin _ (.raw item)).bind ?_
    rintro service _ rfl
    exact lockstep_pure rfl
  rcases item with (_ | _ | _ | _ | name | _ | _) | _ | _ | _ | _ | _ | _ | _
  case scalar.text =>
    refine lockstep_get_bind fun first second twin => ?_
    refine (lockstep_lift (follows_findEntry twin.services (.text name))).bind ?_
    rintro entry _ rfl
    rcases entry with _ | (value | object)
    · exact lockstep_report
    · have named : Lockstep (Twin rename keep) (Becomes (ServiceSelector.renamed rename))
          (pure .other : Run ServiceSelector) (pure .other) := lockstep_pure rfl
      rcases value with (_ | _ | _ | _ | _ | _ | _) | _ | _ | _ | _ | _ | _ | _
      case scalar.null => exact lockstep_report
      all_goals exact named
    · exact lockstep_pure (serviceSelector_renamed (.object object))
  all_goals exact declared _

theorem lockstep_selectServices (location : String) (items : Value) :
    Lockstep (Twin rename keep)
      (Becomes (Option.map (List.map (ServiceSelector.renamed rename))))
      (selectServices location items) (selectServices location (items.renamed rename)) := by
  have each (items : List Value) : Lockstep (Twin rename keep)
      (Becomes (List.map (ServiceSelector.renamed rename))) (selectEach location items)
      (selectEach location (items.map (Value.renamed rename))) := by
    induction items with
    | nil => exact lockstep_pure rfl
    | cons item rest inductionHypothesis =>
        refine (lockstep_selectService location item).bind ?_
        rintro selected _ rfl
        refine inductionHypothesis.bind ?_
        rintro others _ rfl
        exact lockstep_pure rfl
  unfold selectServices
  rw [Value.isNull_renamed, Value.toItems_renamed]
  split
  · exact lockstep_pure rfl
  · refine (each _).bind ?_
    rintro selected _ rfl
    exact lockstep_pure rfl

/-! ## Attributes -/

theorem lockstep_replaceAction (location : String) (attributes : Record) :
    Lockstep (Twin rename keep) (Becomes (Record.renamed rename))
      (replaceAction location attributes) (replaceAction location (attributes.renamed rename)) := by
  unfold replaceAction
  simp only [Record.get_renamed, Value.isHashable_renamed]
  have same : Lockstep (Twin rename keep) (Becomes (Record.renamed rename))
      (pure attributes : Run Record) (pure (attributes.renamed rename)) := lockstep_pure rfl
  split
  · exact lockstep_unusable_bind
  · rcases attributes.get "action" with
      (_ | _ | _ | _ | name | _ | _) | _ | _ | _ | _ | _ | _ | _
    case scalar.text =>
      rw [Value.renamed_scalar]
      dsimp only
      split
      · exact (lockstep_warn _ _).bind_same fun _ =>
          lockstep_pure (Record.set_renamed_scalar ..)
      · exact same
    all_goals exact same

theorem lockstep_settleLog (kind : RuleKind) (location : String) (attributes : Record) :
    Lockstep (Twin rename keep) (Becomes (Record.renamed rename))
      (settleLog kind location attributes)
      (settleLog kind location (attributes.renamed rename)) := by
  unfold settleLog
  simp only [Record.setDefault_renamed_scalar, Record.set_renamed_scalar, Record.get_renamed,
    Value.written_renamed, LogClass.ofValue?_renamed]
  generalize attributes.setDefault "action" (.text "accept") = attributes
  generalize (attributes.get "action").written = action
  generalize attributes.set "action" (.text action) = attributes
  have checked (attributes : Record) (custom : Bool) :
      Lockstep (Twin rename keep) (Becomes (Record.renamed rename))
        (if custom && attributes.flag "log" then
            report location (.logWithCustomAction action) >>= fun _ : Unit => pure attributes
          else pure attributes)
        (if custom && (attributes.renamed rename).flag "log" then
            report location (.logWithCustomAction action) >>= fun _ : Unit =>
              pure (attributes.renamed rename)
          else pure (attributes.renamed rename)) := by
    rw [Record.flag_renamed]
    split
    · exact lockstep_report_bind
    · exact lockstep_pure rfl
  cases LogClass.ofValue? (attributes.get "log") with
  | some log => exact checked attributes _
  | none =>
      refine (LogClass.lockstep_select location _ _).bind ?_
      rintro log _ rfl
      rw [LogClass.optionValue_renamed, Record.set_renamed]
      exact checked _ _

theorem lockstep_settleLimit (rule : Rule) :
    Lockstep (Twin rename keep) (Becomes (renamed rename)) (settleLimit rule)
      (settleLimit (rule.renamed rename)) := by
  unfold settleLimit
  rw [limitName?_renamed]
  refine (lockstep_recording_same rfl).bind_same fun limitName => ?_
  cases limitName with
  | none => exact lockstep_pure rfl
  | some name =>
      simp only [attributes_renamed, Record.flag_renamed, location_renamed, Record.get_renamed,
        limitMapping_renamed, Entries.get?_mapped, Value.getD_map_renamed]
      split
      · exact lockstep_report_bind
      · refine (LogClass.lockstep_select rule.location _ true).bind ?_
        rintro log _ rfl
        refine lockstep_pure ?_
        rw [LogClass.optionValue_renamed, Entries.insert_mapped, ← Value.renamed_map,
          Record.set_renamed]
        rfl

/-! ## Declaration -/

theorem lockstep_settleAction (kind : RuleKind) (location : String) (attributes : Record) :
    Lockstep (Twin rename keep) (Becomes (Record.renamed rename))
      (settleAction kind location attributes)
      (settleAction kind location (attributes.renamed rename)) := by
  unfold settleAction
  split
  · exact lockstep_replaceAction location attributes
  · exact lockstep_pure rfl

theorem lockstep_settleDestination (kind : RuleKind) (location : String) (attributes : Record) :
    Lockstep (Twin rename keep) (Becomes (Record.renamed rename))
      (settleDestination kind location attributes)
      (settleDestination kind location (attributes.renamed rename)) := by
  unfold settleDestination
  split
  · exact lockstep_recording (follows_settleDnat location attributes)
  · exact lockstep_pure rfl

theorem lockstep_settleLogging (kind : RuleKind) (location : String) (attributes : Record) :
    Lockstep (Twin rename keep) (Becomes (Record.renamed rename))
      (settleLogging kind location attributes)
      (settleLogging kind location (attributes.renamed rename)) := by
  unfold settleLogging
  split
  · exact lockstep_settleLog kind location attributes
  · exact lockstep_pure rfl

theorem lockstep_settleMeasure (kind : RuleKind) (location : String) (attributes : Record) :
    Lockstep (Twin rename keep) (Becomes (Record.renamed rename))
      (settleMeasure kind location attributes)
      (settleMeasure kind location (attributes.renamed rename)) := by
  unfold settleMeasure
  split
  · exact lockstep_recording (follows_settleUpdate location attributes)
  · exact lockstep_pure rfl

theorem lockstep_settleFilter (rule : Rule) :
    Lockstep (Twin rename keep) (Becomes (renamed rename)) (settleFilter rule)
      (settleFilter (rule.renamed rename)) := by
  unfold settleFilter
  rw [kind_renamed]
  split
  · refine (lockstep_settleLimit rule).bind ?_
    rintro rule _ rfl
    rw [target_renamed]
    exact (lockstep_recording_same rfl).bind_same fun _ => lockstep_pure rfl
  · exact lockstep_pure rfl

/-- A rule is settled in lockstep, as each of its steps is. -/
theorem lockstep_settle (kind : RuleKind) (location : String) (attributes : Record) :
    Lockstep (Twin rename keep) (Becomes (renamed rename)) (settle kind location attributes)
      (settle kind location (attributes.renamed rename)) := by
  refine (lockstep_settleAction kind location attributes).bind ?_
  rintro acted _ rfl
  refine lockstep_get_bind fun first second twin => ?_
  rw [Record.get_renamed, Record.get_renamed, Record.get_renamed]
  refine (lockstep_recording (follows_selectZones_renamed twin.zones location _)).bind_same
    fun zonesIn => ?_
  refine (lockstep_recording (follows_selectZones_renamed twin.zones location _)).bind_same
    fun zonesOut => ?_
  refine (lockstep_selectServices location _).bind ?_
  rintro services _ rfl
  refine (lockstep_recording (follows_settleSet location acted)).bind ?_
  rintro withSet _ rfl
  refine (lockstep_settleDestination kind location withSet).bind ?_
  rintro withDestination _ rfl
  refine (lockstep_settleLogging kind location withDestination).bind ?_
  rintro logged _ rfl
  refine (lockstep_settleMeasure kind location logged).bind ?_
  rintro measured _ rfl
  refine lockstep_freshSerial.bind ?_
  rintro _ serial ⟨rfl, -⟩
  exact lockstep_settleFilter ⟨kind, serial, location, measured, zonesIn, zonesOut, services⟩

theorem lockstep_declare (kind : RuleKind) (location : String) (source : Entry) :
    Lockstep (Twin rename keep) (Becomes (renamed rename)) (declare kind location source)
      (declare kind location (source.renamed rename)) := by
  refine (lockstep_attributesOf _ _ _).bind ?_
  rintro attributes _ rfl
  exact lockstep_settle kind location attributes

end Rule

end FirewallPolicy
