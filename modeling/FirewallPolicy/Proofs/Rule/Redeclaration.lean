import FirewallPolicy.Proofs.Context.Redeclaration
import FirewallPolicy.Rule.Declaration

/-!
# Declaring rules again

A rule that is declared again, from the attributes that it has come to have, finds the same zones and
services, and each step of settling its attributes leaves them as they are.  The exception are log
classes: null asks for the default class, and null is also what a rule that does not log ends up with.
-/

namespace FirewallPolicy

open Context Run Stateful Record

/-! ## Zones and services -/

namespace Rule

variable {fixed : Context}

theorem lockstep_selectService_place (location place : String) (item : Value) :
    Lockstep (Context.Resumes fixed) (fun _ _ => True)
      (selectService location item) (selectService place item) := by
  have declared (item : Value) : Lockstep (Context.Resumes fixed) (fun _ _ => True)
      (Service.declare (location ++ " service") (.raw item) >>= fun service =>
        pure (ServiceSelector.service service))
      (Service.declare (place ++ " service") (.raw item) >>= fun service =>
        pure (ServiceSelector.service service)) :=
    (Service.lockstep_declare_place _ _ _).bind fun _ _ _ => lockstep_pure trivial
  rcases item with (_ | _ | _ | _ | name | _ | _) | _ | _ | _ | _ | _ | _ | _
  case scalar.text =>
    refine lockstep_get_bind fun first second resumes => ?_
    obtain ⟨same, next, rfl⟩ := resumes
    have sameEntries : first.entriesOf "service" =
        { fixed with nextSerial := next }.entriesOf "service" := same
    rw [sameEntries]
    refine (lockstep_lift (Follows.of_self fun _ _ => rfl)).bind_same fun entry => ?_
    split
    · exact lockstep_report
    · exact lockstep_report
    · exact lockstep_pure trivial
  all_goals exact declared _

theorem lockstep_selectServices_place (location place : String) (items : Value) :
    Lockstep (Context.Resumes fixed) (fun _ _ => True)
      (selectServices location items) (selectServices place items) := by
  have each (items : List Value) : Lockstep (Context.Resumes fixed) (fun _ _ => True)
      (selectEach location items) (selectEach place items) := by
    induction items with
    | nil => exact lockstep_pure trivial
    | cons item rest inductionHypothesis =>
        exact (lockstep_selectService_place _ _ _).bind fun _ _ _ =>
          inductionHypothesis.bind fun _ _ _ => lockstep_pure trivial
  unfold selectServices
  split
  · exact lockstep_pure trivial
  · exact (each _).bind fun _ _ _ => lockstep_pure trivial

theorem follows_selectZones_place
    (location place : String) (zones : SectionEntries) (names : Value) :
    Follows Eq (selectZones location zones names) (selectZones place zones names) := by
  have each (name : Value) :
      Follows Eq (selectZone location zones name) (selectZone place zones name) := by
    unfold selectZone
    refine Follows.ite (fun _ => Follows.ok rfl) fun _ => ?_
    refine Follows.bind (Follows.of_self fun _ _ => rfl) ?_
    rintro found _ rfl
    split
    · exact Follows.throw
    · exact Follows.throw
    all_goals exact Follows.of_self fun _ _ => rfl
  unfold selectZones
  refine Follows.ite (fun _ => Follows.ok rfl) fun _ => ?_
  refine (Follows.mapM fun name _ => each name).bind fun selected others same => ?_
  rw [List.forall₂_eq_eq_eq] at same
  exact Follows.ok (congrArg some same)

/-- The zones and services of a rule are found again, at another place. -/
theorem Knows.select_again
    {rule : Rule} {context : Context} (knows : rule.Knows context) (place : String) :
    selectZones place (context.entriesOf "zone") (rule.attributes.get "in") = .ok rule.zonesIn ∧
      selectZones place (context.entriesOf "zone") (rule.attributes.get "out") =
        .ok rule.zonesOut ∧
      ∃ services next, selectServices place (rule.attributes.get "service") context =
        (.ok services, { context with nextSerial := next }) := by
  obtain ⟨_, isIn, rfl⟩ := follows_selectZones_place _ place _ _ _ knows.zonesIn
  obtain ⟨_, isOut, rfl⟩ := follows_selectZones_place _ place _ _ _ knows.zonesOut
  obtain ⟨start, finish, same, selects⟩ := knows.services
  obtain ⟨services, _, again, -, -, next, rfl⟩ := lockstep_selectServices_place rule.location place
    _ start context _ finish ⟨same, context.nextSerial, rfl⟩ selects
  exact ⟨isIn, isOut, services, next, again⟩

end Rule

/-! ## Attributes of a rule -/

/-- The value is null, or a collection that holds the name. -/
def Value.Holds (value : Value) (name : String) : Prop :=
  value = .null ∨ (∀ text, value ≠ .text text) ∧ Rule.holdsName value name = .ok true

namespace Rule

section Collections

variable {attributes settled : Record} {field key : String} {missing : Failure}

theorem holds_of_settleCollection
    (run : settleCollection field key missing attributes = .ok settled) :
    (settled.get field).Holds key := by
  unfold settleCollection at run
  split at run
  · next isNull =>
      obtain rfl := Except.ok.inj run
      exact Or.inl isNull
  · obtain rfl := Except.ok.inj run
    rw [Record.get_set_self]
    refine Or.inr ⟨fun text => Value.noConfusion, ?_⟩
    simp [holdsName, Value.opened, Entries.get?, Scalar.sameKey]
  · next notText =>
      obtain ⟨holds, isHeld, run⟩ := except_bind_eq_ok.1 run
      split at run
      · next isTrue =>
          obtain rfl := Except.ok.inj run
          exact Or.inr ⟨notText, isTrue ▸ isHeld⟩
      · exact (except_throw_eq_ok.1 run).elim

theorem settleCollection_of_holds (holds : (attributes.get field).Holds key) :
    settleCollection field key missing attributes = .ok attributes := by
  unfold settleCollection
  rcases holds with isNull | ⟨notText, isHeld⟩
  · rw [isNull]
    rfl
  · split
    · rfl
    · next isText => exact absurd isText (notText _)
    · rw [isHeld]
      rfl

end Collections

end Rule

/-! ## Settled rules -/

theorem LogClass.optionValue_eq_null {log : Option LogClass} :
    LogClass.optionValue log = .null ↔ log = none := by
  cases log with
  | none => exact ⟨fun _ => rfl, fun _ => rfl⟩
  | some known => exact ⟨fun same => Value.noConfusion same, fun same => by cases same⟩

namespace Rule

variable {kind : RuleKind} {location : String} {attributes settled : Record} {rule other : Rule}
  {before after : Context}

/-- The rule has a limit, for which a log class was selected, or none. -/
structure HasLimit (rule : Rule) (name : String) (log : Option LogClass) : Prop where
  stated : rule.limitName? = .ok (some name)
  tracked : (decide (name = "conn-limit") && rule.attributes.flag "no-track") = false
  mapping : ∃ mapping, rule.attributes.lookup name = some (.map mapping) ∧
    Entries.get? mapping (.text "log") = some (LogClass.optionValue log)
  enabled : ∀ known, log = some known → known.isEnabled = true

/-- The attributes say which limit is updated, and how. -/
structure StatesUpdate (attributes : Record) : Prop where
  limit : attributes.has "limit" = true
  measureListed : "measure" ∈ attributes.names
  addrListed : "addr" ∈ attributes.names
  measure : ((attributes.get "measure").isText "conn" || (attributes.get "measure").isText "flow") =
    true

/-- The attributes of the rule are in the form that a declaration gives them. -/
structure IsSettled (rule : Rule) : Prop where
  within : rule.attributes.Within (ObjectKind.rule rule.kind).attributes
  set : (rule.attributes.get "ipset").Holds "name"
  destination : rule.kind.redirects = true → (rule.attributes.get "dnat").Holds "addr"
  action : rule.kind.logs = true → rule.attributes.lookup "action" = some (.text rule.action)
  log : rule.kind.logs = true →
    ∃ log, rule.attributes.lookup "log" = some (LogClass.optionValue log)
  unlogged : rule.kind.logs = true → rule.isCustom = true → rule.attributes.flag "log" = false
  update : rule.kind = .limitUpdate → StatesUpdate rule.attributes
  limit : rule.kind.isFilter = true →
    rule.limitName? = .ok none ∨ ∃ name log, rule.HasLimit name log
  target : rule.kind.isFilter = true → ∃ target, rule.target = .ok target

/-! ### What declaring does -/

/-- A step that is only taken for some rules and changes attributes that those rules have. -/
theorem within_of_step
    {allowed changed : List String} {step action : Run Record} {p : Prop} [Decidable p]
    (isStep : step = if p then action else pure attributes)
    (keeps : Yields (Keeps changed attributes) step) (included : p → changed ⊆ allowed)
    (within : attributes.Within allowed) :
    Yields (Record.Within allowed) step := by
  intro before after settled run
  by_cases isTaken : p
  · exact within.of_keeps (keeps.of_eq run) (included isTaken)
  · rw [isStep, if_neg isTaken] at run
    obtain ⟨rfl, -⟩ := pure_eq_ok.1 run
    exact within

theorem within_of_settle
    (within : attributes.Within (ObjectKind.rule kind).attributes)
    (run : settle kind location attributes before = (.ok rule, after)) :
    rule.attributes.Within (ObjectKind.rule kind).attributes := by
  obtain ⟨acted, c₁, zonesIn, zonesOut, services, c₂, withSet, withDestination, c₃, logged, c₄,
    measured, c₅, serial, c₆, acts, _, _, _, sets, directs, logs, measures, _, settles⟩ :=
    settle_eq_ok run
  have actedWithin := (within_of_step rfl keeps_settleAction (fun isFilter => by
    simp [ObjectKind.attributes, RuleKind.attributes, logs_of_isFilter isFilter]) within).of_eq acts
  have setWithin := actedWithin.of_keeps (maps_settleSet sets).keeps (by
    simp [ObjectKind.attributes, RuleKind.attributes])
  have directedWithin := (within_of_step rfl keeps_settleDestination (fun redirects => by
    simp [ObjectKind.attributes, RuleKind.attributes, redirects]) setWithin).of_eq directs
  have loggedWithin := (within_of_step rfl keeps_settleLogging (fun logs => by
    simp [ObjectKind.attributes, RuleKind.attributes, logs]) directedWithin).of_eq logs
  have measuredWithin := (within_of_step rfl keeps_settleMeasure (fun isUpdate => by
    simp [ObjectKind.attributes, RuleKind.attributes, isUpdate]) loggedWithin).of_eq measures
  rcases settleFilter_eq_ok settles with ⟨_, rfl, _⟩ | ⟨isFilter, _⟩
  · exact measuredWithin
  · exact measuredWithin.of_keeps (keeps_settleFilter settles) (by
      simp [ObjectKind.attributes, RuleKind.attributes, limitNames, show kind.isFilter = true from
        isFilter])

theorem statesUpdate_of_settleUpdate
    (run : settleUpdate location attributes = .ok settled) : StatesUpdate settled := by
  unfold settleUpdate at run
  dsimp only at run
  split at run
  · obtain ⟨_, thrown, _⟩ := except_bind_eq_ok.1 run
    exact (except_throw_eq_ok.1 thrown).elim
  · next isLimit =>
      split at run
      · obtain ⟨_, thrown, _⟩ := except_bind_eq_ok.1 run
        exact (except_throw_eq_ok.1 thrown).elim
      · next isMeasure =>
          obtain rfl := Except.ok.inj run
          have kept : ((attributes.setDefault "measure" (.text "conn")).setDefault "addr"
              (.text "src")).get "limit" = attributes.get "limit" :=
            (keeps_setDefault.append keeps_setDefault).get (by decide)
          refine ⟨?_, ?_, ?_, ?_⟩
          · simpa [Record.has, kept] using isLimit
          · simp [Record.mem_names_setDefault]
          · simp [Record.mem_names_setDefault]
          · rwa [Bool.not_eq_true', Bool.not_eq_false] at isMeasure

theorem lookup_settleLog
    (run : settleLog kind location attributes before = (.ok settled, after)) :
    settled.lookup "action" = some (.text (settledAction attributes)) ∧
      ∃ log, settled.lookup "log" = some (LogClass.optionValue log) := by
  have action : (withAction attributes).lookup "action" = some (.text (settledAction attributes)) :=
    Named.get?_set_self ..
  rcases (settleLog_eq_ok run).2 with ⟨isClass, rfl, _⟩ | ⟨_, log, _, rfl⟩
  · refine ⟨action, ?_⟩
    have kept : (withAction attributes).get "log" = attributes.get "log" :=
      keeps_withAction.get (by decide)
    rw [← kept] at isClass
    obtain ⟨log, isLog⟩ := Option.isSome_iff_exists.1 isClass
    have value : (withAction attributes).get "log" = LogClass.optionValue log := by
      unfold LogClass.ofValue? at isLog
      split at isLog
      · next shape =>
          obtain rfl := Option.some.inj isLog
          exact shape
      · cases isLog
    refine ⟨some log, ?_⟩
    rw [Record.lookup_of_has (by rw [Record.has, value]; rfl), value]
  · exact ⟨(Named.get?_set_of_ne (by decide) ..).trans action, log, Named.get?_set_self ..⟩

theorem tracked_of_settleLimit
    {name : String} (stated : rule.limitName? = .ok (some name))
    (run : settleLimit rule before = (.ok other, after)) :
    (decide (name = "conn-limit") && rule.attributes.flag "no-track") = false := by
  unfold settleLimit at run
  obtain ⟨_, _, reads, run⟩ := bind_eq_ok.1 run
  rw [stated] at reads
  obtain ⟨rfl, -⟩ := pure_eq_ok.1 reads
  dsimp only at run
  split at run
  · obtain ⟨_, _, reported, _⟩ := bind_eq_ok.1 run
    exact (report_eq_ok.1 reported).elim
  · next untracked => exact eq_false_of_ne_true untracked

/-- The limit of a rule depends on which limits are set. -/
theorem limitName?_of_alike
    {found : Option String} (read : rule.limitName? = .ok found) (kind : other.kind = rule.kind)
    (has : ∀ name ∈ limitNames, other.attributes.has name = rule.attributes.has name) :
    other.limitName? = .ok found := by
  have same : limitNames.filter other.attributes.has = limitNames.filter rule.attributes.has :=
    List.filter_congr has
  unfold limitName? at read ⊢
  rw [kind, same]
  split at read
  · next isFilter =>
      rw [if_pos isFilter]
      split at read
      · exact read
      · exact read
      · cases read
  · next notFilter => rw [if_neg notFilter]; exact read

theorem limitDirective_withLimitLog (rule : Rule) (name : String) (log : Option LogClass) :
    limitDirective (withLimitLog rule name log).attributes name = LogClass.optionValue log := by
  simp only [withLimitLog, limitDirective, Record.get_set_self, limitMapping, Value.entries?,
    Value.opened, Option.getD_some, Entries.get?_insert_text]

theorem isEnabled_of_select {directive fallback : Value} :
    Yields (fun found => ∀ log, found = some log → log.isEnabled = true)
      (LogClass.select location directive fallback) := by
  unfold LogClass.select
  extract_lets enabled chosen
  have isEnabled (known : LogClass) : ∀ log, enabled known = some log → log.isEnabled = true := by
    intro log isLog
    unfold enabled at isLog
    split at isLog
    · next isEnabled => exact Option.some.inj isLog ▸ isEnabled
    · cases isLog
  have none : Yields (fun found => ∀ log, found = some log → log.isEnabled = true)
      (pure none : Run (Option LogClass)) := yields_pure fun _ isLog => nomatch isLog
  split
  · exact none
  · exact none
  · exact yields_bind fun known => yields_pure (isEnabled known)
  · exact yields_pure (isEnabled _)
  · exact yields_bind fun known => yields_pure (isEnabled known)
  · exact none
  · exact yields_bind fun known => yields_pure (isEnabled known)

theorem hasLimit_of_settleLimit
    (run : settleLimit rule before = (.ok other, after)) :
    other.limitName? = .ok none ∨ ∃ name log, other.HasLimit name log := by
  rcases settleLimit_eq_ok run with ⟨unlimited, rfl, _⟩ | ⟨name, log, stated, selects, rfl⟩
  · exact Or.inl unlimited
  · refine Or.inr ⟨name, log, ?_, ?_, ⟨_, Named.get?_set_self .., Entries.get?_insert_text ..⟩,
      isEnabled_of_select.of_eq selects⟩
    · refine limitName?_of_alike stated rfl fun limit _ => ?_
      by_cases same : limit = name
      · subst same
        rw [(mem_limitNames_of_limitName? stated).2]
        simp [withLimitLog, Record.has, Record.get_set_self, Value.isNull]
      · simp only [withLimitLog, Record.has, Record.get_set_of_ne same]
    · have isLimit := (mem_limitNames_of_limitName? stated).1
      have notTracking : "no-track" ≠ name := by
        rintro rfl
        exact absurd isLimit (by decide)
      have tracked := tracked_of_settleLimit stated run
      simpa only [withLimitLog, Record.flag, Record.get_set_of_ne notTracking] using tracked

/-- The target of a filter rule depends on its action. -/
theorem follows_filterTarget (same : other.action = rule.action) :
    Follows Eq rule.filterTarget other.filterTarget := by
  unfold filterTarget isCustom
  rw [same]
  refine Follows.ite (fun _ => Follows.ok rfl) fun _ => ?_
  refine Follows.ite (fun _ => Follows.ok rfl) fun _ => ?_
  refine Follows.ite (fun _ => Follows.ok rfl) fun _ => ?_
  refine Follows.ite (fun _ => Follows.ok rfl) fun _ => ?_
  refine Follows.ite (fun _ => Follows.ok rfl) fun _ => ?_
  exact Follows.ite (fun _ => Follows.ok rfl) fun _ => Follows.error

theorem lookup_replacedActions
    {target : Option String} (read : rule.filterTarget = .ok target) :
    replacedActions.lookup rule.action = none := by
  have known : rule.isCustom = true ∨
      rule.action ∈ ["pass", "accept", "drop", "reject", "tarpit"] := by
    by_contra unknown
    simp only [List.mem_cons, List.not_mem_nil, or_false, not_or] at unknown
    simp [filterTarget, unknown] at read
  have replaced : ∀ entry ∈ replacedActions, (customName? entry.1).isSome = false ∧
      entry.1 ∉ ["pass", "accept", "drop", "reject", "tarpit"] := by decide
  rw [List.lookup_eq_none_iff]
  intro entry member
  obtain ⟨notCustom, notListed⟩ := replaced entry member
  rw [bne_iff_ne]
  rintro same
  rcases known with custom | listed
  · rw [isCustom, same, notCustom] at custom
    cases custom
  · exact notListed (same ▸ listed)

theorem isSettled_of_settle
    (within : attributes.Within (ObjectKind.rule kind).attributes)
    (run : settle kind location attributes before = (.ok rule, after)) :
    rule.IsSettled := by
  have isKind : rule.kind = kind := (settledFrom_of_settle run).kind
  have ruleWithin := within_of_settle within run
  obtain ⟨acted, c₁, zonesIn, zonesOut, services, c₂, withSet, withDestination, c₃, logged, c₄,
    measured, c₅, serial, c₆, acts, _, _, _, sets, directs, logs, measures, _, settles⟩ :=
    settle_eq_ok run
  have fromMeasured : Keeps limitNames measured rule.attributes := keeps_settleFilter settles
  have fromLogged : Keeps (["measure", "addr"] ++ limitNames) logged rule.attributes :=
    (keeps_settleMeasure.of_eq measures).append fromMeasured
  have fromDirected : Keeps (["action", "log"] ++ (["measure", "addr"] ++ limitNames))
      withDestination rule.attributes :=
    (keeps_settleLogging.of_eq logs).append fromLogged
  have logging (isLogging : rule.kind.logs = true) :
      settleLog kind location withDestination c₃ = (.ok logged, c₄) := by
    unfold settleLogging at logs
    rwa [if_pos (isKind ▸ isLogging)] at logs
  have isAction (isLogging : rule.kind.logs = true) :
      rule.attributes.lookup "action" = some (.text rule.action) ∧
        rule.action = settledAction withDestination := by
    have listed := (fromLogged "action" (by decide)).trans (lookup_settleLog (logging isLogging)).1
    have same : rule.action = settledAction withDestination := by
      rw [Rule.action, Record.get_of_lookup listed]
      rfl
    exact ⟨same ▸ listed, same⟩
  have filtering (isFilter : rule.kind.isFilter = true) :
      (∃ limited, settleLimit limited c₆ = (.ok rule, after)) ∧
        ∃ target, rule.target = .ok target := by
    rcases settleFilter_eq_ok settles with ⟨notFilter, rfl, _⟩ | ⟨_, limits, read⟩
    · cases isFilter.symm.trans notFilter
    · exact ⟨⟨_, limits⟩, read⟩
  -- The later steps keep what an earlier one settled, so each field goes back to its own step.
  exact
    { within := isKind ▸ ruleWithin
      set := by
        rw [fromDirected.get (by decide), (keeps_settleDestination.of_eq directs).get (by decide)]
        exact holds_of_settleCollection (settleSet_eq .. ▸ sets)
      destination := fun redirects => by
        rw [fromDirected.get (by decide)]
        unfold settleDestination at directs
        rw [if_pos (isKind ▸ redirects)] at directs
        exact holds_of_settleCollection (settleDnat_eq .. ▸ (recording_eq_ok.1 directs).1)
      action := fun isLogging => (isAction isLogging).1
      log := fun isLogging => by
        rw [fromLogged "log" (by decide)]
        exact (lookup_settleLog (logging isLogging)).2
      unlogged := fun isLogging custom => by
        rw [Record.flag, fromLogged.get (by decide)]
        rw [isCustom, (isAction isLogging).2] at custom
        exact (settleLog_eq_ok (logging isLogging)).1 custom
      update := fun isUpdate => by
        unfold settleMeasure at measures
        rw [if_pos (isKind ▸ isUpdate)] at measures
        have notFilter : rule.kind.isFilter ≠ true := by
          rw [isUpdate]
          decide
        rcases settleFilter_eq_ok settles with ⟨_, rfl, _⟩ | ⟨isFilter, _⟩
        · exact statesUpdate_of_settleUpdate (recording_eq_ok.1 measures).1
        · exact absurd (isKind ▸ isFilter) notFilter
      limit := fun isFilter => by
        obtain ⟨⟨_, limits⟩, _⟩ := filtering isFilter
        exact hasLimit_of_settleLimit limits
      target := fun isFilter => (filtering isFilter).2 }

end Rule

/-! ### Settling again -/

namespace Rule

variable {rule again : Rule} {attributes logged : Record} {place : String} {serial : Nat}
  {before after : Context}

/-- The rule has no log class although its action is logged by default. -/
def LacksLog (rule : Rule) : Prop :=
  logsByDefault rule.kind rule.action = true ∧ rule.attributes.get "log" = .null

/-- The rule has a limit without a log class, although what is above a limit is logged by
default. -/
def LacksLimitLog (rule : Rule) : Prop :=
  ∃ name, rule.limitName? = .ok (some name) ∧ limitDirective rule.attributes name = .null

/-- The rule does not log what is logged by default. -/
def IsMuted (rule : Rule) : Prop :=
  rule.LacksLog ∨ rule.LacksLimitLog

theorem logs_of_logsByDefault {kind : RuleKind} {action : String}
    (byDefault : logsByDefault kind action = true) :
    kind.logs = true ∧ (customName? action).isSome = false := by
  unfold logsByDefault at byDefault
  simp only [Bool.and_eq_true, Bool.or_eq_true, decide_eq_true_eq] at byDefault
  obtain ⟨isFilter, (rfl | rfl) | rfl⟩ := byDefault <;> exact ⟨logs_of_isFilter isFilter, by decide⟩

/-- Where the limit of a rule is settled again and stays without a log class, the default class does
not log. -/
theorem isSilent_of_settleFilter
    {limited : Rule} (sameKind : limited.kind = rule.kind)
    (sameLimits : ∀ name ∈ limitNames, limited.attributes.get name = rule.attributes.get name)
    (run : Rule.settleFilter limited before = (.ok again, after))
    (same : again.attributes = rule.attributes) (lacks : rule.LacksLimitLog) :
    before.IsSilent := by
  obtain ⟨name, stated, isNull⟩ := lacks
  have isLimit := (mem_limitNames_of_limitName? stated).1
  have statedAgain := limitName?_of_alike stated sameKind fun limit member => by
    rw [Record.has, Record.has, sameLimits limit member]
  rcases settleFilter_eq_ok run with ⟨notFilter, -⟩ | ⟨_, limits, _⟩
  · simp [limitName?, notFilter] at statedAgain
  · rcases settleLimit_eq_ok limits with ⟨unlimited, -⟩ | ⟨found, log, isFound, selects, rfl⟩
    · simp [unlimited] at statedAgain
    · obtain rfl : found = name := by simpa [isFound] using statedAgain
      have sameDirective : limitDirective limited.attributes found = .null := by
        rw [limitDirective, sameLimits found isLimit]
        exact isNull
      rw [sameDirective] at selects
      refine (LogClass.select_default_eq_ok selects).1.1 ?_
      rw [← LogClass.optionValue_eq_null, ← limitDirective_withLimitLog limited found log, same]
      exact isNull

/-- A rule without a log class stays without, where its action is not logged by default or the
default class does not log. -/
theorem select_of_lacksLog
    {kind : RuleKind} {action : String} (place : String)
    (silent : logsByDefault kind action = true → before.IsSilent) :
    ∃ last, LogClass.select place .null
        (.bool (!(customName? action).isSome && logsByDefault kind action)) before =
          (.ok none, last) ∧ (before.IsSilent → last.IsSilent) := by
  cases byDefault : logsByDefault kind action with
  | false =>
      rw [Bool.and_false]
      exact ⟨before, rfl, id⟩
  | true =>
      rw [(logs_of_logsByDefault byDefault).2]
      obtain ⟨last, selects, isSilent⟩ := LogClass.select_of_isSilent (silent byDefault) place
      exact ⟨last, selects, fun _ => isSilent⟩

theorem eq_of_settleMeasure
    {kind : RuleKind} (run : settleMeasure kind place attributes before = (.ok logged, after)) :
    after = before := by
  unfold settleMeasure at run
  split at run
  · exact (recording_eq_ok.1 run).2.symm
  · exact (pure_eq_ok.1 run).2.symm

namespace IsSettled

variable (isSettled : rule.IsSettled)

include isSettled

theorem settleAction :
    Rule.settleAction rule.kind place rule.attributes before = (.ok rule.attributes, before) := by
  unfold Rule.settleAction
  split
  · next isFilter =>
      have isAction := Record.get_of_lookup (isSettled.action (logs_of_isFilter isFilter))
      obtain ⟨target, read⟩ := isSettled.target isFilter
      have unreplaced : replacedActions.lookup rule.action = none :=
        lookup_replacedActions (target_eq_filterTarget isFilter ▸ read)
      unfold replaceAction
      simp only [isAction, unreplaced]
      rfl
  · rfl

theorem settleSet : Rule.settleSet place rule.attributes = .ok rule.attributes :=
  settleCollection_of_holds isSettled.set

theorem settleDestination :
    Rule.settleDestination rule.kind place rule.attributes before =
      (.ok rule.attributes, before) := by
  unfold Rule.settleDestination
  split
  · next redirects =>
      exact recording_eq_ok.2 ⟨settleCollection_of_holds (isSettled.destination redirects), rfl⟩
  · rfl

theorem settleMeasure :
    Rule.settleMeasure rule.kind place rule.attributes before = (.ok rule.attributes, before) := by
  unfold Rule.settleMeasure
  split
  · next isUpdate =>
      obtain ⟨limit, measureListed, addrListed, measure⟩ := isSettled.update isUpdate
      refine recording_eq_ok.2 ⟨?_, rfl⟩
      simp only [settleUpdate, limit, Record.setDefault_of_mem measureListed,
        Record.setDefault_of_mem addrListed, measure]
      rfl
  · rfl

/-- The action that is settled again is the same, and so is a log class. -/
theorem settleLogging (place : String) (silent : rule.LacksLog → before.IsSilent) :
    ∃ last, Rule.settleLogging rule.kind place rule.attributes before =
        (.ok rule.attributes, last) ∧ (before.IsSilent → last.IsSilent) := by
  unfold Rule.settleLogging
  split
  · next logs =>
      have isAction := isSettled.action logs
      obtain ⟨log, isLog⟩ := isSettled.log logs
      have unlogged : ((customName? rule.action).isSome && rule.attributes.flag "log") = false := by
        cases custom : (customName? rule.action).isSome with
        | false => rfl
        | true => exact isSettled.unlogged logs custom
      have acted := Record.setDefault_of_mem
        (Record.mem_names_iff.2 (isAction ▸ rfl : (rule.attributes.lookup "action").isSome = true))
        (.text "accept")
      have written : (Value.text rule.action).written = rule.action := rfl
      unfold settleLog
      simp only [acted, Record.get_of_lookup isAction, written, Record.set_of_lookup isAction,
        Record.get_of_lookup isLog]
      cases log with
      | some log =>
          simp only [LogClass.optionValue, LogClass.toValue, LogClass.ofValue?]
          refine ⟨before, bind_eq_ok.2 ⟨_, _, rfl, ?_⟩, id⟩
          rw [unlogged]
          rfl
      | none =>
          simp only [LogClass.optionValue, LogClass.ofValue?]
          obtain ⟨last, selects, later⟩ := select_of_lacksLog place fun byDefault =>
            silent ⟨byDefault, Record.get_of_lookup isLog⟩
          refine ⟨last, bind_eq_ok.2 ⟨_, _, selects, bind_eq_ok.2 ⟨rule.attributes, last, ?_,
            ?_⟩⟩, later⟩
          · exact pure_eq_ok.2 ⟨Record.set_of_lookup isLog, rfl⟩
          · rw [unlogged]
            rfl
  · exact ⟨before, rfl, id⟩

/-- The limit that is settled again is the same. -/
theorem settleLimit
    (again : Rule) (isFilter : rule.kind.isFilter = true)
    (silent : rule.LacksLimitLog → before.IsSilent)
    (sameKind : again.kind = rule.kind) (sameAttributes : again.attributes = rule.attributes) :
    ∃ last, Rule.settleLimit again before = (.ok again, last) := by
  rcases isSettled.limit isFilter with unlimited | ⟨name, log, isLimit⟩
  · have none := limitName?_of_alike unlimited sameKind fun _ _ => by rw [sameAttributes]
    exact ⟨before, bind_eq_ok.2 ⟨_, _, recording_eq_ok.2 ⟨none, rfl⟩, rfl⟩⟩
  · obtain ⟨mapping, stated, isLog⟩ := isLimit.mapping
    have some := limitName?_of_alike isLimit.stated sameKind fun _ _ => by rw [sameAttributes]
    have sameMapping : limitMapping (again.attributes.get name) = mapping := by
      rw [sameAttributes, Record.get_of_lookup stated]
      rfl
    obtain ⟨last, selects⟩ : ∃ last, LogClass.select again.location (LogClass.optionValue log)
        (.bool true) before = (.ok log, last) := by
      cases log with
      | some log => exact ⟨before, LogClass.select_toValue (isLimit.enabled log rfl) ..⟩
      | none =>
          have lacks : limitDirective rule.attributes name = .null := by
            rw [limitDirective, ← sameAttributes, sameMapping, isLog]
            rfl
          obtain ⟨last, selects, -⟩ :=
            LogClass.select_of_isSilent (silent ⟨name, isLimit.stated, lacks⟩) again.location
          exact ⟨last, selects⟩
    refine ⟨last, bind_eq_ok.2 ⟨_, before, recording_eq_ok.2 ⟨some, rfl⟩, ?_⟩⟩
    dsimp only
    rw [sameAttributes, if_neg (ne_true_of_eq_false isLimit.tracked), ← sameAttributes,
      sameMapping, isLog]
    refine bind_eq_ok.2 ⟨log, last, selects, pure_eq_ok.2 ⟨?_, rfl⟩⟩
    rw [Entries.insert_of_get? isLog, sameAttributes, Record.set_of_lookup stated,
      ← sameAttributes]

/-- The limit that is settled again is the same, and the target is valid as before. -/
theorem settleFilter
    (again : Rule) (silent : rule.LacksLimitLog → before.IsSilent)
    (sameKind : again.kind = rule.kind) (sameAttributes : again.attributes = rule.attributes) :
    ∃ last, Rule.settleFilter again before = (.ok again, last) := by
  unfold Rule.settleFilter
  rw [sameKind]
  split
  · next isFilter =>
      obtain ⟨target, read⟩ := isSettled.target isFilter
      rw [target_eq_filterTarget isFilter] at read
      have sameAction : again.action = rule.action := by
        rw [Rule.action, sameAttributes, ← Rule.action]
      obtain ⟨_, readAgain, rfl⟩ := follows_filterTarget sameAction target read
      rw [← target_eq_filterTarget (sameKind ▸ isFilter)] at readAgain
      obtain ⟨last, limits⟩ := isSettled.settleLimit again isFilter silent sameKind sameAttributes
      refine ⟨last, bind_eq_ok.2 ⟨again, last, limits, ?_⟩⟩
      exact bind_eq_ok.2 ⟨target, last, recording_eq_ok.2 ⟨readAgain, rfl⟩, rfl⟩
  · exact ⟨before, rfl⟩

/-- A rule that is settled is settled again, with the same attributes. -/
theorem settle (knows : rule.Knows before) (place : String)
    (silent : rule.IsMuted → before.IsSilent) :
    ∃ again last, Rule.settle rule.kind place rule.attributes before = (.ok again, last) ∧
      again.attributes = rule.attributes := by
  obtain ⟨selectsIn, selectsOut, services, next, selects⟩ := knows.select_again place
  let started : Context := { before with nextSerial := next }
  have sameLogs : Context.SameLogs before started := ⟨rfl, rfl, rfl⟩
  obtain ⟨logged, logs, later⟩ := isSettled.settleLogging place fun lacks =>
    (silent (Or.inl lacks)).of_sameLogs sameLogs
  let numbered : Context := { logged with nextSerial := logged.nextSerial + 1 }
  let again : Rule := { rule with serial := logged.nextSerial, location := place, services }
  have stillSilent (lacks : rule.LacksLimitLog) : numbered.IsSilent :=
    (later ((silent (Or.inr lacks)).of_sameLogs sameLogs)).of_sameLogs ⟨rfl, rfl, rfl⟩
  obtain ⟨last, filters⟩ := isSettled.settleFilter again stillSilent rfl rfl
  refine ⟨again, last, ?_, rfl⟩
  simp only [Rule.settle, bind_eq_ok, get_eq_ok, recording_eq_ok]
  exact ⟨_, _, isSettled.settleAction, _, _, ⟨rfl, rfl⟩, _, _, ⟨selectsIn, rfl⟩, _, _,
    ⟨selectsOut, rfl⟩, _, _, selects, _, _, ⟨isSettled.settleSet, rfl⟩, _, _,
    isSettled.settleDestination, _, _, logs, _, _, isSettled.settleMeasure, _, _, rfl, filters⟩

/-- Where the log class of a rule is settled again, the default class is still what it was, and it
does not log if the rule goes without. -/
theorem isSilent_of_settleLogging
    (run : Rule.settleLogging rule.kind place rule.attributes before = (.ok logged, after)) :
    (after.IsSilent → before.IsSilent) ∧
      (rule.LacksLog → logged.get "log" = .null → before.IsSilent) := by
  unfold Rule.settleLogging at run
  split at run
  · next logs =>
      have isAction := isSettled.action logs
      obtain ⟨log, isLog⟩ := isSettled.log logs
      have sameAction : settledAction rule.attributes = rule.action := by
        rw [settledAction, Record.setDefault_of_mem (Record.mem_names_iff.2 (isAction ▸ rfl)),
          ← Rule.action]
      have directive := Record.get_of_lookup isLog
      rcases (settleLog_eq_ok run).2 with ⟨isClass, -, rfl⟩ | ⟨noClass, found, selects, rfl⟩
      · refine ⟨id, fun lacks _ => ?_⟩
        rw [lacks.2] at isClass
        cases isClass
      · obtain rfl : log = none := by
          cases log with
          | none => rfl
          | some log =>
              rw [directive] at noClass
              cases noClass
        rw [directive, sameAction] at selects
        cases byDefault : logsByDefault rule.kind rule.action with
        | false =>
            rw [byDefault, Bool.and_false] at selects
            obtain ⟨-, rfl⟩ := pure_eq_ok.1 selects
            exact ⟨id, fun lacks => absurd (byDefault.symm.trans lacks.1) Bool.false_ne_true⟩
        | true =>
            rw [byDefault, (logs_of_logsByDefault byDefault).2] at selects
            obtain ⟨isNone, later⟩ := LogClass.select_default_eq_ok selects
            refine ⟨later.1, fun _ isNull => isNone.1 ?_⟩
            rwa [Record.get_set_self, LogClass.optionValue_eq_null] at isNull
  · next notLogging =>
      obtain ⟨-, rfl⟩ := pure_eq_ok.1 run
      exact ⟨id, fun lacks => absurd (logs_of_logsByDefault lacks.1).1 notLogging⟩

/-- A rule that does not log what is logged by default is settled again with the same attributes
only where the default class does not log. -/
theorem isSilent_of_settle (knows : rule.Knows before)
    (run : Rule.settle rule.kind place rule.attributes before = (.ok again, after))
    (same : again.attributes = rule.attributes) (muted : rule.IsMuted) :
    before.IsSilent := by
  obtain ⟨acted, c₁, zonesIn, zonesOut, services, c₂, withSet, withDestination, c₃, logged, c₄,
    measured, c₅, serial, c₆, acts, _, _, selects, sets, directs, logs, measures, numbers,
    settles⟩ := settle_eq_ok run
  obtain ⟨rfl, rfl⟩ := eq_of_eq_ok isSettled.settleAction acts
  obtain ⟨_, _, _, next, selectsAgain⟩ := knows.select_again place
  obtain ⟨rfl, rfl⟩ := eq_of_eq_ok selectsAgain selects
  obtain rfl := Except.ok.inj (isSettled.settleSet.symm.trans sets)
  obtain ⟨rfl, rfl⟩ := eq_of_eq_ok isSettled.settleDestination directs
  obtain ⟨earlier, unlogged⟩ := isSettled.isSilent_of_settleLogging logs
  have sameLogs : Context.SameLogs { before with nextSerial := next } before := ⟨rfl, rfl, rfl⟩
  rcases muted with lacks | lacks
  · have fromLogged : Keeps (["measure", "addr"] ++ limitNames) logged again.attributes :=
      (keeps_settleMeasure.of_eq measures).append (keeps_settleFilter settles)
    refine (unlogged lacks ?_).of_sameLogs sameLogs
    rw [← fromLogged.get (by decide), same]
    exact lacks.2
  · have kept : Keeps (["action", "log"] ++ ["measure", "addr"]) rule.attributes measured :=
      (keeps_settleLogging.of_eq logs).append (keeps_settleMeasure.of_eq measures)
    have silent : c₆.IsSilent := by
      refine isSilent_of_settleFilter ?_ (fun name member => ?_) settles same lacks
      · rfl
      · refine kept.get ?_
        revert name
        decide
    obtain rfl := eq_of_settleMeasure measures
    obtain ⟨-, rfl⟩ := freshSerial_eq_ok.1 numbers
    exact (earlier (silent.of_sameLogs ⟨rfl, rfl, rfl⟩)).of_sameLogs sameLogs

end IsSettled

end Rule

/-! ## Objects of all kinds -/

theorem Rule.attributes_declare_iff
    {kind : RuleKind} {location place : String} {source : Entry} {rule : Rule}
    {before after : Context}
    (run : Rule.declare kind location source before = (.ok rule, after)) :
    (∃ again last, Rule.declare kind place (.object (.rule rule)) after = (.ok again, last) ∧
      again.attributes = rule.attributes) ↔ (rule.IsMuted → after.IsSilent) := by
  have knows : rule.Knows after :=
    (knows_of_declare run).grows (notes_declare.of_eq run : Notes before after).grows
  obtain ⟨attributes, middle, reads, settles⟩ := bind_eq_ok.1 run
  have isSettled := isSettled_of_settle (within_of_attributesOf.of_eq reads) settles
  obtain rfl : rule.kind = kind := (settledFrom_of_settle settles).kind
  have readsAgain := attributesOf_object (.rule rule) isSettled.within place after
  constructor
  · rintro ⟨again, last, runAgain, same⟩ muted
    obtain ⟨_, _, reads, settlesAgain⟩ := bind_eq_ok.1 runAgain
    obtain ⟨rfl, rfl⟩ := eq_of_eq_ok readsAgain reads
    exact isSettled.isSilent_of_settle knows settlesAgain same muted
  · intro silent
    obtain ⟨again, last, settlesAgain, same⟩ := isSettled.settle knows place silent
    exact ⟨again, last, bind_eq_ok.2 ⟨_, _, readsAgain, settlesAgain⟩, same⟩

namespace PolicyObject

/-- The object is a rule that does not log what is logged by default. -/
def IsMuted : PolicyObject → Prop
  | .rule r => r.IsMuted
  | _ => False

/-- An object of one of the kinds is declared with some attributes exactly if what it wraps is. -/
theorem wraps_iff
    {α : Type} {action : Run α} {wrap : α → PolicyObject} {attributes : Record} {context : Context}
    (ofWrapped : α → Record) (sameAttributes : ∀ a, (wrap a).attributes = ofWrapped a) :
    (∃ again last, (action >>= fun a => pure (wrap a)) context = (.ok again, last) ∧
        again.attributes = attributes) ↔
      ∃ a last, action context = (.ok a, last) ∧ ofWrapped a = attributes := by
  constructor
  · rintro ⟨_, last, run, same⟩
    obtain ⟨a, _, acts, run⟩ := bind_eq_ok.1 run
    obtain ⟨rfl, rfl⟩ := pure_eq_ok.1 run
    exact ⟨a, _, acts, (sameAttributes a).symm.trans same⟩
  · rintro ⟨a, last, acts, same⟩
    exact ⟨wrap a, last, bind_eq_ok.2 ⟨a, last, acts, rfl⟩, (sameAttributes a).trans same⟩

/-- A declared object can be declared again, and has the same attributes then, exactly if it is no
rule that goes without the logging that is the default for it, or the default class does not log.
Null asks for the default, and it is also what a rule without logging is left with. -/
theorem declare_again_iff
    {kind : ObjectKind} {location : String} {key : Option Scalar} {source : Entry}
    {object : PolicyObject} {before after : Context} (place : String)
    (run : declare kind location key source before = (.ok object, after)) :
    (∃ again last, declare kind place key (.object object) after = (.ok again, last) ∧
        again.attributes = object.attributes) ↔
      (object.IsMuted → after.IsSilent) := by
  unfold declare at run ⊢
  cases kind with
  | zone =>
      obtain ⟨zone, _, declares, run⟩ := bind_eq_ok.1 run
      obtain ⟨rfl, rfl⟩ := pure_eq_ok.1 run
      exact ⟨fun _ => False.elim, fun _ =>
        (wraps_iff Zone.attributes fun _ => rfl).2 (Zone.declare_again declares)⟩
  | service =>
      obtain ⟨service, _, declares, run⟩ := bind_eq_ok.1 run
      obtain ⟨rfl, rfl⟩ := pure_eq_ok.1 run
      exact ⟨fun _ => False.elim, fun _ => ⟨.service service, _, rfl, rfl⟩⟩
  | definition =>
      obtain ⟨definition, _, declares, run⟩ := bind_eq_ok.1 run
      obtain ⟨rfl, rfl⟩ := pure_eq_ok.1 run
      exact ⟨fun _ => False.elim, fun _ => (wraps_iff ServiceDefinition.attributes fun _ => rfl).2
        (ServiceDefinition.declare_again declares)⟩
  | log =>
      obtain ⟨log, _, declares, run⟩ := bind_eq_ok.1 run
      obtain ⟨rfl, rfl⟩ := pure_eq_ok.1 run
      exact ⟨fun _ => False.elim, fun _ =>
        (wraps_iff LogClass.attributes fun _ => rfl).2 (LogClass.declare_again declares)⟩
  | limit =>
      obtain ⟨limit, _, declares, run⟩ := bind_eq_ok.1 run
      obtain ⟨rfl, rfl⟩ := pure_eq_ok.1 run
      exact ⟨fun _ => False.elim, fun _ => (wraps_iff Limit.attributes fun _ => rfl).2
        (Limit.declare_again (by decide) declares rfl)⟩
  | filterLimit =>
      obtain ⟨limit, _, declares, run⟩ := bind_eq_ok.1 run
      obtain ⟨rfl, rfl⟩ := pure_eq_ok.1 run
      exact ⟨fun _ => False.elim, fun _ => (wraps_iff Limit.attributes fun _ => rfl).2
        (Limit.declare_again (by decide) declares rfl)⟩
  | rule kind =>
      obtain ⟨rule, _, declares, run⟩ := bind_eq_ok.1 run
      obtain ⟨rfl, rfl⟩ := pure_eq_ok.1 run
      exact (wraps_iff Rule.attributes fun _ => rfl).trans (Rule.attributes_declare_iff declares)

/-- What declares a rule for mail, with a limit. -/
def mailSource : Entry :=
  .raw (.map [(.text "service", .map [(.text "proto", .text "TCP"), (.text "port", .int 25)]),
    (.text "conn-limit", .int 3)])

/-- The default log class. -/
def plainLog : LogClass :=
  { serial := 2, location := "default log", key := some (.text ""),
    attributes := [("mode", .text "log")] }

/-- The rule that is declared so: what is above the limit is logged. -/
def mailRule : Rule :=
  { kind := .filter, serial := 1, location := "filter 1"
    attributes := [
      ("service", .map [(.text "proto", .text "TCP"), (.text "port", .int 25)]),
      ("conn-limit", .map [(.text "count", .int 3), (.text "log", plainLog.toValue)]),
      ("action", .text "accept"), ("log", .null)]
    zonesIn := none, zonesOut := none
    services := some [.service { serial := 0, location := "filter 1 service", definitions := [
      { location := "filter 1 service", attributes := [("proto", .text "tcp"), ("port", .int 25)],
        protocol := "tcp" }] }] }

theorem declare_again_mailRule :
    declare (.rule .filter) "filter 1" none mailSource {} =
        (.ok (.rule mailRule), { defaultLog := some plainLog, nextSerial := 3 }) ∧
      ∃ again last, declare (.rule .filter) "filter 2" none (.object (.rule mailRule))
          { defaultLog := some plainLog, nextSerial := 3 } = (.ok again, last) ∧
        again.attributes = mailRule.attributes := by
  have declared : declare (.rule .filter) "filter 1" none mailSource {} =
      (.ok (.rule mailRule), { defaultLog := some plainLog, nextSerial := 3 }) := by
    with_unfolding_all rfl
  have accepts : Rule.logsByDefault .filter mailRule.action = false := by decide +kernel
  have limited : mailRule.limitName? = .ok (some "conn-limit") := rfl
  refine ⟨declared, (declare_again_iff "filter 2" declared).2 ?_⟩
  rintro (⟨logs, -⟩ | ⟨name, stated, isNull⟩)
  · cases accepts.symm.trans logs
  · obtain rfl : "conn-limit" = name := by simpa [limited] using stated
    cases isNull

/-- What declares a rule that drops without logging. -/
def quietSource : Entry :=
  .raw (.map [(.text "action", .text "drop"), (.text "log", .bool false)])

/-- A rule that drops, with a log class or without. -/
def dropRule (serial : Nat) (log : Option LogClass) : Rule :=
  { kind := .filter, serial, location := "filter 1"
    attributes := [("action", .text "drop"), ("log", LogClass.optionValue log)]
    zonesIn := none, zonesOut := none, services := none }

/-- A rule that drops without logging logs when it is declared again. -/
theorem not_declare_again_dropRule :
    ¬∀ (kind : ObjectKind) (location : String) (key : Option Scalar) (source : Entry)
      (object : PolicyObject) (before after : Context),
      declare kind location key source before = (.ok object, after) →
        ∃ again last, declare kind location key (.object object) after = (.ok again, last) ∧
          again.attributes = object.attributes := by
  intro claimed
  have declared : declare (.rule .filter) "filter 1" none quietSource {} =
      (.ok (.rule (dropRule 0 none)), { nextSerial := 1 }) := by
    with_unfolding_all rfl
  have logs : declare (.rule .filter) "filter 1" none (.object (.rule (dropRule 0 none)))
      { nextSerial := 1 } = (.ok (.rule (dropRule 2 (some { plainLog with serial := 1 }))),
        { defaultLog := some { plainLog with serial := 1 }, nextSerial := 3 }) := by
    with_unfolding_all rfl
  obtain ⟨again, last, run, same⟩ := claimed _ _ _ _ _ _ _ declared
  obtain ⟨rfl, -⟩ := eq_of_eq_ok logs run
  have sameLog := congrArg (fun record : Record => record.get "log") same
  cases sameLog

end PolicyObject

end FirewallPolicy
