import FirewallPolicy.Proofs.Run.Faults

/-!
# What computations in a context put on record

Declaring objects and expanding rules, whatever the policy states and whatever a directory answers, put
the fault they fail with on record, and no other.  The exception is a source of an object that is no
mapping: it makes a declaration fail before anything is recorded.
-/

namespace FirewallPolicy

open Stateful

/-! ## Computations in a context -/

namespace Run

variable {α β : Type}

theorem records_freshSerial : Records freshSerial :=
  records_get_bind fun _ => (records_modify fun _ => rfl).bind fun _ => records_pure _

theorem records_chainNameOf {serial : Nat} {key : String} : Records (chainNameOf serial key) := by
  refine records_get_bind fun context => ?_
  split
  · exact records_pure _
  · have named : Records (freshName key) :=
      records_get_bind fun _ => (records_modify fun _ => rfl).bind fun _ => records_pure _
    exact named.bind fun _ => (records_modify fun _ => rfl).bind fun _ => records_pure _

theorem records_declareChain {chain : String} {rules : List Fragment} :
    Records (declareChain chain rules) := by
  refine records_get_bind fun context => ?_
  split
  · exact records_pure _
  · exact (records_modify fun _ => rfl).bind fun _ => records_pure _

/-- The answers of a directory are addresses or refuse a host or a network. -/
theorem records_resolveHost {location text : String} : Records (resolveHost location text) := by
  refine records_get_bind fun context => ?_
  extract_lets book
  refine Records.bind (records_modify fun _ => rfl) fun _ => ?_
  cases answered : book.answer text with
  | addresses list => exact records_pure list
  | unordered => exact records_unusable
  | refused cause =>
      refine records_report ?_
      unfold HostBook.answer at answered
      split at answered
      · simp at answered
      · split at answered
        · obtain rfl := HostBook.Answer.refused.inj answered
          rfl
        · split at answered
          · obtain rfl := HostBook.Answer.refused.inj answered
            rfl
          · split at answered
            · simp at answered
            · obtain rfl := HostBook.Answer.refused.inj answered
              rfl
            · simp at answered

theorem records_hostFragments {location option : String} {hosts : List Value} :
    Records (hostFragments location option hosts) :=
  records_gather fun _ => Records.bind records_resolveHost fun _ => records_pure _

end Run

/-! ## Objects other than rules -/

open Run

theorem records_attributesOf {kind : ObjectKind} {location : String} {source : Entry} :
    Records (attributesOf kind location source) := by
  unfold attributesOf
  split
  · -- The caller is told, but nothing is recorded.
    intro before
    exact ⟨(List.append_nil _).symm, failsOnly_throw.2 (.inr ⟨location, rfl⟩)⟩
  · split
    · exact records_pure _
    · exact records_report rfl

namespace Zone

theorem records_declare {location : String} {source : Entry} :
    Records (Zone.declare location source) :=
  Records.bind records_attributesOf fun _ => records_pure _

theorem records_fragmentsOn {zone : Zone} {direction : Direction} {interfaces : List String} :
    Records (zone.fragmentsOn direction interfaces) := by
  refine Records.bind ?_ fun _ => records_pure _
  unfold addressFragments
  split
  · exact Records.bind records_hostFragments fun _ => records_pure _
  · exact records_pure _

end Zone

theorem ServiceDefinition.records_declare {location : String} {source : Entry} :
    Records (ServiceDefinition.declare location source) :=
  Records.bind records_attributesOf fun _ => records_recording failsPlainly_settle

namespace Service

theorem records_declareItems {location : String} {items : List Entry} :
    Records (declareItems location items) := by
  induction items with
  | nil => exact records_pure _
  | cons item rest inductionHypothesis =>
      exact Records.bind ServiceDefinition.records_declare fun _ =>
        inductionHypothesis.bind fun _ => records_pure _

theorem records_declare {location : String} {source : Entry} :
    Records (Service.declare location source) := by
  unfold Service.declare
  split
  · exact records_pure _
  · refine Records.bind records_freshSerial fun _ =>
      Records.bind records_declareItems fun definitions => ?_
    dsimp only
    split
    · exact (records_report rfl).bind fun _ => records_pure _
    · exact records_pure _

end Service

namespace LogClass

theorem records_declare {location : String} {key : Option Scalar} {source : Entry} :
    Records (LogClass.declare location key source) := by
  refine Records.bind records_attributesOf fun _ => records_get_bind fun _ => ?_
  exact (records_recording failsPlainly_settle).bind fun _ =>
    Records.bind records_freshSerial fun _ => records_pure _

theorem records_lookup {location name : String} : Records (LogClass.lookup location name) := by
  refine records_get_bind fun context => ?_
  split
  · dsimp only
    split
    · exact records_unusable
    · exact records_report rfl
  · split
    · exact records_report rfl
    · exact records_pure _
    · exact Records.bind records_declare fun _ =>
        (records_modify fun _ => rfl).bind fun _ => records_pure _

theorem records_default {location : String} : Records (LogClass.default location) := by
  refine records_get_bind fun context => ?_
  split
  · exact records_pure _
  · refine records_get_bind fun context => ?_
    have keeps (log : LogClass) : Records (do
        let log := { log with key := some (.text "") }
        modify fun context : Context => { context with defaultLog := some log }
        return log : Run LogClass) :=
      (records_modify fun _ => rfl).bind fun _ => records_pure _
    split
    · exact Records.bind records_lookup keeps
    · exact records_get_bind fun _ => Records.bind records_declare keeps

theorem records_select {location : String} {directive fallback : Value} :
    Records (LogClass.select location directive fallback) := by
  unfold LogClass.select
  extract_lets enabled chosen
  split
  · exact records_pure _
  · exact records_pure _
  · exact Records.bind records_default fun _ => records_pure _
  · exact records_pure _
  · exact Records.bind records_declare fun _ => records_pure _
  · exact records_pure _
  · exact Records.bind records_lookup fun _ => records_pure _

end LogClass

theorem Limit.records_declare {kind : ObjectKind} {location : String} {source : Entry} :
    Records (Limit.declare kind location source) :=
  Records.bind records_attributesOf fun _ => records_recording failsPlainly_settle

/-! ## Rules -/

namespace Rule

variable {rule : Rule}

theorem records_selectServices {location : String} {items : Value} :
    Records (selectServices location items) := by
  have each (items : List Value) : Records (selectEach location items) := by
    induction items with
    | nil => exact records_pure _
    | cons item rest inductionHypothesis =>
        refine Records.bind ?_ fun _ => inductionHypothesis.bind fun _ => records_pure _
        unfold selectService
        split
        · refine records_get_bind fun context => (records_lift failsOnly_findEntry).bind fun _ => ?_
          split
          · exact records_report rfl
          · exact records_report rfl
          · exact records_pure _
        · exact Records.bind Service.records_declare fun _ => records_pure _
  unfold selectServices
  split
  · exact records_pure _
  · exact (each _).bind fun _ => records_pure _

theorem records_replaceAction {location : String} {attributes : Record} :
    Records (replaceAction location attributes) := by
  unfold replaceAction
  extract_lets action replace
  clear_value action
  have replaced : ∀ u, Records (replace u) := by
    intro u
    unfold replace
    split
    · split
      · exact Records.bind records_warn fun _ => records_pure _
      · exact records_pure _
    · exact records_pure _
  split
  · exact Records.bind records_unusable replaced
  · exact replaced ()

theorem records_settleLog {kind : RuleKind} {location : String} {attributes : Record} :
    Records (settleLog kind location attributes) := by
  unfold settleLog
  extract_lets withAction action settled custom directive check
  have checked : ∀ logged, Records (check logged) := by
    intro logged
    unfold check
    extract_lets done
    split
    · exact (records_report rfl).bind fun _ => records_pure _
    · exact records_pure _
  split
  · exact (records_pure _).bind checked
  · exact Records.bind LogClass.records_select fun _ => (records_pure _).bind checked

theorem records_settleLimit : Records (settleLimit rule) := by
  refine (records_recording failsPlainly_limitName?).bind fun limitName => ?_
  cases limitName with
  | none => exact records_pure _
  | some name =>
      dsimp only
      split
      · exact (records_report rfl).bind fun _ =>
          Records.bind LogClass.records_select fun _ => records_pure _
      · exact Records.bind LogClass.records_select fun _ => records_pure _

theorem records_settleAction {kind : RuleKind} {location : String} {attributes : Record} :
    Records (settleAction kind location attributes) := by
  unfold settleAction
  split
  · exact records_replaceAction
  · exact records_pure _

theorem records_settleDestination {kind : RuleKind} {location : String} {attributes : Record} :
    Records (settleDestination kind location attributes) := by
  unfold settleDestination
  split
  · exact records_recording failsPlainly_settleDnat
  · exact records_pure _

theorem records_settleLogging {kind : RuleKind} {location : String} {attributes : Record} :
    Records (settleLogging kind location attributes) := by
  unfold settleLogging
  split
  · exact records_settleLog
  · exact records_pure _

theorem records_settleMeasure {kind : RuleKind} {location : String} {attributes : Record} :
    Records (settleMeasure kind location attributes) := by
  unfold settleMeasure
  split
  · exact records_recording failsPlainly_settleUpdate
  · exact records_pure _

theorem records_settleFilter : Records (settleFilter rule) := by
  unfold settleFilter
  split
  · exact Records.bind records_settleLimit fun _ =>
      (records_recording failsPlainly_target).bind fun _ => records_pure _
  · exact records_pure _

theorem records_settle {kind : RuleKind} {location : String} {attributes : Record} :
    Records (settle kind location attributes) :=
  Records.bind records_settleAction fun _ => records_get_bind fun _ =>
    (records_recording failsPlainly_selectZones).bind fun _ =>
    (records_recording failsPlainly_selectZones).bind fun _ =>
    Records.bind records_selectServices fun _ =>
    (records_recording failsPlainly_settleSet).bind fun _ =>
    Records.bind records_settleDestination fun _ => Records.bind records_settleLogging fun _ =>
    Records.bind records_settleMeasure fun _ => Records.bind records_freshSerial fun _ =>
    records_settleFilter

theorem records_declare {kind : RuleKind} {location : String} {source : Entry} :
    Records (Rule.declare kind location source) :=
  Records.bind records_attributesOf fun _ => records_settle

end Rule

theorem PolicyObject.records_declare
    {kind : ObjectKind} {location : String} {key : Option Scalar} {source : Entry} :
    Records (PolicyObject.declare kind location key source) := by
  cases kind with
  | zone => exact Records.bind Zone.records_declare fun _ => records_pure _
  | service => exact Records.bind Service.records_declare fun _ => records_pure _
  | definition => exact Records.bind ServiceDefinition.records_declare fun _ => records_pure _
  | log => exact Records.bind LogClass.records_declare fun _ => records_pure _
  | limit => exact Records.bind Limit.records_declare fun _ => records_pure _
  | filterLimit => exact Records.bind Limit.records_declare fun _ => records_pure _
  | rule kind => exact Records.bind Rule.records_declare fun _ => records_pure _

namespace Rule

variable {rule : Rule}

/-! ## Matches -/

theorem records_zoneFragments : Records rule.zoneFragments := by
  have side (chain : String) (direction : Direction) (selector : Option ZoneSelector) :
      Records (sideFragments chain direction selector) := by
    unfold sideFragments
    split
    · exact records_pure _
    · exact Records.bind Zone.records_fragmentsOn fun _ => records_pure _
    · exact records_unusable
  refine (records_gather fun _ => records_gather fun chain => ?_).bind fun _ => records_pure _
  unfold chainFragments
  split
  · exact records_gather fun _ => Records.bind Zone.records_fragmentsOn fun _ =>
      Records.bind Zone.records_fragmentsOn fun _ => records_pure _
  · exact (side chain .inward _).bind fun _ => (side chain .outward _).bind fun _ => records_pure _

theorem records_addressFragments {name : String} {direction : Direction} :
    Records (rule.addressFragments name direction) := by
  unfold addressFragments
  split
  · exact Records.bind records_hostFragments fun _ => records_pure _
  · exact records_pure _

theorem records_dnatAddress : Records rule.dnatAddress := by
  unfold dnatAddress
  extract_lets read
  have reads : ∀ entries, Records (read entries) := by
    intro entries
    unfold read
    split
    · exact records_unusable
    · extract_lets host resolve
      have resolved : ∀ u, Records (resolve u) := fun u =>
        Records.bind records_resolveHost fun _ => records_recording failsPlainly_onlyInet
      split
      · exact (records_report rfl).bind resolved
      · exact resolved ()
  split
  · exact (records_pure _).bind reads
  · exact Records.bind records_unusable reads

theorem records_destinationFragments : Records rule.destinationFragments := by
  refine Records.bind records_addressFragments fun given => ?_
  split
  · exact Records.bind records_dnatAddress fun _ => Records.bind Zone.records_declare fun _ =>
      Records.bind Zone.records_fragmentsOn fun _ => records_pure _
  · exact records_pure _

theorem records_dnatServiceFragments : Records rule.dnatServiceFragments := by
  refine (records_recording failsPlainly_namedServiceFragments).bind fun given => ?_
  split
  · exact records_pure _
  · refine (records_recording failsPlainly_dnatField).bind fun port => ?_
    split
    · exact records_pure _
    · refine (records_recording failsPlainly_dnatProtocols).bind fun _ =>
        Records.bind ?_ fun _ => records_pure _
      exact records_gather fun _ => Records.bind Service.records_declare fun _ =>
        (records_recording Service.failsPlainly_fragments).bind fun _ => records_pure _

theorem records_serviceFragments : Records rule.serviceFragments := by
  unfold serviceFragments
  split
  · exact records_pure _
  · refine records_recording ?_
    simp [failsPlainly_definitions, failsPlainly_helperFragments]
  · refine Records.bind records_dnatServiceFragments fun _ => ?_
    split <;> exact records_pure _
  all_goals first
    | exact records_dnatServiceFragments
    | exact records_recording failsPlainly_namedServiceFragments

/-! ## Actions -/

theorem records_attach
    {matched actions : List Fragment} {key : String} {log : Option LogClass} {own : Bool} :
    Records (rule.attach matched actions key log own) := by
  unfold attach
  split
  · exact records_pure _
  · refine records_get_bind fun context => ?_
    split
    · exact Records.bind records_declareChain fun _ => records_pure _
    · exact Records.bind records_chainNameOf fun _ => records_pure _

theorem records_attachLog
    {matched : List Fragment} {log : Option LogClass} {action : String} {target : Option String} :
    Records (rule.attachLog matched log action target) := by
  unfold attachLog
  split
  · exact records_pure _
  · exact records_attach

theorem records_attachAction {matched : List Fragment} : Records (rule.attachAction matched) :=
  (records_recording failsPlainly_target).bind fun _ => records_attachLog

theorem records_attachLimit {matched : List Fragment} {name : String} :
    Records (rule.attachLimit matched name) := by
  unfold attachLimit
  extract_lets connection attaching limited
  have limits : ∀ u, Records (limited u) := by
    intro u
    refine Records.bind records_chainNameOf fun chain => ?_
    extract_lets read
    have reads : ∀ mapping, Records (read mapping) := by
      intro mapping
      refine Records.bind Limit.records_declare fun limit =>
        (records_recording failsPlainly_target).bind fun target =>
        records_get_bind fun context =>
        (records_recording Limit.failsPlainly_recentFragments).bind fun recent => ?_
      split
      · exact Records.bind (Records.bind records_attachLog fun _ => records_pure _)
          fun _ => records_attach
      · have hashed (above : Bool) (context : Context) : Records (Run.recording
            (limit.hashFragments context.settings.families chain above)) :=
          records_recording Limit.failsPlainly_hashFragments
        split
        · refine Records.bind ?_ fun _ => records_attach
          exact records_get_bind fun context => (hashed true context).bind fun _ =>
            Records.bind records_attachLog fun _ => records_pure _
        · refine Records.bind ?_ fun _ => records_attach
          refine records_get_bind fun context => (hashed false context).bind fun _ => ?_
          dsimp only
          split
          · exact Records.bind records_attachAction fun _ => records_pure _
          · exact (records_pure _).bind fun _ => records_pure _
    split
    · exact (records_pure _).bind reads
    · exact Records.bind records_unusable reads
  split
  · exact (records_report rfl).bind limits
  · exact limits ()

theorem records_finish {matched : List Fragment} : Records (rule.finish matched) := by
  have filter : Records (rule.attachFilter matched) := by
    refine (records_recording failsPlainly_limitName?).bind fun limitName => ?_
    cases limitName with
    | some name => exact records_attachLimit
    | none => exact records_attachAction
  unfold finish
  split
  · exact Records.bind Limit.records_declare fun _ => records_get_bind fun _ =>
      (records_recording Limit.failsPlainly_recordFragments).bind fun _ => records_pure _
  · exact records_attachAction
  · exact filter
  · exact filter
  · refine (records_recording failsPlainly_target).bind fun target => ?_
    cases target <;> exact records_pure _

theorem records_ownFragments : Records rule.ownFragments := by
  refine Records.bind records_zoneFragments fun _ =>
    Records.bind records_addressFragments fun _ =>
    Records.bind records_destinationFragments fun _ =>
    (records_recording failsPlainly_setFragments).bind fun _ =>
    Records.bind records_serviceFragments fun _ =>
    (records_recording failsPlainly_position).bind fun _ => ?_
  exact Records.bind records_finish fun _ => records_get_bind fun _ => records_pure _

/-! ## Derived rules -/

section Extras

variable {expand : Rule → Run (List Fragment)}

theorem records_derive
    (expanding : ∀ rule, Records (expand rule)) {source : Record} {derivation : Derivation} :
    Records (derive expand rule source derivation) := by
  refine Records.bind PolicyObject.records_declare fun object => ?_
  cases object with
  | rule derived => exact expanding derived
  | _ => exact records_unusable

theorem records_sectionKind {name : String} : Records (rule.sectionKind name) := by
  refine records_get_bind fun context => ?_
  split
  · exact records_pure _
  · exact records_report rfl

theorem records_updateFragments (expanding : ∀ rule, Records (expand rule)) :
    Records (updateFragments expand rule) := by
  unfold updateFragments
  extract_lets given mapping
  split
  · exact records_pure _
  · split
    · exact records_report rfl
    · exact records_derive expanding

theorem records_dnatFragments (expanding : ∀ rule, Records (expand rule)) :
    Records (dnatFragments expand rule) := by
  unfold dnatFragments
  extract_lets derived unset tracked
  have derivedRecords : ∀ u, Records (derived u) := fun u =>
    Records.bind records_dnatAddress fun _ =>
      (records_recording failsPlainly_dnatField).bind fun _ =>
      Records.bind records_sectionKind fun _ => records_derive expanding
  have unsetRecords : ∀ u, Records (unset u) := by
    intro u
    unfold unset
    split
    · exact (records_report rfl).bind derivedRecords
    · exact derivedRecords ()
  have trackedRecords : ∀ u, Records (tracked u) := by
    intro u
    unfold tracked
    split
    · exact (records_report rfl).bind unsetRecords
    · exact unsetRecords ()
  split
  · exact records_pure _
  · split
    · exact (records_report rfl).bind trackedRecords
    · exact trackedRecords ()

theorem records_relatedFragments (expanding : ∀ rule, Records (expand rule)) :
    Records (relatedFragments expand rule) := by
  have listed (index : Nat) (items : List Value) :
      Records (listedRelated expand rule index items) := by
    induction items generalizing index with
    | nil => exact records_pure _
    | cons item rest inductionHypothesis =>
        have derived : ∀ source, Records (do
            let first ← derive expand rule source
              { label := "related " ++ toString index, kind := .rule .related,
                changes := [("service", rule.attributes.get "service")] }
            return first ++ (← listedRelated expand rule (index + 1) rest) :
              Run (List Fragment)) := fun source =>
          (records_derive expanding).bind fun _ =>
            (inductionHypothesis (index + 1)).bind fun _ => records_pure _
        unfold listedRelated
        split
        · exact (records_pure _).bind derived
        · exact (records_lift failsOnly_offered).bind derived
  unfold relatedFragments
  extract_lets given
  split
  · exact (records_derive expanding).bind fun _ =>
      (records_derive expanding).bind fun _ => records_pure _
  · exact listed 0 _

theorem records_replyFragments
    (expanding : ∀ rule, Records (expand rule)) {related : List Fragment} :
    Records (replyFragments expand rule related) := by
  unfold replyFragments
  extract_lets derived
  have derivedRecords : ∀ u, Records (derived u) := fun u =>
    Records.bind records_sectionKind fun _ => (records_derive expanding).bind fun _ =>
      Records.bind records_sectionKind fun _ => (records_derive expanding).bind fun _ =>
      records_pure _
  split
  · exact records_pure _
  · split
    · exact (records_report rfl).bind derivedRecords
    · exact derivedRecords ()

theorem records_followingFragments (expanding : ∀ rule, Records (expand rule)) :
    Records (followingFragments expand rule) := by
  have untracked : Records (untrackedFragments expand rule) := by
    unfold untrackedFragments
    split
    · exact Records.bind records_sectionKind fun _ => records_derive expanding
    · exact records_pure _
  have final : Records (finalFragments expand rule) := by
    refine (records_recording failsPlainly_limitName?).bind fun limitName => ?_
    split
    · exact records_derive expanding
    · exact records_pure _
  refine (records_dnatFragments expanding).bind fun _ => untracked.bind fun _ => ?_
  split
  · exact final.bind fun _ => (records_relatedFragments expanding).bind fun _ =>
      (records_replyFragments expanding).bind fun _ => records_pure _
  · exact records_pure _

end Extras

/-- The induction is on how deep derived rules are nested. -/
theorem records_expandTo {depth : Nat} : Records (expandTo depth rule) := by
  induction depth generalizing rule with
  | zero => exact records_unusable
  | succ depth inductionHypothesis =>
      have expanding : ∀ rule, Records (expandTo depth rule) := fun _ => inductionHypothesis
      change Records (fragmentsWith (expandTo depth) rule)
      unfold fragmentsWith
      split
      · exact (records_updateFragments expanding).bind fun _ =>
          Records.bind records_ownFragments fun _ =>
          (records_followingFragments expanding).bind fun _ => records_pure _
      · exact records_ownFragments

theorem records_fragments : Records rule.fragments := by
  unfold fragments
  exact records_expandTo

end Rule

theorem RuleSource.records_rules {source : RuleSource} : Records source.rules := by
  cases source with
  | fixed rules => exact records_pure _
  | stateful =>
      exact records_get_bind fun _ => records_recording Builtin.failsPlainly_statefulRules
  | icmp => exact records_get_bind fun _ => records_pure _

/-! ## Status -/

theorem Context.status_eq_error {context : Context} :
    context.status = .error ↔ context.faults ≠ [] := by
  unfold Context.status
  cases context.faults with
  | nil => cases context.warnings <;> simp
  | cons fault rest => simp

theorem Context.status_eq_warning {context : Context} :
    context.status = .warning ↔ context.faults = [] ∧ context.warnings ≠ [] := by
  unfold Context.status
  cases context.faults with
  | nil => cases context.warnings <;> simp
  | cons fault rest => simp

/-- A fault makes the status an error. -/
theorem Run.status_report {location : String} {cause : Cause} (before : Context) :
    (report location cause before : Except Failure Unit × Context).2.status = .error := by
  refine Context.status_eq_error.2 ?_
  change before.faults ++ [_] ≠ []
  simp

/-- A warning changes the status of a success only. -/
theorem Run.status_warn {location : String} {cause : Cause} (before : Context) :
    (warn location cause before).2.status =
      if before.status = .success then .warning else before.status := by
  change Context.status { before with warnings := before.warnings ++ [_] } = _
  unfold Context.status
  cases before.faults <;> cases before.warnings <;> simp

/-! ## Demands -/

/-- What a context is asked for: to declare an object, or to expand a rule. -/
inductive Demand where
  | declare (kind : ObjectKind) (location : String) (key : Option Scalar) (source : Entry)
  | expand (rule : Rule)

namespace Demand

/-- Meet the demand; what is of interest is only what it fails with and what it leaves behind. -/
def run : Demand → Run Unit
  | declare kind location key source => do
    let _ ← PolicyObject.declare kind location key source
  | expand rule => do
    let _ ← rule.fragments

/-- The context after demands one after the other, whatever each of them ends with. -/
def runAll (demands : List Demand) (before : Context) : Context :=
  demands.foldl (fun context demand => (demand.run context).2) before

/-- What demands one after the other leave on record. -/
def recordedBy : List Demand → Context → List Fault
  | [], _ => []
  | demand :: rest, before =>
    recorded (demand.run before).1 ++ recordedBy rest (demand.run before).2

theorem records_run (demand : Demand) : demand.run.Records := by
  cases demand with
  | declare kind location key source =>
      exact PolicyObject.records_declare.bind fun _ => records_pure _
  | expand rule => exact Rule.records_fragments.bind fun _ => records_pure _

theorem faults_runAll (demands : List Demand) (before : Context) :
    (runAll demands before).faults = before.faults ++ recordedBy demands before := by
  induction demands generalizing before with
  | nil => exact (List.append_nil _).symm
  | cons demand rest inductionHypothesis =>
      rw [runAll, List.foldl_cons, ← runAll, inductionHypothesis, (demand.records_run before).1,
        recordedBy, List.append_assoc]

/-- A demand that fails, whatever was asked for before, fails with a value that cannot be used or with
a fault.  The fault is the last one on record then, and the status is an error, unless the fault is
that the source of an object is no mapping: this one leaves the record as it was.  After any demands
the status is a warning exactly when no fault and some warning is on record. -/
theorem failures_recorded (before : Context) :
    (∀ (demand : Demand) (failure : Failure),
      (demand.run before).1 = .error failure →
        failure = .unusable ∨ ∃ fault, failure = .policy fault ∧
          if fault.cause.isObjectNotMapping then (demand.run before).2.faults = before.faults
          else (demand.run before).2.faults = before.faults ++ [fault] ∧
            (demand.run before).2.status = .error) ∧
    ∀ demands : List Demand,
      (runAll demands before).faults = before.faults ++ recordedBy demands before ∧
        ((runAll demands before).status = .warning ↔
          before.faults ++ recordedBy demands before = [] ∧
            (runAll demands before).warnings ≠ []) := by
  constructor
  · intro demand failure fails
    obtain ⟨faults, failsOnly⟩ := demand.records_run before
    rw [fails] at faults
    match failure with
    | .unusable => exact .inl rfl
    | .cycle names =>
        rcases failsOnly _ fails with isPlain | ⟨location, isMapping⟩
        · exact isPlain.elim
        · cases isMapping
    | .policy fault =>
        refine .inr ⟨fault, rfl, ?_⟩
        change _ = before.faults ++
          (if fault.cause.isObjectNotMapping then [] else [fault]) at faults
        split at faults
        · next isMapping =>
            rw [if_pos isMapping, faults, List.append_nil]
        · next isMapping =>
            rw [if_neg isMapping]
            exact ⟨faults, Context.status_eq_error.2 (by simp [faults])⟩
  · intro demands
    refine ⟨faults_runAll demands before, ?_⟩
    rw [Context.status_eq_warning, faults_runAll]

/-- A rule with a deprecated action. -/
def logdrop : Demand :=
  .declare (.rule .filter) "filter 1" none (.raw (.map [(.text "action", .text "logdrop")]))

/-- A rule with an action that there is not. -/
def fly : Demand :=
  .declare (.rule .filter) "filter 2" none (.raw (.map [(.text "action", .text "fly")]))

/-- The deprecated action is a warning, and the unknown one after it is an error. -/
theorem failures_recorded_of_fly :
    (runAll [logdrop] {}).status = .warning ∧
      ∃ fault, (fly.run (runAll [logdrop] {})).1 = .error (.policy fault) ∧
        fault.text = "filter 2: Invalid filter action: fly" ∧
        (fly.run (runAll [logdrop] {})).2.faults = [fault] ∧
        (fly.run (runAll [logdrop] {})).2.status = .error := by
  obtain ⟨-, all⟩ := failures_recorded {}
  have found : ∃ fault ∈ recorded (fly.run (runAll [logdrop] {})).1,
      fault.text = "filter 2: Invalid filter action: fly" ∧
        fault.cause.isObjectNotMapping = false := by
    decide +kernel
  obtain ⟨fault, member, text, isMapping⟩ := found
  have fails := eq_error_of_mem_recorded member
  have warned : recordedBy [logdrop] {} = [] := List.isEmpty_iff.1 (by decide +kernel)
  have warnings : (runAll [logdrop] {}).warnings ≠ [] := by
    rw [Ne, ← List.isEmpty_iff]
    decide +kernel
  refine ⟨(all [logdrop]).2.2 ⟨warned, warnings⟩, fault, fails, text, ?_⟩
  rcases (failures_recorded _).1 fly _ fails with unusable | ⟨other, isFault, records⟩
  · cases unusable
  · obtain rfl := Failure.policy.inj isFault
    rw [isMapping, if_neg Bool.false_ne_true, (all [logdrop]).1, warned] at records
    exact records

/-- A class to log with that is given by a number. -/
def five : Demand :=
  .declare .log "log k" (some (.text "k")) (.raw (.int 5))

/-- Not every fault that a demand fails with is on record. -/
theorem not_recorded_of_five :
    ¬∀ (demand : Demand) (before : Context) (fault : Fault),
      (demand.run before).1 = .error (.policy fault) →
        (demand.run before).2.status = .error ∧
          (demand.run before).2.faults.getLast? = some fault := by
  intro recorded
  have status : Context.status (five.run {}).2 = .error := (recorded five {} _ rfl).1
  exact absurd status (by decide +kernel)

end Demand

end FirewallPolicy
