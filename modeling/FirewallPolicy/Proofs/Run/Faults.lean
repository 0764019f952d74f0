import FirewallPolicy.Compile.Compilation
import FirewallPolicy.Proofs.Run.Basic

/-!
# What computations fail with

Reading what objects, rules and options state fails in many ways, but all of them are plain: nothing
is read where a source is no mapping, and only an insertion finds that a rule has no complete place or
that a chain of the policy is not defined.
-/

namespace FirewallPolicy

open Stateful

variable {α β : Type}

/-! ## Results -/

/-- Every failure of the result has the property. -/
def FailsOnly (property : Failure → Prop) (result : Except Failure α) : Prop :=
  ∀ failure, result = .error failure → property failure

section FailsOnly

variable {property : Failure → Prop}

@[simp]
theorem failsOnly_ok (a : α) : FailsOnly property (.ok a : Except Failure α) := by
  rintro _ ⟨⟩

@[simp]
theorem failsOnly_pure (a : α) : FailsOnly property (pure a : Except Failure α) :=
  failsOnly_ok a

@[simp]
theorem failsOnly_error {failure : Failure} :
    FailsOnly property (.error failure : Except Failure α) ↔ property failure := by
  constructor
  · intro fails
    exact fails failure rfl
  · rintro holds _ ⟨⟩
    exact holds

@[simp]
theorem failsOnly_throw {failure : Failure} :
    FailsOnly property (throw failure : Except Failure α) ↔ property failure :=
  failsOnly_error

@[simp]
theorem failsOnly_bind {first : Except Failure α} {rest : α → Except Failure β} :
    FailsOnly property (first >>= rest) ↔
      FailsOnly property first ∧ ∀ a, first = .ok a → FailsOnly property (rest a) := by
  cases first with
  | ok a =>
      change FailsOnly property (rest a) ↔ _
      simp
  | error failure =>
      change FailsOnly property (.error failure) ↔ _
      simp

@[simp]
theorem failsOnly_map {first : Except Failure α} {change : α → β} :
    FailsOnly property (change <$> first) ↔ FailsOnly property first := by
  cases first with
  | ok a => exact iff_of_true (failsOnly_ok _) (failsOnly_ok _)
  | error failure => exact failsOnly_error.trans failsOnly_error.symm

@[simp]
theorem failsOnly_ite {p : Prop} [Decidable p] {first second : Except Failure α} :
    FailsOnly property (if p then first else second) ↔
      (p → FailsOnly property first) ∧ (¬p → FailsOnly property second) := by
  split <;> simp_all

theorem failsOnly_mapM
    {step : α → Except Failure β} {items : List α}
    (each : ∀ item, FailsOnly property (step item)) :
    FailsOnly property (items.mapM step) := by
  induction items with
  | nil => exact failsOnly_pure _
  | cons item rest inductionHypothesis =>
      rw [List.mapM_cons]
      simp [each, inductionHypothesis]

theorem failsOnly_foldlM
    {step : β → α → Except Failure β} {items : List α} {start : β}
    (each : ∀ found item, FailsOnly property (step found item)) :
    FailsOnly property (items.foldlM step start) := by
  induction items generalizing start with
  | nil => exact failsOnly_pure _
  | cons item rest inductionHypothesis =>
      rw [List.foldlM_cons]
      simp [each, inductionHypothesis]

theorem FailsOnly.imp
    {weaker : Failure → Prop} {result : Except Failure α}
    (fails : FailsOnly property result) (implies : ∀ failure, property failure → weaker failure) :
    FailsOnly weaker result :=
  fun failure isError => implies failure (fails failure isError)

end FailsOnly

/-! ## Plain failures -/

/-- Does the cause say that the source of an object is no mapping? -/
@[simp]
def Cause.isObjectNotMapping : Cause → Bool
  | .objectNotMapping => true
  | _ => false

/-- Does the cause say that a rule has no complete place? -/
@[simp]
def Cause.isIncompletePlace : Cause → Bool
  | .incompletePlace _ => true
  | _ => false

/-- Does the cause say that a chain of the policy is not defined? -/
@[simp]
def Cause.isInvalidCustomChain : Cause → Bool
  | .invalidCustomChain _ => true
  | _ => false

/-- Is the cause one that may be found in what is stated? -/
@[simp]
def Cause.isPlain (cause : Cause) : Bool :=
  !(cause.isObjectNotMapping || cause.isIncompletePlace || cause.isInvalidCustomChain)

namespace Failure

/-- Is the failure a fault for want of a place? -/
def isIncompletePlace : Failure → Bool
  | .policy fault => fault.cause.isIncompletePlace
  | _ => false

@[simp]
theorem isIncompletePlace_fault (location : String) (cause : Cause) :
    (Failure.fault location cause).isIncompletePlace = cause.isIncompletePlace :=
  rfl

/-- The failure is a fault in what is stated, or a value that cannot be used. -/
def IsPlain : Failure → Prop
  | .policy fault => fault.cause.isPlain = true
  | .cycle _ => False
  | .unusable => True

@[simp]
theorem isPlain_fault (location : String) (cause : Cause) :
    (Failure.fault location cause).IsPlain ↔ cause.isPlain = true :=
  Iff.rfl

@[simp]
theorem isPlain_unusable : Failure.unusable.IsPlain :=
  trivial

theorem IsPlain.not_isIncompletePlace {failure : Failure} (plain : failure.IsPlain) :
    failure.isIncompletePlace = false := by
  cases failure with
  | policy fault =>
      change fault.cause.isPlain = true at plain
      change fault.cause.isIncompletePlace = false
      simp_all
  | _ => rfl

end Failure

/-- The result fails in plain ways only. -/
abbrev FailsPlainly (result : Except Failure α) : Prop :=
  FailsOnly Failure.IsPlain result

/-- The result is no failure for want of a place. -/
abbrev Blameless (result : Except Failure α) : Prop :=
  FailsOnly (fun failure => failure.isIncompletePlace = false) result

theorem FailsPlainly.blameless {result : Except Failure α} (plain : FailsPlainly result) :
    Blameless result :=
  plain.imp fun _ isPlain => isPlain.not_isIncompletePlace

theorem blameless_ok (a : α) : Blameless (.ok a : Except Failure α) :=
  failsOnly_ok a

/-! ## Services, log classes and limits -/

@[simp]
theorem ServiceDefinition.failsPlainly_settle {location : String} {attributes : Record} :
    FailsPlainly (ServiceDefinition.settle location attributes) := by
  simp [ServiceDefinition.settle]

@[simp]
theorem ServiceDefinition.failsPlainly_fragments {definition : ServiceDefinition} {reverse : Bool} :
    FailsPlainly (definition.fragments reverse) := by
  unfold ServiceDefinition.fragments
  split <;> simp

@[simp]
theorem Service.failsPlainly_fragments {service : Service} {reverse : Bool} :
    FailsPlainly (service.fragments reverse) := by
  simp [Service.fragments, failsOnly_mapM]

@[simp]
theorem LogClass.failsPlainly_checkMode {location : String} {mode : Value} :
    FailsPlainly (LogClass.checkMode location mode) := by
  unfold LogClass.checkMode
  split <;> simp

@[simp]
theorem LogClass.failsPlainly_settle
    {settings : Settings} {location : String} {key : Option Scalar} {attributes : Record} :
    FailsPlainly (LogClass.settle settings location key attributes) := by
  unfold LogClass.settle
  cases key <;> simp

namespace Limit

variable {limit : Limit}

theorem failsPlainly_readAmount {location name : String} {attributes : Record} :
    FailsPlainly (readAmount location name attributes) := by
  unfold readAmount
  extract_lets value invalid
  split <;> simp [invalid]

theorem failsPlainly_maskEntries {mask : Value} : FailsPlainly (maskEntries mask) := by
  unfold maskEntries
  split
  · simp
  · extract_lets ofPairs
    have paired : ∀ items, FailsPlainly (ofPairs items) := by
      intro items
      unfold ofPairs
      split <;> simp
    split <;> simp [paired]

theorem failsPlainly_settleSelector
    {location family : String} {bits : Nat} {mask : Entries} {selector : String} :
    FailsPlainly (settleSelector location family bits mask selector) := by
  simp [settleSelector]

theorem failsPlainly_givenMasks {location : String} {mask : Value} :
    FailsPlainly (givenMasks location mask) := by
  unfold givenMasks
  cases mask.entries? <;> simp

theorem failsPlainly_settle {location : String} {attributes : Record} :
    FailsPlainly (settle location attributes) := by
  simp [settle, settleMask, failsPlainly_readAmount, failsPlainly_maskEntries, failsPlainly_settleSelector,
    failsPlainly_givenMasks]

theorem failsPlainly_maskOf {family : String} : FailsPlainly (limit.maskOf family) := by
  unfold maskOf
  split <;> simp

theorem failsPlainly_rate : FailsPlainly limit.rate := by
  unfold rate
  split <;> simp

theorem failsPlainly_requireText {amount : Amount} : FailsPlainly (requireText amount) := by
  unfold requireText
  split <;> simp

theorem failsPlainly_hashFragments {families : List String} {name : String} {above : Bool} :
    FailsPlainly (limit.hashFragments families name above) :=
  failsOnly_mapM fun _ => by
    simp [hashFragment, hashRate, failsPlainly_rate, failsPlainly_requireText, failsPlainly_maskOf]

theorem failsPlainly_recentFragment {family name : String} :
    FailsPlainly (limit.recentFragment family name) := by
  unfold recentFragment
  refine failsOnly_bind.2 ⟨failsPlainly_maskOf, fun mask _ => ?_⟩
  split
  · simp
  · split <;> simp

theorem failsPlainly_recentPairs
    {name : String} {count interval : Amount} {families : List String} :
    FailsPlainly (limit.recentPairs name count interval families) := by
  induction families with
  | nil => exact failsOnly_ok _
  | cons family rest inductionHypothesis =>
      unfold recentPairs
      refine failsOnly_bind.2 ⟨failsPlainly_recentFragment, fun found _ => ?_⟩
      cases found with
      | none => simp
      | some recent =>
          simp only [failsOnly_bind, failsPlainly_requireText, inductionHypothesis, true_and]
          rintro _ - _ - (_ | _) - <;> simp

theorem failsPlainly_recentFragments {settings : Settings} {name : String} :
    FailsPlainly (limit.recentFragments settings name) := by
  unfold recentFragments
  split
  · simp
  · simp only [failsOnly_bind]
    refine ⟨by simp [recentAmounts, wholeRate, failsPlainly_rate], ?_⟩
    rintro (_ | _) - <;> simp [failsPlainly_recentPairs]

theorem failsPlainly_recordFragments {name : String} {families : List String} :
    FailsPlainly (limit.recordFragments name families) := by
  induction families with
  | nil => exact failsOnly_ok _
  | cons family rest inductionHypothesis =>
      unfold recordFragments
      refine failsOnly_bind.2 ⟨failsPlainly_recentFragment, fun found _ => ?_⟩
      cases found with
      | none => simp
      | some recent => simp [inductionHypothesis]

end Limit

/-! ## Rules -/

namespace Rule

variable {rule : Rule}

theorem failsOnly_findEntry {section_ : SectionEntries} {name : Value} :
    FailsOnly (· = .unusable) (findEntry section_ name) := by
  unfold findEntry
  split
  · simp
  · simp
  · split <;> simp

theorem failsOnly_offered {source : Value} : FailsOnly (· = .unusable) (offered source) := by
  unfold offered
  split <;> simp

theorem failsPlainly_selectZone {location : String} {zones : SectionEntries} {name : Value} :
    FailsPlainly (selectZone location zones name) := by
  unfold selectZone
  split
  · simp
  · refine failsOnly_bind.2 ⟨failsOnly_findEntry.imp (by rintro _ rfl; trivial), fun found _ => ?_⟩
    split
    · simp
    · simp
    · simp
    · split <;> simp
    · simp

theorem failsPlainly_selectZones {location : String} {zones : SectionEntries} {names : Value} :
    FailsPlainly (selectZones location zones names) := by
  simp [selectZones, failsOnly_mapM, failsPlainly_selectZone]

theorem failsPlainly_holdsName {value : Value} {name : String} : FailsPlainly (holdsName value name) := by
  unfold holdsName
  split <;> simp

theorem failsPlainly_settleCollection
    {field key : String} {missing : Failure} {attributes : Record} (plain : missing.IsPlain) :
    FailsPlainly (settleCollection field key missing attributes) := by
  unfold settleCollection
  split <;> simp [failsPlainly_holdsName, plain]

theorem failsPlainly_settleSet {location : String} {attributes : Record} :
    FailsPlainly (settleSet location attributes) := by
  rw [settleSet_eq]
  exact failsPlainly_settleCollection rfl

theorem failsPlainly_settleDnat {location : String} {attributes : Record} :
    FailsPlainly (settleDnat location attributes) := by
  rw [settleDnat_eq]
  exact failsPlainly_settleCollection rfl

theorem failsPlainly_settleUpdate {location : String} {attributes : Record} :
    FailsPlainly (settleUpdate location attributes) := by
  simp [settleUpdate]

theorem failsPlainly_limitName? : FailsPlainly rule.limitName? := by
  unfold limitName?
  split
  · split <;> simp
  · simp

theorem failsPlainly_target : FailsPlainly rule.target := by
  unfold target
  split
  all_goals first
    | simp [filterTarget]
    | unfold destinationTarget
      split <;> simp

theorem failsPlainly_position : FailsPlainly rule.position := by
  simp [position, failsPlainly_limitName?]

theorem failsPlainly_dnatField {name : String} : FailsPlainly (rule.dnatField name) := by
  unfold dnatField
  split <;> simp

theorem failsPlainly_onlyInet {location host : String} {addresses : List FamilyAddress} :
    FailsPlainly (onlyInet location host addresses) := by
  unfold onlyInet
  split <;> simp

theorem failsPlainly_setFlags {given : Value} : FailsPlainly (rule.setFlags given) := by
  unfold setFlags
  split
  · simp
  · split
    · refine failsOnly_bind.2 ⟨failsOnly_mapM fun item => ?_, fun _ _ => failsOnly_pure _⟩
      split <;> simp
    · simp

theorem failsPlainly_setFragments : FailsPlainly rule.setFragments := by
  unfold setFragments
  extract_lets given
  split
  · simp
  · split
    · refine failsOnly_bind.2 ⟨failsPlainly_setFlags, fun _ _ => ?_⟩
      split <;> simp
    · simp

theorem failsPlainly_namedServiceFragments : FailsPlainly rule.namedServiceFragments := by
  unfold namedServiceFragments
  split
  · simp
  · refine failsOnly_bind.2 ⟨failsOnly_mapM fun selector => ?_, fun _ _ => failsOnly_pure _⟩
    cases selector <;> simp [selectorFragments]

theorem failsPlainly_definitions : FailsPlainly rule.definitions := by
  refine failsOnly_bind.2 ⟨failsOnly_mapM fun selector => ?_, fun _ _ => failsOnly_pure _⟩
  cases selector <;> simp

theorem failsPlainly_dnatProtocols {location : String} {selectors : List ServiceSelector} :
    FailsPlainly (dnatProtocols location selectors) := by
  induction selectors with
  | nil => exact failsOnly_ok _
  | cons selector rest inductionHypothesis =>
      cases selector with
      | service service =>
          have redirected : FailsPlainly (redirectedProtocols location service) :=
            failsOnly_mapM fun _ => by simp
          simp [dnatProtocols, redirected, inductionHypothesis]
      | _ => simp [dnatProtocols]

theorem failsPlainly_helperFragments {definitions : List ServiceDefinition} :
    FailsPlainly (helperFragments definitions) := by
  refine failsOnly_bind.2 ⟨failsOnly_foldlM fun found definition => ?_, fun _ _ => failsOnly_pure _⟩
  split <;> simp

end Rule

/-! ## Virtual sections -/

namespace Builtin

theorem failsPlainly_servicesNamed {entries : List Entry} : FailsPlainly (servicesNamed entries) := by
  induction entries with
  | nil => exact failsOnly_ok _
  | cons entry rest inductionHypothesis =>
      unfold servicesNamed
      split
      · simp
      · simp_all
      · simp

theorem failsPlainly_statefulRules {families : List String} {filters : List Entry} :
    FailsPlainly (statefulRules families filters) := by
  have distinct (selectors : List ServiceSelector) : FailsPlainly (distinctServices selectors) := by
    refine failsOnly_bind.2 ⟨failsOnly_mapM fun selector => ?_, fun _ _ => failsOnly_pure _⟩
    cases selector <;> simp
  have helper (family : String) (definition : ServiceDefinition) :
      FailsPlainly (helperRules family definition) := by
    unfold helperRules
    split <;> simp
  refine failsOnly_bind.2 ⟨failsOnly_mapM fun family => ?_, fun _ _ => failsOnly_pure _⟩
  simp [statefulFamily, assignmentRules, failsOnly_mapM, failsPlainly_servicesNamed, distinct, helper]

end Builtin

/-! ## Address sets -/

namespace AddressSet

theorem failsPlainly_readAll {definitions : Entries} : FailsPlainly (readAll definitions) := by
  have options (given : Value) : FailsPlainly (readOptions given) := by
    unfold readOptions
    split <;> simp
  have type (location : String) (given : Value) : FailsPlainly (readType location given) := by
    unfold readType
    extract_lets invalid
    split <;> simp [invalid]
  have family (location : String) (given : Value) : FailsPlainly (readFamily location given) := by
    unfold readFamily
    split <;> simp
  unfold readAll
  split
  · refine failsOnly_mapM fun entry => ?_
    unfold read
    extract_lets location
    cases entry.2.entries? <;>
      simp [options, type, family]
  · simp

end AddressSet

/-! ## Auxiliary chains -/

namespace CustomChain

theorem failsPlainly_find? {chains : SectionEntries} {name : String} :
    FailsPlainly (find? chains name) := by
  unfold find?
  split
  · simp
  · simp
  · split <;> simp

theorem failsPlainly_readTokens {matched : Value} : FailsPlainly (readTokens matched) := by
  unfold readTokens
  split <;> simp

theorem failsPlainly_readRule {location : String} {place : Place} {stated : Value} :
    FailsPlainly (readRule location place stated) := by
  unfold readRule
  split
  · extract_lets unknown
    split <;> simp [failsPlainly_readTokens]
  · simp

end CustomChain

/-- The failure says, at the owner, that the chain at the place is not defined. -/
def ChainSource.Lacks (source : ChainSource) (owner : String) (place : Place)
    (failure : Failure) : Prop :=
  ∃ name, customName? place.chain = some name ∧
    CustomChain.find? source.custom name = .ok none ∧
      failure = .fault owner (.invalidCustomChain name)

/-- The body of an auxiliary chain is read in vain only in a plain way, or where it is not defined. -/
theorem ChainSource.failsOnly_body {source : ChainSource} {owner : String} {place : Place} :
    FailsOnly (fun failure => failure.IsPlain ∨ source.Lacks owner place failure)
      (source.body owner place) := by
  unfold ChainSource.body
  split
  · next name isCustom =>
      refine failsOnly_bind.2 ⟨CustomChain.failsPlainly_find?.imp fun _ => .inl, fun found isFound => ?_⟩
      cases found with
      | none => exact failsOnly_error.2 (.inr ⟨name, isCustom, isFound, rfl⟩)
      | some entry =>
          have rules : FailsPlainly
              ((CustomChain.rulesOf entry).mapM (CustomChain.readRule ("custom " ++ name) place)) :=
            failsOnly_mapM fun _ => CustomChain.failsPlainly_readRule
          exact failsOnly_bind.2 ⟨rules.imp fun _ => .inl, fun _ _ => failsOnly_pure _⟩
  · exact failsOnly_ok _

theorem ChainSource.blameless_body {source : ChainSource} {owner : String} {place : Place} :
    Blameless (source.body owner place) := by
  refine ChainSource.failsOnly_body.imp fun failure => Or.rec (·.not_isIncompletePlace) ?_
  rintro ⟨name, -, -, rfl⟩
  rfl

/-! ## Faults on record -/

/-- The failure is a plain one, or says that the source of an object is no mapping. -/
def Failure.IsOfObject (failure : Failure) : Prop :=
  failure.IsPlain ∨ ∃ location, failure = .fault location .objectNotMapping

/-- What a failure leaves on record: its fault.  That the source of an object is no mapping is not
recorded; only the caller is told. -/
def Failure.recorded : Failure → List Fault
  | .policy fault => if fault.cause.isObjectNotMapping then [] else [fault]
  | _ => []

/-- What a result leaves on record. -/
def recorded : Except Failure α → List Fault
  | .ok _ => []
  | .error failure => failure.recorded

theorem eq_error_of_mem_recorded {result : Except Failure α} {fault : Fault}
    (member : fault ∈ recorded result) : result = .error (.policy fault) := by
  match result with
  | .error (.policy other) =>
      change fault ∈ if other.cause.isObjectNotMapping then [] else [other] at member
      split at member
      · cases member
      · obtain rfl := List.mem_singleton.1 member
        rfl

namespace Run

/-- The computation adds what its result leaves on record, and fails like an object does. -/
def Records (action : Run α) : Prop :=
  ∀ before, (action before).2.faults = before.faults ++ recorded (action before).1 ∧
    FailsOnly Failure.IsOfObject (action before).1

theorem records_pure (a : α) : Records (pure a : Run α) :=
  fun _ => ⟨(List.append_nil _).symm, failsOnly_ok a⟩

theorem records_get : Records (get : Run Context) :=
  fun before => ⟨(List.append_nil _).symm, failsOnly_ok before⟩

theorem records_modify
    {change : Context → Context} (same : ∀ before, (change before).faults = before.faults) :
    Records (modify change : Run Unit) :=
  fun before => ⟨(same before).trans (List.append_nil _).symm, failsOnly_ok ()⟩

theorem records_unusable : Records (unusable : Run α) :=
  fun _ => ⟨(List.append_nil _).symm, failsOnly_error.2 (.inl trivial)⟩

theorem records_report {location : String} {cause : Cause} (plain : cause.isPlain = true) :
    Records (report location cause : Run α) := by
  intro before
  have mapping : cause.isObjectNotMapping = false := by simp_all
  refine ⟨?_, failsOnly_error.2 (.inl plain)⟩
  change before.faults ++ [⟨location, cause⟩] =
    before.faults ++ if cause.isObjectNotMapping then [] else [⟨location, cause⟩]
  rw [mapping, if_neg Bool.false_ne_true]

theorem records_warn {location : String} {cause : Cause} : Records (warn location cause) :=
  records_modify fun _ => rfl

theorem records_recording {result : Except Failure α} (plain : FailsPlainly result) :
    Records (recording result) := by
  match result with
  | .ok a => exact records_pure a
  | .error (.policy fault) => exact records_report (plain _ rfl)
  | .error (.cycle names) => exact (plain _ rfl).elim
  | .error .unusable => exact records_unusable

theorem records_lift {result : Except Failure α} (unusable : FailsOnly (· = .unusable) result) :
    Records (lift result) := by
  cases result with
  | ok a => exact records_pure a
  | error failure =>
      obtain rfl := unusable failure rfl
      exact records_unusable

theorem Records.bind
    {action : Run α} {rest : α → Run β}
    (first : Records action) (second : ∀ a, Records (rest a)) : Records (action >>= rest) := by
  intro before
  have step := first before
  rw [bind_apply]
  cases run : action before with
  | mk result middle =>
      rw [run] at step
      cases result with
      | ok a =>
          obtain ⟨faults, fails⟩ := second a middle
          have same : middle.faults = before.faults := step.1.trans (List.append_nil _)
          exact ⟨same ▸ faults, fails⟩
      | error failure =>
          dsimp only
          exact ⟨step.1, failsOnly_error.2 (step.2 failure rfl)⟩

theorem records_get_bind {rest : Context → Run β} (second : ∀ context, Records (rest context)) :
    Records (get >>= rest) :=
  records_get.bind second

theorem records_gather {results : α → Run (List β)} {items : List α}
    (each : ∀ a, Records (results a)) :
    Records (gather results items) := by
  induction items with
  | nil => exact records_pure _
  | cons item rest inductionHypothesis =>
      exact (each item).bind fun _ => inductionHypothesis.bind fun _ => records_pure _

end Run

/-! ## Faults for want of a place -/

namespace Stateful

variable {σ α β : Type} {faults : σ → List Fault}

/-- No fault of the list is one for want of a place. -/
def AreClear (faults : List Fault) : Prop :=
  ∀ fault ∈ faults, fault.cause.isIncompletePlace = false

/-- The computation did not stop with a fault for want of a place, and none is recorded. -/
abbrev EndsClear (faults : σ → List Fault) (outcome : Except Failure α × σ) : Prop :=
  Blameless outcome.1 ∧ AreClear (faults outcome.2)

/-- Where no fault for want of a place was recorded before, the computation records none, and it does
not stop with one. -/
def StaysClear (faults : σ → List Fault) (action : Stateful Failure σ α) : Prop :=
  ∀ before, AreClear (faults before) → EndsClear faults (action before)

theorem staysClear_pure (a : α) : StaysClear faults (pure a : Stateful Failure σ α) :=
  fun _ clear => ⟨failsOnly_ok a, clear⟩

theorem staysClear_get : StaysClear faults (get : Stateful Failure σ σ) :=
  fun before clear => ⟨failsOnly_ok before, clear⟩

theorem staysClear_throw
    {failure : Failure} (blameless : failure.isIncompletePlace = false) :
    StaysClear faults (throw failure : Stateful Failure σ α) :=
  fun _ clear => ⟨failsOnly_error.2 blameless, clear⟩

/-- What follows only has to stay clear for the results that the first computation gives. -/
theorem StaysClear.bind_yields
    {known : α → Prop} {action : Stateful Failure σ α} {rest : α → Stateful Failure σ β}
    (first : StaysClear faults action) (yields : Yields known action)
    (second : ∀ a, known a → StaysClear faults (rest a)) :
    StaysClear faults (action >>= rest) := by
  intro before clear
  have step := first before clear
  rw [bind_apply]
  cases run : action before with
  | mk result middle =>
      rw [run] at step
      cases result with
      | ok a => exact second a (yields.of_eq run) middle step.2
      | error failure => exact ⟨failsOnly_error.2 (step.1 failure rfl), step.2⟩

theorem StaysClear.bind
    {action : Stateful Failure σ α} {rest : α → Stateful Failure σ β}
    (first : StaysClear faults action) (second : ∀ a, StaysClear faults (rest a)) :
    StaysClear faults (action >>= rest) := by
  have anything : Yields (fun _ => True) action := fun _ _ _ _ => trivial
  exact first.bind_yields anything fun a _ => second a

/-- Reading the state first: what follows starts from the state that was read. -/
theorem staysClear_of_get
    {rest : σ → Stateful Failure σ β}
    (second : ∀ state, AreClear (faults state) → EndsClear faults (rest state state)) :
    StaysClear faults (get >>= rest) :=
  second

theorem staysClear_get_bind
    {rest : σ → Stateful Failure σ β} (second : ∀ state, StaysClear faults (rest state)) :
    StaysClear faults (get >>= rest) :=
  staysClear_get.bind second

end Stateful

theorem Run.staysClear_recording {result : Except Failure α} (blameless : Blameless result) :
    StaysClear Context.faults (recording result) := by
  intro before clear
  match result with
  | .ok a => exact ⟨failsOnly_ok a, clear⟩
  | .error (.policy fault) =>
      refine ⟨failsOnly_error.2 (blameless _ rfl), fun other member => ?_⟩
      rcases List.mem_append.1 member with old | isNew
      · exact clear other old
      · obtain rfl := List.mem_singleton.1 isNew
        exact blameless _ rfl
  | .error (.cycle names) => exact ⟨failsOnly_error.2 rfl, clear⟩
  | .error .unusable => exact ⟨failsOnly_error.2 rfl, clear⟩

/-- A fault for want of a place is not one of those that are added. -/
theorem Run.Records.staysClear {action : Run α} (records : Records action) :
    StaysClear Context.faults action := by
  intro before clear
  obtain ⟨faults, fails⟩ := records before
  have blameless : Blameless (action before).1 := by
    refine fails.imp fun failure => Or.rec (·.not_isIncompletePlace) ?_
    rintro ⟨location, rfl⟩
    rfl
  refine ⟨blameless, faults ▸ fun fault member => ?_⟩
  rcases List.mem_append.1 member with old | isNew
  · exact clear fault old
  · exact blameless _ (eq_error_of_mem_recorded isNew)

end FirewallPolicy
