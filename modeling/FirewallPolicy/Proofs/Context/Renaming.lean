import FirewallPolicy.Model.Limit
import FirewallPolicy.Model.Log
import FirewallPolicy.Model.Service
import FirewallPolicy.Proofs.Run.Simulation
import FirewallPolicy.Proofs.Value.Renaming

/-!
# Objects with other serial numbers

Services and log classes are told apart by serial numbers.  Where these are renamed, an object
matches and logs as before, and an object that is declared with renamed attributes is the renamed
one.
-/

namespace FirewallPolicy

/-- The second thing is the first one, changed. -/
def Becomes {α β : Type} (change : α → β) (a : α) (b : β) : Prop :=
  b = change a

theorem forall₂_becomes {α β : Type} {change : α → β} {items : List α} {others : List β} :
    List.Forall₂ (Becomes change) items others ↔ others = items.map change := by
  constructor
  · intro related
    induction related with
    | nil => rfl
    | cons first _ inductionHypothesis => rw [first, inductionHypothesis, List.map_cons]
  · rintro rfl
    exact List.forall₂_map_right_iff.2 (List.forall₂_same.2 fun _ _ => rfl)

theorem follows_map {α β : Type} {change : α → β} (result : Except Failure α) :
    Follows (Becomes change) result (result.map change) := by
  cases result with
  | ok a => exact Follows.ok rfl
  | error failure => exact Follows.error

section Renaming

variable {rename : Nat → Nat}

/-! ## Services -/

namespace ServiceDefinition

/-- The definition with the serial numbers of log classes renamed. -/
def renamed (rename : Nat → Nat) (definition : ServiceDefinition) : ServiceDefinition :=
  { definition with attributes := definition.attributes.renamed rename }

variable (definition : ServiceDefinition)

theorem renamed_id : definition.renamed id = definition := by
  rw [renamed, Record.renamed_id]

@[simp]
theorem family_renamed : (definition.renamed rename).family = definition.family := by
  simp only [family, renamed, Record.get_renamed]
  split
  · rfl
  · cases definition.attributes.get "family" <;> simp [Value.renamed]

@[simp]
theorem helper?_renamed :
    (definition.renamed rename).helper? = definition.helper?.map (Value.renamed rename) := by
  simp only [helper?, renamed, Record.get_renamed, Value.isTruthy_renamed]
  split <;> rfl

@[simp]
theorem fragments_renamed (reverse : Bool) :
    (definition.renamed rename).fragments reverse = definition.fragments reverse := by
  have ports : Ports.text ∘ Value.renamed rename = Ports.text := by
    funext port
    simp [Ports.text]
  have family := @family_renamed rename definition
  simp only [renamed] at family
  simp [fragments, renamed, controlFragment, family, ports]

theorem follows_settle (location : String) (attributes : Record) :
    Follows (Becomes (renamed rename)) (settle location attributes)
      (settle location (attributes.renamed rename)) := by
  unfold settle
  simp only [Record.has_renamed, Record.get_renamed, Value.written_renamed, Value.isNull_renamed,
    Value.isText_renamed]
  refine Follows.ite (fun _ => Follows.throw) fun _ => Follows.ite (fun _ => Follows.throw) fun _ =>
    Follows.ok ?_
  simp [Becomes, renamed, ← Record.set_renamed]

end ServiceDefinition

namespace Service

/-- The service with the serial numbers renamed. -/
def renamed (rename : Nat → Nat) (service : Service) : Service :=
  { service with
    serial := rename service.serial
    definitions := service.definitions.map (ServiceDefinition.renamed rename) }

theorem renamed_id (service : Service) : service.renamed id = service := by
  rw [renamed, funext ServiceDefinition.renamed_id, List.map_id']
  rfl

@[simp]
theorem fragments_renamed (service : Service) (reverse : Bool) :
    (service.renamed rename).fragments reverse = service.fragments reverse := by
  simp [fragments, renamed, List.mapM_map, Function.comp_def]

end Service

/-! ## Log classes -/

namespace LogClass

/-- The log class with the serial numbers renamed. -/
def renamed (rename : Nat → Nat) (log : LogClass) : LogClass :=
  { log with
    serial := rename log.serial
    attributes := log.attributes.renamed rename }

variable (log : LogClass)

theorem renamed_id : log.renamed id = log := by
  rw [renamed, Record.renamed_id]
  rfl

@[simp]
theorem isEnabled_renamed : (log.renamed rename).isEnabled = log.isEnabled := by
  simp [isEnabled, renamed]

@[simp]
theorem fragments_renamed : (log.renamed rename).fragments = log.fragments := by
  have conditions : (log.renamed rename).conditions = log.conditions := by
    simp [LogClass.conditions, renamed]
  have options : (log.renamed rename).optionText = log.optionText := by
    funext option
    simp [optionText, renamed]
  have mode : (log.renamed rename).attributes.get "mode" =
      (log.attributes.get "mode").renamed rename := Record.get_renamed ..
  simp only [fragments, conditions, options, mode]
  cases log.attributes.get "mode" <;> simp [Value.renamed]

@[simp]
theorem optionValue_renamed (log : Option LogClass) :
    optionValue (log.map (renamed rename)) = (optionValue log).renamed rename := by
  cases log with
  | none => simp [optionValue]
  | some log => simp [optionValue, toValue, renamed, Value.renamed]

@[simp]
theorem ofValue?_renamed (value : Value) :
    ofValue? (value.renamed rename) = (ofValue? value).map (renamed rename) := by
  cases value <;> simp [ofValue?, renamed, Value.renamed]

theorem follows_checkMode (location : String) (mode : Value) :
    Follows Eq (checkMode location mode) (checkMode location (mode.renamed rename)) := by
  unfold checkMode
  split
  · exact Follows.of_self fun _ _ => rfl
  · split <;> exact Follows.error

theorem follows_settle
    {settings other : Settings} (sameMode : other.logMode = settings.logMode.renamed rename)
    (location : String) (key : Option Scalar) (attributes : Record) :
    Follows (Becomes (Record.renamed rename)) (settle settings location key attributes)
      (settle other location key (attributes.renamed rename)) := by
  have mode : ∀ record : Record, Follows (Becomes (Record.renamed rename))
      (do
        checkMode location (record.get "mode")
        if record.has "every" && record.has "probability" then
          throw (.fault location .everyAndProbability)
        return record)
      (do
        checkMode location ((record.renamed rename).get "mode")
        if (record.renamed rename).has "every" && (record.renamed rename).has "probability" then
          throw (.fault location .everyAndProbability)
        return record.renamed rename) := by
    intro record
    simp only [Record.has_renamed, Record.get_renamed]
    refine Follows.bind (follows_checkMode location _) fun _ _ _ => ?_
    exact Follows.ite (fun _ => Follows.throw) fun _ => Follows.ok rfl
  unfold settle
  rw [sameMode, Record.setDefault_renamed]
  cases key with
  | none => exact mode _
  | some name => exact Follows.ite (fun _ => Follows.throw) fun _ => mode _

end LogClass

/-! ## Limits -/

namespace Limit

/-- The limit with the serial numbers of log classes renamed. -/
def renamed (rename : Nat → Nat) (limit : Limit) : Limit :=
  { limit with
    attributes := limit.attributes.renamed rename
    maskInet := Entries.mapped (Value.renamed rename) limit.maskInet
    maskInet6 := Entries.mapped (Value.renamed rename) limit.maskInet6 }

theorem renamed_id (limit : Limit) : limit.renamed id = limit := by
  rw [renamed, Record.renamed_id, funext Value.renamed_id, Entries.mapped_id, Entries.mapped_id]

/-! ### Declaration -/

theorem follows_readAmount (location name : String) (attributes : Record) :
    Follows Eq (readAmount location name attributes)
      (readAmount location name (attributes.renamed rename)) := by
  have amount : Amount.ofValue? ((attributes.get name).renamed rename) =
      Amount.ofValue? (attributes.get name) := by
    cases attributes.get name <;> simp [Amount.ofValue?, Value.renamed]
  unfold readAmount
  simp only [Record.get_renamed, amount]
  split
  · exact Follows.ite (fun _ => Follows.error) fun _ => Follows.ok rfl
  · exact Follows.error

@[simp]
theorem pairOf?_renamed (value : Value) :
    pairOf? (value.renamed rename) =
      (pairOf? value).map fun entry => (entry.1, entry.2.renamed rename) := by
  unfold pairOf?
  rw [Value.opened_renamed]
  rcases value.opened with
    s | ⟨_ | ⟨first, _ | ⟨second, _ | _⟩⟩⟩ | ⟨_ | ⟨one, _ | ⟨other, _ | _⟩⟩⟩ |
      ⟨_ | ⟨one, _ | ⟨other, _ | _⟩⟩⟩ | ⟨first, second⟩ | _ | _ | _
  case scalar => rw [Value.renamed_scalar]; split <;> (try split) <;> simp_all
  case list.cons.cons.nil => cases first <;> simp [Value.renamed]
  case pair => cases first <;> simp [Value.renamed]
  all_goals simp [Value.renamed, Entries.mapped]

/-- The pairs among renamed values are the renamed pairs. -/
theorem mapM_pairOf?_renamed (items : List Value) :
    (items.map (Value.renamed rename)).mapM pairOf? =
      (items.mapM pairOf?).map (Entries.mapped (Value.renamed rename)) := by
  induction items with
  | nil => rfl
  | cons item rest inductionHypothesis =>
      rw [List.map_cons, List.mapM_cons, List.mapM_cons, inductionHypothesis, pairOf?_renamed]
      cases pairOf? item <;> cases rest.mapM pairOf? <;> rfl

theorem insertAll_renamed (entries added : Entries) :
    Entries.insertAll (Entries.mapped (Value.renamed rename) entries)
        (Entries.mapped (Value.renamed rename) added) =
      Entries.mapped (Value.renamed rename) (Entries.insertAll entries added) := by
  induction added generalizing entries with
  | nil => rfl
  | cons entry rest inductionHypothesis =>
      change Entries.insertAll (Entries.insert (Entries.mapped (Value.renamed rename) entries) entry.1
        (entry.2.renamed rename)) (Entries.mapped (Value.renamed rename) rest) = _
      rw [Entries.insert_mapped]
      exact inductionHypothesis _

theorem follows_maskEntries (mask : Value) :
    Follows (Becomes (Entries.mapped (Value.renamed rename))) (maskEntries mask)
      (maskEntries (mask.renamed rename)) := by
  unfold maskEntries
  rw [Value.isTruthy_renamed]
  refine Follows.ite (fun _ => Follows.ok rfl) fun _ => ?_
  extract_lets ofPairs
  have pairs (items : List Value) : Follows (Becomes (Entries.mapped (Value.renamed rename)))
      (ofPairs items) (ofPairs (items.map (Value.renamed rename))) := by
    unfold ofPairs
    rw [mapM_pairOf?_renamed]
    cases items.mapM pairOf? with
    | none => exact Follows.error
    | some found => exact Follows.ok (insertAll_renamed [] found)
  rw [Value.opened_renamed]
  cases mask.opened with
  | map entries => exact Follows.ok (by simp [Becomes])
  | list items => simpa using pairs items
  | set members => simpa [Value.renamed, Function.comp_def] using pairs (members.map .scalar)
  | _ => exact Follows.error

@[simp]
theorem lengthOf?_renamed (value : Value) : lengthOf? (value.renamed rename) = lengthOf? value := by
  cases value <;> rfl

theorem follows_settleSelector
    (location family : String) (bits : Nat) (mask : Entries) (selector : String) :
    Follows (Becomes (Entries.mapped (Value.renamed rename)))
      (settleSelector location family bits mask selector)
      (settleSelector location family bits (Entries.mapped (Value.renamed rename) mask)
        selector) := by
  simp only [settleSelector, Entries.get?_mapped, Value.getD_map_renamed, lengthOf?_renamed,
    Option.isSome_map]
  refine Follows.ite (fun _ => Follows.error) fun _ =>
    Follows.ite (fun _ => Follows.ok rfl) fun _ => Follows.ok ?_
  exact Entries.insert_mapped ..

theorem follows_settleMask
    (location family : String) (bits : Nat) (side : String) (given : Entries) :
    Follows (Becomes (Entries.mapped (Value.renamed rename)))
      (settleMask location family bits side given)
      (settleMask location family bits side (Entries.mapped (Value.renamed rename) given)) := by
  unfold settleMask
  rw [Entries.get?_mapped, Value.getD_map_renamed]
  refine Follows.bind (follows_maskEntries _) ?_
  rintro mask _ rfl
  have isDefault : (if (Entries.mapped (Value.renamed rename) mask).isEmpty then
        [(Scalar.text side, Value.int bits)] else Entries.mapped (Value.renamed rename) mask) =
      Entries.mapped (Value.renamed rename)
        (if mask.isEmpty then [(.text side, .int bits)] else mask) := by
    cases mask <;> simp [Entries.mapped]
  simp only [isDefault]
  refine Follows.bind (follows_settleSelector location family bits _ "src") ?_
  rintro mask _ rfl
  exact follows_settleSelector location family bits mask "dest"

theorem follows_givenMasks (location : String) (mask : Value) :
    Follows (Becomes (Entries.mapped (Value.renamed rename))) (givenMasks location mask)
      (givenMasks location (mask.renamed rename)) := by
  unfold givenMasks
  rw [Value.isTruthy_renamed, Value.entries?_renamed]
  refine Follows.ite (fun _ => Follows.ok rfl) fun _ => ?_
  cases mask.entries? with
  | none => exact Follows.error
  | some entries => exact Follows.ok rfl

theorem follows_settle (location : String) (attributes : Record) :
    Follows (Becomes (renamed rename)) (settle location attributes)
      (settle location (attributes.renamed rename)) := by
  unfold settle
  simp only [Record.setDefault_renamed_scalar, Record.get_renamed, Value.isText_renamed, Value.isNull_renamed,
    Value.written_renamed]
  refine Follows.bind (follows_readAmount location "count" _) ?_
  rintro count _ rfl
  refine Follows.bind (follows_readAmount location "interval" _) ?_
  rintro interval _ rfl
  refine Follows.ite (fun _ => Follows.throw) fun _ => Follows.ite (fun _ => Follows.throw) fun _ => ?_
  refine Follows.bind (follows_givenMasks location _) ?_
  rintro given _ rfl
  refine Follows.bind (follows_settleMask location "inet" 32 _ given) ?_
  rintro maskInet _ rfl
  refine Follows.bind (follows_settleMask location "inet6" 128 _ given) ?_
  rintro maskInet6 _ rfl
  refine Follows.ok ?_
  simp [Becomes, renamed, ← Record.set_renamed, Entries.mapped]

/-! ### Matches -/

variable (limit : Limit)

theorem maskOf_renamed (family : String) :
    (limit.renamed rename).maskOf family =
      (limit.maskOf family).map (Entries.mapped (Value.renamed rename)) := by
  unfold maskOf
  split <;> rfl

theorem trackedAddress?_renamed (mask : Entries) :
    trackedAddress? (Entries.mapped (Value.renamed rename) mask) =
      (trackedAddress? mask).map fun entry => (entry.1, entry.2.renamed rename) := by
  have tracked : (Entries.mapped (Value.renamed rename) mask).filter (·.2.isTruthy) =
      Entries.mapped (Value.renamed rename) (mask.filter (·.2.isTruthy)) := by
    simp [Entries.mapped, List.filter_map, Function.comp_def]
  unfold trackedAddress?
  rw [tracked]
  generalize mask.filter (fun entry => entry.2.isTruthy) = active
  rcases active with _ | ⟨entry, _ | ⟨other, rest⟩⟩ <;> rfl

@[simp]
theorem recentName_renamed (fallback : String) :
    (limit.renamed rename).recentName fallback = limit.recentName fallback := by
  simp [recentName, renamed]

@[simp]
theorem recentFragment_renamed (family name : String) :
    (limit.renamed rename).recentFragment family name = limit.recentFragment family name := by
  unfold recentFragment
  rw [maskOf_renamed]
  cases limit.maskOf family with
  | error failure => rfl
  | ok mask =>
      simp only [Except.map, bind, Except.bind, trackedAddress?_renamed]
      cases trackedAddress? mask with
      | none => rfl
      | some entry => simp

@[simp]
theorem recordFragments_renamed (name : String) (families : List String) :
    (limit.renamed rename).recordFragments name families = limit.recordFragments name families := by
  induction families with
  | nil => rfl
  | cons family rest inductionHypothesis =>
      rw [recordFragments, recordFragments, inductionHypothesis, recentName_renamed,
        recentFragment_renamed]
      rfl

@[simp]
theorem recentPairs_renamed
    (name : String) (count interval : Amount) (families : List String) :
    (limit.renamed rename).recentPairs name count interval families =
      limit.recentPairs name count interval families := by
  have updates : (limit.renamed rename).updates = limit.updates := by
    simp [Limit.updates, renamed]
  induction families with
  | nil => rfl
  | cons family rest inductionHypothesis =>
      simp only [recentPairs, recentFragment_renamed, inductionHypothesis, updates, checkFragment]

@[simp]
theorem hashFragments_renamed (families : List String) (name : String) (above : Bool) :
    (limit.renamed rename).hashFragments families name above =
      limit.hashFragments families name above := by
  have grouping (mask : Entries) :
      groupingTokens (Entries.mapped (Value.renamed rename) mask) = groupingTokens mask := by
    simp only [groupingTokens, Entries.get?_mapped, Value.getD_map_renamed, Value.isTruthy_renamed,
      Value.written_renamed]
  have fragment : (limit.renamed rename).hashFragment name above =
      limit.hashFragment name above := by
    funext family
    have rate : (limit.renamed rename).hashRate = limit.hashRate := rfl
    have count : (limit.renamed rename).count = limit.count := rfl
    unfold hashFragment
    rw [rate, count, maskOf_renamed]
    cases limit.maskOf family with
    | error failure => rfl
    | ok mask => simp [Except.map, bind, Except.bind, grouping]
  unfold hashFragments
  rw [fragment]

end Limit

end Renaming

end FirewallPolicy
