import FirewallPolicy.Proofs.Context.Unbroken
import FirewallPolicy.Proofs.Rule.Declaration
import FirewallPolicy.Proofs.Rule.Selected
import FirewallPolicy.Proofs.Run.Lockstep
import FirewallPolicy.Proofs.Text.Unbroken

/-!
# Declaring objects again

What was declared is in normal form: zones, definitions, log classes and limits that are declared
again, from what they have become and at any place, have the same attributes.  Whether the default
log class logs does not depend on where it is asked for, or on what was declared since.
-/

namespace FirewallPolicy

open Context Run Stateful Record

/-! ## Attributes -/

namespace Record

/-- All attributes have one of the allowed names. -/
def Within (allowed : List String) (record : Record) : Prop :=
  record.names ⊆ allowed

theorem Within.of_keeps
    {allowed changed : List String} {before after : Record} (within : before.Within allowed)
    (keeps : Keeps changed before after) (included : changed ⊆ allowed) :
    after.Within allowed := by
  intro name isName
  by_contra unknown
  have absent : before.lookup name = none := Named.get?_eq_none_iff.2 (mt (@within name) unknown)
  have still := (keeps name (mt (@included name) unknown)).trans absent
  exact Named.get?_eq_none_iff.1 still isName

end Record

theorem within_of_attributesOf
    {kind : ObjectKind} {location : String} {source : Entry} :
    Yields (Record.Within kind.attributes) (attributesOf kind location source) := by
  unfold attributesOf
  split
  · exact yields_throw
  · next entries _ =>
      split
      · next known =>
          refine yields_pure fun name isName => ?_
          obtain ⟨field, isField, rfl⟩ := List.mem_map.1 isName
          exact mem_of_unknownKeys_eq_nil known isField
      · exact fun _ _ _ run => (report_eq_ok.1 run).elim

/-- An object whose attributes its kind allows declares another one of the kind with them. -/
theorem attributesOf_object
    (object : PolicyObject) {kind : ObjectKind}
    (within : object.attributes.Within kind.attributes) (location : String) (context : Context) :
    attributesOf kind location (.object object) context = (.ok object.attributes, context) := by
  have known : unknownKeys kind.attributes (Record.toEntries object.attributes) = [] := by
    unfold unknownKeys
    rw [List.filter_eq_nil_iff.2]
    · simp [Text.sorted]
    · intro entry isEntry
      obtain ⟨field, isField, rfl⟩ := List.mem_map.1 isEntry
      simpa using within (List.mem_map_of_mem isField)
  have isMap : declaration? (.object object) = some (Record.toEntries object.attributes) := rfl
  simp only [attributesOf, isMap, known, recordOf_toEntries]
  rfl

/-! ## Definitions, log classes and limits -/

section Settling

variable {location place : String} {attributes settled : Record}

/-- A definition is settled wherever one with the same protocol and family is. -/
theorem ServiceDefinition.settle_of_alike
    {definition : ServiceDefinition} (run : settle location attributes = .ok definition)
    {other : Record} (has : other.has "proto" = true)
    (protocol : Text.lower (other.get "proto").written = definition.protocol)
    (family : other.get "family" = attributes.get "family") :
    settle place other = .ok
      { location := place
        attributes := other.set "proto" (.text definition.protocol)
        protocol := definition.protocol } := by
  unfold settle at run
  extract_lets _ _ _ checked at run
  split at run
  · cases run
  · unfold checked at run
    split at run
    · cases run
    · next isFamily =>
        unfold settle
        simp only [has, protocol, family]
        rw [if_neg (by decide), if_neg isFamily]
        rfl

theorem ServiceDefinition.has_of_settle
    {definition : ServiceDefinition} (run : settle location attributes = .ok definition) :
    attributes.has "proto" = true := by
  unfold settle at run
  split at run
  · cases run
  · next stated => simpa using stated

theorem ServiceDefinition.settle_again
    {definition : ServiceDefinition} (run : settle location attributes = .ok definition) :
    settle place definition.attributes = .ok { definition with location := place } := by
  obtain ⟨lowered, stated⟩ := settle_eq_ok run
  rw [← lowered] at stated
  have isProtocol : definition.attributes.get "proto" = .text definition.protocol := by
    rw [stated, Record.get_set_self]
  have has : definition.attributes.has "proto" = true := by
    rw [Record.has, isProtocol]
    rfl
  have lower : Text.lower (definition.attributes.get "proto").written = definition.protocol := by
    rw [isProtocol, lowered]
    exact Text.lower_lower _
  have family : definition.attributes.get "family" = attributes.get "family" := by
    rw [stated, Record.get_set_of_ne (by decide)]
  have same := Record.set_of_lookup (isProtocol ▸ Record.lookup_of_has has)
  rw [settle_of_alike run has lower family, same]

/-- Where a log class is declared does not matter when the declaration succeeds. -/
theorem LogClass.follows_settle_place
    (settings : Settings) (location place : String) (key : Option Scalar) (attributes : Record) :
    Follows Eq (settle settings location key attributes) (settle settings place key attributes) := by
  have mode (record : Record) : Follows Eq
      (do
        checkMode location (record.get "mode")
        if record.has "every" && record.has "probability" then
          throw (.fault location .everyAndProbability)
        return record)
      (do
        checkMode place (record.get "mode")
        if record.has "every" && record.has "probability" then
          throw (.fault place .everyAndProbability)
        return record) := by
    have checked : Follows Eq (checkMode location (record.get "mode"))
        (checkMode place (record.get "mode")) := by
      unfold checkMode
      split
      · exact Follows.ite (fun _ => Follows.ok rfl) fun _ => Follows.error
      · exact Follows.ite (fun _ => Follows.error) fun _ => Follows.error
    refine checked.bind fun _ _ _ => ?_
    exact Follows.ite (fun _ => Follows.throw) fun _ => Follows.ok rfl
  unfold settle
  cases key with
  | none => exact mode _
  | some name => exact Follows.ite (fun _ => Follows.throw) fun _ => mode _

theorem LogClass.settle_again
    {settings : Settings} {key : Option Scalar}
    (run : settle settings location key attributes = .ok settled) :
    settle settings place key settled = .ok settled := by
  obtain ⟨_, elsewhere, rfl⟩ := follows_settle_place settings location place key attributes _ run
  have isDefault : settled = attributes.setDefault "mode" settings.logMode := (settle_eq_ok run).2
  have moded : settled.setDefault "mode" settings.logMode = settled :=
    Record.setDefault_of_mem (isDefault ▸ Record.mem_names_setDefault.2 (Or.inl rfl)) _
  unfold settle at elsewhere ⊢
  rw [moded]
  rwa [← isDefault] at elsewhere

namespace Limit

variable {family side : String} {bits : Nat} {given mask settledMask : Entries}

/-- The mask says of the selector how much of an address is tracked. -/
def Selects (bits : Nat) (mask : Entries) (selector : String) : Prop :=
  ∃ length, Entries.get? mask (.text selector) = some length ∧
    (lengthOf? length).any (fun n : Int => decide (0 ≤ n) && decide (n ≤ bits)) = true

theorem settleSelector_of_selects
    {selector : String} (selects : Selects bits mask selector) :
    settleSelector location family bits mask selector = .ok mask := by
  obtain ⟨length, found, valid⟩ := selects
  simp [settleSelector, found, valid]

theorem selects_of_settleSelector
    {selector : String}
    (run : settleSelector location family bits mask selector = .ok settledMask) :
    Selects bits settledMask selector ∧
      ∀ other, Selects bits mask other → Selects bits settledMask other := by
  unfold settleSelector at run
  extract_lets length valid at run
  split at run
  · cases run
  · next isValid =>
      have isLength : valid = true := by simpa using isValid
      split at run
      · next isStated =>
          obtain rfl := Except.ok.inj run
          obtain ⟨stated, found⟩ := Option.isSome_iff_exists.1 isStated
          refine ⟨⟨stated, found, ?_⟩, fun _ => id⟩
          simpa [valid, length, found] using isLength
      · obtain rfl := Except.ok.inj run
        refine ⟨⟨length, Entries.get?_insert_text .., isLength⟩, ?_⟩
        rintro other ⟨known, found, isKnown⟩
        by_cases same : Scalar.text selector = .text other
        · exact ⟨length, same ▸ Entries.get?_insert_text .., isLength⟩
        · refine ⟨known, ?_, isKnown⟩
          rw [Entries.get?_insert, if_neg (mt Scalar.sameKey_text_iff.1 same), found]

theorem selects_of_settleMask
    (run : settleMask location family bits side given = .ok mask) :
    Selects bits mask "src" ∧ Selects bits mask "dest" := by
  obtain ⟨read, _, run⟩ := except_bind_eq_ok.1 run
  obtain ⟨middle, source, destination⟩ := except_bind_eq_ok.1 run
  obtain ⟨selectsDestination, kept⟩ := selects_of_settleSelector destination
  exact ⟨kept "src" (selects_of_settleSelector source).1, selectsDestination⟩

/-- The mask of a family that was settled is found again as it is. -/
theorem settleMask_again
    (run : settleMask location family bits side given = .ok mask) {masks : Entries}
    (found : Entries.get? masks (.text family) = some (.map mask)) (other : String) :
    settleMask place family bits other masks = .ok mask := by
  obtain ⟨source, destination⟩ := selects_of_settleMask run
  have notEmpty : mask.isEmpty = false := by
    obtain ⟨_, listed, _⟩ := source
    cases mask with
    | nil => cases listed
    | cons first rest => rfl
  have read : maskEntries (.map mask) = .ok mask := by
    simp [maskEntries, Value.isTruthy, notEmpty, Value.opened]
  simp only [settleMask, found, Option.getD_some, read, except_bind_eq_ok]
  refine ⟨mask, rfl, mask, ?_, settleSelector_of_selects destination⟩
  simp only [notEmpty, Bool.false_eq_true, if_false]
  exact settleSelector_of_selects source

theorem readAmount_again
    {name : String} {amount : Amount} {other : Record}
    (run : readAmount location name attributes = .ok amount)
    (same : other.get name = attributes.get name) :
    readAmount place name other = .ok amount := by
  unfold readAmount at run ⊢
  dsimp only at run ⊢
  rw [same]
  cases isAmount : Amount.ofValue? (attributes.get name) with
  | none =>
      simp only [isAmount] at run
      cases run
  | some known =>
      simp only [isAmount] at run ⊢
      split at run
      · cases run
      · next positive => rwa [if_neg positive]

/-- The record with the defaults of a limit. -/
def withDefaults (attributes : Record) : Record :=
  (((attributes.setDefault "count" (.int 1)).setDefault "interval" (.int 1)).setDefault "addr"
    (.text "src")).setDefault "update" (.bool true)

/-- What a limit was settled from. -/
theorem settle_eq_ok
    {limit : Limit} (run : settle location attributes = .ok limit) :
    ∃ given,
      readAmount location "count" (withDefaults attributes) = .ok limit.count ∧
      readAmount location "interval" (withDefaults attributes) = .ok limit.interval ∧
      (((withDefaults attributes).get "addr").isText "src" ||
        ((withDefaults attributes).get "addr").isText "dest") = true ∧
      (((withDefaults attributes).get "measure").isNull ||
        ((withDefaults attributes).get "measure").isText "conn" ||
        ((withDefaults attributes).get "measure").isText "flow") = true ∧
      settleMask location "inet" 32 ((withDefaults attributes).get "addr").written given =
        .ok limit.maskInet ∧
      settleMask location "inet6" 128 ((withDefaults attributes).get "addr").written given =
        .ok limit.maskInet6 ∧
      limit.attributes = (withDefaults attributes).set "mask"
        (.map [(.text "inet", .map limit.maskInet), (.text "inet6", .map limit.maskInet6)]) := by
  obtain ⟨count, readsCount, run⟩ := except_bind_eq_ok.1 run
  obtain ⟨interval, readsInterval, run⟩ := except_bind_eq_ok.1 run
  dsimp only at run
  split at run
  · obtain ⟨_, thrown, _⟩ := except_bind_eq_ok.1 run
    exact (except_throw_eq_ok.1 thrown).elim
  · next isSide =>
      split at run
      · obtain ⟨_, thrown, _⟩ := except_bind_eq_ok.1 run
        exact (except_throw_eq_ok.1 thrown).elim
      · next isMeasure =>
          obtain ⟨given, _, run⟩ := except_bind_eq_ok.1 run
          obtain ⟨maskInet, settlesInet, run⟩ := except_bind_eq_ok.1 run
          obtain ⟨maskInet6, settlesInet6, run⟩ := except_bind_eq_ok.1 run
          obtain rfl := Except.ok.inj run
          rw [Bool.not_eq_true', Bool.not_eq_false] at isSide isMeasure
          exact ⟨given, readsCount, readsInterval, isSide, isMeasure, settlesInet, settlesInet6, rfl⟩

theorem settle_again
    {limit : Limit} (run : settle location attributes = .ok limit) :
    settle place limit.attributes = .ok { limit with location := place } := by
  obtain ⟨given, readsCount, readsInterval, isSide, isMeasure, settlesInet, settlesInet6, stated⟩ :=
    settle_eq_ok run
  have defaulted : withDefaults limit.attributes = limit.attributes := by
    have listed : ∀ name ∈ ["count", "interval", "addr", "update"],
        name ∈ limit.attributes.names := by
      rw [stated]
      simp [withDefaults, Record.mem_names_setDefault, Named.mem_names_set]
    simp [withDefaults, Record.setDefault_of_mem, listed]
  have kept {name : String} (notMask : name ≠ "mask") :
      limit.attributes.get name = (withDefaults attributes).get name := by
    rw [stated, Record.get_set_of_ne notMask]
  have masks : limit.attributes.get "mask" =
      .map [(.text "inet", .map limit.maskInet), (.text "inet6", .map limit.maskInet6)] := by
    rw [stated, Record.get_set_self]
  have remasked : limit.attributes.set "mask"
      (.map [(.text "inet", .map limit.maskInet), (.text "inet6", .map limit.maskInet6)]) =
        limit.attributes := by
    rw [stated]
    exact Record.set_of_lookup (Named.get?_set_self ..)
  unfold withDefaults at defaulted
  unfold settle
  simp only [defaulted, kept (show "addr" ≠ "mask" by decide),
    kept (show "measure" ≠ "mask" by decide), isSide, isMeasure, masks]
  refine except_bind_eq_ok.2 ⟨_, readAmount_again readsCount (kept (by decide)),
    except_bind_eq_ok.2 ⟨_, readAmount_again readsInterval (kept (by decide)), ?_⟩⟩
  refine except_bind_eq_ok.2 ⟨_, rfl, except_bind_eq_ok.2 ⟨_, settleMask_again settlesInet rfl _,
    except_bind_eq_ok.2 ⟨_, settleMask_again settlesInet6 rfl _, ?_⟩⟩⟩
  rw [remasked]
  rfl

end Limit

end Settling

/-! ## Declaring at another place -/

section Places

variable {states : Context → Context → Prop}

theorem lockstep_attributesOf_place
    (kind : ObjectKind) (location place : String) (source : Entry) :
    Lockstep states Eq (attributesOf kind location source) (attributesOf kind place source) := by
  unfold attributesOf
  cases declaration? source with
  | none => exact lockstep_throw
  | some entries =>
      dsimp only
      cases unknownKeys kind.attributes entries with
      | nil => exact lockstep_pure rfl
      | cons name rest => exact lockstep_report

theorem ServiceDefinition.lockstep_declare_place
    (location place : String) (source : Entry) :
    Lockstep states (fun _ _ => True) (declare location source) (declare place source) := by
  refine (lockstep_attributesOf_place _ _ _ _).bind_same fun attributes =>
    lockstep_recording fun definition settles => ?_
  have lowered := (settle_eq_ok settles).1.symm
  exact ⟨_, settle_of_alike settles (has_of_settle settles) lowered rfl, trivial⟩

theorem Service.lockstep_declareItems_place
    (location place : String) (items : List Entry) :
    Lockstep states (fun some other => some.isEmpty = other.isEmpty)
      (declareItems location items) (declareItems place items) := by
  induction items with
  | nil => exact lockstep_pure rfl
  | cons item rest inductionHypothesis =>
      exact (ServiceDefinition.lockstep_declare_place _ _ _).bind fun _ _ _ =>
        inductionHypothesis.bind fun _ _ _ => lockstep_pure rfl

/-- The second context is a fixed one that has given out further serial numbers since, and the first
one has the same services. -/
def Context.Resumes (fixed first second : Context) : Prop :=
  first.entriesOf "service" = fixed.entriesOf "service" ∧
    ∃ next, second = { fixed with nextSerial := next }

variable {fixed : Context}

theorem Service.lockstep_declare_place (location place : String) (item : Value) :
    Lockstep (Context.Resumes fixed) (fun _ _ => True)
      (declare location (.raw item)) (declare place (.raw item)) := by
  have numbered : Lockstep (Context.Resumes fixed) (fun _ _ => True) freshSerial freshSerial := by
    rintro first _ serial after ⟨same, next, rfl⟩ run
    obtain ⟨rfl, rfl⟩ := freshSerial_eq_ok.1 run
    exact ⟨next, { fixed with nextSerial := next + 1 }, rfl, trivial, same, next + 1, rfl⟩
  refine numbered.bind fun _ _ _ => (lockstep_declareItems_place _ _ _).bind fun found others same => ?_
  simp only [← same]
  split
  · exact lockstep_report_bind
  · exact lockstep_pure trivial

end Places

/-! ## The default log class -/

namespace Context

/-- Log classes are declared and looked up in the same way. -/
structure SameLogs (first second : Context) : Prop where
  settings : second.settings = first.settings
  entries : second.entriesOf "log" = first.entriesOf "log"
  default : second.defaultLog = first.defaultLog

theorem SameLogs.refl (context : Context) : SameLogs context context :=
  ⟨rfl, rfl, rfl⟩

/-- The default log class can be set up, and it is one that does not log. -/
def IsSilent (context : Context) : Prop :=
  ∃ location log after, LogClass.default location context = (.ok log, after) ∧
    log.isEnabled = false

end Context

namespace LogClass

variable {log : LogClass} {found : Option LogClass} {key : Option Scalar} {source : Entry}
  {location name : String} {before after start : Context}

theorem lockstep_declare_place (location place : String) (key : Option Scalar) (source : Entry) :
    Lockstep SameLogs (fun log other => other.attributes = log.attributes)
      (declare location key source) (declare place key source) := by
  refine (lockstep_attributesOf_place _ _ _ _).bind_same fun attributes =>
    lockstep_get_bind fun first second same => ?_
  rw [same.settings]
  refine (lockstep_recording (follows_settle_place _ _ _ _ _)).bind_same fun settled => ?_
  rintro _ _ log _ ⟨settings, entries, default⟩ run
  obtain ⟨serial, _, numbers, run⟩ := bind_eq_ok.1 run
  obtain ⟨rfl, rfl⟩ := freshSerial_eq_ok.1 numbers
  obtain ⟨rfl, rfl⟩ := pure_eq_ok.1 run
  exact ⟨_, _, rfl, rfl, settings, entries, default⟩

theorem exists_declareListed
    (same : SameLogs before start) (run : declareListed name source before = (.ok log, after)) :
    ∃ other last, declareListed name source start = (.ok other, last) ∧
      other.attributes = log.attributes := by
  obtain ⟨declared, middle, declares, run⟩ := bind_eq_ok.1 run
  obtain ⟨_, _, _, run⟩ := bind_eq_ok.1 run
  obtain ⟨rfl, -⟩ := pure_eq_ok.1 run
  obtain ⟨other, _, again, alike, -⟩ := lockstep_declare_place _ ("log " ++ name) _ _ _ _ _ _
    same declares
  exact ⟨other, _, bind_eq_ok.2 ⟨other, _, again, rfl⟩, alike⟩

theorem exists_lookup
    (same : SameLogs before start) (place : String)
    (run : lookup location name before = (.ok log, after)) :
    ∃ other last, lookup place name start = (.ok other, last) ∧
      other.attributes = log.attributes := by
  obtain ⟨entries, entry, shape, found, cases⟩ := lookup_eq_ok.1 run
  have startShape := same.entries.trans shape
  rcases cases with ⟨isLog, -⟩ | ⟨isNew, declares⟩
  · exact ⟨log, start, lookup_eq_ok.2 ⟨entries, entry, startShape, found, Or.inl ⟨isLog, rfl⟩⟩, rfl⟩
  · obtain ⟨other, last, again, alike⟩ := exists_declareListed same declares
    exact ⟨other, last,
      lookup_eq_ok.2 ⟨entries, entry, startShape, found, Or.inr ⟨isNew, again⟩⟩, alike⟩

theorem exists_default
    (same : SameLogs before start) (place : String)
    (run : default location before = (.ok log, after)) :
    ∃ other last, default place start = (.ok other, last) ∧
      other.attributes = log.attributes := by
  rcases default_eq_ok.1 run with ⟨isDefault, -⟩ | ⟨undefined, found, middle, finds, rfl, -⟩
  · exact ⟨log, start, default_eq_ok.2 (Or.inl ⟨same.default.trans isDefault, rfl⟩), rfl⟩
  · obtain ⟨other, last, again, alike⟩ : ∃ other last,
        (if declaresDefault (start.entriesOf "log") then lookup place defaultName
          else declare "default log" none (.raw (.map (defaultAttributes start.settings)))) start =
            (.ok other, last) ∧ other.attributes = found.attributes := by
      rw [same.entries, same.settings]
      by_cases declares : declaresDefault (before.entriesOf "log")
      all_goals simp only [declares, if_true, if_false, Bool.false_eq_true] at finds ⊢
      · exact exists_lookup same place finds
      · obtain ⟨other, last, again, alike, -⟩ :=
          lockstep_declare_place _ "default log" _ _ _ _ _ _ same finds
        exact ⟨other, last, again, alike⟩
    exact ⟨_, _, default_eq_ok.2 (Or.inr ⟨same.default.trans undefined, other, last, again, rfl,
      rfl⟩), alike⟩

theorem isEnabled_eq_of_attributes
    {first second : LogClass} (same : first.attributes = second.attributes) :
    first.isEnabled = second.isEnabled := by
  unfold isEnabled
  rw [same]

theorem default_again (run : default location before = (.ok log, after)) (place : String) :
    default place after = (.ok log, after) :=
  default_eq_ok.2 (Or.inl ⟨defaultLog_of_default run, rfl⟩)

/-- Whether the default class logs is seen from any run that sets it up. -/
theorem isSilent_iff_of_default (run : default location before = (.ok log, after)) :
    before.IsSilent ↔ log.isEnabled = false := by
  constructor
  · rintro ⟨_, other, _, again, silent⟩
    obtain ⟨found, _, sameRun, alike⟩ := exists_default (SameLogs.refl before) location again
    obtain rfl : log = found := by simpa using congrArg Prod.fst (run.symm.trans sameRun)
    rw [isEnabled_eq_of_attributes alike]
    exact silent
  · exact fun silent => ⟨location, log, after, run, silent⟩

end LogClass

theorem Context.IsSilent.of_sameLogs
    {first second : Context} (silent : first.IsSilent) (same : SameLogs first second) :
    second.IsSilent := by
  obtain ⟨location, log, _, run, disabled⟩ := silent
  obtain ⟨other, _, again, alike⟩ := LogClass.exists_default same location run
  refine ⟨location, other, _, again, ?_⟩
  rw [LogClass.isEnabled_eq_of_attributes alike]
  exact disabled

namespace LogClass

variable {log : LogClass} {found : Option LogClass} {location : String} {before after : Context}

theorem select_toValue
    (enabled : log.isEnabled = true) (location : String) (fallback : Value) (before : Context) :
    select location log.toValue fallback before = (.ok (some log), before) := by
  simp only [select, toValue, Value.isNull, Value.opened, Bool.false_eq_true, if_false]
  rw [if_pos enabled]
  rfl

/-- Where the default class is selected, there is none afterwards exactly if the class does not
log, and it is the default from then on. -/
theorem select_default_eq_ok
    (run : select location .null (.bool true) before = (.ok found, after)) :
    (found = none ↔ before.IsSilent) ∧ (after.IsSilent ↔ before.IsSilent) := by
  obtain ⟨log, middle, sets, run⟩ := bind_eq_ok.1 run
  obtain ⟨isFound, rfl⟩ := pure_eq_ok.1 run
  have silent := isSilent_iff_of_default sets
  have later := isSilent_iff_of_default (default_again sets location)
  refine ⟨?_, later.trans silent.symm⟩
  rw [silent, ← isFound]
  simp

theorem select_of_isSilent (silent : before.IsSilent) (location : String) :
    ∃ last, select location .null (.bool true) before = (.ok none, last) ∧ last.IsSilent := by
  obtain ⟨_, _, _, run, disabled⟩ := id silent
  obtain ⟨other, last, again, alike⟩ := exists_default (SameLogs.refl before) location run
  have isDisabled : other.isEnabled = false :=
    (isEnabled_eq_of_attributes alike).trans disabled
  refine ⟨last, bind_eq_ok.2 ⟨other, last, again, ?_⟩, ?_⟩
  · dsimp only
    rw [isDisabled]
    rfl
  · exact (isSilent_iff_of_default (default_again again location)).2 isDisabled

end LogClass

/-! ## Declaring again -/

section Declaring

variable {location place : String} {source : Entry} {before after : Context}

theorem Zone.declare_again
    {zone : Zone} (run : declare location source before = (.ok zone, after)) :
    ∃ again last, declare place (.object (.zone zone)) after = (.ok again, last) ∧
      again.attributes = zone.attributes := by
  obtain ⟨attributes, _, reads, run⟩ := bind_eq_ok.1 run
  obtain ⟨rfl, rfl⟩ := pure_eq_ok.1 run
  exact ⟨⟨place, attributes⟩, _, bind_eq_ok.2 ⟨_, _,
    attributesOf_object (.zone ⟨location, attributes⟩)
      (within_of_attributesOf.of_eq reads) _ _, rfl⟩, rfl⟩

theorem ServiceDefinition.declare_again
    {definition : ServiceDefinition} (run : declare location source before = (.ok definition, after)) :
    ∃ again last, declare place (.object (.definition definition)) after = (.ok again, last) ∧
      again.attributes = definition.attributes := by
  obtain ⟨attributes, _, reads, run⟩ := bind_eq_ok.1 run
  obtain ⟨settles, rfl⟩ := recording_eq_ok.1 run
  have within : definition.attributes.Within ObjectKind.definition.attributes := by
    rw [(settle_eq_ok settles).2]
    exact (within_of_attributesOf.of_eq reads).of_keeps keeps_set (by decide)
  exact ⟨{ definition with location := place }, _, bind_eq_ok.2 ⟨_, _,
    attributesOf_object (.definition definition) within _ _,
    recording_eq_ok.2 ⟨settle_again settles, rfl⟩⟩, rfl⟩

theorem LogClass.declare_again
    {key : Option Scalar} {log : LogClass}
    (run : declare location key source before = (.ok log, after)) :
    ∃ again last, declare place key (.object (.log log)) after = (.ok again, last) ∧
      again.attributes = log.attributes := by
  obtain ⟨attributes, _, reads, run⟩ := bind_eq_ok.1 run
  obtain ⟨_, _, gets, run⟩ := bind_eq_ok.1 run
  obtain ⟨rfl, rfl⟩ := get_eq_ok.1 gets
  obtain ⟨settled, _, settles, run⟩ := bind_eq_ok.1 run
  obtain ⟨isSettled, rfl⟩ := recording_eq_ok.1 settles
  obtain ⟨serial, _, numbers, run⟩ := bind_eq_ok.1 run
  obtain ⟨rfl, rfl⟩ := freshSerial_eq_ok.1 numbers
  obtain ⟨rfl, rfl⟩ := pure_eq_ok.1 run
  have within : settled.Within ObjectKind.log.attributes := by
    rw [(settle_eq_ok isSettled).2]
    exact (within_of_attributesOf.of_eq reads).of_keeps keeps_setDefault (by decide)
  exact ⟨⟨_, place, key, settled⟩, _, bind_eq_ok.2 ⟨settled, _,
    attributesOf_object (.log ⟨_, location, key, settled⟩) within _ _, bind_eq_ok.2 ⟨_, _,
    get_eq_ok.2 ⟨rfl, rfl⟩, bind_eq_ok.2 ⟨settled, _,
    recording_eq_ok.2 ⟨settle_again isSettled, rfl⟩, rfl⟩⟩⟩, rfl⟩

/-- The attributes that limits settle. -/
def Limit.settledNames : List String := ["count", "interval", "addr", "update", "mask"]

theorem Limit.keeps_settle
    {attributes : Record} {limit : Limit} (run : settle location attributes = .ok limit) :
    Keeps settledNames attributes limit.attributes := by
  obtain ⟨_, _, _, _, _, _, _, stated⟩ := settle_eq_ok run
  rw [stated]
  exact ((((keeps_setDefault.mono (by decide)).trans (keeps_setDefault.mono (by decide))).trans
    (keeps_setDefault.mono (by decide))).trans (keeps_setDefault.mono (by decide))).trans
      (keeps_set.mono (by decide))

/-- The object of the kind may be any that has the attributes of the limit. -/
theorem Limit.declare_again
    {kind : ObjectKind} {limit : Limit} (settles : settledNames ⊆ kind.attributes)
    (run : declare kind location source before = (.ok limit, after))
    {object : PolicyObject} (isLimit : object.attributes = limit.attributes) :
    ∃ again last, declare kind place (.object object) after = (.ok again, last) ∧
      again.attributes = limit.attributes := by
  obtain ⟨attributes, _, reads, run⟩ := bind_eq_ok.1 run
  obtain ⟨isSettled, rfl⟩ := recording_eq_ok.1 run
  have within : object.attributes.Within kind.attributes := by
    rw [isLimit]
    exact (within_of_attributesOf.of_eq reads).of_keeps (keeps_settle isSettled) settles
  refine ⟨{ limit with location := place }, _, bind_eq_ok.2 ⟨_, _, attributesOf_object _ within _ _,
    recording_eq_ok.2 ⟨?_, rfl⟩⟩, rfl⟩
  rw [isLimit]
  exact settle_again isSettled

end Declaring

end FirewallPolicy
