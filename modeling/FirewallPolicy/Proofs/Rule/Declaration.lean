import FirewallPolicy.Proofs.Rule.Own
import FirewallPolicy.Proofs.Value.Written

/-!
# Declared rules

A rule keeps the attributes that it is declared with, apart from those that its kind settles.  The
log classes that end up in its attributes are well named when those that it is declared with are.
-/

namespace FirewallPolicy

open Context Run Stateful

/-! ## Attributes that stay -/

/-- All attributes but the listed ones are the same. -/
def Record.Keeps (changed : List String) (before after : Record) : Prop :=
  ∀ name, name ∉ changed → after.lookup name = before.lookup name

namespace Record

theorem Keeps.get
    {changed : List String} {before after : Record} {name : String}
    (keeps : Keeps changed before after) (kept : name ∉ changed) :
    after.get name = before.get name := by
  unfold Record.get
  rw [keeps name kept]

theorem Keeps.refl {changed : List String} {record : Record} :
    Keeps changed record record :=
  fun _ _ => rfl

theorem Keeps.trans
    {changed : List String} {first second third : Record}
    (early : Keeps changed first second) (late : Keeps changed second third) :
    Keeps changed first third :=
  fun name kept => (late name kept).trans (early name kept)

theorem Keeps.mono
    {changed more : List String} {before after : Record}
    (keeps : Keeps changed before after) (included : changed ⊆ more) :
    Keeps more before after :=
  fun name kept => keeps name fun member => kept (included member)

theorem Keeps.append
    {changed more : List String} {first second third : Record}
    (early : Keeps changed first second) (late : Keeps more second third) :
    Keeps (changed ++ more) first third :=
  (early.mono (List.subset_append_left _ _)).trans (late.mono (List.subset_append_right _ _))

theorem keeps_set {record : Record} {name : String} {value : Value} :
    Keeps [name] record (record.set name value) :=
  fun other kept => Named.get?_set_of_ne (by simpa using kept) record value

theorem keeps_setDefault {record : Record} {name : String} {value : Value} :
    Keeps [name] record (record.setDefault name value) := by
  unfold setDefault
  split
  · exact Keeps.refl
  · exact keeps_set

/-- A text under the name is replaced by a mapping, and anything else stays. -/
inductive Maps (name : String) (before : Record) : Record → Prop
  | kept : (∀ text, before.get name ≠ .text text) → Maps name before before
  | mapped {text : String} {entries : Entries} :
      before.get name = .text text → Maps name before (before.set name (.map entries))

theorem Maps.ne_text
    {name : String} {before after : Record} (maps : Maps name before after) (text : String) :
    after.get name ≠ .text text := by
  cases maps with
  | kept notText => exact notText text
  | mapped _ =>
      rw [get_set_self]
      exact Value.noConfusion

theorem Maps.eq_self
    {name : String} {before after : Record} (maps : Maps name before after)
    (notText : ∀ text, before.get name ≠ .text text) :
    after = before := by
  cases maps with
  | kept _ => rfl
  | mapped isText => exact absurd isText (notText _)

theorem Maps.keeps
    {name : String} {before after : Record} (maps : Maps name before after) :
    Keeps [name] before after := by
  cases maps with
  | kept _ => exact Keeps.refl
  | mapped _ => exact keeps_set

end Record

open Record

namespace Rule

variable {kind : RuleKind} {location : String} {attributes settled : Record}
  {before after : Context}

theorem keeps_settleAction :
    Yields (Keeps ["action"] attributes) (settleAction kind location attributes) := by
  have replaced : Yields (Keeps ["action"] attributes) (replaceAction location attributes) := by
    unfold replaceAction
    extract_lets action replace
    clear_value action
    have replaced : ∀ u, Yields (Keeps ["action"] attributes) (replace u) := by
      intro u
      unfold replace
      split
      · split
        · exact yields_bind fun _ => yields_pure keeps_set
        · exact yields_pure Keeps.refl
      · exact yields_pure Keeps.refl
    split
    · exact yields_bind replaced
    · exact replaced ()
  unfold settleAction
  split
  · exact replaced
  · exact yields_pure Keeps.refl

theorem maps_settleCollection
    {field key : String} {missing : Failure}
    (run : settleCollection field key missing attributes = .ok settled) :
    Maps field attributes settled := by
  unfold settleCollection at run
  split at run
  · next isNull =>
      obtain rfl := Except.ok.inj run
      exact Maps.kept (by simp [isNull])
  · next isText =>
      obtain rfl := Except.ok.inj run
      exact Maps.mapped isText
  · next notText =>
      obtain ⟨holds, _, run⟩ := except_bind_eq_ok.1 run
      split at run
      · obtain rfl := Except.ok.inj run
        exact Maps.kept notText
      · exact (except_throw_eq_ok.1 run).elim

theorem maps_settleSet (run : settleSet location attributes = .ok settled) :
    Maps "ipset" attributes settled :=
  maps_settleCollection (settleSet_eq .. ▸ run)

theorem maps_settleDnat (run : settleDnat location attributes = .ok settled) :
    Maps "dnat" attributes settled :=
  maps_settleCollection (settleDnat_eq .. ▸ run)

theorem keeps_settleDestination :
    Yields (Keeps ["dnat"] attributes) (settleDestination kind location attributes) := by
  unfold settleDestination
  split
  · exact yields_recording fun _ run => (maps_settleDnat run).keeps
  · exact yields_pure Keeps.refl

theorem maps_settleDestination
    (redirects : kind.redirects = true) :
    Yields (Maps "dnat" attributes) (settleDestination kind location attributes) := by
  unfold settleDestination
  rw [if_pos redirects]
  exact yields_recording fun _ => maps_settleDnat

/-- The action of a record that is settled; without one, it is to accept. -/
def settledAction (attributes : Record) : String :=
  ((attributes.setDefault "action" (.text "accept")).get "action").written

/-- The record with its action settled. -/
def withAction (attributes : Record) : Record :=
  (attributes.setDefault "action" (.text "accept")).set "action"
    (.text (settledAction attributes))

theorem keeps_withAction :
    Keeps ["action"] attributes (withAction attributes) :=
  keeps_setDefault.trans keeps_set

/-- Settling action and log class: a log class that is there stays, any other directive is looked
up, and a custom action goes without. -/
theorem settleLog_eq_ok
    (run : settleLog kind location attributes before = (.ok settled, after)) :
    ((customName? (settledAction attributes)).isSome = true → settled.flag "log" = false) ∧
      (((LogClass.ofValue? (attributes.get "log")).isSome = true ∧
          settled = withAction attributes ∧ after = before) ∨
        (LogClass.ofValue? (attributes.get "log") = none ∧
          ∃ log, LogClass.select location (attributes.get "log")
              (.bool (!(customName? (settledAction attributes)).isSome &&
                logsByDefault kind (settledAction attributes))) before = (.ok log, after) ∧
            settled = (withAction attributes).set "log" (LogClass.optionValue log))) := by
  have directive : (withAction attributes).get "log" = attributes.get "log" :=
    keeps_withAction.get (by decide)
  have checked : ∀ {logged : Record} {middle : Context},
      (do if (customName? (settledAction attributes)).isSome && logged.flag "log" then
            Run.report location (.logWithCustomAction (settledAction attributes))
          return logged : Run Record) middle = (.ok settled, after) →
      ((customName? (settledAction attributes)).isSome = true → settled.flag "log" = false) ∧
        settled = logged ∧ after = middle := by
    intro logged middle run
    split at run
    · obtain ⟨_, _, reported, _⟩ := bind_eq_ok.1 run
      exact (report_eq_ok.1 reported).elim
    · next unlogged =>
        obtain ⟨rfl, rfl⟩ := pure_eq_ok.1 run
        refine ⟨fun custom => ?_, rfl, rfl⟩
        simpa [custom] using unlogged
  have directed : LogClass.ofValue? ((withAction attributes).get "log") =
      LogClass.ofValue? (attributes.get "log") := by
    rw [directive]
  cases isClass : LogClass.ofValue? (attributes.get "log") with
  | some log =>
      have isStated := directed.trans isClass
      unfold withAction settledAction at isStated
      simp only [settleLog, isStated] at run
      obtain ⟨_, _, same, run⟩ := bind_eq_ok.1 run
      obtain ⟨rfl, rfl⟩ := pure_eq_ok.1 same
      obtain ⟨uncustom, rfl, rfl⟩ := checked run
      exact ⟨uncustom, Or.inl ⟨rfl, rfl, rfl⟩⟩
  | none =>
      have isStated := directed.trans isClass
      unfold withAction settledAction at isStated
      simp only [settleLog, isStated] at run
      obtain ⟨log, middle, selects, run⟩ := bind_eq_ok.1 run
      obtain ⟨_, _, same, run⟩ := bind_eq_ok.1 run
      obtain ⟨rfl, rfl⟩ := pure_eq_ok.1 same
      obtain ⟨uncustom, rfl, rfl⟩ := checked run
      exact ⟨uncustom, Or.inr ⟨rfl, log, directive ▸ selects, rfl⟩⟩

/-- A rule that is derived to accept logs with the class that it is given, or not at all. -/
theorem get_action_of_settleLog
    (run : settleLog kind location attributes before = (.ok settled, after)) :
    settled.get "action" = .text (settledAction attributes) := by
  have action : (withAction attributes).get "action" = .text (settledAction attributes) :=
    Record.get_set_self ..
  rcases (settleLog_eq_ok run).2 with ⟨_, rfl, _⟩ | ⟨_, log, _, rfl⟩
  · exact action
  · rw [Record.get_set_of_ne (by decide), action]

theorem keeps_settleLog
    (run : settleLog kind location attributes before = (.ok settled, after)) :
    Keeps ["action", "log"] attributes settled := by
  have acted : Keeps ["action", "log"] attributes (withAction attributes) :=
    keeps_withAction.mono (by decide)
  rcases (settleLog_eq_ok run).2 with ⟨_, rfl, _⟩ | ⟨_, log, _, rfl⟩
  · exact acted
  · exact acted.trans (keeps_set.mono (by decide))

theorem keeps_settleLogging :
    Yields (Keeps ["action", "log"] attributes) (settleLogging kind location attributes) := by
  unfold settleLogging
  split
  · exact fun _ _ _ => keeps_settleLog
  · exact yields_pure Keeps.refl

theorem keeps_settleMeasure :
    Yields (Keeps ["measure", "addr"] attributes) (settleMeasure kind location attributes) := by
  unfold settleMeasure
  split
  · refine yields_recording fun settled run => ?_
    have settles : Keeps ["measure", "addr"] attributes
        ((attributes.setDefault "measure" (.text "conn")).setDefault "addr" (.text "src")) :=
      (keeps_setDefault.mono (by decide)).trans (keeps_setDefault.mono (by decide))
    unfold settleUpdate at run
    dsimp only at run
    split at run
    · obtain ⟨_, thrown, _⟩ := except_bind_eq_ok.1 run
      exact (except_throw_eq_ok.1 thrown).elim
    · split at run
      · obtain ⟨_, thrown, _⟩ := except_bind_eq_ok.1 run
        exact (except_throw_eq_ok.1 thrown).elim
      · obtain rfl := Except.ok.inj run
        exact settles
  · exact yields_pure Keeps.refl

/-! ## Limits -/

/-- The rule with the log class of its limit settled. -/
def withLimitLog (rule : Rule) (name : String) (log : Option LogClass) : Rule :=
  let mapping := Entries.insert (limitMapping (rule.attributes.get name)) (.text "log")
    (LogClass.optionValue log)
  { rule with attributes := rule.attributes.set name (.map mapping) }

/-- What stands for the log class of a limit. -/
def limitDirective (attributes : Record) (name : String) : Value :=
  (Entries.get? (limitMapping (attributes.get name)) (.text "log")).getD .null

theorem settleLimit_eq_ok
    {rule settled : Rule}
    (run : settleLimit rule before = (.ok settled, after)) :
    (rule.limitName? = .ok none ∧ settled = rule ∧ after = before) ∨
      ∃ name log, rule.limitName? = .ok (some name) ∧
        LogClass.select rule.location (limitDirective rule.attributes name) (.bool true) before =
          (.ok log, after) ∧
        settled = withLimitLog rule name log := by
  simp only [settleLimit, bind_eq_ok, recording_eq_ok] at run
  obtain ⟨limitName, _, ⟨read, rfl⟩, run⟩ := run
  cases limitName with
  | none =>
      obtain ⟨rfl, rfl⟩ := pure_eq_ok.1 run
      exact Or.inl ⟨read, rfl, rfl⟩
  | some name =>
      refine Or.inr ⟨name, ?_⟩
      dsimp only at run
      split at run
      · obtain ⟨_, _, reported, _⟩ := bind_eq_ok.1 run
        exact (report_eq_ok.1 reported).elim
      · obtain ⟨log, _, selects, run⟩ := bind_eq_ok.1 run
        obtain ⟨rfl, rfl⟩ := pure_eq_ok.1 run
        exact ⟨log, read, selects, rfl⟩

theorem settleFilter_eq_ok
    {rule settled : Rule}
    (run : settleFilter rule before = (.ok settled, after)) :
    (rule.kind.isFilter = false ∧ settled = rule ∧ after = before) ∨
      (rule.kind.isFilter = true ∧ settleLimit rule before = (.ok settled, after) ∧
        ∃ target, settled.target = .ok target) := by
  unfold settleFilter at run
  split at run
  · next isFilter =>
      simp only [bind_eq_ok, pure_eq_ok, recording_eq_ok] at run
      obtain ⟨limited, middle, settles, target, _, ⟨read, rfl⟩, rfl, rfl⟩ := run
      exact Or.inr ⟨isFilter, settles, target, read⟩
  · next notFilter =>
      obtain ⟨rfl, rfl⟩ := pure_eq_ok.1 run
      exact Or.inl ⟨eq_false_of_ne_true notFilter, rfl, rfl⟩

theorem keeps_settleFilter
    {rule settled : Rule}
    (run : settleFilter rule before = (.ok settled, after)) :
    Keeps limitNames rule.attributes settled.attributes := by
  rcases settleFilter_eq_ok run with ⟨_, rfl, _⟩ | ⟨_, limits, _⟩
  · exact Keeps.refl
  · rcases settleLimit_eq_ok limits with ⟨_, rfl, _⟩ | ⟨name, log, isLimit, _, rfl⟩
    · exact Keeps.refl
    · refine keeps_set.mono ?_
      rw [List.cons_subset]
      exact ⟨(mem_limitNames_of_limitName? isLimit).1, List.nil_subset _⟩

/-! ## Declaring -/

/-- A rule of the kind is settled from the attributes: what every step of it does. -/
theorem settle_eq_ok
    {rule : Rule} (run : settle kind location attributes before = (.ok rule, after)) :
    ∃ acted c₁ zonesIn zonesOut services c₂ withSet withDestination c₃ logged c₄ measured c₅
      serial c₆,
      settleAction kind location attributes before = (.ok acted, c₁) ∧
      selectZones location (c₁.entriesOf "zone") (acted.get "in") = .ok zonesIn ∧
      selectZones location (c₁.entriesOf "zone") (acted.get "out") = .ok zonesOut ∧
      selectServices location (acted.get "service") c₁ = (.ok services, c₂) ∧
      settleSet location acted = .ok withSet ∧
      settleDestination kind location withSet c₂ = (.ok withDestination, c₃) ∧
      settleLogging kind location withDestination c₃ = (.ok logged, c₄) ∧
      settleMeasure kind location logged c₄ = (.ok measured, c₅) ∧
      Run.freshSerial c₅ = (.ok serial, c₆) ∧
      settleFilter { kind, serial, location, attributes := measured, zonesIn, zonesOut, services }
        c₆ = (.ok rule, after) := by
  simp only [settle, bind_eq_ok, get_eq_ok, recording_eq_ok] at run
  obtain ⟨acted, c₁, acts, _, _, ⟨rfl, rfl⟩, zonesIn, _, ⟨readIn, rfl⟩, zonesOut, _,
    ⟨readOut, rfl⟩, services, c₂, selects, withSet, _, ⟨sets, rfl⟩, withDestination, c₃, directs,
    logged, c₄, logs, measured, c₅, measures, serial, c₆, numbers, settles⟩ := run
  exact ⟨acted, _, zonesIn, zonesOut, services, c₂, withSet, withDestination, c₃, logged, c₄,
    measured, c₅, serial, c₆, acts, readIn, readOut, selects, sets, directs, logs, measures,
    numbers, settles⟩

/-- The attributes that rules of some kind settle. -/
def settledNames : List String := ["action", "ipset", "dnat", "log", "measure", "addr"]

/-- Before its limit is settled, a rule keeps the other attributes. -/
theorem keeps_before_limit
    {acted withSet withDestination logged measured : Record} {c₁ c₂ c₃ c₄ c₅ : Context}
    (acts : settleAction kind location attributes before = (.ok acted, c₁))
    (sets : settleSet location acted = .ok withSet)
    (directs : settleDestination kind location withSet c₂ = (.ok withDestination, c₃))
    (logs : settleLogging kind location withDestination c₃ = (.ok logged, c₄))
    (measures : settleMeasure kind location logged c₄ = (.ok measured, c₅)) :
    Keeps settledNames attributes measured :=
  ((((keeps_settleAction.of_eq acts).mono (by decide)).trans
    ((maps_settleSet sets).keeps.mono (by decide))).trans
    ((keeps_settleDestination.of_eq directs).mono (by decide))).trans
    (((keeps_settleLogging.of_eq logs).mono (by decide)).trans
      ((keeps_settleMeasure.of_eq measures).mono (by decide)))

/-- What a settled rule has in common with the attributes that it is settled from. -/
structure SettledFrom (kind : RuleKind) (location : String) (attributes : Record)
    (before after : Context) (rule : Rule) : Prop where
  kind : rule.kind = kind
  location : rule.location = location
  fresh : before.nextSerial ≤ rule.serial
  used : rule.serial < after.nextSerial
  keeps : Keeps (settledNames ++ limitNames) attributes rule.attributes
  unlimited : (∀ name ∈ limitNames, attributes.has name = false) → rule.limitName? = .ok none

theorem limitName?_eq_none
    {rule : Rule} (unlimited : ∀ name ∈ limitNames, rule.attributes.has name = false) :
    rule.limitName? = .ok none := by
  have none : limitNames.filter rule.attributes.has = [] :=
    List.filter_eq_nil_iff.2 fun name member => by simp [unlimited name member]
  unfold limitName?
  split
  · rw [none]
  · rfl

theorem settledFrom_of_settle
    {rule : Rule} (run : settle kind location attributes before = (.ok rule, after)) :
    SettledFrom kind location attributes before after rule := by
  obtain ⟨acted, c₁, zonesIn, zonesOut, services, c₂, withSet, withDestination, c₃, logged, c₄,
    measured, c₅, serial, c₆, acts, _, _, selects, sets, directs, logs, measures, numbers,
    settles⟩ := settle_eq_ok run
  have keeps := keeps_before_limit acts sets directs logs measures
  have early : Notes before c₅ :=
    (((notes_settleAction.of_eq acts).trans (notes_selectServices.of_eq selects)).trans
      (notes_settleDestination.of_eq directs)).trans
      ((notes_settleLogging.of_eq logs).trans (notes_settleMeasure.of_eq measures))
  have late : Notes c₆ after := notes_settleFilter.of_eq settles
  have number : serial = c₅.nextSerial ∧ c₆.nextSerial = c₅.nextSerial + 1 := by
    obtain ⟨rfl, rfl⟩ := freshSerial_eq_ok.1 numbers
    exact ⟨rfl, rfl⟩
  have fresh : before.nextSerial ≤ serial := number.1 ▸ early.serial
  have used : serial < after.nextSerial := by
    have := late.serial
    omega
  have keepsAll : Keeps (settledNames ++ limitNames) attributes measured :=
    keeps.mono (List.subset_append_left _ _)
  have unlimited : (∀ name ∈ limitNames, attributes.has name = false) →
      ∀ name ∈ limitNames, measured.has name = false := by
    intro unset name member
    have notSettled : name ∉ settledNames := by
      revert name
      decide
    simp only [Record.has, keeps.get notSettled]
    exact unset name member
  rcases settleFilter_eq_ok settles with ⟨_, rfl, _⟩ | ⟨_, limits, _⟩
  · exact ⟨rfl, rfl, fresh, used, keepsAll, fun unset => limitName?_eq_none (unlimited unset)⟩
  · rcases settleLimit_eq_ok limits with ⟨_, rfl, _⟩ | ⟨name, log, isLimit, _, rfl⟩
    · exact ⟨rfl, rfl, fresh, used, keepsAll, fun unset => limitName?_eq_none (unlimited unset)⟩
    · have isName := (mem_limitNames_of_limitName? isLimit).1
      refine ⟨rfl, rfl, fresh, used, keepsAll.trans (keeps_set.mono ?_), fun unset => ?_⟩
      · rw [List.cons_subset]
        exact ⟨List.mem_append_right _ isName, List.nil_subset _⟩
      · rw [limitName?_eq_none (unlimited unset)] at isLimit
        simp at isLimit

/-- A rule is settled from the attributes of its declaration, with nothing done before. -/
theorem exists_settle_of_declare
    {rule : Rule} {source : Entry}
    (run : Rule.declare kind location source before = (.ok rule, after)) :
    ∃ entries, declaration? source = some entries ∧
      settle kind location (recordOf entries) before = (.ok rule, after) := by
  obtain ⟨_, _, reads, settles⟩ := bind_eq_ok.1 run
  obtain ⟨entries, isMap, rfl, rfl⟩ := attributesOf_eq_ok reads
  exact ⟨entries, isMap, settles⟩

theorem settle_of_declare
    {rule : Rule} {source : Entry} {entries : Entries}
    (isMap : declaration? source = some entries)
    (run : Rule.declare kind location source before = (.ok rule, after)) :
    settle kind location (recordOf entries) before = (.ok rule, after) := by
  obtain ⟨_, sameMap, settles⟩ := exists_settle_of_declare run
  obtain rfl := Option.some.inj (isMap.symm.trans sameMap)
  exact settles

theorem settledFrom_of_declare
    {rule : Rule} {source : Entry}
    (run : Rule.declare kind location source before = (.ok rule, after)) :
    ∃ entries, declaration? source = some entries ∧
      SettledFrom kind location (recordOf entries) before after rule := by
  obtain ⟨entries, isMap, settles⟩ := exists_settle_of_declare run
  exact ⟨entries, isMap, settledFrom_of_settle settles⟩

/-- The address set and the destination of a declared rule are mappings, or null. -/
theorem ne_text_of_declare
    {rule : Rule} {source : Entry} (redirects : kind.redirects = true)
    (run : Rule.declare kind location source before = (.ok rule, after)) :
    ∀ name ∈ ["ipset", "dnat"], ∀ text, rule.attributes.get name ≠ .text text := by
  obtain ⟨attributes, _, _, settles⟩ := bind_eq_ok.1 run
  obtain ⟨acted, c₁, zonesIn, zonesOut, services, c₂, withSet, withDestination, c₃, logged, c₄,
    measured, c₅, serial, c₆, acts, _, _, selects, sets, directs, logs, measures, numbers,
    settles⟩ := settle_eq_ok settles
  have keeps : Keeps ("action" :: "log" :: "measure" :: "addr" :: limitNames)
      withDestination rule.attributes :=
    (((keeps_settleLogging.of_eq logs).mono (by decide)).trans
      ((keeps_settleMeasure.of_eq measures).mono (by decide))).trans
        ((keeps_settleFilter settles).mono (by decide))
  simp only [List.forall_mem_cons, List.not_mem_nil, false_implies, implies_true, and_true]
  constructor
  · intro text
    rw [keeps.get (by decide), (keeps_settleDestination.of_eq directs).get (by decide)]
    exact (maps_settleSet sets).ne_text text
  · intro text
    rw [keeps.get (by decide)]
    exact ((maps_settleDestination redirects).of_eq directs).ne_text text

end Rule

/-! ## Log classes -/

/-- A log class that the value stands for was selected. -/
def Value.IsDirective (value : Value) (book : LogBook) : Prop :=
  ∀ log, LogClass.ofValue? value.opened = some log → book.Knows log

theorem Value.IsDirective.keeps
    {value : Value} {first second : LogBook} (isDirective : value.IsDirective first)
    (settled : first.IsSettled) (keeps : first.Keeps second) :
    value.IsDirective second :=
  fun log isLog => keeps.knows settled log (isDirective log isLog)

theorem Value.isDirective_of_isWritten
    {value : Value} (written : value.isWritten = true) (book : LogBook) :
    value.IsDirective book := by
  intro log isLog
  have openedWritten := isWritten_opened written
  unfold LogClass.ofValue? at isLog
  split at isLog
  · next shape =>
      rw [shape] at openedWritten
      simp [isWritten] at openedWritten
  · simp at isLog

theorem LogClass.isDirective_optionValue
    {log : Option LogClass} {book : LogBook}
    (isKnown : ∀ known, log = some known → book.Knows known) :
    (LogClass.optionValue log).IsDirective book := by
  intro known isLog
  cases log with
  | none => simp [LogClass.optionValue, Value.opened, LogClass.ofValue?] at isLog
  | some log =>
      obtain rfl : log = known := by
        simpa [LogClass.optionValue, LogClass.toValue, Value.opened, LogClass.ofValue?] using isLog
      exact isKnown log rfl

namespace LogClass

variable {before after : Context} {log : LogClass}

theorem knows_lookup
    {location name : String} (settled : before.logBook.IsSettled)
    (run : LogClass.lookup location name before = (.ok log, after)) :
    after.logBook.Knows log :=
  ((notes_lookup.of_eq run : Notes before after).logs.settled settled).knows_of_lists
    (lists_of_lookup run).1

theorem defaultLog_of_default
    {location : String}
    (run : LogClass.default location before = (.ok log, after)) :
    after.defaultLog = some log := by
  rcases default_eq_ok.1 run with ⟨isDefault, rfl⟩ | ⟨_, _, _, _, rfl, rfl⟩
  · exact isDefault
  · rfl

/-- The log class that is selected is the one that its name stands for. -/
theorem knows_select
    {location : String} {directive fallback : Value} {found : Option LogClass}
    (settled : before.logBook.IsSettled)
    (isDirective : directive.IsDirective before.logBook)
    (isFallback : fallback.IsDirective before.logBook)
    (run : LogClass.select location directive fallback before = (.ok found, after)) :
    ∀ log, found = some log → after.logBook.Knows log := by
  have enabledKnown : ∀ known : LogClass, after.logBook.Knows known →
      ∀ log, (if known.isEnabled then some known else none) = some log →
        after.logBook.Knows log := by
    intro known isKnown log isLog
    split at isLog
    · exact Option.some.inj isLog ▸ isKnown
    · simp at isLog
  have isChosen : (if directive.isNull then fallback else directive).IsDirective before.logBook := by
    split
    · exact isFallback
    · exact isDirective
  generalize isAction : LogClass.select location directive fallback = action at run
  unfold LogClass.select at isAction
  extract_lets enabled chosen at isAction
  split at isAction
  · obtain ⟨rfl, -⟩ := pure_eq_ok.1 (isAction ▸ run)
    simp
  · obtain ⟨rfl, -⟩ := pure_eq_ok.1 (isAction ▸ run)
    simp
  · obtain ⟨known, _, knows, run⟩ := bind_eq_ok.1 (isAction ▸ run)
    obtain ⟨rfl, rfl⟩ := pure_eq_ok.1 run
    have settledAfter := (notes_default.of_eq knows : Notes _ _).logs.settled settled
    exact enabledKnown known (settledAfter.knows_default (defaultLog_of_default knows))
  · next shape =>
      obtain ⟨rfl, rfl⟩ := pure_eq_ok.1 (isAction ▸ run)
      refine enabledKnown _ (isChosen _ ?_)
      rw [show (if directive.isNull then fallback else directive).opened = _ from shape]
      rfl
  · obtain ⟨known, _, knows, run⟩ := bind_eq_ok.1 (isAction ▸ run)
    obtain ⟨rfl, rfl⟩ := pure_eq_ok.1 run
    exact enabledKnown known (knows_of_declare settled knows)
  · obtain ⟨rfl, -⟩ := pure_eq_ok.1 (isAction ▸ run)
    simp
  · obtain ⟨known, _, knows, run⟩ := bind_eq_ok.1 (isAction ▸ run)
    obtain ⟨rfl, rfl⟩ := pure_eq_ok.1 run
    exact enabledKnown known (knows_lookup settled knows)

end LogClass

/-! ## Sound rules -/

theorem LogClass.opened_of_ofValue?
    {value : Value} {log : LogClass} (isLog : LogClass.ofValue? value = some log) :
    value.opened = value := by
  unfold LogClass.ofValue? at isLog
  split at isLog
  · rfl
  · simp at isLog

/-- Log classes among the directives for logging were selected. -/
structure Record.Directed (attributes : Record) (book : LogBook) : Prop where
  log : (attributes.get "log").IsDirective book
  limitLog : ∀ name ∈ limitNames, (Rule.limitDirective attributes name).IsDirective book

theorem Record.Directed.keeps
    {attributes : Record} {first second : LogBook} (directed : attributes.Directed first)
    (settled : first.IsSettled) (keeps : first.Keeps second) :
    attributes.Directed second where
  log := directed.log.keeps settled keeps
  limitLog name member := (directed.limitLog name member).keeps settled keeps

theorem Record.IsWritten.directed
    {attributes : Record} (written : attributes.IsWritten) (book : LogBook) :
    attributes.Directed book where
  log := Value.isDirective_of_isWritten (written.get "log") book
  limitLog name _ := by
    refine Value.isDirective_of_isWritten (Entries.isWritten_get? ?_ _) book
    unfold Rule.limitMapping
    cases isMap : (attributes.get name).entries? with
    | some entries => exact Value.isWritten_of_entries? (written.get name) isMap
    | none =>
        rintro entry member
        obtain rfl := List.mem_singleton.1 member
        exact written.get name

theorem Record.Directed.of_keeps
    {changed : List String} {before after : Record} {book : LogBook}
    (directed : before.Directed book) (keeps : Record.Keeps changed before after)
    (others : ∀ name ∈ "log" :: limitNames, name ∉ changed) :
    after.Directed book where
  log := by
    rw [keeps.get (others _ (List.mem_cons_self ..))]
    exact directed.log
  limitLog name member := by
    unfold Rule.limitDirective
    rw [keeps.get (others _ (List.mem_cons_of_mem _ member))]
    exact directed.limitLog name member

namespace Rule

variable {kind : RuleKind} {location : String} {attributes settled : Record}
  {before after : Context} {rule : Rule}

theorem directed_settleLog
    (logs : before.logBook.IsSettled) (directed : attributes.Directed before.logBook)
    (run : settleLog kind location attributes before = (.ok settled, after)) :
    settled.Directed after.logBook := by
  have acted : (withAction attributes).Directed before.logBook :=
    directed.of_keeps keeps_withAction (by decide)
  rcases (settleLog_eq_ok run).2 with ⟨_, rfl, rfl⟩ | ⟨_, log, selects, rfl⟩
  · exact acted
  · have isKnown := LogClass.knows_select logs directed.log
      (Value.isDirective_of_isWritten rfl _) selects
    have keeps : before.logBook.Keeps after.logBook :=
      (LogClass.notes_select.of_eq selects : Notes before after).logs
    refine ⟨?_, fun name member => ?_⟩
    · rw [Record.get_set_self]
      exact LogClass.isDirective_optionValue isKnown
    · unfold limitDirective
      rw [Record.get_set_of_ne (by revert name; decide)]
      exact (acted.limitLog name member).keeps logs keeps

theorem directed_withLimitLog
    {name : String} {log : Option LogClass} {book : LogBook}
    (directed : rule.attributes.Directed book) (isLimit : name ∈ limitNames)
    (isKnown : ∀ known, log = some known → book.Knows known) :
    (withLimitLog rule name log).attributes.Directed book := by
  have notLog : "log" ≠ name := by
    revert name
    decide
  refine ⟨?_, fun other member => ?_⟩
  · simp only [withLimitLog, Record.get_set_of_ne notLog]
    exact directed.log
  · unfold withLimitLog limitDirective
    by_cases same : other = name
    · subst same
      simp only [Record.get_set_self, limitMapping, Value.entries?, Value.opened,
        Option.getD_some, Entries.get?_insert_text]
      exact LogClass.isDirective_optionValue isKnown
    · rw [Record.get_set_of_ne same]
      exact directed.limitLog other member

/-- Rules that are settled from well directed attributes have such attributes. -/
theorem directed_of_settle
    (logs : before.logBook.IsSettled) (directed : attributes.Directed before.logBook)
    (run : settle kind location attributes before = (.ok rule, after)) :
    rule.attributes.Directed after.logBook := by
  obtain ⟨acted, c₁, zonesIn, zonesOut, services, c₂, withSet, withDestination, c₃, logged, c₄,
    measured, c₅, serial, c₆, acts, _, _, selects, sets, directs, settlesLog, measures, numbers,
    settles⟩ := settle_eq_ok run
  have early : Notes before c₃ :=
    ((notes_settleAction.of_eq acts).trans (notes_selectServices.of_eq selects)).trans
      (notes_settleDestination.of_eq directs)
  have logging : Notes c₃ c₄ := notes_settleLogging.of_eq settlesLog
  have late : Notes c₄ c₆ :=
    (notes_settleMeasure.of_eq measures).trans (notes_freshSerial.of_eq numbers)
  have logsEarly := early.logs.settled logs
  have logsLogged := logging.logs.settled logsEarly
  have logsLate := late.logs.settled logsLogged
  have actedDirected : acted.Directed before.logBook :=
    directed.of_keeps (keeps_settleAction.of_eq acts) (by decide)
  have setDirected : withSet.Directed before.logBook :=
    actedDirected.of_keeps (maps_settleSet sets).keeps (by decide)
  have destinationDirected : withDestination.Directed c₃.logBook :=
    (setDirected.of_keeps (keeps_settleDestination.of_eq directs) (by decide)).keeps logs early.logs
  have loggedDirected : logged.Directed c₄.logBook := by
    unfold settleLogging at settlesLog
    split at settlesLog
    · exact directed_settleLog logsEarly destinationDirected settlesLog
    · obtain ⟨rfl, rfl⟩ := pure_eq_ok.1 settlesLog
      exact destinationDirected
  have measuredDirected : measured.Directed c₆.logBook :=
    (loggedDirected.of_keeps (keeps_settleMeasure.of_eq measures) (by decide)).keeps logsLogged
      late.logs
  rcases settleFilter_eq_ok settles with ⟨_, rfl, rfl⟩ | ⟨_, limits, _⟩
  · exact measuredDirected
  · rcases settleLimit_eq_ok limits with ⟨_, rfl, rfl⟩ | ⟨name, log, isLimit, chooses, rfl⟩
    · exact measuredDirected
    · have member := (mem_limitNames_of_limitName? isLimit).1
      have chosen : Notes c₆ after := LogClass.notes_select.of_eq chooses
      refine directed_withLimitLog (measuredDirected.keeps logsLate chosen.logs) member ?_
      exact LogClass.knows_select logsLate (measuredDirected.limitLog name member)
        (Value.isDirective_of_isWritten rfl _) chooses

/-- Rules that log without being filter rules are declared without an action. -/
def ActsByDefault (kind : RuleKind) (attributes : Record) : Prop :=
  kind = .logging → attributes.lookup "action" = none

theorem log?_eq_none_of_flag
    (unlogged : rule.attributes.flag "log" = false) : rule.log? = none := by
  unfold log? LogClass.ofValue?
  split
  · next shape => simp [Record.flag, shape, Value.isTruthy] at unlogged
  · rfl

theorem settledAction_of_lookup
    (unset : attributes.lookup "action" = none) : settledAction attributes = "accept" := by
  unfold settledAction Record.setDefault
  rw [unset]
  simp only [Option.isSome_none, Bool.false_eq_true, if_false, Record.get_set_self]
  rfl

theorem settleAction_of_lookup
    (unset : attributes.lookup "action" = none)
    (run : settleAction kind location attributes before = (.ok settled, after)) :
    settled = attributes := by
  unfold settleAction at run
  split at run
  · have absent : attributes.get "action" = .null := by
      rw [Record.get, unset]
      rfl
    unfold replaceAction at run
    rw [absent] at run
    exact (pure_eq_ok.1 run).1.symm
  · exact (pure_eq_ok.1 run).1.symm

/-- Rules that log and are settled without an action accept. -/
theorem action_of_settle
    (logs : kind.logs = true) (unset : attributes.lookup "action" = none)
    (run : settle kind location attributes before = (.ok rule, after)) : rule.action = "accept" := by
  obtain ⟨acted, _, _, _, _, _, withSet, withDestination, _, logged, _, _, _, _, _, acts, _, _, _,
    sets, directs, settlesLog, measures, _, settles⟩ := settle_eq_ok run
  have lastKeeps : Keeps (["measure", "addr"] ++ limitNames) logged rule.attributes :=
    (keeps_settleMeasure.of_eq measures).append (keeps_settleFilter settles)
  have stillUnset : withDestination.lookup "action" = none := by
    rw [(keeps_settleDestination.of_eq directs) "action" (by decide),
      (maps_settleSet sets).keeps "action" (by decide), settleAction_of_lookup unset acts]
    exact unset
  simp only [settleLogging, logs, if_true] at settlesLog
  rw [Rule.action, lastKeeps.get (by decide), get_action_of_settleLog settlesLog,
    settledAction_of_lookup stillUnset]
  rfl

theorem action_of_declare
    {source : Entry} {entries : Entries} (logs : kind.logs = true)
    (isMap : declaration? source = some entries)
    (unset : (recordOf entries).lookup "action" = none)
    (run : Rule.declare kind location source before = (.ok rule, after)) :
    rule.action = "accept" :=
  action_of_settle logs unset (settle_of_declare isMap run)

/-- A settled rule is sound when its attributes are well directed. -/
theorem sound_of_settle
    (logs : before.logBook.IsSettled) (directed : attributes.Directed before.logBook)
    (byDefault : ActsByDefault kind attributes)
    (run : settle kind location attributes before = (.ok rule, after)) :
    rule.Sound after.logBook := by
  have settledDirected := directed_of_settle logs directed run
  have settled := settledFrom_of_settle run
  obtain ⟨acted, c₁, zonesIn, zonesOut, services, c₂, withSet, withDestination, c₃, logged, c₄,
    measured, c₅, serial, c₆, acts, _, _, selects, sets, directs, settlesLog, measures, numbers,
    settles⟩ := settle_eq_ok run
  have lastKeeps : Keeps (["measure", "addr"] ++ limitNames) logged rule.attributes :=
    (keeps_settleMeasure.of_eq measures).append (keeps_settleFilter settles)
  have sameAction : rule.attributes.get "action" = logged.get "action" :=
    lastKeeps.get (by decide)
  have sameLog : rule.attributes.get "log" = logged.get "log" :=
    lastKeeps.get (by decide)
  have loggedCases : kind.logs = true →
      logged.get "action" = .text (settledAction withDestination) ∧
        ((customName? (settledAction withDestination)).isSome = true →
          logged.flag "log" = false) := by
    intro logs
    simp only [settleLogging, logs, if_true] at settlesLog
    exact ⟨get_action_of_settleLog settlesLog, (settleLog_eq_ok settlesLog).1⟩
  refine ⟨?_, ?_, ?_, ?_⟩
  · intro log isLog
    exact settledDirected.log log ((LogClass.opened_of_ofValue? isLog).symm ▸ isLog)
  · intro name member mapping isMap log isLog
    obtain ⟨value, found, isValue⟩ := Option.bind_eq_some_iff.1 isLog
    have directive := settledDirected.limitLog name member
    simp only [limitDirective, limitMapping, isMap, Option.getD_some, found] at directive
    exact directive log ((LogClass.opened_of_ofValue? isValue).symm ▸ isValue)
  · intro isLogging
    have isKind : kind = .logging := settled.kind.symm.trans isLogging
    exact action_of_settle (by rw [isKind]; rfl) (byDefault isKind) run
  · intro isFilter custom
    obtain ⟨action, unlogged⟩ := loggedCases (settled.kind ▸ logs_of_isFilter isFilter)
    refine log?_eq_none_of_flag ?_
    simp only [Record.flag, sameLog]
    refine unlogged ?_
    simp only [isCustom, Rule.action, sameAction, action] at custom
    exact custom

/-- A declared rule is sound, and another rule may be declared from it. -/
theorem sound_of_declare
    {source : Entry} {entries : Entries}
    (logs : before.logBook.IsSettled) (isMap : declaration? source = some entries)
    (directed : (recordOf entries).Directed before.logBook)
    (byDefault : ActsByDefault kind (recordOf entries))
    (run : Rule.declare kind location source before = (.ok rule, after)) :
    rule.Sound after.logBook ∧ rule.attributes.Directed after.logBook := by
  have settles := settle_of_declare isMap run
  exact ⟨sound_of_settle logs directed byDefault settles,
    directed_of_settle logs directed settles⟩

end Rule

end FirewallPolicy
