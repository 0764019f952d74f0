import FirewallPolicy.Proofs.Context.LogClasses
import FirewallPolicy.Rule.Expansion
import FirewallPolicy.Section.Builtin

/-!
# How a context evolves

Declaring objects and matching traffic only note things in a context: names that were asked for,
serial numbers, log classes, faults.  Expanding a rule may also give out chain names and declare
shared chains, but what was given out or declared before stays as it is.
-/

namespace FirewallPolicy

/-! ## Sections -/

theorem Context.entriesOf_set_self
    (context : Context) (name : String) (entries : SectionEntries) :
    { context with objects := context.objects.set name entries }.entriesOf name =
      entries := by
  simp [Context.entriesOf]

theorem Context.entriesOf_set_of_ne
    {name other : String} (different : other ≠ name)
    (context : Context) (entries : SectionEntries) :
    { context with objects := context.objects.set name entries }.entriesOf other =
      context.entriesOf other := by
  simp [Context.entriesOf, Named.get?_set_of_ne different]

namespace Context

/-! ## Noting -/

/-- The later context differs at most in what declaring and matching note. -/
structure Notes (before after : Context) : Prop where
  settings : after.settings = before.settings
  directory : after.hosts.directory = before.hosts.directory
  sections : after.sections = before.sections
  knownOrder : after.knownOrder = before.knownOrder
  auxiliary : after.auxiliary = before.auxiliary
  declared : after.declared = before.declared
  counters : after.counters = before.counters
  chainNames : after.chainNames = before.chainNames
  objects : ∀ name, name ≠ "log" → after.objects.get? name = before.objects.get? name
  listed : ∀ entry ∈ (after.entriesOf "log").values,
    entry ∈ (before.entriesOf "log").values ∨ ∃ log, entry = .object (.log log)
  advances : (before.entriesOf "log").Advances (after.entriesOf "log")
  serial : before.nextSerial ≤ after.nextSerial
  logs : before.logBook.Keeps after.logBook

theorem Notes.refl (context : Context) : Notes context context where
  settings := rfl
  directory := rfl
  sections := rfl
  knownOrder := rfl
  auxiliary := rfl
  declared := rfl
  counters := rfl
  chainNames := rfl
  objects _ _ := rfl
  listed _ := Or.inl
  advances := SectionEntries.Advances.refl _
  serial := Nat.le_refl _
  logs := LogBook.Keeps.refl _

theorem Notes.trans
    {first second third : Context}
    (early : Notes first second) (late : Notes second third) :
    Notes first third where
  settings := late.settings.trans early.settings
  directory := late.directory.trans early.directory
  sections := late.sections.trans early.sections
  knownOrder := late.knownOrder.trans early.knownOrder
  auxiliary := late.auxiliary.trans early.auxiliary
  declared := late.declared.trans early.declared
  counters := late.counters.trans early.counters
  chainNames := late.chainNames.trans early.chainNames
  objects name notLog := (late.objects name notLog).trans (early.objects name notLog)
  listed entry member := by
    rcases late.listed entry member with middle | isLog
    · exact early.listed entry middle
    · exact Or.inr isLog
  advances := early.advances.trans late.advances
  serial := Nat.le_trans early.serial late.serial
  logs := early.logs.trans late.logs

instance : IsPreorder Context Notes where
  refl := Notes.refl
  trans _ _ _ := Notes.trans

/-- The entries of a section other than the log classes stay as they are. -/
theorem Notes.entriesOf
    {before after : Context}
    (notes : Notes before after) {name : String} (notLog : name ≠ "log") :
    after.entriesOf name = before.entriesOf name := by
  rw [Context.entriesOf, Context.entriesOf, notes.objects name notLog]

/-! ## Growing -/

/-- The names of the shared chains that expansions declare. -/
def IsLogName (chain : String) : Prop :=
  ∃ tail, chain = "log" ++ tail

/-- The later context has at least the chain names and shared chains of the earlier one, the rules
of new shared chains coming last. -/
structure Grows (before after : Context) : Prop where
  settings : after.settings = before.settings
  directory : after.hosts.directory = before.hosts.directory
  sections : after.sections = before.sections
  objects : ∀ name, name ≠ "log" → after.objects.get? name = before.objects.get? name
  listed : ∀ entry ∈ (after.entriesOf "log").values,
    entry ∈ (before.entriesOf "log").values ∨ ∃ log, entry = .object (.log log)
  serial : before.nextSerial ≤ after.nextSerial
  logs : before.logBook.Keeps after.logBook
  declared : before.declared ⊆ after.declared
  logNames : ∀ chain ∈ after.declared, chain ∈ before.declared ∨ IsLogName chain
  auxiliary : ∃ added, after.auxiliary = before.auxiliary ++ added ∧
    ∀ rule ∈ added, ∃ chain, rule.chain = some chain ∧
      chain ∈ after.declared ∧ chain ∉ before.declared
  chainNames : before.chainNames <:+ after.chainNames
  nameOf : ∀ owner name, before.chainNames.lookup owner = some name →
    after.chainNames.lookup owner = some name

theorem Notes.grows
    {before after : Context} (notes : Notes before after) :
    Grows before after where
  settings := notes.settings
  directory := notes.directory
  sections := notes.sections
  objects := notes.objects
  listed := notes.listed
  serial := notes.serial
  logs := notes.logs
  declared chain member := notes.declared.symm ▸ member
  logNames chain member := Or.inl (notes.declared ▸ member)
  auxiliary := ⟨[], by rw [notes.auxiliary, List.append_nil], by simp⟩
  chainNames := by simp only [notes.chainNames, List.suffix_refl]
  nameOf owner name known := by rw [notes.chainNames, known]

theorem Grows.refl (context : Context) : Grows context context :=
  (Notes.refl context).grows

theorem Grows.trans
    {first second third : Context}
    (early : Grows first second) (late : Grows second third) :
    Grows first third where
  settings := late.settings.trans early.settings
  directory := late.directory.trans early.directory
  sections := late.sections.trans early.sections
  objects name notLog := (late.objects name notLog).trans (early.objects name notLog)
  listed entry member := by
    rcases late.listed entry member with middle | isLog
    · exact early.listed entry middle
    · exact Or.inr isLog
  serial := Nat.le_trans early.serial late.serial
  logs := early.logs.trans late.logs
  declared := fun _ member => late.declared (early.declared member)
  logNames chain member := by
    rcases late.logNames chain member with middle | isLog
    · exact early.logNames chain middle
    · exact Or.inr isLog
  auxiliary := by
    obtain ⟨earlyAdded, earlyEq, earlyNew⟩ := early.auxiliary
    obtain ⟨lateAdded, lateEq, lateNew⟩ := late.auxiliary
    refine ⟨earlyAdded ++ lateAdded, by rw [lateEq, earlyEq, List.append_assoc], ?_⟩
    intro rule member
    rcases List.mem_append.1 member with old | new
    · obtain ⟨chain, stands, declared, fresh⟩ := earlyNew rule old
      exact ⟨chain, stands, late.declared declared, fresh⟩
    · obtain ⟨chain, stands, declared, fresh⟩ := lateNew rule new
      exact ⟨chain, stands, declared, fun known => fresh (early.declared known)⟩
  chainNames := early.chainNames.trans late.chainNames
  nameOf owner name known := late.nameOf owner name (early.nameOf owner name known)

instance : IsPreorder Context Grows where
  refl := Grows.refl
  trans _ _ _ := Grows.trans

theorem Grows.entriesOf
    {before after : Context}
    (grows : Grows before after) {name : String} (notLog : name ≠ "log") :
    after.entriesOf name = before.entriesOf name := by
  rw [Context.entriesOf, Context.entriesOf, grows.objects name notLog]

end Context

open Context Stateful

theorem notes_grow
    {α : Type} {action : Run α}
    (notes : Moves Notes action) :
    Moves Grows action :=
  fun before => (notes before).grows

/-! ## Primitive computations -/

namespace Run

variable {α β : Type}

theorem notes_report {location : String} {cause : Cause} :
    Moves Notes (report location cause : Run α) :=
  Moves.bind
    (moves_modify fun before => { Notes.refl before with })
    (fun _ => moves_throw _)

theorem notes_warn {location : String} {cause : Cause} :
    Moves Notes (warn location cause) :=
  moves_modify fun before => { Notes.refl before with }

theorem notes_unusable : Moves Notes (unusable : Run α) :=
  moves_throw _

theorem notes_recording {result : Except Failure α} :
    Moves Notes (recording result) := by
  match result with
  | .ok a => exact moves_pure a
  | .error (.policy fault) => exact notes_report
  | .error (.cycle names) => exact moves_throw _
  | .error .unusable => exact moves_throw _

theorem notes_lift {result : Except Failure α} :
    Moves Notes (lift result) := by
  cases result with
  | ok a => exact moves_pure a
  | error failure => exact moves_throw failure

/-- A relation that holds of the computation for each item holds of all of them in a row. -/
theorem moves_gather
    {relation : Context → Context → Prop} [IsPreorder Context relation]
    {results : α → Run (List β)} {items : List α}
    (each : ∀ a, Moves relation (results a)) :
    Moves relation (gather results items) := by
  induction items with
  | nil => exact moves_pure _
  | cons item rest inductionHypothesis =>
      exact (each item).bind fun _ => inductionHypothesis.bind fun _ => moves_pure _

theorem notes_freshSerial : Moves Notes freshSerial :=
  moves_of_get fun before =>
    { Notes.refl before with
      serial := Nat.le_succ _
      logs := LogBook.keeps_of_le (Nat.le_succ _) }

theorem notes_resolveHost {location text : String} :
    Moves Notes (resolveHost location text) := by
  refine moves_of_get fun before => ?_
  have noting : Notes before { before with hosts := before.hosts.noting text } := by
    refine { Notes.refl before with directory := ?_ }
    simp only [HostBook.noting]
    split <;> rfl
  refine noting.trans ?_
  cases before.hosts.answer text with
  | addresses list => exact moves_pure list _
  | refused cause => exact notes_report _
  | unordered => exact notes_unusable _

theorem notes_hostFragments {location option : String} {hosts : List Value} :
    Moves Notes (hostFragments location option hosts) :=
  moves_gather fun _ => Moves.bind notes_resolveHost fun _ => moves_pure _

end Run

/-! ## Objects other than rules -/

open Run

theorem notes_attributesOf {kind : ObjectKind} {location : String} {source : Entry} :
    Moves Notes (attributesOf kind location source) := by
  unfold attributesOf
  split
  · exact moves_throw _
  · split
    · exact moves_pure _
    · exact notes_report

namespace Zone

theorem notes_declare {location : String} {source : Entry} :
    Moves Notes (Zone.declare location source) :=
  Moves.bind notes_attributesOf fun _ => moves_pure _

theorem notes_fragmentsOn {zone : Zone} {direction : Direction} {interfaces : List String} :
    Moves Notes (zone.fragmentsOn direction interfaces) := by
  refine Moves.bind ?_ fun _ => moves_pure _
  unfold addressFragments
  split
  · exact Moves.bind notes_hostFragments fun _ => moves_pure _
  · exact moves_pure _

end Zone

namespace ServiceDefinition

theorem notes_declare {location : String} {source : Entry} :
    Moves Notes (ServiceDefinition.declare location source) :=
  Moves.bind notes_attributesOf fun _ => notes_recording

end ServiceDefinition

namespace Service

theorem notes_declareItems {location : String} {items : List Entry} :
    Moves Notes (declareItems location items) := by
  induction items with
  | nil => exact moves_pure _
  | cons item rest inductionHypothesis =>
      exact Moves.bind ServiceDefinition.notes_declare fun _ =>
        inductionHypothesis.bind fun _ => moves_pure _

theorem notes_declare {location : String} {source : Entry} :
    Moves Notes (Service.declare location source) := by
  unfold Service.declare
  split
  · exact moves_pure _
  · refine Moves.bind notes_freshSerial fun _ => Moves.bind notes_declareItems fun definitions => ?_
    dsimp only
    split
    · exact Moves.bind notes_report fun _ => moves_pure _
    · exact moves_pure _

end Service

namespace LogClass

theorem notes_declare {location : String} {key : Option Scalar} {source : Entry} :
    Moves Notes (LogClass.declare location key source) := by
  refine Moves.bind notes_attributesOf fun _ => moves_get_bind fun _ => ?_
  exact Moves.bind notes_recording fun _ => Moves.bind notes_freshSerial fun _ => moves_pure _

/-- The log class that an entry declares takes the place of the entry. -/
theorem notes_put
    {location : String} {key : Scalar} {source : Entry} {log : LogClass}
    {before middle : Context}
    (found : (before.entriesOf "log").get? key = some source)
    (declares : LogClass.declare location (keyOf key) source before = (.ok log, middle)) :
    Notes before { middle with
      objects := middle.objects.set "log"
        ((middle.entriesOf "log").put key (.object (.log log))) } := by
  have noted : Notes before middle := Moves.of_eq notes_declare declares
  have keeps := keeps_of_declare found declares
  obtain ⟨_, _, _, _, _, _, rfl⟩ := declare_eq_ok declares
  refine { noted with objects := ?_, listed := ?_, advances := ?_, logs := ?_ }
  · intro other notLog
    exact Named.get?_set_of_ne notLog ..
  · intro entry member
    rw [entriesOf_set_self] at member
    exact (SectionEntries.mem_put member).imp_right fun isNew => ⟨log, isNew⟩
  · rw [entriesOf_set_self]
    exact SectionEntries.advances_put found (.log _)
  · unfold logBook
    rw [entriesOf_set_self]
    exact keeps

theorem notes_lookup {location name : String} :
    Moves Notes (LogClass.lookup location name) := by
  refine moves_of_get fun before => ?_
  cases shape : before.entriesOf "log" with
  | list items =>
      dsimp only
      split
      · exact notes_unusable before
      · exact notes_report before
  | map entries =>
      cases found : Entries.get? entries (.text name) with
      | none =>
          simp only [found]
          exact notes_report before
      | some entry =>
          have inPlace : (before.entriesOf "log").get? (.text name) = some entry := by
            rw [shape]
            exact found
          simp only [found]
          cases entry with
          | raw value =>
              exact Moves.bind_at notes_declare fun _ _ declares => notes_put inPlace declares
          | object object =>
              cases object with
              | log log => exact moves_pure log before
              | _ =>
                  exact Moves.bind_at notes_declare fun _ _ declares => notes_put inPlace declares

/-- The log class of that name, declared by the entry that it replaces. -/
def declareListed (name : String) (entry : Entry) : Run LogClass := do
  let log ← declare ("log " ++ name) (some (.text name)) entry
  modify fun context => { context with
    objects := context.objects.set "log"
      ((context.entriesOf "log").put (.text name) (.object (.log log))) }
  return log

/-- A look-up finds the log class that stands under the name, or declares it there.  The location
is for faults only. -/
theorem lookup_eq_ok
    {location name : String} {log : LogClass} {before after : Context} :
    lookup location name before = (.ok log, after) ↔
      ∃ entries entry, before.entriesOf "log" = .map entries ∧
        Entries.get? entries (.text name) = some entry ∧
        (entry = .object (.log log) ∧ after = before ∨
          (∀ known, entry = .object (.log known) → False) ∧
            declareListed name entry before = (.ok log, after)) := by
  constructor
  · intro run
    obtain ⟨_, _, reads, run⟩ := bind_eq_ok.1 run
    obtain ⟨rfl, rfl⟩ := get_eq_ok.1 reads
    cases shape : before.entriesOf "log" with
    | list items =>
        simp only [shape] at run
        split at run
        · exact (unusable_eq_ok.1 run).elim
        · exact (report_eq_ok.1 run).elim
    | map entries =>
        cases found : Entries.get? entries (.text name) with
        | none =>
            simp only [shape, found] at run
            exact (report_eq_ok.1 run).elim
        | some entry =>
            refine ⟨entries, entry, rfl, found, ?_⟩
            by_cases isLog : ∃ known, entry = .object (.log known)
            · obtain ⟨known, rfl⟩ := isLog
              simp only [shape, found] at run
              obtain ⟨rfl, rfl⟩ := pure_eq_ok.1 run
              exact Or.inl ⟨rfl, rfl⟩
            · have isNew : ∀ known, entry = .object (.log known) → False := not_exists.1 isLog
              simp only [shape, found] at run
              exact Or.inr ⟨isNew, run⟩
  · rintro ⟨entries, entry, shape, found, cases⟩
    refine bind_eq_ok.2 ⟨_, _, get_eq_ok.2 ⟨rfl, rfl⟩, ?_⟩
    rcases cases with ⟨rfl, rfl⟩ | ⟨isNew, run⟩
    · simp only [shape, found]
      rfl
    · simp only [shape, found]
      exact run

/-- What a look-up finds stands under its name afterwards. -/
theorem lists_of_lookup
    {location name : String} {log : LogClass} {before after : Context}
    (run : lookup location name before = (.ok log, after)) :
    after.logBook.Lists name log ∧ after.defaultLog = before.defaultLog := by
  obtain ⟨entries, entry, shape, found, cases⟩ := lookup_eq_ok.1 run
  have inPlace : (before.entriesOf "log").get? (.text name) = some entry := by
    rw [shape]
    exact found
  rcases cases with ⟨rfl, rfl⟩ | ⟨_, run⟩
  · exact ⟨inPlace, rfl⟩
  · simp only [declareListed, bind_eq_ok, modify_eq_ok, pure_eq_ok] at run
    obtain ⟨_, _, declares, _, _, rfl, rfl, rfl⟩ := run
    obtain ⟨_, _, _, _, _, _, rfl⟩ := declare_eq_ok declares
    refine ⟨?_, rfl⟩
    unfold LogBook.Lists logBook
    rw [entriesOf_set_self]
    exact (SectionEntries.get?_put_text inPlace name).trans (if_pos rfl)

/-- The default class is the one that was set up before, or it is set up now: as the one that the
policy names so, or from the settings. -/
theorem default_eq_ok
    {location : String} {log : LogClass} {before after : Context} :
    default location before = (.ok log, after) ↔
      (before.defaultLog = some log ∧ after = before) ∨
        before.defaultLog = none ∧ ∃ found middle,
          (if declaresDefault (before.entriesOf "log") then lookup location defaultName
            else declare "default log" none (.raw (.map (defaultAttributes before.settings))))
              before = (.ok found, middle) ∧
          log = { found with key := some (.text "") } ∧
          after = { middle with defaultLog := some log } := by
  unfold default
  rw [bind_eq_ok]
  simp only [get_eq_ok]
  constructor
  · rintro ⟨_, _, ⟨rfl, rfl⟩, run⟩
    cases isDefault : before.defaultLog with
    | some known =>
        simp only [isDefault] at run
        obtain ⟨rfl, rfl⟩ := pure_eq_ok.1 run
        exact Or.inl ⟨rfl, rfl⟩
    | none =>
        simp only [isDefault, bind_eq_ok, get_eq_ok] at run
        obtain ⟨_, _, ⟨rfl, rfl⟩, run⟩ := run
        refine Or.inr ⟨rfl, ?_⟩
        by_cases declares : declaresDefault (before.entriesOf "log")
        all_goals simp only [declares, if_true, if_false, Bool.false_eq_true] at run ⊢
        · simp only [bind_eq_ok, modify_eq_ok, pure_eq_ok] at run
          obtain ⟨found, middle, finds, _, _, rfl, rfl, rfl⟩ := run
          exact ⟨found, middle, finds, rfl, rfl⟩
        · simp only [bind_eq_ok, get_eq_ok, modify_eq_ok, pure_eq_ok] at run
          obtain ⟨_, _, ⟨rfl, rfl⟩, found, middle, declares, _, _, rfl, rfl, rfl⟩ := run
          exact ⟨found, middle, declares, rfl, rfl⟩
  · rintro (⟨isDefault, rfl⟩ | ⟨undefined, found, middle, finds, rfl, rfl⟩)
    · refine ⟨_, _, ⟨rfl, rfl⟩, ?_⟩
      simp only [isDefault]
      rfl
    · refine ⟨_, _, ⟨rfl, rfl⟩, ?_⟩
      simp only [undefined]
      refine bind_eq_ok.2 ⟨_, _, get_eq_ok.2 ⟨rfl, rfl⟩, ?_⟩
      by_cases declares : declaresDefault (before.entriesOf "log")
      all_goals simp only [declares, if_true, if_false, Bool.false_eq_true] at finds ⊢
      · exact bind_eq_ok.2 ⟨found, middle, finds, rfl⟩
      · exact bind_eq_ok.2 ⟨_, _, get_eq_ok.2 ⟨rfl, rfl⟩, bind_eq_ok.2 ⟨found, middle, finds, rfl⟩⟩

/-- The default class is set up when it is asked for the first time. -/
theorem notes_default {location : String} :
    Moves Notes (LogClass.default location) := by
  refine moves_of_get fun before => ?_
  cases undefined : before.defaultLog with
  | some log => exact moves_pure log before
  | none =>
      change Notes before ((if declaresDefault (before.entriesOf "log") = true then _
        else _ : Run LogClass) before).2
      split
      · refine Moves.bind_at notes_lookup fun log middle finds => ?_
        have noted : Notes before middle := Moves.of_eq notes_lookup finds
        obtain ⟨listed, same⟩ := lists_of_lookup finds
        refine noted.trans { Notes.refl middle with logs := ?_ }
        exact LogBook.keeps_default (same.trans undefined) fun settled =>
          settled.admits_of_holds listed.holds
      · refine Moves.bind_at moves_get fun _ _ reads => ?_
        obtain ⟨rfl, rfl⟩ := get_eq_ok.1 reads
        refine Moves.bind_at notes_declare fun log middle declares => ?_
        have noted : Notes before middle := Moves.of_eq notes_declare declares
        have admits := admits_of_declare declares
        obtain ⟨_, _, _, _, _, _, rfl⟩ := declare_eq_ok declares
        exact { noted with logs := LogBook.keeps_default undefined admits }

theorem notes_select {location : String} {directive fallback : Value} :
    Moves Notes (LogClass.select location directive fallback) := by
  unfold LogClass.select
  extract_lets enabled chosen
  split
  · exact moves_pure _
  · exact moves_pure _
  · exact Moves.bind notes_default fun _ => moves_pure _
  · exact moves_pure _
  · exact Moves.bind notes_declare fun _ => moves_pure _
  · exact moves_pure _
  · exact Moves.bind notes_lookup fun _ => moves_pure _

end LogClass

theorem Limit.notes_declare {kind : ObjectKind} {location : String} {source : Entry} :
    Moves Notes (Limit.declare kind location source) :=
  Moves.bind notes_attributesOf fun _ => notes_recording

end FirewallPolicy
