import FirewallPolicy.Compile.Compilation
import FirewallPolicy.Proofs.AddressSet
import FirewallPolicy.Proofs.Compile.Sections
import FirewallPolicy.Proofs.Context.Evolution
import FirewallPolicy.Proofs.Rule.Renaming
import FirewallPolicy.Proofs.Rule.Tracked
import FirewallPolicy.Proofs.Run.Lockstep

/-!
# Twin contexts

Two compilations of policies that state the same in another order, or of one policy for fewer
address families, run in twin contexts.  Serial numbers that were given out before are renamed, the
named objects are found under the same keys, and the sections of rules hold the same rules in the
same order.  Declaring objects and looking them up takes twin contexts to twin contexts and gives
the same objects, but for their serial numbers.
-/

namespace FirewallPolicy

open Stateful Run

/-! ## Entries of sections -/

namespace SectionEntries

/-- The entries with the serial numbers renamed. -/
def renamed (rename : Nat → Nat) : SectionEntries → SectionEntries
  | .list items => .list (items.map (Entry.renamed rename))
  | .map entries => .map (Entries.mapped (Entry.renamed rename) entries)

/-- The same entries are found, changed; those of a list are in the same order. -/
inductive Alike (change : Entry → Entry) : SectionEntries → SectionEntries → Prop
  | list (items : List Entry) : Alike change (.list items) (.list (items.map change))
  | map {entries others : List (Scalar × Entry)}
      (found : ∀ key, Entries.get? others key = (Entries.get? entries key).map change) :
      Alike change (.map entries) (.map others)

variable {rename : Nat → Nat} {change : Entry → Entry} {entries others : SectionEntries}

theorem alike_renamed (entries : SectionEntries) :
    entries.Alike (Entry.renamed rename) (entries.renamed rename) := by
  cases entries with
  | list items => exact .list items
  | map entries => exact .map Entries.get?_mapped

theorem alike_id (entries : SectionEntries) : entries.Alike id entries := by
  cases entries with
  | list items =>
      have same : Alike id (.list items) (.list (items.map id)) := .list items
      rwa [List.map_id] at same
  | map entries => exact .map fun key => by rw [Option.map_id_fun, id_eq]

theorem renamed_id (entries : SectionEntries) : entries.renamed id = entries := by
  cases entries <;> simp [renamed, funext Entry.renamed_id, Entries.mapped_id]

theorem Alike.get? (alike : entries.Alike change others) (key : Scalar) :
    others.get? key = (entries.get? key).map change := by
  cases alike with
  | list items =>
      cases key with
      | int position => simp [SectionEntries.get?]
      | _ => rfl
  | map found => exact found key

/-- The same entry is put in the place of that key. -/
theorem Alike.put
    (alike : entries.Alike change others) (key : Scalar) (entry : Entry) :
    (entries.put key entry).Alike change (others.put key (change entry)) := by
  cases alike with
  | list items =>
      cases key with
      | int position =>
          have same : Alike change _ (.list ((items.set position.toNat entry).map change)) :=
            .list (items.set position.toNat entry)
          rwa [List.map_set] at same
      | _ => exact .list items
  | map found =>
      refine .map fun other => ?_
      rw [Entries.get?_insert, Entries.get?_insert, found]
      split <;> rfl

theorem keys_renamed (entries : SectionEntries) : (entries.renamed rename).keys = entries.keys := by
  cases entries with
  | list items => simp [renamed, keys]
  | map entries => exact Entries.keys_mapped ..

theorem values_renamed (entries : SectionEntries) :
    (entries.renamed rename).values = entries.values.map (Entry.renamed rename) := by
  cases entries with
  | list items => rfl
  | map entries => simp [renamed, values, Entries.mapped]

theorem put_renamed (entries : SectionEntries) (key : Scalar) (entry : Entry) :
    (entries.renamed rename).put key (entry.renamed rename) =
      (entries.put key entry).renamed rename := by
  cases entries with
  | list items => cases key <;> simp [renamed, put, List.map_set]
  | map entries => simp [renamed, put, Entries.insert_mapped]

end SectionEntries

/-! ## Twins -/

/-- Either all families are kept, or any limit that a filter rule states in the entry tracks exactly
one address in each family. -/
structure Entry.IsSteady (keep : String → Bool) (kind : RuleKind) (entry : Entry) : Prop where
  sameKind : ∀ rule, entry = .object (.rule rule) → rule.kind = kind
  limits : (∀ family, keep family = true) ∨ (kind.isFilter = true →
    ∀ entries, declaration? entry = some entries → (recordOf entries).LimitsSingly)

namespace Context

/-- The second context is the first one, but for serial numbers that were given out before, for the
order of named objects and for the address families that are not kept. -/
structure Twin (rename : Nat → Nat) (keep : String → Bool) (first second : Context) : Prop where
  injective : Function.Injective rename
  fixes : ∀ serial, first.nextSerial ≤ serial → rename serial = serial
  families : second.settings.families = first.settings.families.filter keep
  isEmpty_families : second.settings.families.isEmpty = first.settings.families.isEmpty
  recentMaxCount : second.settings.recentMaxCount = first.settings.recentMaxCount
  logMode : second.settings.logMode = first.settings.logMode.renamed rename
  logLevel : second.settings.logLevel = first.settings.logLevel.renamed rename
  hosts : second.hosts = first.hosts
  sections : second.sections = first.sections
  auxiliary : second.auxiliary = first.auxiliary
  declared : second.declared = first.declared
  counters : second.counters = first.counters
  chainNames : second.chainNames = first.chainNames
  nextSerial : second.nextSerial = first.nextSerial
  warnings : second.warnings = first.warnings
  defaultLog : second.defaultLog = first.defaultLog.map (LogClass.renamed rename)
  zones : (first.entriesOf "zone").Alike id (second.entriesOf "zone")
  services : (first.entriesOf "service").Alike (Entry.renamed rename) (second.entriesOf "service")
  logs : (first.entriesOf "log").Alike (Entry.renamed rename) (second.entriesOf "log")
  chains : (first.entriesOf "custom").Alike id (second.entriesOf "custom")
  rules : ∀ described ∈ Builtin.ruleSections,
    second.entriesOf described.name = (first.entriesOf described.name).renamed rename
  steady : ∀ described ∈ Builtin.ruleSections, ∀ kind, described.kind = some (.rule kind) →
    ∀ entry ∈ (first.entriesOf described.name).values, entry.IsSteady keep kind
  sets : Follows AddressSet.PrintsAlike
    (Building.setDefinitions (first.entriesOf "ipset") >>= AddressSet.readAll)
    (Building.setDefinitions (second.entriesOf "ipset") >>= AddressSet.readAll)

end Context

section Twins

open Context

variable {rename : Nat → Nat} {keep : String → Bool} {states : Context → Context → Prop}

/-! ## Names and hosts -/

namespace Run

theorem lockstep_freshSerial :
    Lockstep (Twin rename keep) (fun serial other => other = serial ∧ rename serial = serial)
      freshSerial freshSerial := by
  intro first second serial after twin run
  obtain ⟨rfl, rfl⟩ := freshSerial_eq_ok.1 run
  refine ⟨_, { second with nextSerial := second.nextSerial + 1 }, rfl,
    ⟨twin.nextSerial, twin.fixes _ (le_refl _)⟩, ?_⟩
  exact { twin with
    nextSerial := congrArg (· + 1) twin.nextSerial
    fixes := fun serial later => twin.fixes serial (Nat.le_of_succ_le later) }

/-- Objects that are declared in both contexts get the same serial numbers, which are not renamed,
and the same way of logging unless they state another one. -/
structure DeclaresAlike (rename : Nat → Nat) (states : Context → Context → Prop) : Prop where
  mode : ∀ first second, states first second →
    second.settings.logMode = first.settings.logMode.renamed rename
  fresh : Lockstep states (fun serial other => other = serial ∧ rename serial = serial)
    freshSerial freshSerial

theorem declaresAlike_twin : DeclaresAlike rename (Twin rename keep) :=
  ⟨fun _ _ twin => twin.logMode, lockstep_freshSerial⟩

theorem lockstep_chainNameOf (serial : Nat) (key : String) :
    Lockstep (Twin rename keep) Eq (chainNameOf serial key) (chainNameOf serial key) := by
  refine lockstep_get_bind fun first second twin => ?_
  rw [twin.chainNames]
  have named : Lockstep (Twin rename keep) Eq (freshName key) (freshName key) := by
    refine lockstep_get_bind fun first second twin => ?_
    rw [twin.counters]
    refine Lockstep.bind_same (lockstep_modify fun _ _ twin => ?_) fun _ => lockstep_pure rfl
    exact { twin with counters := by rw [twin.counters] }
  split
  · exact lockstep_pure rfl
  · refine named.bind_same fun name =>
      Lockstep.bind_same (lockstep_modify fun _ _ twin => ?_) fun _ => lockstep_pure rfl
    exact { twin with chainNames := by rw [twin.chainNames] }

theorem lockstep_declareChain (chain : String) (rules : List Fragment) :
    Lockstep (Twin rename keep) Eq (declareChain chain rules) (declareChain chain rules) := by
  refine lockstep_get_bind fun first second twin => ?_
  rw [twin.declared]
  split
  · exact lockstep_pure rfl
  · refine Lockstep.bind_same (lockstep_modify fun _ _ twin => ?_) fun _ => lockstep_pure rfl
    exact { twin with
      declared := by rw [twin.declared]
      auxiliary := by rw [twin.auxiliary] }

theorem lockstep_warn (location : String) (cause : Cause) :
    Lockstep (Twin rename keep) Eq (warn location cause) (warn location cause) :=
  lockstep_modify fun _ _ twin => { twin with warnings := by rw [twin.warnings] }

theorem lockstep_resolveHost (location text : String) :
    Lockstep (Twin rename keep) Eq (resolveHost location text) (resolveHost location text) := by
  refine lockstep_get_bind fun first second twin => ?_
  rw [twin.hosts]
  refine Lockstep.bind_same (lockstep_modify fun _ _ twin => { twin with hosts := rfl }) fun _ => ?_
  cases first.hosts.answer text with
  | addresses list => exact lockstep_pure rfl
  | refused cause => exact lockstep_report
  | unordered => exact lockstep_unusable

theorem lockstep_hostFragments (location option : String) (hosts : List Value) :
    Lockstep (Twin rename keep) Eq (hostFragments location option hosts)
      (hostFragments location option (hosts.map (Value.renamed rename))) := by
  refine lockstep_gather ((forall₂_becomes.2 rfl).imp ?_)
  rintro host _ rfl
  rw [Value.written_renamed]
  exact (lockstep_resolveHost _ _).bind_same fun _ => lockstep_pure rfl

end Run

/-! ## Objects -/

theorem lockstep_attributesOf (kind : ObjectKind) (location : String) (source : Entry) :
    Lockstep states (Becomes (Record.renamed rename)) (attributesOf kind location source)
      (attributesOf kind location (source.renamed rename)) := by
  unfold attributesOf
  rw [declaration?_renamed]
  cases declaration? source with
  | none => exact lockstep_throw
  | some entries =>
      simp only [Option.map_some, unknownKeys_renamed]
      cases unknownKeys kind.attributes entries with
      | nil => exact lockstep_pure (recordOf_renamed entries)
      | cons name rest => exact lockstep_report

namespace Zone

theorem lockstep_declare (location : String) (source : Entry) :
    Lockstep states Eq (declare location source) (declare location source) := by
  refine Lockstep.bind_same ?_ fun _ => lockstep_pure rfl
  unfold attributesOf
  split
  · exact lockstep_throw
  · split
    · exact lockstep_pure rfl
    · exact lockstep_report

theorem lockstep_fragmentsOn
    (zone : Zone) (direction : Direction) (interfaces : List String) :
    Lockstep (Twin rename keep) Eq (zone.fragmentsOn direction interfaces)
      (zone.fragmentsOn direction interfaces) := by
  refine Lockstep.bind_same ?_ fun _ => lockstep_pure rfl
  unfold addressFragments
  split
  · refine Lockstep.bind_same (lockstep_gather (List.forall₂_same.2 fun _ _ => ?_)) fun _ =>
      lockstep_pure rfl
    exact (lockstep_resolveHost _ _).bind_same fun _ => lockstep_pure rfl
  · exact lockstep_pure rfl

end Zone

theorem ServiceDefinition.lockstep_declare (location : String) (source : Entry) :
    Lockstep states (Becomes (renamed rename)) (declare location source)
      (declare location (source.renamed rename)) := by
  refine (lockstep_attributesOf _ _ _).bind ?_
  rintro attributes _ rfl
  exact lockstep_recording (follows_settle location attributes)

namespace Service

theorem items_renamed (source : Entry) :
    items (source.renamed rename) = (items source).map (Entry.renamed rename) := by
  cases source with
  | raw value => simp [items, Entry.renamed, Function.comp_def]
  | object object => rfl

theorem lockstep_declareItems (location : String) (items : List Entry) :
    Lockstep states (Becomes (List.map (ServiceDefinition.renamed rename)))
      (declareItems location items) (declareItems location (items.map (Entry.renamed rename))) := by
  induction items with
  | nil => exact lockstep_pure rfl
  | cons item rest inductionHypothesis =>
      refine (ServiceDefinition.lockstep_declare location item).bind ?_
      rintro definition _ rfl
      refine inductionHypothesis.bind ?_
      rintro definitions _ rfl
      exact lockstep_pure rfl

theorem lockstep_declare
    (alike : DeclaresAlike rename states) (location : String) (source : Entry) :
    Lockstep states (Becomes (renamed rename)) (declare location source)
      (declare location (source.renamed rename)) := by
  have fresh : Lockstep states (Becomes (renamed rename))
      (do
        let serial ← freshSerial
        let definitions ← declareItems location (items source)
        if definitions.isEmpty then report location .emptyService
        return { serial, location, definitions : Service })
      (do
        let serial ← freshSerial
        let definitions ← declareItems location (items (source.renamed rename))
        if definitions.isEmpty then report location .emptyService
        return { serial, location, definitions : Service }) := by
    rw [items_renamed]
    refine alike.fresh.bind ?_
    rintro _ number ⟨rfl, fixed⟩
    refine (lockstep_declareItems location _).bind ?_
    rintro definitions _ rfl
    rw [List.isEmpty_map]
    have same : Becomes (renamed rename) ⟨number, location, definitions⟩
        ⟨number, location, definitions.map (ServiceDefinition.renamed rename)⟩ := by
      simp [Becomes, renamed, fixed]
    dsimp only
    split
    · exact lockstep_report_bind
    · exact lockstep_pure same
  cases source with
  | raw value => exact fresh
  | object object =>
      cases object with
      | service service => exact lockstep_pure rfl
      | _ => exact fresh

end Service

theorem Limit.lockstep_declare (kind : ObjectKind) (location : String) (source : Entry) :
    Lockstep states (Becomes (renamed rename)) (declare kind location source)
      (declare kind location (source.renamed rename)) := by
  refine (lockstep_attributesOf _ _ _).bind ?_
  rintro attributes _ rfl
  exact lockstep_recording (follows_settle location attributes)

/-! ## Log classes -/

namespace LogClass

theorem lockstep_declare
    (alike : DeclaresAlike rename states) (location : String) (key : Option Scalar)
    (source : Entry) :
    Lockstep states (Becomes (renamed rename)) (declare location key source)
      (declare location key (source.renamed rename)) := by
  refine (lockstep_attributesOf _ _ _).bind ?_
  rintro attributes _ rfl
  refine lockstep_get_bind fun first second related => ?_
  refine (lockstep_recording
    (follows_settle (alike.mode first second related) location key attributes)).bind ?_
  rintro settled _ rfl
  refine alike.fresh.bind ?_
  rintro _ serial ⟨rfl, fixed⟩
  exact lockstep_pure (by simp [Becomes, renamed, fixed])

/-- A log class is known by the same name in twin contexts. -/
theorem nameIn_renamed {first second : Context} (twin : Twin rename keep first second)
    (log : LogClass) : nameIn second (log.renamed rename) = nameIn first log := by
  unfold nameIn
  rw [twin.defaultLog]
  cases first.defaultLog with
  | none => rfl
  | some default =>
      simp only [Option.map_some]
      exact if_congr twin.injective.eq_iff rfl rfl

/-- A log class that was declared at its first use is put in the place of its entry in both. -/
theorem twin_withLog
    {first second : Context} (twin : Twin rename keep first second) (name : String)
    (log : LogClass) :
    Twin rename keep
      { first with
        objects := first.objects.set "log"
          ((first.entriesOf "log").put (.text name) (.object (.log log))) }
      { second with
        objects := second.objects.set "log"
          ((second.entriesOf "log").put (.text name) (.object (.log (log.renamed rename)))) } := by
  have others {other : String} (notLog : other ≠ "log") (context : Context)
      (entries : SectionEntries) :
      Context.entriesOf { context with objects := context.objects.set "log" entries } other =
        context.entriesOf other :=
    entriesOf_set_of_ne notLog context entries
  have notLog : ∀ described ∈ Builtin.ruleSections, described.name ≠ "log" := by
    decide
  refine { twin with
    zones := ?_, services := ?_, logs := ?_, chains := ?_, rules := ?_, steady := ?_, sets := ?_ }
  · rw [others (by decide), others (by decide)]
    exact twin.zones
  · rw [others (by decide), others (by decide)]
    exact twin.services
  · rw [entriesOf_set_self, entriesOf_set_self]
    exact twin.logs.put _ _
  · rw [others (by decide), others (by decide)]
    exact twin.chains
  · intro described isRule
    rw [others (notLog described isRule), others (notLog described isRule)]
    exact twin.rules described isRule
  · intro described isRule kind isKind entry member
    rw [others (notLog described isRule)] at member
    exact twin.steady described isRule kind isKind entry member
  · rw [others (by decide), others (by decide)]
    exact twin.sets

theorem lockstep_lookup (location name : String) :
    Lockstep (Twin rename keep) (Becomes (renamed rename)) (lookup location name)
      (lookup location name) := by
  have declared (entry : Entry) : Lockstep (Twin rename keep) (Becomes (renamed rename))
      (do
        let log ← declare ("log " ++ name) (some (.text name)) entry
        modify fun context : Context => { context with
          objects := context.objects.set "log"
            ((context.entriesOf "log").put (.text name) (.object (.log log))) }
        return log : Run LogClass)
      (do
        let log ← declare ("log " ++ name) (some (.text name)) (entry.renamed rename)
        modify fun context : Context => { context with
          objects := context.objects.set "log"
            ((context.entriesOf "log").put (.text name) (.object (.log log))) }
        return log : Run LogClass) := by
    refine (lockstep_declare declaresAlike_twin _ _ entry).bind ?_
    rintro log _ rfl
    exact Lockstep.bind_same (lockstep_modify fun _ _ twin => twin_withLog twin name log)
      fun _ => lockstep_pure rfl
  refine lockstep_get_bind fun first second twin => ?_
  have alike := twin.logs
  generalize first.entriesOf "log" = entries at alike
  generalize second.entriesOf "log" = others at alike
  cases alike with
  | list items =>
      dsimp only
      split
      · exact lockstep_unusable
      · exact lockstep_report
  | @map entries others found =>
      dsimp only
      rw [found]
      cases Entries.get? entries (.text name) with
      | none => exact lockstep_report
      | some entry =>
          cases entry with
          | raw value => exact declared (.raw value)
          | object object =>
              cases object with
              | log log => exact lockstep_pure rfl
              | _ => exact declared (.object _)

theorem declaresDefault_of_alike {entries others : SectionEntries}
    (alike : entries.Alike (Entry.renamed rename) others) :
    declaresDefault others = declaresDefault entries := by
  cases alike with
  | list items =>
      simp only [declaresDefault, List.any_map]
      congr 1
      funext entry
      cases entry <;> simp [Entry.renamed]
  | map found => simp [declaresDefault, found]

theorem defaultAttributes_renamed {first second : Context} (twin : Twin rename keep first second) :
    (Entry.raw (.map (defaultAttributes first.settings))).renamed rename =
      .raw (.map (defaultAttributes second.settings)) := by
  unfold defaultAttributes
  rw [twin.logMode, twin.logLevel, Value.isTruthy_renamed]
  split <;> simp [Entry.renamed, Entries.mapped]

theorem lockstep_default (location : String) :
    Lockstep (Twin rename keep) (Becomes (renamed rename)) (default location)
      (default location) := by
  refine lockstep_get_bind fun first second twin => ?_
  rw [twin.defaultLog]
  cases first.defaultLog with
  | some log => exact lockstep_pure rfl
  | none =>
      refine lockstep_get_bind fun first second twin => ?_
      have keeps (log : LogClass) : Lockstep (Twin rename keep) (Becomes (renamed rename))
          (do
            let log := { log with key := some (.text "") }
            modify fun context : Context => { context with defaultLog := some log }
            return log : Run LogClass)
          (do
            let log := { log.renamed rename with key := some (.text "") }
            modify fun context : Context => { context with defaultLog := some log }
            return log : Run LogClass) :=
        Lockstep.bind_same (lockstep_modify fun _ _ twin => { twin with defaultLog := rfl })
          fun _ => lockstep_pure rfl
      rw [declaresDefault_of_alike twin.logs]
      split
      · refine (lockstep_lookup location defaultName).bind ?_
        rintro log _ rfl
        exact keeps log
      · refine lockstep_get_bind fun first second twin => ?_
        rw [← defaultAttributes_renamed twin]
        refine (lockstep_declare declaresAlike_twin _ none _).bind ?_
        rintro log _ rfl
        exact keeps log

theorem lockstep_select (location : String) (directive : Value) (fallback : Bool) :
    Lockstep (Twin rename keep) (Becomes (Option.map (renamed rename)))
      (select location directive (.bool fallback))
      (select location (directive.renamed rename) (.bool fallback)) := by
  have enabled (log : LogClass) : Becomes (Option.map (renamed rename))
      (if log.isEnabled then some log else none)
      (if (log.renamed rename).isEnabled then some (log.renamed rename) else none) := by
    rw [isEnabled_renamed]
    split <;> rfl
  have chosen : (if (directive.renamed rename).isNull then .bool fallback
      else directive.renamed rename) =
        (if directive.isNull then .bool fallback else directive).renamed rename := by
    rw [Value.isNull_renamed]
    split <;> simp
  unfold select
  simp only [chosen, Value.opened_renamed, Value.written_renamed]
  generalize (if directive.isNull then .bool fallback else directive) = directive
  have looked : Lockstep (Twin rename keep) (Becomes (Option.map (renamed rename)))
      (do
        let log ← lookup location directive.written
        return if log.isEnabled then some log else none)
      (do
        let log ← lookup location directive.written
        return if log.isEnabled then some log else none) := by
    refine (lockstep_lookup location _).bind ?_
    rintro log _ rfl
    exact lockstep_pure (enabled log)
  -- Whatever is neither a flag, a mapping nor a log class is the name of a log class.
  cases directive.opened with
  | scalar s =>
      rw [Value.renamed_scalar]
      split
      · exact lockstep_pure rfl
      · exact lockstep_pure rfl
      · refine (lockstep_default location).bind ?_
        rintro log _ rfl
        exact lockstep_pure (enabled log)
      · contradiction
      · contradiction
      · exact lockstep_pure rfl
      · exact looked
  | map entries =>
      have declared := lockstep_declare (@declaresAlike_twin rename keep) (location ++ " log") none
        (.raw (.map entries))
      refine declared.bind ?_
      rintro log _ rfl
      exact lockstep_pure (enabled log)
  | log serial origin key attributes =>
      simp only [Value.renamed, Value.renamedFields_eq_mapped]
      exact lockstep_pure (enabled ⟨serial, origin, key, attributes⟩)
  | _ => exact looked

end LogClass

end Twins

end FirewallPolicy
