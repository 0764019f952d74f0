import FirewallPolicy.Proofs.Context.LogClasses
import FirewallPolicy.Proofs.Record
import FirewallPolicy.Proofs.Run.Contract
import FirewallPolicy.Proofs.Value.Unbroken
import FirewallPolicy.Rule.Placement

/-!
# Objects on one line

The attributes of an object are tidy when log classes stand only where rules keep them and nothing
else has a line break.  What is declared by tidy attributes, or by a value of a document without line
breaks, has no line break either.
-/

namespace FirewallPolicy

/-! ## Log classes -/

/-- Neither the name nor an attribute of the log class has a line break. -/
structure LogClass.IsUnbroken (log : LogClass) : Prop where
  key : IfGiven (fun key => key.isUnbroken = true) log.key
  attributes : log.attributes.IsUnbroken

/-- The value is a log class without line breaks. -/
def Value.IsUnbrokenLog (value : Value) : Prop :=
  ∃ log : LogClass, log.IsUnbroken ∧ value = log.toValue

theorem LogClass.ofValue?_toValue (log : LogClass) : ofValue? log.toValue = some log :=
  rfl

/-- A log class that is taken out of an attribute has no line break. -/
theorem LogClass.isUnbroken_of_ofValue?
    {value : Value} {log : LogClass}
    (tidy : value.isUnbroken = true ∨ value.IsUnbrokenLog) (isLog : ofValue? value = some log) :
    log.IsUnbroken := by
  rcases tidy with unbroken | ⟨other, otherUnbroken, rfl⟩
  · unfold ofValue? at isLog
    split at isLog
    · simp [Value.isUnbroken] at unbroken
    · simp at isLog
  · rw [ofValue?_toValue] at isLog
    obtain rfl := Option.some.inj isLog
    exact otherUnbroken

theorem LogClass.tidy_optionValue
    {log : Option LogClass} (unbroken : IfGiven LogClass.IsUnbroken log) :
    (optionValue log).isUnbroken = true ∨ (optionValue log).IsUnbrokenLog := by
  cases log with
  | none => exact Or.inl rfl
  | some found => exact Or.inr ⟨found, unbroken found rfl, rfl⟩

/-! ## Tidy attributes -/

/-- The mapping of a limit: apart from its log class it has no line break. -/
def Entries.IsTidy (entries : Entries) : Prop :=
  ∀ entry ∈ entries, entry.1.isUnbroken = true ∧
    (entry.2.isUnbroken = true ∨ entry.1 = .text "log" ∧ entry.2.IsUnbrokenLog)

/-- The attributes of a rule in which log classes may stand. -/
def logHolders : List String := "log" :: limitNames

/-- A log class, or a limit with its log class, stands in the attribute. -/
inductive Record.HoldsLog : String × Value → Prop
  | log {value : Value} : value.IsUnbrokenLog → HoldsLog ("log", value)
  | limit {name : String} {entries : Entries} :
      name ∈ limitNames → entries.IsTidy → HoldsLog (name, .map entries)

/-- Apart from its log classes the record has no line break. -/
def Record.IsTidy (record : Record) : Prop :=
  ∀ field ∈ record, field.2.isUnbroken = true ∨ HoldsLog field

theorem Entries.IsUnbroken.isTidy {entries : Entries} (unbroken : entries.IsUnbroken) :
    entries.IsTidy :=
  fun entry member => (unbroken entry member).imp_right Or.inl

namespace Entries.IsTidy

variable {entries : Entries}

theorem insert (tidy : entries.IsTidy) {value : Value}
    (isLog : value.isUnbroken = true ∨ value.IsUnbrokenLog) :
    IsTidy (Entries.insert entries (.text "log") value) := by
  have new : (Scalar.text "log").isUnbroken = true ∧ (value.isUnbroken = true ∨
      Scalar.text "log" = .text "log" ∧ value.IsUnbrokenLog) :=
    ⟨rfl, isLog.imp_right fun isLog => ⟨rfl, isLog⟩⟩
  induction entries with
  | nil => simpa [Entries.insert, IsTidy] using new
  | cons first rest inductionHypothesis =>
      obtain ⟨known, old⟩ := first
      obtain ⟨isFirst, isRest⟩ := List.forall_mem_cons.1 tidy
      unfold Entries.insert
      split
      · next same =>
          obtain rfl := Scalar.sameKey_text_iff.1 same
          exact List.forall_mem_cons.2 ⟨new, isRest⟩
      · exact List.forall_mem_cons.2 ⟨isFirst, inductionHypothesis isRest⟩

theorem log (tidy : entries.IsTidy) (key : Scalar) :
    ((get? entries key).getD .null).isUnbroken = true ∨
      ((get? entries key).getD .null).IsUnbrokenLog := by
  cases found : get? entries key with
  | none => exact Or.inl rfl
  | some value =>
      obtain ⟨entry, member, rfl⟩ := mem_of_get? found
      exact (tidy entry member).2.imp_right And.right

theorem recordOf (tidy : entries.IsTidy) : (recordOf entries).IsTidy := by
  intro field member
  obtain ⟨entry, isEntry, taken⟩ := List.mem_filterMap.1 member
  split at taken
  · next name isText =>
      obtain rfl := Option.some.inj taken
      refine (tidy entry isEntry).2.imp_right ?_
      rintro ⟨isLog, log⟩
      obtain rfl := Scalar.text.inj (isText.symm.trans isLog)
      exact Record.HoldsLog.log log
  · simp at taken

end Entries.IsTidy

namespace Record

variable {record : Record} {name : String} {value : Value}

theorem HoldsLog.mem_logHolders {field : String × Value} (holds : HoldsLog field) :
    field.1 ∈ logHolders := by
  cases holds with
  | log _ => exact List.mem_cons_self ..
  | limit isLimit _ => exact List.mem_cons_of_mem _ isLimit

theorem IsUnbroken.isTidy (unbroken : record.IsUnbroken) : record.IsTidy :=
  fun field member => Or.inl (unbroken field member)

theorem IsTidy.isUnbroken (tidy : record.IsTidy) {names : List String}
    (named : ∀ field ∈ record, field.1 ∈ names) (others : ∀ name ∈ names, name ∉ logHolders) :
    record.IsUnbroken := fun field member =>
  (tidy field member).resolve_right fun holds =>
    others field.1 (named field member) holds.mem_logHolders

theorem IsTidy.set (tidy : record.IsTidy) (isTidy : value.isUnbroken = true ∨ HoldsLog (name, value)) :
    (record.set name value).IsTidy := by
  intro field member
  rcases Named.mem_set member with old | rfl
  · exact tidy field old
  · exact isTidy

theorem IsTidy.setDefault (tidy : record.IsTidy) (unbroken : value.isUnbroken = true) :
    (record.setDefault name value).IsTidy := by
  unfold Record.setDefault
  split
  · exact tidy
  · exact tidy.set (Or.inl unbroken)

theorem IsTidy.cases (tidy : record.IsTidy) (name : String) :
    (record.get name).isUnbroken = true ∨ HoldsLog (name, record.get name) := by
  unfold Record.get
  cases found : record.lookup name with
  | none => exact Or.inl rfl
  | some value => exact tidy (name, value) (Named.mem_of_get? found)

/-- Attributes in which no log class may stand have no line break. -/
theorem IsTidy.get (tidy : record.IsTidy) (notHolder : name ∉ logHolders) :
    (record.get name).isUnbroken = true :=
  (tidy.cases name).resolve_right fun holds => notHolder holds.mem_logHolders

theorem IsTidy.log (tidy : record.IsTidy) :
    (record.get "log").isUnbroken = true ∨ (record.get "log").IsUnbrokenLog := by
  rcases tidy.cases "log" with unbroken | holds
  · exact Or.inl unbroken
  · generalize record.get "log" = value at holds ⊢
    cases holds with
    | log isLog => exact Or.inr isLog
    | limit isLimit _ => exact absurd isLimit (by decide)

/-- The mapping of a limit is tidy; null and single values have no mapping. -/
theorem IsTidy.limit (tidy : record.IsTidy) (isLimit : name ∈ limitNames) {entries : Entries}
    (isMap : (record.get name).entries? = some entries) : entries.IsTidy := by
  rcases tidy.cases name with unbroken | holds
  · exact (Value.isUnbroken_of_entries? unbroken isMap).isTidy
  · generalize record.get name = value at holds isMap
    cases holds with
    | log _ => exact absurd isLimit (by decide)
    | limit _ isTidy =>
        obtain rfl := Option.some.inj isMap
        exact isTidy

end Record

/-! ## Objects -/

/-- No attribute of the zone has a line break. -/
def Zone.IsUnbroken (zone : Zone) : Prop :=
  zone.attributes.IsUnbroken

/-- Neither the protocol nor an attribute of the definition has a line break. -/
structure ServiceDefinition.IsUnbroken (definition : ServiceDefinition) : Prop where
  protocol : Text.IsUnbroken definition.protocol
  attributes : definition.attributes.IsUnbroken

/-- No definition of the service has a line break. -/
def Service.IsUnbroken (service : Service) : Prop :=
  ∀ definition ∈ service.definitions, definition.IsUnbroken

/-- The attributes of the limit are tidy, and its masks have no line break. -/
structure Limit.IsTidy (limit : Limit) : Prop where
  attributes : limit.attributes.IsTidy
  maskInet : limit.maskInet.IsUnbroken
  maskInet6 : limit.maskInet6.IsUnbroken

/-- The zone that is named has no line break. -/
def ZoneSelector.IsUnbroken : ZoneSelector → Prop
  | .named _ zone => zone.IsUnbroken
  | _ => True

/-- The service or definition that is named has no line break. -/
def ServiceSelector.IsUnbroken : ServiceSelector → Prop
  | .service s => s.IsUnbroken
  | .definition d => d.IsUnbroken
  | .other => True

/-- The attributes of the rule are tidy, and its zones and services have no line break. -/
structure Rule.IsTidy (rule : Rule) : Prop where
  attributes : rule.attributes.IsTidy
  zonesIn : IfGiven (fun zones => ∀ zone ∈ zones, zone.IsUnbroken) rule.zonesIn
  zonesOut : IfGiven (fun zones => ∀ zone ∈ zones, zone.IsUnbroken) rule.zonesOut
  services : IfGiven (fun services => ∀ service ∈ services, service.IsUnbroken) rule.services

/-- Apart from the log classes that it keeps, the object has no line break. -/
def PolicyObject.IsTidy : PolicyObject → Prop
  | .zone z => z.IsUnbroken
  | .service s => s.IsUnbroken
  | .definition d => d.IsUnbroken
  | .log l => l.IsUnbroken
  | .limit l | .filterLimit l => l.IsTidy
  | .rule r => r.IsTidy

theorem PolicyObject.IsTidy.attributes {object : PolicyObject} (tidy : object.IsTidy) :
    object.attributes.IsTidy := by
  cases object with
  | zone zone => exact Record.IsUnbroken.isTidy tidy
  | service service => exact fun _ none => absurd none List.not_mem_nil
  | definition definition => exact (ServiceDefinition.IsUnbroken.attributes tidy).isTidy
  | log log => exact (LogClass.IsUnbroken.attributes tidy).isTidy
  | limit limit | filterLimit limit => exact Limit.IsTidy.attributes tidy
  | rule rule => exact Rule.IsTidy.attributes tidy

/-! ## Entries of sections -/

/-- What the policy states, or the object that it became, has no line break. -/
def Entry.IsTidy : Entry → Prop
  | .raw value => value.isUnbroken = true
  | .object o => o.IsTidy

/-- The attributes that the entry declares are tidy. -/
def Entry.DeclaresTidy (source : Entry) : Prop :=
  IfGiven (fun entries => (recordOf entries).IsTidy) (declaration? source)

theorem Entry.IsTidy.declaresTidy {source : Entry} (tidy : source.IsTidy) :
    source.DeclaresTidy := by
  intro entries isMap
  cases source with
  | raw value =>
      have unbroken : value.isUnbroken = true := tidy
      have isMapping : value.entries? = some entries := by
        cases value with
        | log _ _ _ _ => simp [Value.isUnbroken] at unbroken
        | _ => exact isMap
      exact (Value.isUnbroken_of_entries? unbroken isMapping).isTidy.recordOf
  | object object =>
      obtain rfl := Option.some.inj isMap
      rw [recordOf_toEntries]
      exact PolicyObject.IsTidy.attributes tidy

theorem Entry.declaresTidy_map {entries : Entries} (tidy : entries.IsTidy) :
    (Entry.raw (.map entries)).DeclaresTidy := by
  intro stated isMap
  obtain rfl := Option.some.inj isMap
  exact tidy.recordOf

theorem Entry.declaresTidy_toEntries {record : Record} (tidy : record.IsTidy) :
    (Entry.raw (.map (Record.toEntries record))).DeclaresTidy := by
  intro stated isMap
  obtain rfl := Option.some.inj isMap
  rw [recordOf_toEntries]
  exact tidy

namespace SectionEntries

/-- No key and no entry of the section has a line break. -/
def IsTidy (section_ : SectionEntries) : Prop :=
  (∀ key ∈ section_.keys, key.isUnbroken = true) ∧ ∀ entry ∈ section_.values, entry.IsTidy

variable {section_ : SectionEntries}

theorem isTidy_put (tidy : section_.IsTidy) {key : Scalar} {entry : Entry}
    (isKey : key.isUnbroken = true) (isEntry : entry.IsTidy) : (section_.put key entry).IsTidy := by
  refine ⟨?_, fun other member => ?_⟩
  · cases section_ with
    | list items =>
        have isList : ∃ others, (list items).put key entry = list others := by
          unfold put
          split <;> simp_all
        obtain ⟨others, same⟩ := isList
        intro other member
        rw [same] at member
        obtain ⟨index, -, rfl⟩ := List.mem_map.1 member
        rfl
    | map entries =>
        have each : ∀ entry ∈ entries, entry.1.isUnbroken = true ∧ True := fun entry member =>
          ⟨tidy.1 entry.1 (List.mem_map_of_mem member), trivial⟩
        intro other member
        obtain ⟨stored, isStored, rfl⟩ := List.mem_map.1 member
        exact (Entries.forall_mem_insert (Scalar.isUnbroken · = true) (fun _ => True) each isKey
          trivial stored isStored).1
  · rcases mem_put member with old | rfl
    · exact tidy.2 other old
    · exact isEntry

end SectionEntries

end FirewallPolicy
