import FirewallPolicy.Proofs.Context.Renaming
import FirewallPolicy.Rule.Expansion

/-!
# Rules with other serial numbers

A rule holds the services that it names and, among its attributes, log classes.  Where their serial
numbers are renamed, the rule still stands for the same table, sides, actions and matches, and the
attributes that derived rules take over are the renamed ones.
-/

namespace FirewallPolicy

variable {rename : Nat → Nat}

/-! ## Objects -/

/-- The selected service with the serial numbers renamed. -/
def ServiceSelector.renamed (rename : Nat → Nat) : ServiceSelector → ServiceSelector
  | .service known => .service (known.renamed rename)
  | .definition known => .definition (known.renamed rename)
  | .other => .other

/-- The rule with the serial numbers of services and log classes renamed; its own one is kept. -/
def Rule.renamed (rename : Nat → Nat) (rule : Rule) : Rule :=
  { rule with
    attributes := rule.attributes.renamed rename
    services := rule.services.map (List.map (ServiceSelector.renamed rename)) }

/-- The object with the serial numbers of services and log classes renamed. -/
def PolicyObject.renamed (rename : Nat → Nat) : PolicyObject → PolicyObject
  | .zone known => .zone { known with attributes := known.attributes.renamed rename }
  | .service known => .service (known.renamed rename)
  | .definition known => .definition (known.renamed rename)
  | .log known => .log (known.renamed rename)
  | .limit known => .limit (known.renamed rename)
  | .filterLimit known => .filterLimit (known.renamed rename)
  | .rule known => .rule (known.renamed rename)

/-- The entry with the serial numbers of services and log classes renamed. -/
def Entry.renamed (rename : Nat → Nat) : Entry → Entry
  | .raw value => .raw (value.renamed rename)
  | .object known => .object (known.renamed rename)

theorem ServiceSelector.renamed_id (selector : ServiceSelector) : selector.renamed id = selector := by
  cases selector with
  | service known => exact congrArg service (Service.renamed_id known)
  | definition known => exact congrArg definition (ServiceDefinition.renamed_id known)
  | other => rfl

theorem Rule.renamed_id (rule : Rule) : rule.renamed id = rule := by
  have selectors : List.map (ServiceSelector.renamed id) = id := by
    rw [funext ServiceSelector.renamed_id]
    exact List.map_id_fun'
  rw [renamed, Record.renamed_id, selectors, Option.map_id_fun]
  rfl

/-- Where no serial number changes, an entry stays as it is. -/
theorem Entry.renamed_id (entry : Entry) : entry.renamed id = entry := by
  cases entry with
  | raw value => exact congrArg raw (Value.renamed_id value)
  | object object =>
      refine congrArg Entry.object ?_
      cases object with
      | zone known => simp only [PolicyObject.renamed, Record.renamed_id]
      | service known => exact congrArg PolicyObject.service (Service.renamed_id known)
      | definition known => exact congrArg PolicyObject.definition (ServiceDefinition.renamed_id known)
      | log known => exact congrArg PolicyObject.log (LogClass.renamed_id known)
      | limit known => exact congrArg PolicyObject.limit (Limit.renamed_id known)
      | filterLimit known => exact congrArg PolicyObject.filterLimit (Limit.renamed_id known)
      | rule known => exact congrArg PolicyObject.rule (Rule.renamed_id known)

@[simp]
theorem PolicyObject.attributes_renamed (object : PolicyObject) :
    (object.renamed rename).attributes = object.attributes.renamed rename := by
  cases object <;> rfl

theorem declaration?_renamed (source : Entry) :
    declaration? (source.renamed rename) =
      (declaration? source).map (Entries.mapped (Value.renamed rename)) := by
  cases source with
  | raw value =>
      have entries := @Value.entries?_renamed rename value
      cases value with
      | log serial location key attributes =>
          simp [Entry.renamed, Value.renamed, declaration?, Record.toEntries_renamed]
      | _ => exact entries
  | object object =>
      simp [Entry.renamed, declaration?, Record.toEntries_renamed]

theorem Rule.serviceSelector_renamed (entry : Entry) :
    serviceSelector (entry.renamed rename) = (serviceSelector entry).renamed rename := by
  cases entry with
  | raw value => rfl
  | object object => cases object <;> rfl

namespace Rule

variable (rule : Rule)

/-! ## Placement and actions -/

@[simp]
theorem kind_renamed : (rule.renamed rename).kind = rule.kind :=
  rfl

@[simp]
theorem serial_renamed : (rule.renamed rename).serial = rule.serial :=
  rfl

@[simp]
theorem location_renamed : (rule.renamed rename).location = rule.location :=
  rfl

@[simp]
theorem attributes_renamed :
    (rule.renamed rename).attributes = rule.attributes.renamed rename :=
  rfl

@[simp]
theorem services_renamed :
    (rule.renamed rename).services =
      rule.services.map (List.map (ServiceSelector.renamed rename)) :=
  rfl

@[simp]
theorem reverse_renamed : (rule.renamed rename).reverse = rule.reverse := by
  simp [reverse]

@[simp]
theorem side_renamed (direction : Direction) :
    (rule.renamed rename).side direction = rule.side direction := by
  simp [side]

@[simp]
theorem sidePairs_renamed : (rule.renamed rename).sidePairs = rule.sidePairs := by
  unfold sidePairs
  rw [reverse_renamed]
  rfl

@[simp]
theorem families_renamed : (rule.renamed rename).families = rule.families := by
  funext settings
  rfl

@[simp]
theorem action_renamed : (rule.renamed rename).action = rule.action := by
  simp [action]

@[simp]
theorem target_renamed : (rule.renamed rename).target = rule.target := by
  have address : (rule.renamed rename).newAddress? = rule.newAddress? := by
    simp [newAddress?]
  have filter : (rule.renamed rename).filterTarget = rule.filterTarget := by
    unfold filterTarget isCustom
    rw [action_renamed, location_renamed]
  have destination : (rule.renamed rename).destinationTarget = rule.destinationTarget := by
    simp [destinationTarget, address]
  have source : (rule.renamed rename).sourceTarget = rule.sourceTarget := by
    simp [sourceTarget, address]
  unfold target
  rw [kind_renamed, filter, destination, source]

@[simp]
theorem limitName?_renamed : (rule.renamed rename).limitName? = rule.limitName? := by
  have named : (rule.renamed rename).attributes.has = rule.attributes.has :=
    funext (Record.has_renamed rule.attributes)
  simp only [limitName?, kind_renamed, location_renamed, named]

@[simp]
theorem position_renamed : (rule.renamed rename).position = rule.position := by
  simp only [position, kind_renamed, attributes_renamed, Record.flag_renamed, limitName?_renamed]

@[simp]
theorem log?_renamed : (rule.renamed rename).log? = rule.log?.map (LogClass.renamed rename) := by
  simp [log?]

@[simp]
theorem actionFragments_renamed (log : Option LogClass) (target : Option String) :
    actionFragments (log.map (LogClass.renamed rename)) target = actionFragments log target := by
  cases log <;> simp [actionFragments]

@[simp]
theorem limitLog?_renamed (mapping : Entries) :
    limitLog? (Entries.mapped (Value.renamed rename) mapping) =
      (limitLog? mapping).map (LogClass.renamed rename) := by
  unfold limitLog?
  rw [Entries.get?_mapped]
  cases Entries.get? mapping (.text "log") <;> simp

/-! ## Matches -/

@[simp]
theorem dnatField_renamed (name : String) :
    (rule.renamed rename).dnatField name = (rule.dnatField name).map (Value.renamed rename) := by
  unfold dnatField
  rw [attributes_renamed, Record.get_renamed, Value.entries?_renamed]
  cases (rule.attributes.get "dnat").entries? <;> simp [Except.map]

@[simp]
theorem setFragments_renamed : (rule.renamed rename).setFragments = rule.setFragments := by
  have flags (given : Value) :
      (rule.renamed rename).setFlags (given.renamed rename) = rule.setFlags given := by
    unfold setFlags
    rw [Value.isTruthy_renamed, Value.opened_renamed, reverse_renamed, Value.written_renamed]
    cases given.opened with
    | list items =>
        simp only [Value.renamed_list, List.mapM_map]
        refine if_congr Iff.rfl rfl (congrArg (List.mapM · items >>= _) (funext fun item => ?_))
        cases item <;> simp [Value.renamed]
    | _ => simp [Value.renamed]
  unfold setFragments
  simp only [attributes_renamed, Record.get_renamed, Value.isTruthy_renamed, Value.entries?_renamed]
  cases (rule.attributes.get "ipset").entries? with
  | none => rfl
  | some entries =>
      simp only [Option.map_some, Entries.get?_mapped, Value.getD_map_renamed, flags]
      cases Entries.get? entries (.text "name") <;> simp

@[simp]
theorem selectorFragments_renamed (reverse : Bool) (selector : ServiceSelector) :
    selectorFragments reverse (selector.renamed rename) = selectorFragments reverse selector := by
  cases selector <;> simp [ServiceSelector.renamed, selectorFragments]

@[simp]
theorem namedServiceFragments_renamed :
    (rule.renamed rename).namedServiceFragments = rule.namedServiceFragments := by
  unfold namedServiceFragments
  rw [services_renamed, reverse_renamed]
  cases rule.services with
  | none => rfl
  | some selectors => simp [List.mapM_map, Function.comp_def]

theorem follows_definitions :
    Follows (Becomes (List.map (ServiceDefinition.renamed rename))) rule.definitions
      (rule.renamed rename).definitions := by
  have selected : (rule.renamed rename).services.getD [] =
      (rule.services.getD []).map (ServiceSelector.renamed rename) := by
    rw [services_renamed]
    cases rule.services <;> rfl
  unfold definitions
  rw [selected]
  refine Follows.bind
    (?_ : Follows (List.Forall₂ (Becomes (List.map (ServiceDefinition.renamed rename)))) _ _) ?_
  · refine Follows.mapM_forall₂ ((forall₂_becomes.2 rfl).imp ?_)
    rintro selector _ rfl
    cases selector with
    | service service => exact Follows.ok rfl
    | definition definition => exact Follows.error
    | other => exact Follows.error
  intro lists others related
  obtain rfl := forall₂_becomes.1 related
  exact Follows.ok (by simp [Becomes, List.map_flatten])

theorem dnatProtocols_renamed (location : String) (selectors : List ServiceSelector) :
    dnatProtocols location (selectors.map (ServiceSelector.renamed rename)) =
      dnatProtocols location selectors := by
  have redirected (service : Service) :
      redirectedProtocols location (service.renamed rename) =
        redirectedProtocols location service := by
    simp only [redirectedProtocols, Service.renamed, List.filter_map, List.mapM_map,
      Function.comp_def, ServiceDefinition.family_renamed]
    rfl
  induction selectors with
  | nil => rfl
  | cons selector rest inductionHypothesis =>
      cases selector with
      | service service =>
          simp only [List.map_cons, ServiceSelector.renamed, dnatProtocols, redirected,
            inductionHypothesis]
      | definition definition => rfl
      | other => rfl

theorem helperFragments_renamed (definitions : List ServiceDefinition) :
    helperFragments (definitions.map (ServiceDefinition.renamed rename)) =
      helperFragments definitions := by
  have helper (definition : ServiceDefinition) (value : Value) :
      helperFragment (definition.renamed rename) value = helperFragment definition value := by
    simp [helperFragment]
  unfold helperFragments
  rw [List.foldlM_map]
  refine congrArg (fun step => List.foldlM step [] definitions >>= _)
    (funext₂ fun found definition => ?_)
  rw [ServiceDefinition.helper?_renamed]
  cases definition.helper? with
  | none => rfl
  | some value => cases value <;> simp [Value.renamed, helper]

/-! ## Attributes -/

theorem holdsName_renamed (value : Value) (name : String) :
    holdsName (value.renamed rename) name = holdsName value name := by
  unfold holdsName
  rw [Value.opened_renamed]
  cases value.opened <;> simp [Value.renamed, Function.comp_def]

theorem follows_settleCollection
    (field key : String) (missing : Failure) (attributes : Record) :
    Follows (Becomes (Record.renamed rename)) (settleCollection field key missing attributes)
      (settleCollection field key missing (attributes.renamed rename)) := by
  have held (value : Value) : Follows (Becomes (Record.renamed rename))
      (do if ← holdsName value key then return attributes else throw missing)
      (do if ← holdsName (value.renamed rename) key then return attributes.renamed rename
          else throw missing) := by
    rw [holdsName_renamed]
    refine Follows.bind (Follows.of_self fun _ _ => rfl) ?_
    rintro holds _ rfl
    exact Follows.ite (fun _ => Follows.ok rfl) fun _ => Follows.throw
  unfold settleCollection
  rw [Record.get_renamed]
  rcases attributes.get field with (_ | _ | _ | _ | name | _ | _) | _ | _ | _ | _ | _ | _ | _
  case scalar.null => exact Follows.ok rfl
  case scalar.text =>
    refine Follows.ok (?_ : Becomes (Record.renamed rename) _ _)
    simp [Becomes, ← Record.set_renamed, Entries.mapped]
  all_goals exact held _

theorem follows_settleSet (location : String) (attributes : Record) :
    Follows (Becomes (Record.renamed rename)) (settleSet location attributes)
      (settleSet location (attributes.renamed rename)) := by
  rw [settleSet_eq, settleSet_eq]
  exact follows_settleCollection _ _ _ attributes

theorem follows_settleDnat (location : String) (attributes : Record) :
    Follows (Becomes (Record.renamed rename)) (settleDnat location attributes)
      (settleDnat location (attributes.renamed rename)) := by
  rw [settleDnat_eq, settleDnat_eq]
  exact follows_settleCollection _ _ _ attributes

theorem follows_settleUpdate (location : String) (attributes : Record) :
    Follows (Becomes (Record.renamed rename)) (settleUpdate location attributes)
      (settleUpdate location (attributes.renamed rename)) := by
  unfold settleUpdate
  simp only [Record.setDefault_renamed_scalar, Record.has_renamed, Record.get_renamed, Value.isText_renamed]
  exact Follows.ite (fun _ => Follows.throw) fun _ =>
    Follows.ite (fun _ => Follows.throw) fun _ => Follows.ok rfl

@[simp]
theorem limitMapping_renamed (limit : Value) :
    limitMapping (limit.renamed rename) =
      Entries.mapped (Value.renamed rename) (limitMapping limit) := by
  unfold limitMapping
  rw [Value.entries?_renamed]
  cases limit.entries? <;> simp [Entries.mapped]

@[simp]
theorem updateMapping_renamed (update : Value) :
    updateMapping (update.renamed rename) =
      Entries.mapped (Value.renamed rename) (updateMapping update) := by
  unfold updateMapping
  rw [Value.entries?_renamed]
  cases update.entries? <;> simp [Entries.mapped]

theorem offered_renamed (source : Value) :
    offered (source.renamed rename) = (offered source).map (Record.renamed rename) := by
  unfold offered
  rw [Value.opened_renamed]
  cases source.opened <;> simp [Value.renamed, Except.map]

/-- The derivation with the serial numbers renamed in the attributes that it changes. -/
def Derivation.renamed (rename : Nat → Nat) (derivation : Derivation) : Derivation :=
  { derivation with changes := derivation.changes.renamed rename }

theorem derivedAttributes_renamed (source : Record) (derivation : Derivation) :
    derivedAttributes (source.renamed rename) (derivation.renamed rename) =
      (derivedAttributes source derivation).renamed rename := by
  have taken (names : List String) :
      (names.filterMap fun name => if (source.renamed rename).has name then
        some (name, (source.renamed rename).get name) else none) =
      Record.renamed rename (names.filterMap fun name => if source.has name then
        some (name, source.get name) else none) := by
    simp only [Record.has_renamed, Record.get_renamed]
    rw [Record.renamed, Named.mapped, List.map_filterMap]
    refine congrArg (List.filterMap · names) (funext fun name => ?_)
    split <;> rfl
  unfold derivedAttributes
  simp only [taken, Derivation.renamed, Named.setAll_mapped, Record.renamed]
  simp only [Named.mapped, List.filter_map, Function.comp_def, Value.isNull_renamed]
  rfl

end Rule

end FirewallPolicy
