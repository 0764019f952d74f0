import FirewallPolicy.Value.Amount

/-!
## Policy objects

The objects that the entries of a policy become: zones, services, log classes, limits and rules.
Each keeps the attributes that it was declared with, brought into normal form, and the location
that messages about it name.
-/

namespace FirewallPolicy

/-! ### Kinds -/

/-- The kinds of rules.  `redirecting` rules may change their destination, `logging` rules have
an action as well, and `filter` and `policy` rules add limits and connection tracking. -/
inductive RuleKind where
  | plain
  | redirecting
  | logging
  | related
  | limitUpdate
  | filter
  | policy
  | dnat
  | snat
  | noTrack
deriving DecidableEq, Repr, Inhabited

/-- The kinds of policy objects. -/
inductive ObjectKind where
  | zone
  | service
  | definition
  | log
  | limit
  | filterLimit
  | rule (kind : RuleKind)
deriving DecidableEq, Repr, Inhabited

namespace RuleKind

/-- Can rules of the kind change their destination? -/
def redirects : RuleKind → Bool
  | redirecting | logging | related | limitUpdate | filter | policy => true
  | _ => false

/-- Have rules of the kind an action and a log class? -/
def logs : RuleKind → Bool
  | logging | filter | policy => true
  | _ => false

/-- Have rules of the kind limits and connection tracking options? -/
def isFilter : RuleKind → Bool
  | filter | policy => true
  | _ => false

/-- Do rules of the kind change addresses in the nat table? -/
def isNat : RuleKind → Bool
  | dnat | snat => true
  | _ => false

/-- The attributes that a rule of the kind may have. -/
def attributes (kind : RuleKind) : List String :=
  ["in", "out", "src", "dest", "service", "ipset", "reverse"] ++
    (if kind.redirects then ["dnat"] else []) ++
    (if kind.logs then ["action", "log"] else []) ++
    (if kind.isFilter then ["conn-limit", "flow-limit", "no-track", "related", "update-limit"]
      else []) ++
    (if kind = limitUpdate then ["limit", "measure", "addr"] else []) ++
    (if kind.isNat then ["to-addr", "to-port"] else [])

end RuleKind

namespace ObjectKind

/-- The attributes that an object of the kind may have. -/
def attributes : ObjectKind → List String
  | zone => ["iface", "addr", "route-back"]
  | service => []
  | definition => ["proto", "port", "family", "type", "ct-helper"]
  | log =>
    ["mode", "prefix", "level", "limit", "every", "probability", "group", "range", "threshold"]
  | limit | filterLimit =>
    ["count", "interval", "name", "addr", "mask", "measure", "log", "update"]
  | rule kind => kind.attributes

/-- Can objects of the kind change a destination? -/
def redirects : ObjectKind → Bool
  | rule kind => kind.redirects
  | _ => false

end ObjectKind

/-! ### Objects -/

/-- A named set of interfaces and addresses. -/
structure Zone where
  location : String
  attributes : Record
deriving Repr, Inhabited

/-- One protocol of a service; the protocol is in lower case. -/
structure ServiceDefinition where
  location : String
  attributes : Record
  protocol : String
deriving Repr, Inhabited

/-- A service: one or more protocol definitions.  Services are told apart by their serial
numbers. -/
structure Service where
  serial : Nat
  location : String
  definitions : List ServiceDefinition
deriving Repr, Inhabited

/-- A log class.  Its key is the name under which the policy declares it; an inline class has
none. -/
structure LogClass where
  serial : Nat
  location : String
  key : Option Scalar
  attributes : Record
deriving Repr, Inhabited

/-- A rate limit of `count` events in `interval` seconds, with the address masks of the two
families. -/
structure Limit where
  location : String
  attributes : Record
  count : Amount
  interval : Amount
  maskInet : Entries
  maskInet6 : Entries
deriving Repr, Inhabited

/-- What a rule names as one of its zones: the firewall itself, a zone with the name it is
declared under, or something that is not a zone. -/
inductive ZoneSelector where
  | firewall
  | named (name : Scalar) (zone : Zone)
  | other
deriving Repr, Inhabited

/-- What a rule names as one of its services. -/
inductive ServiceSelector where
  | service (service : Service)
  | definition (definition : ServiceDefinition)
  | other
deriving Repr, Inhabited

/-- A rule with its zones and services looked up; an absent list does not constrain. -/
structure Rule where
  kind : RuleKind
  serial : Nat
  location : String
  attributes : Record
  zonesIn : Option (List ZoneSelector)
  zonesOut : Option (List ZoneSelector)
  services : Option (List ServiceSelector)
deriving Repr, Inhabited

/-- A policy object of any kind. -/
inductive PolicyObject where
  | zone (zone : Zone)
  | service (service : Service)
  | definition (definition : ServiceDefinition)
  | log (log : LogClass)
  | limit (limit : Limit)
  | filterLimit (limit : Limit)
  | rule (rule : Rule)
deriving Repr, Inhabited

namespace PolicyObject

/-- The kind of an object. -/
def kind : PolicyObject → ObjectKind
  | .zone _ => .zone
  | .service _ => .service
  | .definition _ => .definition
  | .log _ => .log
  | .limit _ => .limit
  | .filterLimit _ => .filterLimit
  | .rule r => .rule r.kind

/-- The location of an object. -/
def location : PolicyObject → String
  | .zone z => z.location
  | .service s => s.location
  | .definition d => d.location
  | .log l => l.location
  | .limit l => l.location
  | .filterLimit l => l.location
  | .rule r => r.location

/-- The attributes of an object; those of a service are in its definitions. -/
def attributes : PolicyObject → Record
  | .zone z => z.attributes
  | .service _ => []
  | .definition d => d.attributes
  | .log l => l.attributes
  | .limit l => l.attributes
  | .filterLimit l => l.attributes
  | .rule r => r.attributes

end PolicyObject

namespace LogClass

/-- The log class as an attribute of a rule. -/
def toValue (log : LogClass) : Value :=
  .log log.serial log.location log.key log.attributes

/-- The log class that stands in an attribute. -/
def ofValue? : Value → Option LogClass
  | .log serial location key attributes => some ⟨serial, location, key, attributes⟩
  | _ => none

end LogClass

/-- An optional log class as an attribute of a rule. -/
def LogClass.optionValue : Option LogClass → Value
  | some log => log.toValue
  | none => .null

/-! ### Section entries -/

/-- An entry of a section: as the policy states it, or as the object that it became. -/
inductive Entry where
  | raw (value : Value)
  | object (object : PolicyObject)
deriving Repr, Inhabited

/-- The entries of a section, by position or by key. -/
inductive SectionEntries where
  | list (items : List Entry)
  | map (entries : List (Scalar × Entry))
deriving Repr, Inhabited

namespace SectionEntries

/-- The entries in order. -/
def values : SectionEntries → List Entry
  | list items => items
  | map entries => entries.map (·.2)

/-- The keys in order; those of a list are its positions. -/
def keys : SectionEntries → List Scalar
  | list items => (List.range items.length).map fun i => .int (i : Nat)
  | map entries => entries.map (·.1)

/-- Is there no entry? -/
def isEmpty (section_ : SectionEntries) : Bool :=
  section_.values.isEmpty

/-- Are the entries found by key? -/
def isMap : SectionEntries → Bool
  | list _ => false
  | map _ => true

/-- The entry of that key. -/
def get? (section_ : SectionEntries) (key : Scalar) : Option Entry :=
  match section_, key with
  | list items, .int i => items[i.toNat]?
  | list _, _ => none
  | map entries, key => Entries.get? entries key

/-- Replace the entry of that key. -/
def put (section_ : SectionEntries) (key : Scalar) (entry : Entry) : SectionEntries :=
  match section_, key with
  | list items, .int i => list (items.set i.toNat entry)
  | list items, _ => list items
  | map entries, key => map (Entries.insert entries key entry)

end SectionEntries

end FirewallPolicy
