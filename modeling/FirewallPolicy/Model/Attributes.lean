import FirewallPolicy.Context

/-!
## Attributes of policy objects

An object is declared by a mapping from attribute names to values, or made from another object,
whose attributes it takes.  Only the attributes of its kind are allowed.
-/

namespace FirewallPolicy

/-- The texts of the keys that are not among the allowed names, in ascending order. -/
def unknownKeys (allowed : List String) (entries : Entries) : List String :=
  Text.sorted ((entries.filter fun entry =>
    match entry.1 with
    | .text name => !allowed.contains name
    | _ => true).map (·.1.written))

/-- The attributes in a mapping whose keys are texts. -/
def recordOf (entries : Entries) : Record :=
  entries.filterMap fun entry =>
    match entry.1 with
    | .text name => some (name, entry.2)
    | _ => none

/-- The mapping that declares an object; anything else declares none. -/
def declaration? : Entry → Option Entries
  | .raw (.log _ _ _ attributes) => some (Record.toEntries attributes)
  | .raw value => value.entries?
  | .object object => some (Record.toEntries object.attributes)

/-- The attributes of an object of the kind, declared by `source` at `location`. -/
def attributesOf (kind : ObjectKind) (location : String) (source : Entry) : Run Record := do
  match declaration? source with
  | none => throw (.fault location .objectNotMapping)
  | some entries =>
    match unknownKeys kind.attributes entries with
    | [] => return recordOf entries
    | name :: _ => Run.report location (.invalidAttribute name)

end FirewallPolicy
