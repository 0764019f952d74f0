import FirewallPolicy.Failure
import FirewallPolicy.Text.Blank
import FirewallPolicy.Value.Ordering

/-!
## Address sets

The named sets of addresses that rules can match against.  Each definition gives one command
that creates the set.
-/

namespace FirewallPolicy

/-- A defined address set. -/
structure AddressSet where
  name : Scalar
  type : String
  family : Option String
  options : List String
deriving Repr, DecidableEq

namespace AddressSet

/-- The known kinds of sets. -/
def types : List String := [
  "bitmap:ip", "bitmap:ip,mac", "bitmap:port", "hash:ip", "hash:ip,mark", "hash:ip,port",
  "hash:ip,port,ip", "hash:ip,port,net", "hash:mac", "hash:net", "hash:net,iface",
  "hash:net,net", "hash:net,port", "hash:net,port,net", "list:set"]

/-- The kinds whose entries are addresses in a hash table; these need a family. -/
def needsFamily (type : String) : Bool :=
  "hash:".toList.isPrefixOf type.toList && type != "hash:mac"

/-- The options of a set: one text with blanks between them, or a collection. -/
def readOptions (options : Value) : Except Failure (List String) :=
  match options.opened with
  | .text s => .ok (Text.words s)
  | .list items => .ok (items.map Value.written)
  | .map entries => .ok (entries.map (·.1.written))
  | .set members => .ok (members.map Scalar.written)
  | .scalar (.bytes bytes) => .ok (bytes.map fun byte => toString byte.toNat)
  | value => if value.isTruthy then .error .unusable else .ok []

/-- The kind of a set. -/
def readType (location : String) (type : Value) : Except Failure String :=
  let invalid := .error (.fault location (.invalidSetType type))
  match type with
  | .text name => if types.contains name then .ok name else invalid
  | .set _ => invalid
  | _ => if type.isHashable then invalid else .error .unusable

/-- The address family of a set, if it names one. -/
def readFamily (location : String) : Value → Except Failure (Option String)
  | .null => .ok none
  | .text family =>
    if family = "inet" || family = "inet6" then .ok (some family)
    else .error (.fault location (.invalidSetFamily (.text family)))
  | value => .error (.fault location (.invalidSetFamily value))

/-- A definition of a set. -/
def read (name : Scalar) (definition : Value) : Except Failure AddressSet := do
  let location := "ipset " ++ name.written
  match definition.entries? with
  | some entries =>
    let attr (key : String) := (Entries.get? entries (.text key)).getD .null
    let type ← readType location (attr "type")
    let family ← readFamily location (attr "family")
    if family.isNone && needsFamily type then throw (.fault location .setFamilyMissing)
    return { name, type, family, options := ← readOptions (attr "options") }
  | none => throw (.fault location .invalidSet)

/-! ### Collections -/

/-- The sets of a policy in ascending order of their names. -/
def readAll (definitions : Entries) : Except Failure (List AddressSet) :=
  match Scalar.sortByKey? definitions with
  | some sorted => sorted.mapM fun entry => read entry.1 entry.2
  | none => .error .unusable

/-- The command that creates a set; only a text can be its name. -/
def createCommand (set : AddressSet) : Except Failure String :=
  match set.name with
  | .text name =>
    let family := match set.family with
      | some family => ["family", family]
      | none => []
    .ok (" ".intercalate (["create", name, set.type] ++ family ++ set.options))
  | _ => .error .unusable

/-- The commands of all sets, one to a line. -/
def print (sets : List AddressSet) : Except Failure String := do
  return "".intercalate ((← sets.mapM createCommand).map (· ++ "\n"))

end AddressSet

end FirewallPolicy
