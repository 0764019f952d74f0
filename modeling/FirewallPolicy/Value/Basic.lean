import FirewallPolicy.Named
import FirewallPolicy.Number.Double
import FirewallPolicy.Value.Moment

/-!
## Policy values

The values that a policy document is made of: scalars, lists, mappings that keep the order in
which their keys were first written, sets, and pairs.  A collection may hold itself.  A log class
that was already set up may stand in the attributes of a rule, so it is a value as well.
-/

namespace FirewallPolicy

/-- A value without parts; only these are keys of mappings and members of sets. -/
inductive Scalar where
  | null
  | bool (b : Bool)
  | int (i : Int)
  | float (x : Double)
  | text (s : String)
  | moment (m : Moment)
  | bytes (bs : List UInt8)
deriving DecidableEq, Repr, Inhabited

/-- A value of a policy document or an attribute of a policy object.  `loop mark body` is a
collection that holds itself: inside the body, `again mark` stands for the whole of it.  A log
class is known by its serial number; its key is the name under which the policy declares it. -/
inductive Value where
  | scalar (s : Scalar)
  | list (items : List Value)
  | map (entries : List (Scalar × Value))
  | set (members : List Scalar)
  | pair (first second : Value)
  | loop (mark : Nat) (body : Value)
  | again (mark : Nat)
  | log (serial : Nat) (location : String) (key : Option Scalar)
      (attributes : List (String × Value))
deriving Repr, Inhabited

/-- A mapping in order of first assignment. -/
abbrev Entries := List (Scalar × Value)

/-- The attributes of a policy object, in order of first assignment. -/
abbrev Record := Named Value

namespace Value

@[match_pattern] abbrev null : Value := .scalar .null
@[match_pattern] abbrev bool (b : Bool) : Value := .scalar (.bool b)
@[match_pattern] abbrev int (i : Int) : Value := .scalar (.int i)
@[match_pattern] abbrev float (x : Double) : Value := .scalar (.float x)
@[match_pattern] abbrev text (s : String) : Value := .scalar (.text s)

end Value

/-! ### Scalars as keys -/

namespace Scalar

/-- The exact number that a scalar stands for; truth values count as zero and one. -/
def toRat? : Scalar → Option Rat
  | .bool b => some (if b then 1 else 0)
  | .int i => some i
  | .float x => x.toRat?
  | _ => none

/-- Do two scalars name the same entry?  Numbers do when their values agree, whatever their
kind; an undefined number only agrees with itself. -/
def sameKey : Scalar → Scalar → Bool
  | .text s, .text t => s == t
  | .null, .null => true
  | .moment s, .moment t => s.same t
  | .bytes s, .bytes t => s == t
  | .float (.infinite s), .float (.infinite t) => s == t
  | .float (.undefined s), .float (.undefined t) => s == t
  | a, b =>
    match a.toRat?, b.toRat? with
    | some x, some y => x == y
    | _, _ => false

/-- Does the scalar count as true? -/
def isTruthy : Scalar → Bool
  | .null => false
  | .bool b => b
  | .int i => i != 0
  | .float x => !x.isZero
  | .text s => !s.isEmpty
  | .moment _ => true
  | .bytes bs => !bs.isEmpty

end Scalar

/-! ### Mappings -/

namespace Entries

/-- The value stored under a key. -/
def get? {α : Type} (entries : List (Scalar × α)) (key : Scalar) : Option α :=
  (entries.find? fun entry => entry.1.sameKey key).map (·.2)

/-- Store a value: a new key goes to the end, a known one keeps its place and spelling. -/
def insert {α : Type} : List (Scalar × α) → Scalar → α → List (Scalar × α)
  | [], key, value => [(key, value)]
  | (known, old) :: rest, key, value =>
    if known.sameKey key then (known, value) :: rest else (known, old) :: insert rest key value

/-- Store the entries one after the other. -/
def insertAll {α : Type} (entries added : List (Scalar × α)) : List (Scalar × α) :=
  added.foldl (fun result entry => insert result entry.1 entry.2) entries

end Entries

namespace Record

/-- The attribute of that name, an absent one being null. -/
def get (record : Record) (name : String) : Value :=
  (record.lookup name).getD .null

/-- Set an attribute. -/
abbrev set (record : Record) (name : String) (value : Value) : Record :=
  Named.set record name value

/-- Set an attribute unless it is there. -/
def setDefault (record : Record) (name : String) (value : Value) : Record :=
  if (record.lookup name).isSome then record else record.set name value

/-- The record as a mapping of text keys. -/
def toEntries (record : Record) : Entries :=
  record.map fun field => (.text field.1, field.2)

end Record

namespace Value

/-! ### Collections that hold themselves -/

mutual

/-- The value with another one in the places where a loop returns to its start. -/
def substitute (mark : Nat) (whole : Value) : Value → Value
  | .list items => .list (substituteItems mark whole items)
  | .map entries => .map (substituteEntries mark whole entries)
  | .pair first second => .pair (substitute mark whole first) (substitute mark whole second)
  | .loop other body => .loop other (substitute mark whole body)
  | .again other => if other = mark then whole else .again other
  | value => value

/-- The items of a list with another value in the places where a loop returns to its start. -/
def substituteItems (mark : Nat) (whole : Value) : List Value → List Value
  | [] => []
  | item :: rest => substitute mark whole item :: substituteItems mark whole rest

/-- The entries of a mapping with another value in the places where a loop returns to its
start. -/
def substituteEntries (mark : Nat) (whole : Value) : List (Scalar × Value) → List (Scalar × Value)
  | [] => []
  | (key, value) :: rest => (key, substitute mark whole value) :: substituteEntries mark whole rest

end

/-- The value as a collection of values that stand for themselves: a loop is unfolded once. -/
def opened : Value → Value
  | .loop mark body => substitute mark (.loop mark body) body
  | value => value

/-! ### Views -/

/-- Is the value null? -/
def isNull : Value → Bool
  | .null => true
  | _ => false

/-- Does the value count as true? -/
def isTruthy : Value → Bool
  | .scalar s => s.isTruthy
  | .list items => !items.isEmpty
  | .map entries => !entries.isEmpty
  | .set members => !members.isEmpty
  | .pair _ _ => true
  | .loop _ body => body.isTruthy
  | .again _ => true
  | .log .. => true

/-- Is the value this text? -/
def isText (value : Value) (s : String) : Bool :=
  match value with
  | .text t => t == s
  | _ => false

/-- The entries of a mapping. -/
def entries? (value : Value) : Option Entries :=
  match value.opened with
  | .map entries => some entries
  | _ => none

/-- Can the value be looked up in mappings?  Lists, mappings and sets cannot, and a pair can if
both of its parts can. -/
def isHashable : Value → Bool
  | .scalar _ => true
  | .list _ => false
  | .map _ => false
  | .set _ => false
  | .pair first second => first.isHashable && second.isHashable
  | .loop _ body => body.isHashable
  | .again _ => false
  | .log .. => true

/-- A value read as a list: null is the empty one, a pair has two items, and any other single
value stands alone. -/
def toItems (value : Value) : List Value :=
  match value.opened with
  | .null => []
  | .list items => items
  | .pair first second => [first, second]
  | _ => [value]

end Value

namespace Record

/-- Is the attribute set to something other than null? -/
def has (record : Record) (name : String) : Bool :=
  !(record.get name).isNull

/-- Does the attribute count as true? -/
def flag (record : Record) (name : String) : Bool :=
  (record.get name).isTruthy

end Record

end FirewallPolicy
