import FirewallPolicy.Address.Literal
import FirewallPolicy.Failure

/-!
## Host names

Literal addresses stand for themselves; other names are looked up in a directory.  The answer to
a name is brought into one order, by family and then by the number of the address, so it does not
depend on the order in which the directory lists the addresses.
-/

namespace FirewallPolicy

/-- A directory of host names, and the names that were put to it, the latest first. -/
structure HostBook where
  directory : String → Option (List FamilyAddress)
  asked : List String := []

namespace HostBook

/-- A book in which no lookup succeeds. -/
def none : HostBook := { directory := fun _ => Option.none }

/-! ### The order of answers -/

/-- The key by which an answer is sorted: its family and its address. -/
structure SortKey where
  family : String
  address : Address

/-- Is the first key at most the second? -/
def SortKey.le (a b : SortKey) : Bool :=
  a.family < b.family || (a.family == b.family && a.address.number ≤ b.address.number)

/-- Can the keys be compared?  Addresses of one family have to be of one version. -/
def SortKey.comparable (a b : SortKey) : Bool :=
  a.family != b.family || a.address.version == b.address.version

/-- An answer with its key; an address that cannot be read has none. -/
def keyed? (entry : FamilyAddress) : Option (SortKey × FamilyAddress) :=
  (Address.ofText? entry.address.toList).map fun address => (⟨entry.family, address⟩, entry)

/-- The entries without repetitions, each at its first place. -/
def distinct (entries : List FamilyAddress) : List FamilyAddress :=
  entries.eraseDups

/-- The distinct entries in ascending order, or none when they cannot be ordered. -/
def ordered? (entries : List FamilyAddress) : Option (List FamilyAddress) := do
  let keyed ← (distinct entries).mapM keyed?
  if keyed.all fun a => keyed.all fun b => a.1.comparable b.1 then
    return (keyed.mergeSort fun a b => a.1.le b.1).map (·.2)
  else Option.none

/-! ### Resolution -/

/-- What a text stands for, apart from where it is asked. -/
inductive Answer where
  | addresses (list : List FamilyAddress)
  | refused (cause : Cause)
  | unordered

/-- The addresses of a host or network text. -/
def answer (book : HostBook) (text : String) : Answer :=
  match Literal.parse? text with
  | some literal => .addresses [literal]
  | .none =>
    if text.toList.contains '/' then .refused (.invalidNetwork text)
    else
      match book.directory text with
      | .none => .refused (.invalidHost text)
      | some entries =>
        match ordered? entries with
        | .none => .unordered
        | some [] => .refused (.invalidHost text)
        | some list => .addresses list

/-- Is the text a name that is looked up? -/
def isName (text : String) : Bool :=
  (Literal.parse? text).isNone && !text.toList.contains '/'

/-- The book after a text was asked for.  A name that the directory answers is put to it once. -/
def noting (book : HostBook) (text : String) : HostBook :=
  if isName text && !(book.asked.contains text && (book.directory text).isSome) then
    { book with asked := text :: book.asked }
  else book

end HostBook

end FirewallPolicy
