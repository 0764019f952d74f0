import FirewallPolicy.Address.HostBook
import FirewallPolicy.Section.Basic
import FirewallPolicy.Section.Order
import FirewallPolicy.Settings

/-!
## Compilation contexts

What one compilation knows: the registered sections, the objects of the policy, the rules of
auxiliary chains, the names that were given out, and the faults and warnings found so far.  A
computation in a context keeps what it did when it fails.
-/

namespace FirewallPolicy

/-- The state of one compilation. -/
structure Context where
  settings : Settings := {}
  hosts : HostBook := HostBook.none
  sections : Named Section := []
  /-- The order of the sections, kept from the last time it was asked for. -/
  knownOrder : Option (List String) := none
  auxiliary : List Fragment := []
  objects : Named SectionEntries := []
  /-- The log class for rules that ask for logging without naming a class. -/
  defaultLog : Option LogClass := none
  /-- The shared chains that were declared. -/
  declared : List String := []
  /-- For each kind of chain the number of the next name. -/
  counters : Named Nat := []
  /-- The chain names given to objects, by serial number and kind of chain. -/
  chainNames : List ((Nat × String) × String) := []
  nextSerial : Nat := 0
  faults : List Fault := []
  warnings : List Fault := []

/-- How a compilation went. -/
inductive Status where
  | success
  | warning
  | error
deriving DecidableEq, Repr

/-- The worst that was recorded. -/
def Context.status (context : Context) : Status :=
  if !context.faults.isEmpty then .error
  else if !context.warnings.isEmpty then .warning
  else .success

/-- A computation in a context, which may fail. -/
abbrev Run (α : Type) : Type := ExceptT Failure (StateM Context) α

namespace Run

/-! ### Faults and warnings -/

/-- Record a fault and stop. -/
def report {α : Type} (location : String) (cause : Cause) : Run α := do
  modify fun context => { context with faults := context.faults ++ [⟨location, cause⟩] }
  throw (.fault location cause)

/-- Record a warning and go on. -/
def warn (location : String) (cause : Cause) : Run Unit :=
  modify fun context => { context with warnings := context.warnings ++ [⟨location, cause⟩] }

/-- Stop with a value that cannot be used. -/
def unusable {α : Type} : Run α :=
  throw .unusable

/-- The outcome of a computation outside the context, whose fault is recorded. -/
def recording {α : Type} : Except Failure α → Run α
  | .ok a => pure a
  | .error (.policy fault) => report fault.location fault.cause
  | .error failure => throw failure

/-- The outcome of a computation outside the context. -/
def lift {α : Type} : Except Failure α → Run α
  | .ok a => pure a
  | .error failure => throw failure

/-- The results for all items, one after the other. -/
def gather {α β : Type} (results : α → Run (List β)) : List α → Run (List β)
  | [] => return []
  | a :: rest => do
    let first ← results a
    return first ++ (← gather results rest)

/-! ### Names -/

/-- A serial number that no other object has. -/
def freshSerial : Run Nat := do
  let serial := (← get).nextSerial
  modify fun context => { context with nextSerial := serial + 1 }
  return serial

/-- A chain name `key-n` with the next number for the key. -/
def freshName (key : String) : Run String := do
  let n := ((← get).counters.get? key).getD 0
  modify fun context => { context with counters := context.counters.set key (n + 1) }
  return key ++ "-" ++ toString n

/-- The chain name that an object has for the key, given out at the first request. -/
def chainNameOf (serial : Nat) (key : String) : Run String := do
  match (← get).chainNames.lookup (serial, key) with
  | some name => return name
  | none =>
    let name ← freshName key
    modify fun context =>
      { context with chainNames := ((serial, key), name) :: context.chainNames }
    return name

/-- Declare a shared auxiliary chain with its rules; a chain that is declared already is left
as it is.  The answer says whether the chain is new. -/
def declareChain (chain : String) (rules : List Fragment) : Run Bool := do
  if (← get).declared.contains chain then return false
  modify fun context => { context with
    declared := chain :: context.declared
    auxiliary := context.auxiliary ++ rules.map fun rule => { rule with chain := some chain } }
  return true

/-! ### Host names -/

/-- The addresses of a host or network text, asked for by the object at `location`. -/
def resolveHost (location text : String) : Run (List FamilyAddress) := do
  let book := (← get).hosts
  modify fun context => { context with hosts := book.noting text }
  match book.answer text with
  | .addresses list => return list
  | .refused cause => report location cause
  | .unordered => unusable

/-- A fragment for each address of a host, its text after an option. -/
def hostFragment (option : String) (entry : FamilyAddress) : Fragment :=
  { Fragment.matching [option ++ " " ++ entry.address] with family := some entry.family }

/-- A fragment for each address of the given hosts. -/
def hostFragments (location option : String) (hosts : List Value) : Run (List Fragment) :=
  gather (fun host => do
    return (← resolveHost location host.written).map (hostFragment option)) hosts

/-! ### Sections -/

/-- Register one section of a module. -/
def registerSection (owner : Module) (added : Section) : Run Unit := do
  if ((← get).sections.get? added.name).isSome then
    report ("module " ++ owner.name) (.duplicateSection added.name)
  let placed :=
    if owner.core && !added.isVirtual then { added with before := added.before ++ [modulesLoaded] }
    else added
  modify fun context => { context with sections := context.sections.set added.name placed }

/-- Register sections one after the other; those before a refused one stay registered. -/
def registerSections (owner : Module) : List Section → Run Unit
  | [] => return
  | added :: rest => do
    registerSection owner added
    registerSections owner rest

/-- Register the sections and auxiliary chain rules of a module; the answer is the names. -/
def register (owner : Module) : Run (List String) := do
  registerSections owner owner.sections
  modify fun context => { context with
    auxiliary := context.auxiliary ++ owner.auxiliary
    knownOrder := none }
  return owner.sections.map (·.name)

/-- Register modules; the answer is the names of the sections that are not core. -/
def registerModules : List Module → Run (List String)
  | [] => return []
  | owner :: rest => do
    let names ← register owner
    let others ← registerModules rest
    return (if owner.core then [] else names) ++ others

/-- Set up a context with the given modules. -/
def setUp (modules : List Module) : Run Unit := do
  let exported ← registerModules modules
  modify fun context => { context with
    sections := context.sections.set modulesLoaded { name := modulesLoaded, before := exported } }

/-- The ordering directives of the registered sections. -/
def directives (sections : Named Section) : List Order.Directive :=
  sections.map fun entry => ⟨entry.1, entry.2.before, entry.2.after⟩

/-- The order in which sections are processed. -/
def order : Run (List String) := do
  let context ← get
  match context.knownOrder with
  | some names => return names
  | none =>
    match Order.resolve (directives context.sections) with
    | .ok names =>
      set { context with knownOrder := some names }
      return names
    | .error cycle => throw (.cycle cycle)

end Run

/-- The kind of objects that a section holds. -/
def Context.sectionKind? (context : Context) (name : String) : Option ObjectKind :=
  (context.sections.get? name).bind (·.kind)

/-- The entries of a section; null entries and an absent section hold nothing. -/
def Context.entriesOf (context : Context) (name : String) : SectionEntries :=
  (context.objects.get? name).getD (.map [])

end FirewallPolicy
