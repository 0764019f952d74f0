import FirewallPolicy.AddressSet
import FirewallPolicy.Compile.Insertion
import FirewallPolicy.Policy
import FirewallPolicy.Section.Builtin

/-!
## Compilation

A policy is compiled in two passes over the sections in their order: the entries of the object
sections become objects, and then the rules of every section are inserted into the rule tree.
-/

namespace FirewallPolicy

/-- The state of a compilation: its context and the tree under construction. -/
structure Build where
  context : Context
  assembly : Assembly := {}

/-- A computation that builds, which may fail; what it did before stays. -/
abbrev Building (α : Type) : Type := ExceptT Failure (StateM Build) α

namespace Building

/-- A computation in the context of the build. -/
def inContext {α : Type} (action : Run α) : Building α := fun build =>
  let (result, context) := action build.context
  (result, { build with context := context })

/-! ### Objects -/

/-- The entries of a merged section, before they become objects. -/
def rawEntries : SectionData → SectionEntries
  | .list items => .list (items.map .raw)
  | .map entries => .map (entries.map fun entry => (entry.1, .raw entry.2))

/-- Warn of each section that no module registered. -/
def warnUnknown : List String → Run Unit
  | [] => return
  | name :: rest => do
    Run.warn name .unknownSection
    warnUnknown rest

/-- Refuse a list where a registered section holds its entries by key. -/
def checkKeyed (context : Context) : List (String × Section) → Run Unit
  | [] => return
  | (name, described) :: rest => do
    let entries := context.entriesOf name
    if described.keyed && !entries.isEmpty && !entries.isMap then
      Run.report name (.sectionNotMapping name)
    checkKeyed context rest

/-- The location of an entry of a section. -/
def entryLocation (policy : Policy) (name : String) (key : Scalar) : String :=
  let source := (Entries.get? (policy.sourcesOf name) key).getD "?"
  name ++ " " ++ key.written ++ " (" ++ source ++ ")"

/-- Make the entry of that key of a section an object of the kind; the key has to have a text, for
the locations of faults. -/
def declareKey (policy : Policy) (name : String) (kind : ObjectKind) (key : Scalar) : Run Unit := do
  if !key.isShowable then Run.unusable
  match ((← get).entriesOf name).get? key with
  | none => Run.unusable
  | some entry =>
    let object ← PolicyObject.declare kind (entryLocation policy name key)
      (LogClass.keyOf key) entry
    modify fun context => { context with
      objects := context.objects.set name ((context.entriesOf name).put key (.object object)) }

/-- Make the entries of those keys of a section objects of the kind. -/
def declareKeys (policy : Policy) (name : String) (kind : ObjectKind) : List Scalar → Run Unit
  | [] => return
  | key :: rest => do
    declareKey policy name kind key
    declareKeys policy name kind rest

/-- Make the entries of a section objects of its kind. -/
def declareSection (policy : Policy) (described : Section) : Run Unit := do
  match if described.isVirtual then none else described.kind with
  | none => return
  | some kind =>
    declareKeys policy described.name kind ((← get).entriesOf described.name).keys

/-- Make the entries of the sections objects. -/
def declareSections (policy : Policy) : List Section → Run Unit
  | [] => return
  | described :: rest => do
    declareSection policy described
    declareSections policy rest

/-! ### Rules -/

/-- Insert rules that belong to the object at `owner`; a fault is recorded. -/
def insertRules (owner : String) (rules : List Fragment) : Building Unit := fun build =>
  let source : ChainSource := ⟨build.context.auxiliary, build.context.entriesOf "custom"⟩
  let (result, assembly) := Assembly.insert source owner rules build.assembly
  inContext (Run.recording result) { build with assembly := assembly }

/-- Insert the rules of objects one after the other; only rules have any. -/
def insertObjects : List Entry → Building Unit
  | [] => return
  | .object (.rule rule) :: rest => do
    insertRules rule.location (← inContext rule.fragments)
    insertObjects rest
  | _ :: rest => insertObjects rest

/-- Insert the rules of a section. -/
def insertSection (described : Section) : Building Unit := do
  if described.isVirtual then
    insertRules "" (← inContext described.rules.rules)
  else if described.kind.isSome then
    insertObjects ((← get).context.entriesOf described.name).values

/-- Insert the rules of the sections. -/
def insertSections : List Section → Building Unit
  | [] => return
  | described :: rest => do
    insertSection described
    insertSections rest

/-! ### Compilation -/

/-- The definitions in the section of address sets, in which only keys name entries. -/
def setDefinitions : SectionEntries → Except Failure Entries
  | .list [] => .ok []
  | .list _ => .error .unusable
  | .map entries => .ok (entries.map fun entry => (entry.1, match entry.2 with
    | .raw value => value
    | .object object => .map (Record.toEntries object.attributes)))

/-- Compile a policy with the given modules. -/
def compilePolicy (policy : Policy) (modules : List Module) : Building (List AddressSet) := do
  inContext (Run.setUp modules)
  let objects : Named SectionEntries :=
    policy.objects.map fun entry => (entry.1, rawEntries entry.2)
  modify fun build => { build with context := { build.context with objects := objects } }
  let known := (← get).context.sections
  inContext (warnUnknown (Text.sorted (objects.names.filter fun name =>
    (known.get? name).isNone)))
  inContext (checkKeyed (← get).context known)
  let order ← inContext Run.order
  let sections := order.filterMap known.get?
  inContext (declareSections policy sections)
  insertSections sections
  match setDefinitions ((← get).context.entriesOf "ipset") >>= AddressSet.readAll with
  | .ok sets => return sets
  | .error failure => throw failure

end Building

/-- A compiled policy: what the compilation left behind, and the address sets. -/
structure Compilation where
  build : Build
  sets : List AddressSet

namespace Compilation

/-- What a run of the compiler ended with. -/
def ofRun : Except Failure (List AddressSet) × Build → Except Failure Compilation
  | (.ok sets, build) => .ok ⟨build, sets⟩
  | (.error failure, _) => .error failure

/-- Compile a policy, with the settings that its options ask for unless others are given. -/
def ofPolicy (policy : Policy) (modules : List Module) (hosts : HostBook)
    (settings : Option Settings) : Except Failure Compilation := do
  let settings ← match settings with
    | some settings => pure settings
    | none => Settings.ofOptions policy.options
  let start : Build := { context := { settings, hosts } }
  ofRun (Building.compilePolicy policy modules start)

/-- The compiled rules. -/
def tree (compilation : Compilation) : RuleTree := compilation.build.assembly.tree

end Compilation

end FirewallPolicy
