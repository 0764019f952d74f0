import FirewallPolicy.Failure

/-!
## Merged policies

Policy documents are merged into one policy.  Lists of a section are joined in the order of the
documents, mappings are merged by key with later documents overriding earlier ones, and for each
entry the document that it comes from is remembered.
-/

namespace FirewallPolicy

/-- The entries of a section as a policy states them. -/
inductive SectionData where
  | list (items : List Value)
  | map (entries : Entries)
deriving Repr, Inhabited

/-- A merged policy: entries and their sources by section, and options. -/
structure Policy where
  objects : Named SectionData := []
  sources : Named (List (Scalar × String)) := []
  options : Entries := []
deriving Repr, Inhabited

namespace Policy

/-- The sources of a section's entries. -/
def sourcesOf (policy : Policy) (name : String) : List (Scalar × String) :=
  (policy.sources.get? name).getD []

/-- Note that entries of a section come from a document. -/
def noteSources (policy : Policy) (name source : String) (keys : List Scalar) : Policy :=
  let noted := keys.foldl (fun sources key => Entries.insert sources key source)
    (policy.sourcesOf name)
  { policy with sources := policy.sources.set name noted }

/-- Append the items of a list section. -/
def addList (policy : Policy) (name source : String) (items : List Value) :
    Except Failure Unit × Policy :=
  let known := policy.noteSources name source []
  match (policy.objects.get? name).getD (.list []) with
  | .map _ => (.error (.fault source (.sectionNotMapping name)), known)
  | .list old =>
    let keys := (List.range items.length).map fun i => Scalar.int ((old.length + i : Nat) : Int)
    let noted := policy.noteSources name source keys
    (.ok (), { noted with objects := policy.objects.set name (.list (old ++ items)) })

/-- Merge the entries of a mapping section. -/
def addMap (policy : Policy) (name source : String) (entries : Entries) :
    Except Failure Unit × Policy :=
  let known := policy.noteSources name source []
  match (policy.objects.get? name).getD (.map []) with
  | .list _ => (.error (.fault source (.sectionNotList name)), known)
  | .map old =>
    let noted := policy.noteSources name source (entries.map (·.1))
    (.ok (), { noted with
      objects := policy.objects.set name (.map (Entries.insertAll old entries)) })

/-- Merge one top-level entry of a document. -/
def addEntry (policy : Policy) (source : String) (key : Scalar) (value : Value) :
    Except Failure Unit × Policy :=
  match key, value.opened with
  | .text "description", _ => (.ok (), policy)
  | .text "options", .map options =>
    (.ok (), { policy with options := Entries.insertAll policy.options options })
  | .text "options", _ => (.error (.fault source .optionsNotMapping), policy)
  | key, value =>
    if !key.isShowable then (.error .unusable, policy)
    else
      match value with
      | .list items => policy.addList key.written source items
      | .map entries => policy.addMap key.written source entries
      | _ =>
        (.error (.fault source (.invalidSection key.written)),
          policy.noteSources key.written source [])

/-- Merge top-level entries until one is refused; what was merged before stays. -/
def addEntries (policy : Policy) (source : String) : Entries → Except Failure Unit × Policy
  | [] => (.ok (), policy)
  | (key, value) :: rest =>
    match policy.addEntry source key value with
    | (.ok (), next) => next.addEntries source rest
    | (.error failure, next) => (.error failure, next)

/-- Merge a document; an empty one adds nothing. -/
def add (policy : Policy) (document : Value) (source : String) : Except Failure Unit × Policy :=
  match document.opened with
  | .null => (.ok (), policy)
  | .map entries => policy.addEntries source entries
  | _ => (.error (.fault source .documentNotMapping), policy)

/-- Merge documents with their sources until one is refused. -/
def ofDocuments (documents : List (Value × String)) : Except Failure Policy :=
  documents.foldlM (fun policy document =>
    match policy.add document.1 document.2 with
    | (.ok (), next) => .ok next
    | (.error failure, _) => .error failure) {}

end Policy

end FirewallPolicy
