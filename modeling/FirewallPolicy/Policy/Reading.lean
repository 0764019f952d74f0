import FirewallPolicy.Document.Reading
import FirewallPolicy.Policy
import FirewallPolicy.Section.Order
import FirewallPolicy.Storage.Basic

/-!
## Reading policies

A policy is read from a text or from files.  Of a folder, the files with the suffixes of policy
documents are read in ascending order of their names.
-/

namespace FirewallPolicy.Policy

/-! ### Texts -/

/-- Merge the document that a text states.  `place` names a text that is no document, `source`
stands for its entries. -/
def addText (policy : Policy) (place source text : String) : Except Failure Policy :=
  match Document.read text with
  | .error .malformed => .error (.fault place .malformedDocument)
  | .error .unusable => .error .unusable
  | .ok document =>
    match policy.add document source with
    | (.ok (), next) => .ok next
    | (.error failure, _) => .error failure

/-- The policy that a text states. -/
def ofText (source text : String) : Except Failure Policy :=
  addText {} source source text

/-! ### Files -/

/-- The suffixes of policy documents. -/
def suffixes : List String := [".json", ".yaml", ".yml"]

variable {m : Type → Type} [Monad m]

/-- Merge the document in a file. -/
def addFile (storage : Storage m) (policy : Policy) (path : Path) : FileWork m Policy := do
  if !path.isUsable then throw (.work .unusable)
  match ← (storage.read path : ExceptT FileFailure m (Except Obstacle String)) with
  | .error obstacle => throw (.work (.fault path.text (.unreadable obstacle.reason)))
  | .ok text => Storage.work (policy.addText path.text path.name text)

/-- Merge the documents in the files of a folder with those names. -/
def addFiles (storage : Storage m) (folder : Path) (policy : Policy) :
    List String → FileWork m Policy
  | [] => return policy
  | name :: rest => do
    let path := folder.child name
    let isDocument ←
      if suffixes.contains (Path.suffixOf name) then storage.isKind .file path else pure false
    let next ← if isDocument then addFile storage policy path else pure policy
    addFiles storage folder next rest

/-- Merge the document in a file, or those in the files of a folder. -/
def addPath (storage : Storage m) (policy : Policy) (path : Path) : FileWork m Policy := do
  if ← storage.isKind .folder path then
    let names ← Storage.demand path (storage.namesIn path)
    addFiles storage path policy (Text.sorted names)
  else addFile storage policy path

/-- The policy that files and folders state together. -/
def load (storage : Storage m) (paths : List Path) : FileWork m Policy :=
  paths.foldlM (addPath storage) {}

end FirewallPolicy.Policy
