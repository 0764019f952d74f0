import FirewallPolicy.Failure
import FirewallPolicy.Storage.Path
import FirewallPolicy.Text.Quoted

/-!
## Storage

The file system as a set of operations, so that work on files can be done on real files as well
as on a tree of files that is a value.
-/

namespace FirewallPolicy

/-- Why the file system refuses an operation. -/
structure Obstacle where
  code : Nat
  reason : String
deriving DecidableEq, Repr

namespace Obstacle

/-- Nothing is there. -/
def absent : Obstacle := ⟨2, "No such file or directory"⟩

/-- Something is there already. -/
def occupied : Obstacle := ⟨17, "File exists"⟩

/-- A file is where a folder is needed. -/
def notFolder : Obstacle := ⟨20, "Not a directory"⟩

/-- A folder is where a file is needed. -/
def isFolder : Obstacle := ⟨21, "Is a directory"⟩

/-- A name or a path has more bytes than it may have. -/
def longName : Obstacle := ⟨36, "File name too long"⟩

/-- The obstacles with a wording of their own. -/
def known : List Obstacle := [absent, occupied, notFolder, isFolder, longName]

/-- The obstacle of that code, with the given reason if it has no wording of its own. -/
def ofCode (code : Nat) (reason : String) : Obstacle :=
  (known.find? (·.code == code)).getD ⟨code, reason⟩

/-- Does the obstacle only say that the path leads nowhere? -/
def meansNothing (obstacle : Obstacle) : Bool :=
  obstacle.code = absent.code || obstacle.code = notFolder.code

end Obstacle

/-- What work on files stops with: a failure of the work, or an obstacle at a path. -/
inductive FileFailure where
  | work (failure : Failure)
  | refused (obstacle : Obstacle) (path : Path)
deriving Repr

namespace FileFailure

/-- The text of a failure, if it has one without a gap. -/
def text? : FileFailure → Option String
  | work (.policy fault) => if Text.isWhole fault.text then some fault.text else none
  | work (.cycle names) => some (Failure.cycleText names)
  | work .unusable => none
  | refused obstacle path =>
    some ("[Errno " ++ toString obstacle.code ++ "] " ++ obstacle.reason ++ ": " ++
      Text.quoted path.text)

end FileFailure

/-- The kinds of entries of a file system. -/
inductive FileKind where
  | file
  | folder
deriving DecidableEq, Repr

/-- The operations of a file system.  Texts are read with their line breaks as newlines. -/
structure Storage (m : Type → Type) where
  kindOf : Path → m (Except Obstacle FileKind)
  namesIn : Path → m (Except Obstacle (List String))
  read : Path → m (Except Obstacle String)
  write : Path → String → m (Except Obstacle Unit)
  makeFolder : Path → m (Except Obstacle Unit)

/-- Work on files. -/
abbrev FileWork (m : Type → Type) (α : Type) : Type := ExceptT FileFailure m α

namespace Storage

variable {m : Type → Type} [Monad m]

/-- Do work that needs no files. -/
def work {α : Type} (result : Except Failure α) : FileWork m α :=
  match result with
  | .ok a => return a
  | .error failure => throw (.work failure)

/-- Ask the file system about a path; an obstacle stops the work. -/
def demand {α : Type} (path : Path) (answer : m (Except Obstacle α)) : FileWork m α := do
  if !path.isUsable then throw (.work .unusable)
  match ← (answer : ExceptT FileFailure m (Except Obstacle α)) with
  | .ok a => return a
  | .error obstacle => throw (.refused obstacle path)

/-- Is an entry of that kind at the path? -/
def isKind (storage : Storage m) (kind : FileKind) (path : Path) : FileWork m Bool := do
  if !path.isUsable then return false
  match ← (storage.kindOf path : ExceptT FileFailure m (Except Obstacle FileKind)) with
  | .ok found => return found = kind
  | .error obstacle =>
    if obstacle.meansNothing then return false
    else throw (.refused obstacle path)

/-- Make a folder where there may be one already. -/
def ensureFolder (storage : Storage m) (path : Path) : FileWork m Unit := do
  match ← (storage.makeFolder path : ExceptT FileFailure m (Except Obstacle Unit)) with
  | .ok () => return
  | .error obstacle =>
    if obstacle.code = Obstacle.absent.code || !(← storage.isKind .folder path) then
      throw (.refused obstacle path)

/-- Make a folder and the folders above it, the names on the way given from the last one on. -/
def ensureAbove (storage : Storage m) (root : String) : List String → FileWork m Unit
  | [] => storage.ensureFolder ⟨root, []⟩
  | name :: above => do
    let path : Path := ⟨root, (name :: above).reverse⟩
    match ← (storage.makeFolder path : ExceptT FileFailure m (Except Obstacle Unit)) with
    | .ok () => return
    | .error obstacle =>
      if obstacle.code = Obstacle.absent.code then
        storage.ensureAbove root above
        storage.ensureFolder path
      else if !(← storage.isKind .folder path) then throw (.refused obstacle path)

/-- Make a folder and the folders above it where they are missing. -/
def ensureFolders (storage : Storage m) (path : Path) : FileWork m Unit := do
  if !path.isUsable then throw (.work .unusable)
  storage.ensureAbove path.root path.names.reverse

end Storage

end FirewallPolicy
