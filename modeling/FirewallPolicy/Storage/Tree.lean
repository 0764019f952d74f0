import FirewallPolicy.Storage.Basic
import FirewallPolicy.Text.Split

/-!
## Trees of files

A file system as a value: what is in it, by the names on the way from its root.  Relative paths
start at the working folder, which is there together with the folders above it.
-/

namespace FirewallPolicy

/-- The location of the working folder and the entries that were made; a folder has no text. -/
structure FileTree where
  home : List String := ["tmp", "work"]
  entries : List (List String × Option String) := []
deriving Repr

namespace FileTree

/-- What is at a location: a folder, or a file with its text.  The working folder and the folders
above it are always there. -/
def entry? (tree : FileTree) (location : List String) : Option (Option String) :=
  if location.isPrefixOf tree.home then some none else tree.entries.lookup location

/-- Put an entry at a location, in the place of one that is there. -/
def put (tree : FileTree) (location : List String) (entry : Option String) : FileTree :=
  { tree with entries := tree.entries.filter (·.1 != location) ++ [(location, entry)] }

/-- The greatest number of bytes of a name. -/
def maxName : Nat := 255

/-- The greatest number of bytes of a path. -/
def maxPath : Nat := 4095

/-- The location that names lead to; each name but the last one has to lead to a folder.  The
root is the folder above itself. -/
def walk (tree : FileTree) (location : List String) :
    List String → Except Obstacle (List String)
  | [] => .ok location
  | name :: rest =>
    match tree.entry? location with
    | none => .error .absent
    | some (some _) => .error .notFolder
    | some none =>
      if maxName < Text.nameSize name then .error .longName
      else if name != ".." then tree.walk (location ++ [name]) rest
      else tree.walk location.dropLast rest

/-- The location of a path. -/
def locate (tree : FileTree) (path : Path) : Except Obstacle (List String) :=
  if maxPath < Text.nameSize path.text then .error .longName
  else tree.walk (if path.root.isEmpty then tree.home else []) path.names

/-! ### Operations -/

/-- The kind of the entry at a path. -/
def kindOf (tree : FileTree) (path : Path) : Except Obstacle FileKind := do
  match tree.entry? (← tree.locate path) with
  | none => throw .absent
  | some none => return .folder
  | some (some _) => return .file

/-- The names of the entries of a folder. -/
def namesIn (tree : FileTree) (path : Path) : Except Obstacle (List String) := do
  let location ← tree.locate path
  match tree.entry? location with
  | none => throw .absent
  | some (some _) => throw .notFolder
  | some none =>
    let towardsHome := if location.isPrefixOf tree.home then tree.home[location.length]?.toList else []
    return towardsHome ++ tree.entries.filterMap fun entry =>
      if entry.1.dropLast = location then entry.1.getLast? else none

/-- The text of the file at a path. -/
def read (tree : FileTree) (path : Path) : Except Obstacle String := do
  match tree.entry? (← tree.locate path) with
  | none => throw .absent
  | some none => throw .isFolder
  | some (some text) => return Text.withNewlines text

/-- The tree with a text written to the file at a path. -/
def write (tree : FileTree) (path : Path) (text : String) : Except Obstacle FileTree := do
  let location ← tree.locate path
  match tree.entry? location with
  | some none => throw .isFolder
  | _ => return tree.put location (some text)

/-- The tree with a new folder at a path. -/
def makeFolder (tree : FileTree) (path : Path) : Except Obstacle FileTree := do
  let location ← tree.locate path
  match tree.entry? location with
  | some _ => throw .occupied
  | none => return tree.put location none

/-- Change the tree, unless there is an obstacle. -/
def change (next : FileTree → Except Obstacle FileTree) :
    StateM FileTree (Except Obstacle Unit) := fun tree =>
  match next tree with
  | .ok changed => (.ok (), changed)
  | .error obstacle => (.error obstacle, tree)

/-- A tree of files as the storage of a computation that changes it. -/
def storage : Storage (StateM FileTree) where
  kindOf path := do return (← get).kindOf path
  namesIn path := do return (← get).namesIn path
  read path := do return (← get).read path
  write path text := change (·.write path text)
  makeFolder path := change (·.makeFolder path)

/-! ### Making trees -/

/-- Add a folder and the folders above it, the names on the way given in order. -/
def addFolders (tree : FileTree) (above : List String) : List String → FileTree
  | [] => tree
  | name :: rest =>
    let location := above ++ [name]
    let grown := if (tree.entry? location).isSome then tree else tree.put location none
    grown.addFolders location rest

/-- Add a folder below the working folder. -/
def addFolder (tree : FileTree) (path : Path) : FileTree :=
  tree.addFolders tree.home path.names

/-- Add a file below the working folder, and the folders above it. -/
def addFile (tree : FileTree) (path : Path) (text : String) : FileTree :=
  (tree.addFolders tree.home path.names.dropLast).put (tree.home ++ path.names) (some text)

end FileTree

end FirewallPolicy
