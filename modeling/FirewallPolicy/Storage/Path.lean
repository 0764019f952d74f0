import FirewallPolicy.Text.Half
import FirewallPolicy.Text.Split

/-!
## Paths

A path of the file system: where it starts, and the names on the way from there.  Empty names
and single dots are left out, so that several texts give the same path; double dots stay.
-/

namespace FirewallPolicy

/-- A path.  The root of a relative path is empty. -/
structure Path where
  root : String := ""
  names : List String := []
deriving DecidableEq, Repr

namespace Path

/-- Where a path starts; two slashes, unlike three, are kept. -/
def rootOf : List Char → String
  | '/' :: '/' :: '/' :: _ => "/"
  | '/' :: '/' :: _ => "//"
  | '/' :: _ => "/"
  | _ => ""

/-- Does the name lead somewhere? -/
def isStep (name : String) : Bool := name != "" && name != "."

/-- The path that a text states. -/
def ofText (s : String) : Path where
  root := rootOf s.toList
  names := ((Text.splitAt '/' s.toList).map String.ofList).filter isStep

/-- The text of a path. -/
def text (path : Path) : String :=
  let text := path.root ++ "/".intercalate path.names
  if text.isEmpty then "." else text

/-- The last name of a path, which is empty if there is none. -/
def name (path : Path) : String := path.names.getLast?.getD ""

/-- The path of an entry of a folder. -/
def child (folder : Path) (name : String) : Path :=
  { folder with names := folder.names ++ [name] }

/-- The end of a name from its last dot on; a dot at the start or the end of the name does not
count. -/
def suffixOf (name : String) : String :=
  let cs := name.toList
  let ending := cs.reverse.takeWhile (· != '.')
  if ending.isEmpty || cs.length ≤ ending.length + 1 then ""
  else String.ofList ('.' :: ending.reverse)

/-- Can the path name an entry at all? -/
def isUsable (path : Path) : Bool :=
  path.names.all Text.isNameable

end Path

end FirewallPolicy
