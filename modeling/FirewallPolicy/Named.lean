/-!
## Named entries

Things known by name, in the order in which the names were first set.
-/

namespace FirewallPolicy

/-- Things known by name, in the order of their first mention. -/
abbrev Named (α : Type) := List (String × α)

namespace Named

variable {α : Type}

/-- The thing of that name. -/
def get? (entries : Named α) (name : String) : Option α :=
  entries.lookup name

/-- The names in order. -/
def names (entries : Named α) : List String :=
  entries.map (·.1)

/-- Set the thing of that name: a new name goes to the end, a known one keeps its place. -/
def set : Named α → String → α → Named α
  | [], name, value => [(name, value)]
  | (known, old) :: rest, name, value =>
    if known = name then (known, value) :: rest else (known, old) :: set rest name value

/-- Set several things one after the other. -/
def setAll (entries changes : Named α) : Named α :=
  changes.foldl (fun result change => result.set change.1 change.2) entries

end Named

end FirewallPolicy
