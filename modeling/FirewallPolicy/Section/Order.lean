import FirewallPolicy.Text.Half

/-!
## Ordering of sections

Sections are put in an order in which each one comes after all that it requires.  Names are
visited in ascending order and each name after the names it requires, so the order depends on
the directives alone.  Directives that name an unknown section are ignored.  When the directives
are contradictory, the names of a cycle are reported.
-/

namespace FirewallPolicy.Order

/-- A named section and the names of the sections that it asks to precede and to follow. -/
structure Directive where
  name : String
  before : List String
  after : List String
deriving DecidableEq, Repr

/-- Do the directives ask that `earlier` comes before `later`? -/
def requires (directives : List Directive) (later earlier : String) : Bool :=
  directives.any fun directive =>
    (directive.name == later && directive.after.contains earlier) ||
      (directive.name == earlier && directive.before.contains later)

/-- The known names that have to come before `name`, in ascending order. -/
def required (directives : List Directive) (names : List String) (name : String) : List String :=
  names.filter (requires directives name)

/-- The part of the path of open visits that leads from `name` back to itself. -/
def cycleAt (path : List String) (name : String) : List String :=
  path.dropWhile (· != name) ++ [name]

/-- Visit `names` one after the other, each behind the names it requires.  `order` holds the
names that are done, `path` those whose visit is open and `free` all others that may still be
opened; a name that is neither done nor free closes a cycle. -/
def visit (predecessors : String → List String) (free path order : List String) :
    List String → Except (List String) (List String)
  | [] => .ok order
  | name :: rest =>
    if name ∈ order then visit predecessors free path order rest
    else if _isFree : name ∈ free then
      match visit predecessors (free.erase name) (path ++ [name]) order (predecessors name) with
      | .ok inner => visit predecessors free path (inner ++ [name]) rest
      | .error cycle => .error cycle
    else .error (cycleAt path name)
termination_by names => (free.length, names.length)
decreasing_by
  · exact Prod.Lex.right _ (by simp)
  · have := List.length_erase_of_mem _isFree
    have := List.length_pos_of_mem _isFree
    exact Prod.Lex.left _ _ (by omega)
  · exact Prod.Lex.right _ (by simp)

/-- All names in an order that satisfies the directives, or the names of a cycle. -/
def resolve (directives : List Directive) : Except (List String) (List String) :=
  let names := Text.sorted (directives.map (·.name))
  visit (required directives names) names [] [] names

end FirewallPolicy.Order
