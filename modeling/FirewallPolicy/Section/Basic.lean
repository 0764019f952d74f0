import FirewallPolicy.Fragment
import FirewallPolicy.Model.Object

/-!
## Sections and modules

A section has a name and a place in the order of sections.  The entries of an object section
become objects of its kind; a virtual section, whose name starts with a percent sign, contributes
rules of its own.  A module bundles sections with rules of auxiliary chains.
-/

namespace FirewallPolicy

/-- Where the rules of a virtual section come from: a list, or what the objects of the policy
and the enabled families ask for. -/
inductive RuleSource where
  | fixed (rules : List Fragment)
  | stateful
  | icmp
deriving DecidableEq, Repr, Inhabited

/-- A section of policies.  The entries of a keyed section have to be a mapping. -/
structure Section where
  name : String
  kind : Option ObjectKind := none
  rules : RuleSource := .fixed []
  before : List String := []
  after : List String := []
  keyed : Bool := false
deriving DecidableEq, Repr, Inhabited

/-- The virtual section that all core sections precede and all others follow. -/
def modulesLoaded : String := "%modules"

/-- Does the section contribute rules of its own? -/
def Section.isVirtual (section_ : Section) : Bool :=
  section_.name.toList.head? == some '%'

/-- A bundle of sections and auxiliary chain rules.  The sections of a core module come before
those of all others. -/
structure Module where
  name : String
  core : Bool := false
  sections : List Section := []
  auxiliary : List Fragment := []
deriving DecidableEq, Repr, Inhabited

end FirewallPolicy
