import FirewallPolicy.Failure
import FirewallPolicy.Text.Blank
import FirewallPolicy.Text.Digit
import FirewallPolicy.Text.LowerCase
import FirewallPolicy.Value.Amount

/-!
## Compiler settings

The options of a policy.  Older documents spell option names with hyphens; such names are
replaced before the options are read, and where both spellings are given the newer one wins.
-/

namespace FirewallPolicy

/-- The settings of one compilation.  Mode and level of the default log class are checked where
that class is declared, and the greatest count of lists of recent events, which may be missing,
where such a list is built. -/
structure Settings where
  ipv4 : Bool := true
  ipv6 : Bool := true
  recentMaxCount : Option Amount := some (.int 20)
  filterChainPolicy : String := "DROP"
  logMode : Value := .text "log"
  logLevel : Value := .text ""
deriving Repr, Inhabited

namespace Settings

/-- The address families that rules are generated for. -/
def families (settings : Settings) : List String :=
  (if settings.ipv4 then ["inet"] else []) ++ (if settings.ipv6 then ["inet6"] else [])

/-! ### Spellings of option names -/

/-- The hyphenated names and what they stand for. -/
def legacyNames : List (String × String) := [
  ("recent-max-count", "recent_max_count"),
  ("filter-chain-policy", "filter_chain_policy"),
  ("log-mode", "log_mode"),
  ("log-level", "log_level")]

/-- The current name of an option. -/
def canonicalName (name : String) : String :=
  (legacyNames.lookup name).getD name

/-- The current name of an option whose key need not be a text. -/
def canonicalKey : Scalar → Scalar
  | .text name => .text (canonicalName name)
  | key => key

/-- Take over one option; a legacy spelling does not replace what is there. -/
def migrateOne (result : Entries) (option : Scalar × Value) : Entries :=
  let canonical := canonicalKey option.1
  if canonical != option.1 && (Entries.get? result canonical).isSome then result
  else Entries.insert result (.text canonical.written) option.2

/-- The options under their current names. -/
def migrate (options : Entries) : Entries :=
  options.foldl migrateOne []

/-! ### Reading -/

/-- A truth value, or a word for one. -/
def readFlag? : Value → Option Bool
  | .bool b => some b
  | .text s =>
    let word := Text.lower s
    if word = "true" || word = "yes" || word = "1" then some true
    else if word = "false" || word = "no" || word = "0" then some false
    else none
  | _ => none

/-- Set one option. -/
def assign (settings : Settings) (name : String) (value : Value) : Except Failure Settings :=
  let invalid := .error (.fault "options" (.invalidOption name value))
  let flag (set : Bool → Settings) :=
    match readFlag? value with
    | some b => .ok (set b)
    | none => invalid
  let text (set : String → Settings) :=
    match value with
    | .text s => .ok (set s)
    | _ => invalid
  match name with
  | "ipv4" => flag fun b => { settings with ipv4 := b }
  | "ipv6" => flag fun b => { settings with ipv6 := b }
  | "recent_max_count" =>
    match value with
    | .int i => .ok { settings with recentMaxCount := some (.int i) }
    | .text s =>
      if Text.isDigits (Text.trim s) then
        match Text.decimalNumber? (Text.withoutMargins s.toList) with
        | some n => .ok { settings with recentMaxCount := some (.int n) }
        | none => .error .unusable
      else invalid
    | _ => invalid
  | "filter_chain_policy" => text fun s => { settings with filterChainPolicy := s }
  | "log_mode" => text fun s => { settings with logMode := .text s }
  | "log_level" => text fun s => { settings with logLevel := .text s }
  | _ => .error (.fault "options" (.unknownOption name))

/-- Set the options one after the other. -/
def assignAll (settings : Settings) (options : Entries) : Except Failure Settings :=
  options.foldlM (fun result option => result.assign option.1.written option.2) settings

/-- The settings that the options of a policy ask for; at least one family has to stay enabled. -/
def ofOptions (options : Entries) : Except Failure Settings := do
  let settings ← assignAll {} (migrate options)
  if settings.families.isEmpty then throw (.fault "options" .noFamily)
  return settings

end Settings

end FirewallPolicy
