import FirewallPolicy.Model.Attributes
import FirewallPolicy.Text.Digit

/-!
## Log classes

How matching packets are logged.  Rules refer to log classes by name, give them inline, or ask
for the default class, which is the one named `_default` or else made from the settings.
-/

namespace FirewallPolicy

/-- A way of logging: its target, if packets are logged at all, and the options of the target
with the attributes they come from. -/
structure LogMode where
  target : Option String
  options : List (String × String)

/-- The mode of that name. -/
def logMode? : String → Option LogMode
  | "log" => some ⟨some "LOG", [("prefix", "--log-prefix"), ("level", "--log-level")]⟩
  | "nflog" => some ⟨some "NFLOG", [("group", "--nflog-group"), ("prefix", "--nflog-prefix"),
      ("range", "--nflog-range"), ("threshold", "--nflog-threshold")]⟩
  | "ulog" => some ⟨some "ULOG", [("group", "--ulog-nlgroup"), ("prefix", "--ulog-prefix"),
      ("range", "--ulog-cprange"), ("threshold", "--ulog-qthreshold")]⟩
  | "none" => some ⟨none, []⟩
  | _ => none

namespace LogClass

/-- The name of the log class that a policy may declare as the default. -/
def defaultName : String := "_default"

/-! ### Declaration -/

/-- Check the mode of a log class. -/
def checkMode (location : String) (mode : Value) : Except Failure Unit :=
  match mode with
  | .text name =>
    if (logMode? name).isSome then .ok () else .error (.fault location (.invalidLogMode mode))
  | _ =>
    if mode.isHashable then .error (.fault location (.invalidLogMode mode))
    else .error .unusable

/-- Bring the attributes of a log class into normal form.  A name made of digits would clash
with numbered chains. -/
def settle (settings : Settings) (location : String) (key : Option Scalar) (attributes : Record) :
    Except Failure Record := do
  match key with
  | some name =>
    if Text.isDigits name.written then throw (.fault location (.invalidLogName name))
  | none => pure ()
  let attributes := attributes.setDefault "mode" settings.logMode
  checkMode location (attributes.get "mode")
  if attributes.has "every" && attributes.has "probability" then
    throw (.fault location .everyAndProbability)
  return attributes

/-- The key of a log class; null is none. -/
def keyOf : Scalar → Option Scalar
  | .null => none
  | key => some key

/-- The log class that is declared by `source`. -/
def declare (location : String) (key : Option Scalar) (source : Entry) : Run LogClass := do
  let attributes ← attributesOf .log location source
  let attributes ← Run.recording (settle (← get).settings location key attributes)
  return { serial := ← Run.freshSerial, location, key, attributes }

/-! ### Matches -/

/-- Are packets logged at all? -/
def isEnabled (log : LogClass) : Bool :=
  !(log.attributes.get "mode").isText "none"

/-- The matches that thin out logging. -/
def conditions (log : LogClass) : List String :=
  let attr := log.attributes.get
  let thinning :=
    if log.attributes.has "every" then
      ["-m statistic --mode nth --every " ++ (attr "every").written ++ " --packet 0"]
    else if log.attributes.has "probability" then
      ["-m statistic --mode random --probability " ++ (attr "probability").written]
    else []
  let limit :=
    if log.attributes.has "limit" then
      ["-m limit --limit " ++ (attr "limit").amountText ++ "/second"]
    else []
  thinning ++ limit

/-- One option of a log target; a prefix stands in double quotes. -/
def optionText (log : LogClass) (option : String × String) : String :=
  if log.attributes.has option.1 then
    let value := (log.attributes.get option.1).written
    let value := if option.1 = "prefix" then "\"" ++ value ++ "\"" else value
    " " ++ option.2 ++ " " ++ value
  else ""

/-- The rule that logs, if packets are logged. -/
def fragments (log : LogClass) : List Fragment :=
  let mode := match log.attributes.get "mode" with
    | .text name => logMode? name
    | _ => none
  match mode with
  | some ⟨some target, options⟩ =>
    [{ Fragment.matching log.conditions with
        target := some (options.foldl (fun text option => text ++ log.optionText option) target) }]
  | _ => []

/-- The name by which the log class is known now: the default class has the empty name. -/
def nameIn (context : Context) (log : LogClass) : Option Scalar :=
  match context.defaultLog with
  | some default => if default.serial = log.serial then some (.text "") else log.key
  | none => log.key

/-! ### Selection -/

/-- The log class of that name; it is declared at the first use. -/
def lookup (location name : String) : Run LogClass := do
  match (← get).entriesOf "log" with
  | .list items =>
    let named := items.any fun item => match item with
      | .raw value => value.isText name
      | .object _ => false
    if named then Run.unusable else Run.report location (.invalidLog name)
  | .map entries =>
    match Entries.get? entries (.text name) with
    | none => Run.report location (.invalidLog name)
    | some (.object (.log log)) => return log
    | some entry =>
      let log ← declare ("log " ++ name) (some (.text name)) entry
      modify fun context => { context with
        objects := context.objects.set "log"
          ((context.entriesOf "log").put (.text name) (.object (.log log))) }
      return log

/-- Does the policy name a default log class? -/
def declaresDefault (entries : SectionEntries) : Bool :=
  match entries with
  | .list items => items.any fun item => match item with
    | .raw value => value.isText defaultName
    | .object _ => false
  | .map entries => (Entries.get? entries (.text defaultName)).isSome

/-- The default log class made from the settings. -/
def defaultAttributes (settings : Settings) : Entries :=
  (.text "mode", settings.logMode) ::
    (if settings.logLevel.isTruthy then [(.text "level", settings.logLevel)] else [])

/-- The default log class. -/
def default (location : String) : Run LogClass := do
  match (← get).defaultLog with
  | some log => return log
  | none =>
    let log ←
      if declaresDefault ((← get).entriesOf "log") then lookup location defaultName
      else declare "default log" none (.raw (.map (defaultAttributes (← get).settings)))
    let log := { log with key := some (.text "") }
    modify fun context => { context with defaultLog := some log }
    return log

/-- The log class that a rule at `location` asks for, if it logs.  The directive is a name, an
inline mapping, true for the default class or false for none; null stands for `fallback`. -/
def select (location : String) (directive fallback : Value) : Run (Option LogClass) := do
  let enabled (log : LogClass) := if log.isEnabled then some log else none
  let chosen := if directive.isNull then fallback else directive
  match chosen.opened with
  | .null => return none
  | .bool false => return none
  | .bool true => return enabled (← default location)
  | .log serial origin key attributes => return enabled ⟨serial, origin, key, attributes⟩
  | .map entries => return enabled (← declare (location ++ " log") none (.raw (.map entries)))
  | .text "none" => return none
  | _ => return enabled (← lookup location chosen.written)

end LogClass

end FirewallPolicy
