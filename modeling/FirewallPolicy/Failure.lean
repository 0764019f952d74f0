import FirewallPolicy.Fragment
import FirewallPolicy.Value.Written

/-!
## Failures

Why a policy is refused.  A `Cause` says what is wrong, a `Fault` where, and a `Failure` is what
a computation stops with: a fault, contradictory ordering directives, or a value of a kind that
the computation cannot use at all.
-/

namespace FirewallPolicy

/-- What is wrong with a policy. -/
inductive Cause where
  -- policy objects
  | objectNotMapping
  | invalidAttribute (name : String)
  | invalidZone (name : Value)
  | invalidService (name : String)
  | setNameMissing
  | invalidNetwork (text : String)
  | invalidHost (name : String)
  -- services
  | protocolMissing
  | invalidServiceFamily (family : Value)
  | portNotAllowed (protocol : String)
  | emptyService
  -- log classes
  | invalidLogName (name : Scalar)
  | invalidLogMode (mode : Value)
  | everyAndProbability
  | invalidLog (name : String)
  -- limits
  | invalidLimitAmount (name : String) (value : Value)
  | invalidLimitSelector (value : Value)
  | invalidLimitMeasure (value : Value)
  | limitMaskNotMapping
  | invalidLimitMask (family selector : String) (length : Value)
  | limitUpdateAmbiguous
  | limitNameMissing
  -- changed destinations
  | dnatAddressMissing
  | dnatToNetwork
  | dnatAmbiguous (host : String)
  | dnatUnresolved (host : String)
  | dnatPortRefused (protocol : String)
  | natTargetMissing
  -- rules
  | logWithCustomAction (action : String)
  | sectionUnavailable (name : String)
  | connectionLimitUntracked
  | severalLimits
  | invalidAction (action : String)
  | updateLimitNameMissing
  | dnatWithAction (action : String)
  | dnatUntracked
  | dnatWithSet
  | trackingRequired
  | limitWithAction (action : String)
  -- compilation
  | duplicateSection (name : String)
  | sectionNotMapping (name : String)
  | sectionNotList (name : String)
  | incompletePlace (rule : Fragment)
  | invalidCustomChain (name : String)
  | customRuleNotMapping
  -- options
  | unknownOption (name : String)
  | invalidOption (name : String) (value : Value)
  | noFamily
  -- address sets
  | invalidSet
  | invalidSetType (type : Value)
  | invalidSetFamily (family : Value)
  | setFamilyMissing
  -- documents
  | documentNotMapping
  | optionsNotMapping
  | invalidSection (name : String)
  | unreadable (reason : String)
  | malformedDocument
  -- warnings
  | unknownSection
  | deprecatedAction (action : String)
  -- a message of the caller
  | given (message : String)
deriving Repr

namespace Cause

/-- The wording of a cause. -/
def message : Cause → String
  | objectNotMapping => "Object must be a mapping"
  | invalidAttribute name => "Invalid attribute: " ++ name
  | invalidZone name => "Invalid zone: " ++ name.written
  | invalidService name => "Invalid service: " ++ name
  | setNameMissing => "ipset name not defined"
  | invalidNetwork text => "Invalid network address: " ++ text
  | invalidHost name => "Invalid host name: " ++ name
  | protocolMissing => "Protocol not defined"
  | invalidServiceFamily family => "Invalid address family: " ++ family.written
  | portNotAllowed protocol => "Port not allowed with protocol " ++ protocol
  | emptyService => "Empty service definition"
  | invalidLogName name => "Invalid log name: " ++ name.written
  | invalidLogMode mode => "Invalid logging mode: " ++ mode.written
  | everyAndProbability => "Cannot specify both every and probability"
  | invalidLog name => "Invalid log: " ++ name
  | invalidLimitAmount name value => "Invalid limit " ++ name ++ ": " ++ value.written
  | invalidLimitSelector value => "Invalid limit address selector: " ++ value.written
  | invalidLimitMeasure value => "Invalid limit measure: " ++ value.written
  | limitMaskNotMapping => "Limit mask must be a mapping"
  | invalidLimitMask family selector length =>
    "Invalid " ++ family ++ " " ++ selector ++ " mask: " ++ length.written
  | limitUpdateAmbiguous => "Limit update requires a single address selector"
  | limitNameMissing => "Limit name not defined"
  | dnatAddressMissing => "dnat address not defined"
  | dnatToNetwork => "DNAT target cannot be a network address"
  | dnatAmbiguous host => host ++ " resolves to multiple IPv4 addresses"
  | dnatUnresolved host => host ++ " does not resolve to any IPv4 address"
  | dnatPortRefused protocol => "Cannot do port translation for " ++ protocol
  | natTargetMissing => "Translation address or port required"
  | logWithCustomAction action => "Logging not allowed with custom action: " ++ action
  | sectionUnavailable name => "Section not available: " ++ name
  | connectionLimitUntracked => "Tracking required with connection limit"
  | severalLimits => "Cannot specify multiple limits for a single filter rule"
  | invalidAction action => "Invalid filter action: " ++ action
  | updateLimitNameMissing => "update-limit name not defined"
  | dnatWithAction action => "dnat option not allowed with " ++ action ++ " action"
  | dnatUntracked => "dnat option not allowed with no-track"
  | dnatWithSet => "dnat and ipset options cannot be used simultaneously"
  | trackingRequired => "Tracking required by service"
  | limitWithAction action => "Cannot specify limit for " ++ action ++ " filter"
  | duplicateSection name => "Duplicate section: " ++ name
  | sectionNotMapping name => "Section " ++ name ++ " must be a mapping"
  | sectionNotList name => "Section " ++ name ++ " must be a list"
  | incompletePlace rule => "Incomplete rule location: " ++ rule.listing
  | invalidCustomChain name => "Invalid custom chain: " ++ name
  | customRuleNotMapping => "Custom rule must be a mapping"
  | unknownOption name => "Unknown option: " ++ name
  | invalidOption name value => "Invalid value for option " ++ name ++ ": " ++ value.quoted
  | noFamily => "Both IPv4 and IPv6 are disabled"
  | invalidSet => "Invalid ipset definition"
  | invalidSetType type => "Invalid ipset type: " ++ type.written
  | invalidSetFamily family => "Invalid ipset family: " ++ family.written
  | setFamilyMissing => "Family must be defined for hash sets"
  | documentNotMapping => "Policy document must be a mapping"
  | optionsNotMapping => "Options must be a mapping"
  | invalidSection name => "Invalid section: " ++ name
  | unreadable reason => "Cannot read policy file: " ++ reason
  | malformedDocument => "Invalid policy document"
  | unknownSection => "Unknown section ignored"
  | deprecatedAction action => "Deprecated action: " ++ action
  | given message => message

end Cause

/-- A cause and the policy object, file or section it is found at. -/
structure Fault where
  location : String
  cause : Cause
deriving Repr

/-- The text of a fault; an empty location is left out. -/
def Fault.text (fault : Fault) : String :=
  if fault.location.isEmpty then fault.cause.message
  else fault.location ++ ": " ++ fault.cause.message

/-- What a computation stops with. -/
inductive Failure where
  | policy (fault : Fault)
  | cycle (names : List String)
  | unusable
deriving Repr

namespace Failure

/-- A fault as a failure. -/
def fault (location : String) (cause : Cause) : Failure := policy ⟨location, cause⟩

/-- The text of contradictory ordering directives. -/
def cycleText (names : List String) : String :=
  "Circular ordering directives: " ++ " -> ".intercalate names

end Failure

end FirewallPolicy
