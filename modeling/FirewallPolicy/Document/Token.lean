/-!
## Tokens of policy documents

The tokens that a document is made of: marks of documents and collections, entries, keys and
values, anchors and aliases, tags and scalars.
-/

namespace FirewallPolicy.Document

/-- Why a document cannot be read: it is malformed, or it states a value that does not exist. -/
inductive Refusal where
  | malformed
  | unusable
deriving DecidableEq, Repr

/-- A token. -/
inductive Token where
  | versionDirective (major : Nat)
  | tagDirective (handle : String) (start : String)
  | otherDirective
  | documentStart
  | documentEnd
  | blockSequenceStart
  | blockMappingStart
  | blockEnd
  | flowSequenceStart
  | flowSequenceEnd
  | flowMappingStart
  | flowMappingEnd
  | blockEntry
  | flowEntry
  | key
  | value
  | alias (name : String)
  | anchor (name : String)
  | tag (handle : Option String) (suffix : String)
  | scalar (text : String) (isPlain : Bool)
deriving DecidableEq, Repr

namespace Token

/-- Is the token a directive? -/
def isDirective : Token → Bool
  | versionDirective _ | tagDirective _ _ | otherDirective => true
  | _ => false

end Token

end FirewallPolicy.Document
