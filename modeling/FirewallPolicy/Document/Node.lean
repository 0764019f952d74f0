import FirewallPolicy.Document.Scan
import FirewallPolicy.Document.Tag

/-!
## Nodes

The nodes that the tokens of a document describe.  A node names the nodes inside of it by their
numbers; an alias names the node that its anchor was given to, so a node may lie inside of
itself.
-/

namespace FirewallPolicy.Document

/-- What a node holds: a text, or other nodes by their numbers. -/
inductive Content where
  | scalar (text : String)
  | sequence (items : List Nat)
  | mapping (entries : List (Nat × Nat))
deriving DecidableEq, Repr

/-- A node of a document. -/
structure Node where
  tag : Tag
  content : Content
deriving DecidableEq, Repr

/-- How many collections may lie inside of each other. -/
def maxDepth : Nat := 485

/-- The state of reading nodes: the tokens that are left and the refusal behind them, the nodes
by number, the anchored nodes, the starts of tags by handle, and the number of collections that
are still open. -/
structure NodeState where
  tokens : List Token
  refusal : Option Refusal
  nodes : Array Node := #[]
  anchors : List (String × Nat) := []
  handles : List (String × String) := []
  depth : Nat := 0

/-- A step of reading nodes. -/
abbrev Reader (α : Type) : Type := StateT NodeState (Except Refusal) α

namespace Reader

/-- Refuse the document. -/
def refuse {α : Type} : Reader α := throw .malformed

/-- The next token, if one is left. -/
def peek : Reader (Option Token) := do
  let state ← get
  match state.tokens.head?, state.refusal with
  | none, some refusal => throw refusal
  | next, _ => return next

/-- Go on behind the next token. -/
def skip : Reader Unit := modify fun state => { state with tokens := state.tokens.drop 1 }

/-- Is the next token one of those?  The end of the tokens is none. -/
def nextIn (tokens : List Token) : Reader Bool := do return (← peek).any tokens.contains

/-- Go on behind a token that has to come next. -/
def expect (token : Token) : Reader Unit := do
  if (← peek) = some token then skip else refuse

/-- Go on behind a token if it comes next; the answer says whether it does. -/
def accept (token : Token) : Reader Bool := do
  if (← peek) = some token then
    skip
    return true
  else return false

/-! ### Numbers of nodes -/

/-- Add a node; the answer is its number. -/
def add (node : Node) : Reader Nat := do
  let number := (← get).nodes.size
  modify fun state => { state with nodes := state.nodes.push node }
  return number

/-- Give a node its content. -/
def fill (number : Nat) (content : Content) : Reader Unit :=
  modify fun state => { state with
    nodes := state.nodes.modify number fun node => { node with content } }

/-- The node that stands where nothing is written. -/
def emptyNode : Reader Nat := add ⟨.null, .scalar ""⟩

/-- Give an anchor to a node. -/
def anchored (anchor : Option String) (number : Nat) : Reader Nat := do
  match anchor with
  | none => return number
  | some name =>
    modify fun state => { state with anchors := (name, number) :: state.anchors }
    return number

/-- Go into a collection, unless too many are open. -/
def enter : Reader Unit := do
  let depth := (← get).depth
  if maxDepth ≤ depth then throw .unusable
  modify fun state => { state with depth := depth + 1 }

/-- Leave a collection. -/
def leave : Reader Unit := modify fun state => { state with depth := state.depth - 1 }

/-- A collection, which may name itself in its content. -/
def collection (anchor : Option String) (tag : Tag) (content : Reader Content) : Reader Nat := do
  let number ← add ⟨tag, .sequence []⟩
  let number ← anchored anchor number
  enter
  fill number (← content)
  leave
  return number

/-- The node that an alias stands for. -/
def aliased (name : String) : Reader Nat := do
  match (← get).anchors.lookup name with
  | some number => return number
  | none => refuse

/-! ### Properties -/

/-- The anchor and the tag in front of a node, in either order. -/
def properties : Reader (Option String × Option (Option String × String)) := do
  match ← peek with
  | some (.anchor name) =>
    skip
    match ← peek with
    | some (.tag handle suffix) =>
      skip
      return (some name, some (handle, suffix))
    | _ => return (some name, none)
  | some (.tag handle suffix) =>
    skip
    match ← peek with
    | some (.anchor name) =>
      skip
      return (some name, some (handle, suffix))
    | _ => return (none, some (handle, suffix))
  | _ => return (none, none)

/-- The name of a tag; its handle has to be known. -/
def tagName (tag : Option String × String) : Reader String := do
  match tag.1 with
  | none => return tag.2
  | some handle =>
    match (← get).handles.lookup handle with
    | some start => return start ++ tag.2
    | none => refuse

/-- The kind that a tag gives to a node; the tag of a single exclamation mark gives none. -/
def givenTag (tag : Option (Option String × String)) : Reader (Option Tag × Bool) := do
  match tag with
  | none => return (none, false)
  | some tag =>
    let name ← tagName tag
    return if name = "!" then (none, true) else (some (Tag.ofName name), false)

/-- Refuse an anchor that was given before. -/
def checkAnchor (anchor : Option String) : Reader Unit := do
  let known := (← get).anchors
  if anchor.any fun name => (known.lookup name).isSome then refuse

/-! ### Nodes -/

mutual

/-- A node.  Block collections start one only where `block` says so, and sequences without
indentation of their own only where `flush` does. -/
def node (block flush : Bool) : Nat → Reader Nat
  | 0 => refuse
  | fuel + 1 => do
    match ← peek with
    | some (.alias name) =>
      skip
      aliased name
    | _ =>
      let (anchor, written) ← properties
      let (tag, resolvesAll) ← givenTag written
      let next ← peek
      match next with
      | some (.scalar text isPlain) =>
        skip
        checkAnchor anchor
        let implied := if isPlain || resolvesAll then Tag.ofPlain text else .text
        anchored anchor (← add ⟨tag.getD implied, .scalar text⟩)
      | some .flowSequenceStart =>
        checkAnchor anchor
        skip
        collection anchor (tag.getD .sequence)
          (do return .sequence (← flowItems true fuel))
      | some .flowMappingStart =>
        checkAnchor anchor
        skip
        collection anchor (tag.getD .mapping)
          (do return .mapping (← flowEntries true fuel))
      | _ =>
        if flush && next = some .blockEntry then
          checkAnchor anchor
          collection anchor (tag.getD .sequence)
            (do return .sequence (← flushItems fuel))
        else if block && next = some .blockSequenceStart then
          checkAnchor anchor
          skip
          collection anchor (tag.getD .sequence)
            (do return .sequence (← blockItems fuel))
        else if block && next = some .blockMappingStart then
          checkAnchor anchor
          skip
          collection anchor (tag.getD .mapping)
            (do return .mapping (← blockEntries fuel))
        else if anchor.isSome || written.isSome then
          checkAnchor anchor
          anchored anchor (← add ⟨tag.getD .null, .scalar ""⟩)
        else refuse

/-- A node, or the empty one if one of the tokens, or the end, comes next. -/
def nodeUnless (stops : List Token) (block flush : Bool) : Nat → Reader Nat
  | 0 => refuse
  | fuel + 1 => do
    if ← nextIn stops then emptyNode else node block flush fuel

/-- The items of a block sequence. -/
def blockItems : Nat → Reader (List Nat)
  | 0 => refuse
  | fuel + 1 => do
    if ← accept .blockEntry then
      let item ← nodeUnless [.blockEntry, .blockEnd] true false fuel
      return item :: (← blockItems fuel)
    else
      expect .blockEnd
      return []

/-- The items of a sequence at the indentation of the mapping around it. -/
def flushItems : Nat → Reader (List Nat)
  | 0 => refuse
  | fuel + 1 => do
    if ← accept .blockEntry then
      let item ← nodeUnless [.blockEntry, .key, .value, .blockEnd] true false fuel
      return item :: (← flushItems fuel)
    else return []

/-- The value behind a key, or the empty node if there is none. -/
def valueUnless (stops : List Token) (block flush : Bool) : Nat → Reader Nat
  | 0 => refuse
  | fuel + 1 => do
    if ← accept .value then nodeUnless stops block flush fuel else emptyNode

/-- The entries of a block mapping. -/
def blockEntries : Nat → Reader (List (Nat × Nat))
  | 0 => refuse
  | fuel + 1 => do
    let stops := [Token.key, .value, .blockEnd]
    if ← accept .key then
      let key ← nodeUnless stops true true fuel
      let value ← valueUnless stops true true fuel
      return (key, value) :: (← blockEntries fuel)
    else if ← accept .blockEnd then return []
    else refuse

/-- The items of a flow sequence.  An item with a key mark is a mapping of one entry. -/
def flowItems (first : Bool) : Nat → Reader (List Nat)
  | 0 => refuse
  | fuel + 1 => do
    if ← accept .flowSequenceEnd then return []
    if !first then expect .flowEntry
    if ← accept .key then
      let item ← collection none .mapping do
        let key ← nodeUnless [.value, .flowEntry, .flowSequenceEnd] false false fuel
        return .mapping [(key, ← valueUnless [.flowEntry, .flowSequenceEnd] false false fuel)]
      return item :: (← flowItems false fuel)
    else if ← accept .flowSequenceEnd then return []
    else
      let item ← node false false fuel
      return item :: (← flowItems false fuel)

/-- The entries of a flow mapping.  An item without a key mark is a key without a value. -/
def flowEntries (first : Bool) : Nat → Reader (List (Nat × Nat))
  | 0 => refuse
  | fuel + 1 => do
    if ← accept .flowMappingEnd then return []
    if !first then expect .flowEntry
    if ← accept .key then
      let key ← nodeUnless [.value, .flowEntry, .flowMappingEnd] false false fuel
      let value ← valueUnless [.flowEntry, .flowMappingEnd] false false fuel
      return (key, value) :: (← flowEntries false fuel)
    else if ← accept .flowMappingEnd then return []
    else
      let key ← node false false fuel
      let value ← emptyNode
      return (key, value) :: (← flowEntries false fuel)

end

/-! ### Documents -/

/-- The directives before a document; each may be given once. -/
def directives (versionSeen : Bool) : Nat → Reader Unit
  | 0 => return
  | fuel + 1 => do
    match ← peek with
    | some (.versionDirective major) =>
      if versionSeen || major != 1 then refuse
      skip
      directives true fuel
    | some (.tagDirective handle start) =>
      if ((← get).handles.lookup handle).isSome then refuse
      modify fun state => { state with handles := (handle, start) :: state.handles }
      skip
      directives versionSeen fuel
    | some .otherDirective =>
      skip
      directives versionSeen fuel
    | _ => return

/-- The handles that are known without a directive. -/
def standardHandles : List (String × String) :=
  [("!", "!"), ("!!", Tag.standardStart)]

/-- Go on behind marks of document ends. -/
def skipEnds : Nat → Reader Unit
  | 0 => return
  | fuel + 1 => do
    if ← accept .documentEnd then skipEnds fuel

/-- The root of a document that starts with directives or a mark. -/
def markedRoot (fuel : Nat) : Reader Nat := do
  directives false fuel
  modify fun state => { state with handles := state.handles ++ standardHandles }
  expect .documentStart
  match ← peek with
  | none => emptyNode
  | some token =>
    if token.isDirective || token = .documentStart || token = .documentEnd then emptyNode
    else node true false fuel

/-- The root of the only document, if there is one.  A second document is refused behind its
directives. -/
def root (fuel : Nat) : Reader (Option Nat) := do
  match ← peek with
  | none => return none
  | some token =>
    let result ←
      if token.isDirective || token = .documentStart then markedRoot fuel
      else
        modify fun state => { state with handles := standardHandles }
        node true false fuel
    skipEnds fuel
    if (← peek).isSome then
      modify fun state => { state with handles := [] }
      directives false fuel
      refuse
    return some result

end Reader

/-- The nodes of a document, and the number of the root. -/
structure Graph where
  nodes : Array Node
  root : Nat
deriving Repr

/-- The nodes that the tokens describe, if there is a document. -/
def Graph.ofTokens (scanned : Scanned) : Except Refusal (Option Graph) := do
  let fuel := 4 * scanned.tokens.length + 8
  let (root, state) ←
    (Reader.root fuel).run { tokens := scanned.tokens, refusal := scanned.refusal }
  return root.map fun root => ⟨state.nodes, root⟩

end FirewallPolicy.Document
