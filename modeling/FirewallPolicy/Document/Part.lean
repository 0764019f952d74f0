import FirewallPolicy.Document.Numeral
import FirewallPolicy.Document.Takeover
import FirewallPolicy.Text.Base64
import FirewallPolicy.Value.Members

/-!
## Parts of values

What each node of a document states.  A collection names what it holds by the numbers of nodes
and is filled later, in the order in which collections were met, so that it may hold itself.
-/

namespace FirewallPolicy.Document

/-- What a node states.  In a list of pairs each pair has the number of the node that states it,
and the numbers of the two nodes that it holds. -/
inductive Part where
  | scalar (s : Scalar)
  | list (items : List Nat)
  | map (entries : List (Scalar × Nat))
  | set (members : List Scalar)
  | pairs (items : List (Nat × Nat × Nat))
deriving DecidableEq, Repr

/-- The parts by the numbers of their nodes; a node that was not met has none yet. -/
abbrev Parts := Array (Option Part)

/-! ### Scalars -/

/-- The text of a node.  A mapping with the default mark as a key stands for what the key
holds; one that leads back to itself has no text. -/
def Nodes.text (nodes : Nodes) : Nat → Nat → Except Refusal String
  | 0, _ => .error .unusable
  | fuel + 1, number =>
    match nodes[number]? with
    | some ⟨_, .scalar s⟩ => .ok s
    | some ⟨_, .mapping entries⟩ =>
      match entries.find? fun entry => nodes.isTagged .default entry.1 with
      | some entry => nodes.text fuel entry.2
      | none => .error .malformed
    | _ => .error .malformed

/-- The truth value that a scalar states. -/
def readBool? (s : String) : Option Bool :=
  let word := Text.lower s
  if word = "yes" || word = "true" || word = "on" then some true
  else if word = "no" || word = "false" || word = "off" then some false
  else none

/-- The moment that a scalar states. -/
def readMoment? (s : String) : Option Moment :=
  (Moment.ofText? (Tag.withoutFinalBreak s.toList)).filter Moment.isValid

/-- The bytes that a scalar states, which has to be written in ASCII. -/
def readBytes? (s : String) : Option (List UInt8) :=
  if s.toList.all (·.toNat < 0x80) then Text.Base64.decode? s.toList else none

/-- The scalar that a text states under a tag; an undefined number gets the mark. -/
def readScalar (tag : Tag) (mark : Nat) (s : String) : Except Refusal Scalar :=
  let found {α : Type} (value : Option α) (make : α → Scalar) (refusal : Refusal) :
      Except Refusal Scalar :=
    match value with
    | some a => .ok (make a)
    | none => .error refusal
  match tag with
  | .null => .ok .null
  | .bool => found (readBool? s) .bool .unusable
  | .int => found (Numerals.readInt? s) .int .unusable
  | .float => found (Numerals.readDouble? mark s) .float .unusable
  | .moment => found (readMoment? s) .moment .unusable
  | .bytes => found (readBytes? s) .bytes .malformed
  | .text => .ok (.text s)
  | _ => .error .malformed

/-- Can a node of that kind be a scalar? -/
def Tag.isScalar (tag : Tag) : Bool :=
  [Tag.null, .bool, .int, .float, .moment, .bytes, .text].contains tag

/-- The scalar that a node states.  A moment has to be written as a scalar. -/
def Nodes.scalar (nodes : Nodes) (number : Nat) (node : Node) : Except Refusal Scalar := do
  if !node.tag.isScalar then throw .malformed
  let s ← nodes.text (nodes.size + 1) number
  match node.tag, node.content with
  | .moment, .mapping _ => throw .unusable
  | tag, _ => readScalar tag (number + 1) s

/-! ### Collections -/

/-- The state of making parts: the nodes, the parts made so far, and the collections in the order
in which they were met. -/
structure Site where
  nodes : Nodes
  parts : Parts
  met : Array Nat := #[]

/-- A step of making parts. -/
abbrev Making (α : Type) : Type := StateT Site (Except Refusal) α

namespace Making

/-- Keep the part that a node states. -/
def keep (number : Nat) (part : Part) : Making Unit :=
  modify fun site => { site with parts := site.parts.set! number (some part) }

/-- Keep an empty collection, to be filled later. -/
def meet (number : Nat) (empty : Part) : Making Unit := do
  keep number empty
  modify fun site => { site with met := site.met.push number }

/-- Make the part that a node states, unless it was made before. -/
def make (number : Nat) : Making Unit := do
  let site ← get
  match site.parts[number]?.join, site.nodes[number]? with
  | some _, _ => return
  | none, none => throw .malformed
  | none, some node =>
    match node.tag with
    | .sequence => meet number (.list [])
    | .mapping => meet number (.map [])
    | .set => meet number (.set [])
    | .pairs => meet number (.pairs [])
    | _ => keep number (.scalar (← liftM (site.nodes.scalar number node)))

/-- The key that a node states; a collection is none. -/
def key (number : Nat) : Making Scalar := do
  make number
  match (← get).parts[number]?.join with
  | some (.scalar s) => return s
  | _ => throw .malformed

/-- The entries of a mapping added to those that are known: the last of several values for a key
counts, at the place of the first. -/
def entries (known : List (Scalar × Nat)) : List (Nat × Nat) → Making (List (Scalar × Nat))
  | [] => return known
  | (name, value) :: rest => do
    let name ← key name
    make value
    entries (Entries.insert known name value) rest

/-- The entries that a mapping states, those that it takes over among them. -/
def mapping (bound number : Nat) : Making (List (Scalar × Nat)) := do
  let nodes ← liftM ((← get).nodes.flatten bound number)
  modify fun site => { site with nodes }
  entries [] ((nodes.entriesOf? number).getD [])

/-- The pairs that mappings of one entry state. -/
def pairs : List Nat → Making (List (Nat × Nat × Nat))
  | [] => return []
  | item :: rest => do
    match (← get).nodes.entriesOf? item with
    | some [(first, second)] =>
      make first
      make second
      return (item, first, second) :: (← pairs rest)
    | _ => throw .malformed

/-- Fill a collection that was met. -/
def fill (bound number : Nat) : Making Unit := do
  match (← get).nodes[number]? with
  | some ⟨.sequence, .sequence items⟩ =>
    items.forM make
    keep number (.list items)
  | some ⟨.mapping, .mapping _⟩ => keep number (.map (← mapping bound number))
  | some ⟨.set, .mapping _⟩ =>
    keep number (.set (Scalar.Members.listed ((← mapping bound number).map (·.1))))
  | some ⟨.pairs, .sequence items⟩ => keep number (.pairs (← pairs items))
  | _ => throw .malformed

/-- Fill the collections that were met, from the one at `place` on; each node is met once. -/
def fillFrom (bound place : Nat) : Nat → Making Unit
  | 0 => return
  | fuel + 1 => do
    match (← get).met[place]? with
    | some number =>
      fill bound number
      fillFrom bound (place + 1) fuel
    | none => return

end Making

/-- The parts that the nodes of a document state. -/
def Graph.parts (graph : Graph) : Except Refusal Parts := do
  let site : Site := { nodes := graph.nodes, parts := Array.replicate graph.nodes.size none }
  let bound := Nodes.takeoverBound graph.nodes
  let ((), site) ← (do
    Making.make graph.root
    Making.fillFrom bound 0 (graph.nodes.size + 1) : Making Unit).run site
  return site.parts

end FirewallPolicy.Document
