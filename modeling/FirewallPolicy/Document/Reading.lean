import FirewallPolicy.Document.Part

/-!
## Values of documents

The value that a document states, put together from the parts that its nodes state.  A
collection that lies inside of itself becomes a loop.
-/

namespace FirewallPolicy.Document

/-- A value with the marks of the loops that it returns to but does not hold. -/
structure Loose where
  value : Value
  marks : List Nat := []
deriving Repr, Inhabited

/-- The value behind a mark, which becomes a loop if it returns to anything. -/
def Loose.closed (mark : Nat) (loose : Loose) : Loose :=
  if loose.marks.isEmpty then loose
  else ⟨.loop mark loose.value, loose.marks.filter (· != mark)⟩

/-- The marks of the collection that a node states. -/
def nodeMark (number : Nat) : Nat := 2 * number

/-- The mark of the pair that a node states. -/
def pairMark (number : Nat) : Nat := 2 * number + 1

/-- A step of putting values together; values of nodes that do not lie inside of themselves are
kept. -/
abbrev Joining (α : Type) : Type := StateM (Array (Option Value)) α

namespace Joining

variable (inner : Nat → Joining Loose)

/-- A list of values, made into one. -/
def gathered (make : List Value → Value) (items : List Nat) : Joining Loose := do
  let loose ← items.mapM inner
  return ⟨make (loose.map (·.value)), (loose.flatMap (·.marks)).eraseDups⟩

/-- A pair. -/
def pair (item : Nat × Nat × Nat) : Joining Loose := do
  let first ← inner item.2.1
  let second ← inner item.2.2
  return Loose.closed (pairMark item.1)
    ⟨.pair first.value second.value, (first.marks ++ second.marks).eraseDups⟩

/-- The value of a part. -/
def content : Part → Joining Loose
  | .scalar s => return ⟨.scalar s, []⟩
  | .list items => gathered inner .list items
  | .map entries =>
    gathered inner (fun values => .map ((entries.map (·.1)).zip values)) (entries.map (·.2))
  | .set members => return ⟨.set members, []⟩
  | .pairs items => do
    let loose ← items.mapM (pair inner)
    return ⟨.list (loose.map (·.value)), (loose.flatMap (·.marks)).eraseDups⟩

end Joining

/-- The value of a node; `path` holds the nodes around it, of which there are at most as many as
there are parts. -/
def Parts.valueAt (parts : Parts) : Nat → List Nat → Nat → Joining Loose
  | 0, _, _ => return ⟨.null, []⟩
  | fuel + 1, path, number => do
    if let some value := (← get)[number]?.join then return ⟨value, []⟩
    if path.contains number then return ⟨.again (nodeMark number), [nodeMark number]⟩
    match parts[number]?.join with
    | none => return ⟨.null, []⟩
    | some part =>
      let loose ← Joining.content (Parts.valueAt parts fuel (number :: path)) part
      if loose.marks.isEmpty then modify (·.set! number (some loose.value))
      return loose.closed (nodeMark number)

/-- The value of a node. -/
def Parts.value (parts : Parts) (number : Nat) : Value :=
  ((parts.valueAt (parts.size + 1) [] number).run (Array.replicate parts.size none)).1.value

/-- The value that the text of a document states; an empty document states null. -/
def read (text : String) : Except Refusal Value := do
  match ← Graph.ofTokens (Scanned.ofText text) with
  | none => return .null
  | some graph => return (← graph.parts).value graph.root

end FirewallPolicy.Document
