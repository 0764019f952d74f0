import FirewallPolicy.Document.Node

/-!
## Mappings that take over others

A merge key in a mapping takes over the entries of another mapping, or of the mappings of a list,
of which the first one counts most.  The entries that are taken over come before the mapping's
own, so that its own values count.
-/

namespace FirewallPolicy.Document

/-- The nodes of a document by their numbers. -/
abbrev Nodes := Array Node

namespace Nodes

/-- The entries of a mapping. -/
def entriesOf? (nodes : Nodes) (number : Nat) : Option (List (Nat × Nat)) :=
  match nodes[number]? with
  | some ⟨_, .mapping entries⟩ => some entries
  | _ => none

/-- Give a mapping other entries. -/
def setEntries (nodes : Nodes) (number : Nat) (entries : List (Nat × Nat)) : Nodes :=
  nodes.modify number fun node => { node with content := .mapping entries }

/-- Has the node that tag? -/
def isTagged (nodes : Nodes) (tag : Tag) (number : Nat) : Bool :=
  nodes[number]?.any (·.tag = tag)

/-- A key that is written as the default mark becomes a text. -/
def asText (nodes : Nodes) (number : Nat) : Nodes :=
  nodes.modify number fun node => if node.tag = .default then { node with tag := .text } else node

/-- The place of the first merge key among entries. -/
def mergeAt? (nodes : Nodes) (entries : List (Nat × Nat)) : Option Nat :=
  entries.findIdx? fun entry => nodes.isTagged .merge entry.1

mutual

/-- Let a mapping take over what its merge keys from `index` on name; `taken` is what it took
over before.  A merge key goes away before its value is followed, so the number of merge keys
bounds the steps even where a mapping takes over itself. -/
def takeOver (number index : Nat) (taken : List (Nat × Nat)) :
    Nat → Nodes → Except Refusal Nodes
  | 0, _ => .error .unusable
  | fuel + 1, nodes =>
    match nodes.entriesOf? number with
    | none => .error .malformed
    | some entries =>
      let ahead := entries.drop index
      let passed := match nodes.mergeAt? ahead with
        | some place => ahead.take place
        | none => ahead
      let nodes := passed.foldl (fun nodes entry => nodes.asText entry.1) nodes
      match ahead.drop passed.length with
      | [] =>
        .ok (if taken.isEmpty then nodes else nodes.setEntries number (taken ++ entries))
      | (_, value) :: rest => do
        let index := index + passed.length
        let nodes := nodes.setEntries number (entries.take index ++ rest)
        let (more, nodes) ← takenFrom value fuel nodes
        takeOver number index (taken ++ more) fuel nodes

/-- The entries that a value gives to a mapping that takes it over. -/
def takenFrom (value : Nat) : Nat → Nodes → Except Refusal (List (Nat × Nat) × Nodes)
  | 0, _ => .error .unusable
  | fuel + 1, nodes =>
    match nodes[value]? with
    | some ⟨_, .mapping _⟩ => do
      let nodes ← takeOver value 0 [] fuel nodes
      return ((nodes.entriesOf? value).getD [], nodes)
    | some ⟨_, .sequence items⟩ => do
      let (groups, nodes) ← groupsFrom items fuel nodes
      return (groups.reverse.flatten, nodes)
    | _ => .error .malformed

/-- The entries that each item of a list gives; all of them have to be mappings. -/
def groupsFrom (items : List Nat) : Nat → Nodes → Except Refusal (List (List (Nat × Nat)) × Nodes)
  | 0, _ => .error .unusable
  | fuel + 1, nodes =>
    match items with
    | [] => .ok ([], nodes)
    | item :: rest => do
      let nodes ← takeOver item 0 [] fuel nodes
      let group := (nodes.entriesOf? item).getD []
      let (groups, nodes) ← groupsFrom rest fuel nodes
      return (group :: groups, nodes)

end

/-- The number of merge keys in all mappings. -/
def mergeCount (nodes : Nodes) : Nat :=
  (nodes.toList.map fun node => match node.content with
    | .mapping entries => entries.countP fun entry => nodes.isTagged .merge entry.1
    | _ => 0).foldl (· + ·) 0

/-- The length of the longest list. -/
def longestList (nodes : Nodes) : Nat :=
  (nodes.toList.map fun node => match node.content with
    | .sequence items => items.length
    | _ => 0).foldl max 0

/-- A bound on the steps of taking over: each merge key is met once, and leads to a mapping or to
the items of a list. -/
def takeoverBound (nodes : Nodes) : Nat :=
  (nodes.mergeCount + 1) * (nodes.longestList + 3)

/-- Let a mapping take over what its merge keys name, in a number of steps. -/
def flatten (nodes : Nodes) (bound number : Nat) : Except Refusal Nodes :=
  takeOver number 0 [] bound nodes

end Nodes

end FirewallPolicy.Document
