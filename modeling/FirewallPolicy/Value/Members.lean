import FirewallPolicy.Value.Basic

/-!
## Members of sets

The members of a set are kept in a table of slots and listed in the order of their slots.  A
number goes to the slot of its remainder by the size of the table or, where that one is taken, to
the next free one on its way through the table.
-/

namespace FirewallPolicy.Scalar.Members

/-- Hashes are remainders by this prime. -/
def hashModulus : Nat := Nat.pow 2 61 - 1

/-- Hashes are stored in words of that many values. -/
def wordSize : Nat := Nat.pow 2 64

/-- A hash of a size and a sign, as a word; no number has the hash -1. -/
def signedHash (negative : Bool) (size : Nat) : Nat :=
  if !negative then size
  else if size = 1 then wordSize - 2
  else (wordSize - size) % wordSize

/-- The size of the hashes of the infinite numbers. -/
def infiniteHash : Nat := 314159

/-- The hash of a number: its size by the modulus, where 2 has the inverse `2 ^ 60` because
`2 ^ 61` is 1.  Equal numbers of different kinds have one hash. -/
def hash? : Scalar → Option Nat
  | .bool b => some (if b then 1 else 0)
  | .int i => some (signedHash (i < 0) (i.natAbs % hashModulus))
  | .float (.finite negative significand exponent) =>
    some (signedHash negative
      (significand * Nat.pow 2 (exponent.emod 61).toNat % hashModulus))
  | .float (.infinite negative) => some (signedHash negative infiniteHash)
  | _ => none

/-- A power of two above `bound`, searched upwards. -/
def powerAbove (bound : Nat) : Nat → Nat → Nat
  | 0, size => size
  | fuel + 1, size => if bound < size then size else powerAbove bound fuel (2 * size)

/-- The size of the table for a number of members. -/
def tableSize (count : Nat) : Nat :=
  if count < 5 then 8 else powerAbove (2 * count) count 8

/-- How many slots behind a taken one are tried first. -/
def nearSlots : Nat := 9

/-- The free slot for a hash, from `slot` on; `rest` is what is left of the hash. -/
def freeSlot (size : Nat) (taken : List Nat) : Nat → Nat → Nat → Nat
  | 0, slot, _ => slot
  | fuel + 1, slot, rest =>
    let near := if slot + nearSlots < size then nearSlots + 1 else 1
    match ((List.range near).map (slot + ·)).find? fun candidate => !taken.contains candidate with
    | some free => free
    | none =>
      let rest := rest / 32
      freeSlot size taken fuel ((slot * 5 + 1 + rest) % size) rest

/-- The members with their slots, put into the table one after the other. -/
def placed (size : Nat) (members : List (Nat × Scalar)) : List (Nat × Scalar) :=
  members.foldl (fun table (hash, member) =>
    let slot := freeSlot size (table.map (·.1)) (size + 16) (hash % size) hash
    table ++ [(slot, member)]) []

/-- The members in the order in which they are listed.  Those of sets that do not only hold
numbers keep the order in which they were put in. -/
def listed (members : List Scalar) : List Scalar :=
  match members.mapM fun member => (hash? member).map fun hash => (hash, member) with
  | some numbers =>
    ((placed (tableSize members.length) numbers).mergeSort fun a b => a.1 ≤ b.1).map (·.2)
  | none => members

end FirewallPolicy.Scalar.Members
