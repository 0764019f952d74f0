import FirewallPolicy.Text.Half
import FirewallPolicy.Value.Basic

/-!
## Order of scalars

Scalars of one kind have an order: numbers, texts, bytes, dates and times.  Scalars of different
kinds have none.  An undefined number comes neither before nor after any other; where one takes
part, the result of sorting depends on the steps of sorting, which are those of insertion.
-/

namespace FirewallPolicy.Scalar

/-! ### Comparison -/

/-- The kinds of scalars that have an order among themselves. -/
inductive OrderKind where
  | number
  | text
  | bytes
  | moment (kind : Moment.Kind)
deriving DecidableEq, Repr

/-- The kind in whose order a scalar takes part. -/
def orderKind? : Scalar → Option OrderKind
  | .null => none
  | .bool _ => some .number
  | .int _ => some .number
  | .float _ => some .number
  | .text _ => some .text
  | .moment m => some (.moment m.kind)
  | .bytes _ => some .bytes

/-- Is the scalar an undefined number? -/
def isUndefined : Scalar → Bool
  | .float x => x.isUndefined
  | _ => false

/-- The place of a number: below all finite numbers, at its value, or above them. -/
def place? : Scalar → Option (Int × Rat)
  | .float (.infinite negative) => some (if negative then -1 else 1, 0)
  | s => s.toRat?.map fun value => (0, value)

/-- Does the first number come before the second? -/
def isLess (s t : Scalar) : Bool :=
  match s.place?, t.place? with
  | some (a, x), some (b, y) => a < b || (a = b && x < y)
  | _, _ => false

/-- Does the first scalar come before the second, which is of the same kind? -/
def precedes : Scalar → Scalar → Bool
  | .text s, .text t => Text.precedes s t
  | .bytes s, .bytes t => decide (s < t)
  | .moment s, .moment t => s.instant < t.instant
  | s, t => isLess s t

/-- Can the scalars be brought into an order? -/
def haveOrder : List Scalar → Bool
  | [] => true
  | [_] => true
  | first :: rest => first.orderKind?.isSome && rest.all (·.orderKind? == first.orderKind?)

/-! ### Insertion -/

section Insertion

variable {α : Type} (before : α → α → Bool)

/-- The place for a thing among things in ascending order, between `low` and `high`: behind those
that it does not come before. -/
def placeFor (sorted : Array α) (a : α) (low high : Nat) : Nat :=
  if low < high then
    let middle := (low + high) / 2
    if sorted[middle]?.any (before a) then placeFor sorted a low middle
    else placeFor sorted a (middle + 1) high
  else low
termination_by high - low

/-- Put a thing in its place. -/
def insertInto (sorted : Array α) (a : α) : Array α :=
  let place := placeFor before sorted a 0 sorted.size
  (sorted.toList.take place ++ a :: sorted.toList.drop place).toArray

/-- The things at the start of a list that form a chain behind `a`, and the rest. -/
def chain (follows : α → α → Bool) (a : α) : List α → List α × List α
  | [] => ([], [])
  | b :: rest =>
    if follows a b then
      let (run, others) := chain follows b rest
      (b :: run, others)
    else ([], b :: rest)

/-- Sort by insertion: the run at the start of the list is taken as it is, or turned round if it
descends, and the other things are put in one by one. -/
def insertionSort : List α → List α
  | [] => []
  | [a] => [a]
  | a :: b :: rest =>
    let descends := before b a
    let (run, others) := chain (fun x y => before y x == descends) a (b :: rest)
    let start := if descends then (a :: run).reverse else a :: run
    (others.foldl (insertInto before) start.toArray).toList

end Insertion

/-! ### Sorting -/

/-- Things in ascending order of their keys, if the keys have an order. -/
def sortByKey? {α : Type} (entries : List (Scalar × α)) : Option (List (Scalar × α)) :=
  let keys := entries.map (·.1)
  if !haveOrder keys then none
  else if keys.any isUndefined then
    some (insertionSort (fun a b => precedes a.1 b.1) entries)
  else some (entries.mergeSort fun a b => !precedes b.1 a.1)

end FirewallPolicy.Scalar
