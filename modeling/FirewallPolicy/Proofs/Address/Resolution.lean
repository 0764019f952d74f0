import FirewallPolicy.Proofs.Fragment.Narrowing
import FirewallPolicy.Proofs.Run.Contract
import FirewallPolicy.Proofs.Run.Outcome
import Mathlib.Data.List.Sort

/-!
# What host names stand for

The answer to a host name is in one order, by family and then by number, so answers with the same
addresses give the same list whatever their order and however often they name an address.  A name
is looked up until there is an answer, and the first answer is kept for the whole run.
-/

namespace FirewallPolicy

open Stateful

/-- The number of the address that the text of the entry is. -/
def FamilyAddress.number (entry : FamilyAddress) : Nat :=
  ((Address.ofText? entry.address.toList).map (·.number)).getD 0

namespace HostBook

/-! ## The order of addresses -/

/-- By family and then by number. -/
def Precedes (first second : FamilyAddress) : Prop :=
  first.family < second.family ∨
    first.family = second.family ∧ first.number < second.number

instance : DecidableRel Precedes :=
  fun first second => inferInstanceAs
    (Decidable (first.family < second.family ∨
      first.family = second.family ∧ first.number < second.number))

/-- Every text is an address of its family, and no address is written in two ways. -/
structure IsSound (entries : List FamilyAddress) : Prop where
  isAddress : ∀ entry ∈ entries, ∃ address,
    Address.ofText? entry.address.toList = some address ∧ address.version.family = entry.family
  apart : ∀ entry ∈ entries, ∀ other ∈ entries,
    entry.family = other.family → entry.number = other.number → entry = other

/-- The list has the addresses of the entries, each once, in ascending order. -/
structure Lists (list entries : List FamilyAddress) : Prop where
  mem_iff : ∀ entry, entry ∈ list ↔ entry ∈ entries
  ascending : list.Pairwise Precedes

theorem Precedes.asymm {first second : FamilyAddress}
    (isBefore : Precedes first second) : ¬Precedes second first := by
  rintro (isLess | ⟨same, isLess⟩)
  · rcases isBefore with isMore | ⟨same, -⟩
    · exact String.lt_asymm isLess isMore
    · exact String.lt_irrefl _ (same ▸ isLess)
  · rcases isBefore with isMore | ⟨-, isMore⟩
    · exact String.lt_irrefl _ (same ▸ isMore)
    · exact Nat.lt_asymm isLess isMore

instance : Std.Irrefl Precedes where
  irrefl _ isBefore := isBefore.asymm isBefore

instance : Std.Antisymm Precedes where
  antisymm _ _ isBefore isAfter := absurd isAfter isBefore.asymm

variable {list other entries others : List FamilyAddress}

/-- There is only one list of the same addresses. -/
theorem Lists.unique (lists : Lists list entries) (listsToo : Lists other others)
    (same : ∀ entry, entry ∈ entries ↔ entry ∈ others) : list = other :=
  lists.ascending.eq_of_mem_iff listsToo.ascending fun entry => by
    rw [lists.mem_iff, listsToo.mem_iff, same]

theorem IsSound.of_mem_iff
    (sound : IsSound entries) (same : ∀ entry, entry ∈ others ↔ entry ∈ entries) :
    IsSound others where
  isAddress entry member := sound.isAddress entry ((same entry).1 member)
  apart entry member another memberToo :=
    sound.apart entry ((same entry).1 member) another ((same another).1 memberToo)

/-! ## Sorting -/

namespace SortKey

variable {a b c : SortKey}

theorem le_iff :
    a.le b = true ↔
      a.family < b.family ∨ a.family = b.family ∧ a.address.number ≤ b.address.number := by
  simp [SortKey.le]

theorem le_trans (first : a.le b = true) (second : b.le c = true) : a.le c = true := by
  rw [le_iff] at first second ⊢
  rcases first with isLess | ⟨same, isLess⟩
  · rcases second with isLessToo | ⟨same, -⟩
    · exact .inl (String.lt_trans isLess isLessToo)
    · exact .inl (same ▸ isLess)
  · rw [same]
    exact second.imp_right fun rest => ⟨rest.1, isLess.trans rest.2⟩

theorem le_total : (a.le b || b.le a) = true := by
  rw [Bool.or_eq_true, le_iff, le_iff]
  by_cases isLess : a.family < b.family
  · exact .inl (.inl isLess)
  · by_cases isMore : b.family < a.family
    · exact .inr (.inl isMore)
    · have same : a.family = b.family :=
        String.le_antisymm (String.not_lt.1 isMore) (String.not_lt.1 isLess)
      exact (Nat.le_total a.address.number b.address.number).imp
        (fun isBelow => .inr ⟨same, isBelow⟩) (fun isBelow => .inr ⟨same.symm, isBelow⟩)

end SortKey

/-- The pair is an entry with its key. -/
structure IsKeyed (pair : SortKey × FamilyAddress) : Prop where
  isAddress : Address.ofText? pair.2.address.toList = some pair.1.address
  family : pair.1.family = pair.2.family

theorem IsKeyed.number {pair : SortKey × FamilyAddress} (keyed : IsKeyed pair) :
    pair.1.address.number = pair.2.number := by
  simp [FamilyAddress.number, keyed.isAddress]

/-- The answer to a name that was asked for and has one. -/
def recalled (book : HostBook) (name : String) : Option (List FamilyAddress) :=
  if name ∈ book.asked then book.directory name else Option.none

/-- The book when a lookup of the name would have the answer; one that is recalled stays. -/
def renewed (book : HostBook) (name : String) (found : Option (List FamilyAddress)) : HostBook :=
  { book with directory := Function.update book.directory name ((book.recalled name).or found) }

variable {book : HostBook} {name text : String} {found : Option (List FamilyAddress)}

@[simp]
theorem directory_renewed :
    (book.renewed name found).directory =
      Function.update book.directory name ((book.recalled name).or found) :=
  rfl

@[simp]
theorem asked_renewed : (book.renewed name found).asked = book.asked :=
  rfl

@[simp]
theorem directory_noting : (book.noting text).directory = book.directory := by
  unfold noting
  split <;> rfl

/-- Where lookups have the answers of the book itself, the book stays as it is. -/
@[simp]
theorem renewed_directory : book.renewed name (book.directory name) = book := by
  have same : (book.recalled name).or (book.directory name) = book.directory name := by
    unfold recalled
    split <;> simp
  rw [renewed, same, Function.update_eq_self]

theorem mem_asked_noting (named : isName text = true) : text ∈ (book.noting text).asked := by
  unfold noting
  split
  · exact List.mem_cons_self ..
  · next known => simp_all

theorem count_asked_noting (different : text ≠ name) :
    (book.noting text).asked.count name = book.asked.count name := by
  unfold noting
  split
  · exact List.count_cons_of_ne different
  · rfl

theorem mem_asked_noting_iff (different : text ≠ name) :
    name ∈ (book.noting text).asked ↔ name ∈ book.asked := by
  rw [← List.count_pos_iff, ← List.count_pos_iff, count_asked_noting different]

/-- A name is recalled from its first answer on. -/
theorem recalled_noting (named : isName name = true) :
    ((book.renewed text found).noting text).recalled name =
      (book.recalled name).or (if text = name then found else Option.none) := by
  by_cases same : text = name
  · subst same
    rw [recalled, if_pos (mem_asked_noting named), directory_noting, directory_renewed,
      Function.update_self, if_pos rfl]
  · rw [if_neg same, Option.or_none]
    simp only [recalled, directory_noting, directory_renewed, mem_asked_noting_iff same,
      asked_renewed, Function.update_of_ne (Ne.symm same)]

/-- The name was not looked up twice, and has an answer when it was looked up. -/
def IsKept (book : HostBook) (name : String) : Prop :=
  book.asked.count name ≤ 1 ∧ (name ∈ book.asked → (book.recalled name).isSome)

/-- A name that has an answer whenever it is asked for is looked up once. -/
theorem IsKept.noting (kept : book.IsKept name) (named : isName name = true)
    (answered : text = name → found.isSome) :
    ((book.renewed text found).noting text).IsKept name := by
  obtain ⟨once, isAnswered⟩ := kept
  rw [IsKept, recalled_noting named]
  by_cases same : text = name
  · subst same
    refine ⟨?_, fun _ => by simp [answered rfl]⟩
    by_cases isAsked : text ∈ book.asked
    · have known : ((book.renewed text found).directory text).isSome = true := by
        simp [answered rfl]
      rw [HostBook.noting, asked_renewed, List.contains_iff_mem.2 isAsked, known]
      simpa using once
    · have unasked : book.asked.count text = 0 := List.count_eq_zero.2 isAsked
      simp [HostBook.noting, named, isAsked, unasked]
  · rw [count_asked_noting same, mem_asked_noting_iff same, if_neg same, Option.or_none]
    exact ⟨once, isAnswered⟩

/-! ## Replies -/

/-- What a name stands for when it has the answer. -/
def reply (name : String) : Option (List FamilyAddress) → Answer
  | .none => .refused (.invalidHost name)
  | some entries =>
    match ordered? entries with
    | .none => .unordered
    | some [] => .refused (.invalidHost name)
    | some list => .addresses list

end HostBook

/-! ## Calls -/

/-- A text that is asked for at a location, with the answer that a lookup has at that moment. -/
structure HostQuery where
  location : String
  text : String
  found : Option (List FamilyAddress)

namespace HostQuery

open HostBook hiding none

/-- What the call ends with. -/
def run (query : HostQuery) (before : Context) :
    Except Failure (List FamilyAddress) × Context :=
  Run.resolveHost query.location query.text
    { before with hosts := before.hosts.renewed query.text query.found }

/-- The context after calls of a run, whatever each of them ends with. -/
def runAll (queries : List HostQuery) (before : Context) : Context :=
  queries.foldl (fun context query => (query.run context).2) before

variable {query : HostQuery} {queries : List HostQuery} {name : String} {before : Context}

/-- A call in a run with one directory is a call of the program. -/
theorem run_of_directory (same : before.hosts.directory query.text = query.found) :
    query.run before = Run.resolveHost query.location query.text before := by
  rw [run, ← same, renewed_directory]

end HostQuery

end FirewallPolicy
