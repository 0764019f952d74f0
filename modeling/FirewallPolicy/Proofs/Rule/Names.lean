import FirewallPolicy.Proofs.Context.Rules
import FirewallPolicy.Proofs.Rule.Matches
import Mathlib.Data.List.Basic
import Mathlib.Data.List.TakeWhile

/-!
# Names of auxiliary chains

A chain of a rule's own is named by a key and a number, a shared chain by an action and the name of
a log class.  Neither the keys nor the actions hold a hyphen, and no log class is named by digits,
so the two kinds of names never meet, and the names of own chains tell their keys and numbers.
-/

namespace FirewallPolicy

open Context

/-! ## Kinds of names -/

/-- The actions whose logging takes a chain, with their targets. -/
def actionTargets : List (String × String) :=
  [("accept", "ACCEPT"), ("drop", "DROP"), ("reject", "REJECT"), ("tarpit", "tarpit")]

/-- The kinds of chains that rules have of their own. -/
def IsChainKey (key : String) : Prop :=
  key = "limit" ∨ ∃ entry ∈ actionTargets, key = "log" ++ entry.1

/-- The name with that number for a kind of chains. -/
def numberedName (key : String) (number : Nat) : String :=
  key ++ "-" ++ toString number

/-- The names of shared chains. -/
def IsSharedName (chain : String) : Prop :=
  ∃ entry ∈ actionTargets, ∃ name,
    (name.isTruthy = true → IsClassName name) ∧
      chain = Rule.sharedName ("log" ++ entry.1) name

/-- The chains that rules stand in by themselves. -/
def hookNames : List String :=
  ["INPUT", "OUTPUT", "FORWARD", "PREROUTING", "POSTROUTING"]

theorem hookChains_subset (kind : RuleKind) : kind.hookChains ⊆ hookNames := by
  cases kind <;> decide

section Filters

variable {kind : RuleKind} (isFilter : kind.isFilter = true)
include isFilter

theorem logs_of_isFilter : kind.logs = true := by
  revert isFilter
  cases kind <;> decide

end Filters

/-! ## Hyphens and digits -/

private theorem hyphen_notMem_key
    {key : String} (isKey : IsChainKey key) :
    '-' ∉ key.toList := by
  rcases isKey with rfl | ⟨entry, member, rfl⟩
  · decide
  · revert entry
    decide

private theorem isDigit_of_mem_toString
    {number : Nat} {c : Char} (member : c ∈ (toString number).toList) :
    c.isDigit = true := by
  rw [Nat.toString_eq_repr, Nat.toList_repr] at member
  exact Nat.isDigit_of_mem_toDigits (by decide) (by decide) member

private theorem hyphen_notMem_toString (number : Nat) :
    '-' ∉ (toString number).toList := fun member =>
  absurd (isDigit_of_mem_toString member) (by decide)

/-- The text of a number is made of digits. -/
theorem isDigits_toString (number : Nat) :
    Text.isDigits (toString number) = true := by
  have nonempty : (toString number).toList ≠ [] := by
    rw [Nat.toString_eq_repr, Nat.toList_repr]
    exact Nat.toDigits_ne_nil
  simp only [Text.isDigits, Bool.and_eq_true, Bool.not_eq_true', List.isEmpty_eq_false_iff,
    List.all_eq_true]
  refine ⟨nonempty, fun c member => ?_⟩
  have isDigit := isDigit_of_mem_toString member
  simp only [Char.isDigit, Bool.and_eq_true, decide_eq_true_eq] at isDigit
  have lower : 0x30 ≤ c.toNat := isDigit.1
  have upper : c.toNat < 0x30 + 10 := Nat.lt_succ_of_le isDigit.2
  simp [Text.isDigit, Text.decimalValue?, Text.decimalZeros, lower, upper]

/-! ## Different names -/

/-- The key of a numbered name is what stands before its hyphen. -/
theorem numberedName_eq_hyphenated
    {key first second : String} {number : Nat}
    (isKey : IsChainKey key)
    (same : numberedName key number = first ++ "-" ++ second) :
    key = first ∧ toString number = second := by
  have lists := congrArg String.toList same
  simp only [numberedName, String.toList_append, show "-".toList = ['-'] from rfl,
    List.append_assoc, List.singleton_append] at lists
  rw [List.append_cons_inj_of_notMem (hyphen_notMem_key isKey)
    (hyphen_notMem_toString number)] at lists
  exact ⟨String.toList_injective lists.1, String.toList_injective lists.2.2⟩

/-- Read from its end, a numbered name shows the digits of its number before anything of its key. -/
private theorem takeWhile_reverse_numberedName (key : String) (number : Nat) :
    (numberedName key number).toList.reverse.takeWhile (· ≠ '-') =
      (toString number).toList.reverse := by
  have inside : ∀ c ∈ (toString number).toList.reverse, decide (c ≠ '-') = true := by
    intro c member
    refine decide_eq_true fun isHyphen => ?_
    exact hyphen_notMem_toString number (isHyphen ▸ List.mem_reverse.1 member)
  rw [numberedName, String.toList_append, String.toList_append, List.reverse_append,
    List.takeWhile_append_of_pos inside]
  simp

/-- A numbered name tells its key and its number. -/
theorem numberedName_inj
    {key other : String} {number count : Nat}
    (same : numberedName key number = numberedName other count) :
    key = other ∧ number = count := by
  have sameText : (toString number).toList = (toString count).toList := by
    rw [← List.reverse_inj, ← takeWhile_reverse_numberedName key, same,
      takeWhile_reverse_numberedName]
  have sameDigits := congrArg (fun digits => Nat.ofDigitChars 10 digits 0) sameText
  obtain rfl : number = count := by
    simpa [Nat.toString_eq_repr, Nat.toList_repr] using sameDigits
  unfold numberedName at same
  exact ⟨(String.append_left_inj _).1 ((String.append_left_inj _).1 same), rfl⟩

/-- No chain of a rule's own has the name of a shared chain. -/
theorem not_isSharedName_numberedName
    {key : String} (isKey : IsChainKey key) (number : Nat) :
    ¬ IsSharedName (numberedName key number) := by
  rintro ⟨entry, member, name, isClass, same⟩
  unfold Rule.sharedName at same
  split at same
  · next truthy =>
      obtain ⟨-, sameText⟩ := numberedName_eq_hyphenated isKey same
      have digits : Text.isDigits name.written = false := isClass truthy
      rw [← sameText, isDigits_toString] at digits
      simp at digits
  · have hyphen : '-' ∈ (numberedName key number).toList := by simp [numberedName]
    rw [same] at hyphen
    exact hyphen_notMem_key (Or.inr ⟨entry, member, rfl⟩) hyphen

theorem IsSharedName.isLogName
    {chain : String} (shared : IsSharedName chain) :
    IsLogName chain := by
  obtain ⟨entry, _, name, _, rfl⟩ := shared
  exact Rule.isLogName_sharedName entry.1 name

/-! ## Names of shared chains -/

namespace Rule

private theorem key_inj :
    ∀ first ∈ actionTargets, ∀ second ∈ actionTargets,
      ("log" ++ first.1).toList = ("log" ++ second.1).toList → first = second := by
  decide

/-- The key of a shared name is what stands before its first hyphen. -/
theorem takeWhile_sharedName
    {key : String} (noHyphen : '-' ∉ key.toList) (name : Scalar) :
    (sharedName key name).toList.takeWhile (· ≠ '-') = key.toList := by
  have inside : ∀ c ∈ key.toList, decide (c ≠ '-') = true := by
    intro c member
    exact decide_eq_true fun isHyphen => noHyphen (isHyphen ▸ member)
  unfold sharedName
  split
  · rw [String.toList_append, String.toList_append, List.append_assoc,
      List.takeWhile_append_of_pos inside]
    simp
  · exact List.takeWhile_eq_self_iff.2 inside

/-- A shared name tells the action, its target and the name of the log class. -/
theorem sharedName_inj
    {first second : String × String} (isFirst : first ∈ actionTargets)
    (isSecond : second ∈ actionTargets) {name other : String}
    (same : sharedName ("log" ++ first.1) (.text name) =
      sharedName ("log" ++ second.1) (.text other)) :
    first = second ∧ name = other := by
  have sameKey : ("log" ++ first.1).toList = ("log" ++ second.1).toList := by
    have isKey {entry : String × String} (isEntry : entry ∈ actionTargets) :
        '-' ∉ ("log" ++ entry.1).toList :=
      hyphen_notMem_key (Or.inr ⟨entry, isEntry, rfl⟩)
    rw [← takeWhile_sharedName (isKey isFirst) (.text name), same,
      takeWhile_sharedName (isKey isSecond)]
  obtain rfl := key_inj first isFirst second isSecond sameKey
  refine ⟨rfl, ?_⟩
  have isTruthy (text : String) : (Scalar.text text).isTruthy = true ↔ text ≠ "" := by
    simp [Scalar.isTruthy]
  have longer (text : String) :
      ("log" ++ first.1) ++ "-" ++ text ≠ "log" ++ first.1 := by
    intro same
    have lengths := congrArg String.length same
    simp only [String.length_append, show "-".length = 1 from rfl] at lengths
    omega
  unfold sharedName at same
  simp only [isTruthy] at same
  split at same <;> split at same
  · exact (String.append_right_inj _).1 same
  · exact absurd same (longer name)
  · exact absurd same.symm (longer other)
  · next isEmpty otherEmpty => rw [not_not.1 isEmpty, not_not.1 otherEmpty]

end Rule

/-! ## Ordinary names -/

/-- The name is none of a chain that rules have of their own or share: all of those start with the
same letter. -/
def IsOrdinary (name : String) : Prop :=
  name.toList.head? ≠ some 'l'

instance (name : String) : Decidable (IsOrdinary name) :=
  inferInstanceAs (Decidable (_ ≠ _))

theorem IsOrdinary.not_isLogName
    {name : String} (ordinary : IsOrdinary name) :
    ¬ IsLogName name := by
  rintro ⟨tail, rfl⟩
  simp [IsOrdinary] at ordinary

theorem IsOrdinary.ne_of_isLogName
    {name chain : String} (ordinary : IsOrdinary name) (isLog : IsLogName chain) :
    chain ≠ name :=
  fun same => ordinary.not_isLogName (same ▸ isLog)

theorem not_isOrdinary_numberedName
    {key : String} (isKey : IsChainKey key) (number : Nat) :
    ¬ IsOrdinary (numberedName key number) := by
  rcases isKey with rfl | ⟨entry, _, rfl⟩ <;> simp [IsOrdinary, numberedName]

theorem isOrdinary_of_hook {name : String} (isHook : name ∈ hookNames) :
    IsOrdinary name := by
  revert name
  decide

end FirewallPolicy
