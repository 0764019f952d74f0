import FirewallPolicy.Text.Half
import Mathlib.Data.List.Pairwise
import Mathlib.Data.List.Sort

/-!
# Texts in ascending order

Texts are ordered by the codes of their characters.  Sorting puts them into ascending order, and texts
with different codes are sorted alike whatever the order is in which they are given.
-/

namespace FirewallPolicy.Text

/-! ## The order of codes -/

/-- A text comes before another one or they have the same codes. -/
theorem codes_eq_of_not_precedes
    {s t : String} (notFirst : precedes s t = false) (notSecond : precedes t s = false) :
    codes s = codes t := by
  simp only [precedes, decide_eq_false_iff_not, List.not_lt] at notFirst notSecond
  exact List.le_antisymm notSecond notFirst

theorem not_precedes_trans
    {s t u : String} (first : (!precedes t s) = true) (second : (!precedes u t) = true) :
    (!precedes u s) = true := by
  simp only [precedes, Bool.not_eq_true', decide_eq_false_iff_not, List.not_lt] at first second ⊢
  exact List.le_trans first second

theorem not_precedes_total (s t : String) : (!precedes t s || !precedes s t) = true := by
  simp only [precedes, Bool.or_eq_true, Bool.not_eq_true', decide_eq_false_iff_not, List.not_lt]
  exact List.le_total ..

theorem precedes_asymm {s t : String} (less : precedes s t = true) : precedes t s = false := by
  simp only [precedes, decide_eq_true_eq, decide_eq_false_iff_not] at less ⊢
  exact List.lt_asymm less

theorem precedes_self (s : String) : precedes s s = false := by
  simpa using not_precedes_total s s

/-! ## Sorted texts -/

theorem pairwise_sorted (texts : List String) :
    (sorted texts).Pairwise fun s t => (!precedes t s) = true := by
  refine List.pairwise_mergeSort ?_ ?_ texts
  · intro s t u first second
    exact not_precedes_trans first second
  · intro s t
    exact not_precedes_total s t

/-- A list with the same texts in strictly ascending order is the sorted one. -/
theorem sorted_eq
    {texts expected : List String}
    (perm : texts.Perm expected)
    (strict : expected.Pairwise fun s t => precedes s t = true) :
    sorted texts = expected := by
  -- Strict order within the list makes any two of its texts comparable one way only.
  have comparable : ∀ s ∈ expected, ∀ t ∈ expected,
      s = t ∨ precedes s t = true ∨ precedes t s = true := by
    intro s sMember t tMember
    have forward : expected.Pairwise fun s t =>
        s = t ∨ precedes s t = true ∨ precedes t s = true :=
      strict.imp fun less => Or.inr (Or.inl less)
    refine forward.forall_of_forall_of_flip ?_ ?_ sMember tMember
    · exact fun _ _ => Or.inl rfl
    · exact strict.imp fun less => Or.inr (Or.inr less)
  have sortedPerm : (sorted texts).Perm expected := (List.mergeSort_perm ..).trans perm
  refine List.Perm.eq_of_pairwise ?_ (pairwise_sorted texts) ?_ sortedPerm
  · intro s t sMember tMember up down
    rcases comparable s (sortedPerm.mem_iff.1 sMember) t tMember with same | less | less
    · exact same
    · simp [less] at down
    · simp [less] at up
  · refine strict.imp fun less => ?_
    rw [precedes_asymm less]
    rfl

/-- Texts with different codes are sorted in strictly ascending order. -/
theorem pairwise_precedes_sorted
    {texts : List String} (different : texts.Pairwise fun s t => codes s ≠ codes t) :
    (sorted texts).Pairwise fun s t => precedes s t = true := by
  have sortedPerm : (sorted texts).Perm texts := List.mergeSort_perm ..
  have sortedDifferent : (sorted texts).Pairwise fun s t => codes s ≠ codes t :=
    sortedPerm.symm.pairwise different fun apart => apart.symm
  refine ((pairwise_sorted texts).and sortedDifferent).imp ?_
  rintro s t ⟨ascends, apart⟩
  simp only [precedes, Bool.not_eq_true', decide_eq_false_iff_not, List.not_lt] at ascends
  rw [precedes, decide_eq_true_eq]
  by_contra descends
  exact apart (List.le_antisymm ascends (List.not_lt.1 descends))

/-- Texts with different codes are sorted alike, whatever their order is. -/
theorem sorted_eq_of_perm
    {texts others : List String} (perm : texts.Perm others)
    (different : texts.Pairwise fun s t => codes s ≠ codes t) :
    sorted others = sorted texts := by
  have sortedPerm : (sorted texts).Perm texts := List.mergeSort_perm ..
  exact sorted_eq (perm.symm.trans sortedPerm.symm) (pairwise_precedes_sorted different)

theorem mem_sorted {texts : List String} {text : String} :
    text ∈ sorted texts ↔ text ∈ texts :=
  List.mem_mergeSort

end FirewallPolicy.Text
