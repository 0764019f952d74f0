import FirewallPolicy.Proofs.Text.Order
import FirewallPolicy.Proofs.Value.Reordering
import FirewallPolicy.Value.Ordering
import Mathlib.Data.List.Sort

/-!
# Sorting by keys

Whether entries can be sorted by their keys does not depend on the order in which they are given, and
sorting keeps all entries.  Where the keys are different texts, the result is the same for any order.
-/

namespace FirewallPolicy

namespace Scalar

/-! ## Orders of keys -/

/-- Keys have an order when there is at most one of them or all are of one kind. -/
theorem haveOrder_iff {keys : List Scalar} :
    haveOrder keys = true ↔
      keys.length ≤ 1 ∨ ∃ kind, ∀ key ∈ keys, key.orderKind? = some kind := by
  rcases keys with _ | ⟨first, _ | ⟨second, rest⟩⟩
  · simp [haveOrder]
  · simp [haveOrder]
  · have tooLong : ¬(first :: second :: rest).length ≤ 1 := by simp
    rw [or_iff_right tooLong]
    simp only [haveOrder, Bool.and_eq_true, Option.isSome_iff_exists, List.all_eq_true, beq_iff_eq]
    constructor
    · rintro ⟨⟨kind, isKind⟩, same⟩
      refine ⟨kind, fun key member => ?_⟩
      rcases List.mem_cons.1 member with rfl | member
      · exact isKind
      · exact (same key member).trans isKind
    · rintro ⟨kind, all⟩
      have isKind := all first (List.mem_cons_self ..)
      exact ⟨⟨kind, isKind⟩, fun key member =>
        (all key (List.mem_cons_of_mem _ member)).trans isKind.symm⟩

theorem haveOrder_of_perm
    {keys others : List Scalar} (perm : keys.Perm others) (ordered : haveOrder keys = true) :
    haveOrder others = true := by
  rw [haveOrder_iff] at ordered ⊢
  refine ordered.imp (fun short => perm.length_eq ▸ short) ?_
  rintro ⟨kind, all⟩
  exact ⟨kind, fun key member => all key (perm.mem_iff.2 member)⟩

/-! ## Sorting keeps all things -/

section Insertion

variable {α : Type} {before : α → α → Bool}

theorem insertInto_perm (sorted : Array α) (a : α) :
    (insertInto before sorted a).toList.Perm (a :: sorted.toList) := by
  simp only [insertInto]
  refine List.perm_middle.trans ?_
  rw [List.take_append_drop]

theorem chain_append (follows : α → α → Bool) (a : α) (things : List α) :
    (chain follows a things).1 ++ (chain follows a things).2 = things := by
  induction things generalizing a with
  | nil => rfl
  | cons b rest inductionHypothesis =>
      unfold chain
      split
      · simp [inductionHypothesis]
      · rfl

theorem foldl_insertInto_perm (things : List α) (sorted : Array α) :
    (things.foldl (insertInto before) sorted).toList.Perm (sorted.toList ++ things) := by
  induction things generalizing sorted with
  | nil => simp
  | cons a rest inductionHypothesis =>
      rw [List.foldl_cons]
      refine (inductionHypothesis _).trans ?_
      refine ((insertInto_perm sorted a).append_right rest).trans ?_
      exact List.perm_middle.symm

theorem insertionSort_perm (things : List α) : (insertionSort before things).Perm things := by
  rcases things with _ | ⟨a, _ | ⟨b, rest⟩⟩
  · exact List.Perm.refl _
  · exact List.Perm.refl _
  · have whole := chain_append (fun x y => before y x == before b a) a (b :: rest)
    simp only [insertionSort]
    generalize chain (fun x y => before y x == before b a) a (b :: rest) = parts at whole ⊢
    obtain ⟨run, others⟩ := parts
    refine (foldl_insertInto_perm _ _).trans ?_
    rw [← whole, ← List.cons_append]
    refine List.Perm.append_right others ?_
    split
    · exact List.reverse_perm _
    · exact List.Perm.refl _

end Insertion

variable {α : Type} {entries others sorted : List (Scalar × α)}

theorem sortByKey?_perm (sorts : sortByKey? entries = some sorted) : sorted.Perm entries := by
  simp only [sortByKey?] at sorts
  split at sorts
  · simp at sorts
  · split at sorts
    · obtain rfl := Option.some.inj sorts
      exact insertionSort_perm entries
    · obtain rfl := Option.some.inj sorts
      exact List.mergeSort_perm ..

/-- Whether entries can be sorted does not depend on their order. -/
theorem exists_sortByKey?_of_perm
    (perm : entries.Perm others) (sorts : sortByKey? entries = some sorted) :
    ∃ otherSorted, sortByKey? others = some otherSorted := by
  have ordered : haveOrder (entries.map (·.1)) = true := by
    simp only [sortByKey?] at sorts
    split at sorts
    · simp at sorts
    · next ordered => simpa using ordered
  simp only [sortByKey?]
  rw [haveOrder_of_perm (perm.map _) ordered, Bool.not_true, if_neg Bool.false_ne_true]
  split <;> exact ⟨_, rfl⟩

/-! ## Texts -/

/-- Entries whose keys are texts are sorted by these. -/
theorem sortByKey?_eq_mergeSort (texts : ∀ entry ∈ entries, ∃ name, entry.1 = .text name) :
    sortByKey? entries =
      some (entries.mergeSort fun a b => !Text.precedes b.1.written a.1.written) := by
  have defined : (entries.map (·.1)).any isUndefined = false := by
    rw [List.any_eq_false]
    intro key member
    obtain ⟨entry, isEntry, rfl⟩ := List.mem_map.1 member
    obtain ⟨name, isText⟩ := texts entry isEntry
    simp [isText, isUndefined]
  have ordered : haveOrder (entries.map (·.1)) = true := by
    refine haveOrder_iff.2 (.inr ⟨.text, fun key member => ?_⟩)
    obtain ⟨entry, isEntry, rfl⟩ := List.mem_map.1 member
    obtain ⟨name, isText⟩ := texts entry isEntry
    rw [isText]
    rfl
  have sameOrder : entries.mergeSort (fun a b => !precedes b.1 a.1) =
      entries.mergeSort fun a b => !Text.precedes b.1.written a.1.written := by
    have mapped := @List.map_mergeSort _ _ (fun a b => !precedes b.1 a.1)
      (fun a b => !Text.precedes b.1.written a.1.written) id entries fun a isA b isB => by
        obtain ⟨_, isTextA⟩ := texts a isA
        obtain ⟨_, isTextB⟩ := texts b isB
        simp only [isTextA, isTextB, precedes, written, id_eq]
    simpa using mapped
  simp only [sortByKey?]
  rw [ordered, defined, sameOrder]
  rfl

/-- Texts that name different entries are ordered one way only. -/
theorem Differs.not_both
    {first second : Scalar} (differs : first.Differs second) {s t : String}
    (isFirst : first = .text s) (isSecond : second = .text t)
    (up : Text.precedes second.written first.written = false)
    (down : Text.precedes first.written second.written = false) : False := by
  have apart : first.written ≠ second.written := by
    subst isFirst isSecond
    rintro rfl
    exact Bool.false_ne_true (differs.keys.symm.trans (sameKey_self _))
  exact differs.codes apart (Text.codes_eq_of_not_precedes down up)

/-- Entries whose keys are different texts are sorted alike, whatever their order is. -/
theorem sortByKey?_of_texts
    (distinct : Entries.AreDistinct entries) (perm : entries.Perm others)
    (texts : ∀ entry ∈ entries, ∃ name, entry.1 = .text name) :
    sortByKey? others = sortByKey? entries := by
  have otherTexts : ∀ entry ∈ others, ∃ name, entry.1 = .text name := fun entry member =>
    texts entry (perm.mem_iff.2 member)
  have increasing (list : List (Scalar × α)) :
      (list.mergeSort fun a b => !Text.precedes b.1.written a.1.written).Pairwise
        fun a b => (!Text.precedes b.1.written a.1.written) = true := by
    refine List.pairwise_mergeSort ?_ ?_ list
    · intro a b c first second
      exact Text.not_precedes_trans first second
    · intro a b
      exact Text.not_precedes_total ..
  rw [sortByKey?_eq_mergeSort texts, sortByKey?_eq_mergeSort otherTexts]
  refine congrArg some (List.Perm.eq_of_pairwise ?_ (increasing others) (increasing entries) ?_)
  · intro a b isA isB up down
    rw [Bool.not_eq_true'] at up down
    rw [List.mem_mergeSort] at isA isB
    by_contra different
    obtain ⟨s, isS⟩ := otherTexts a isA
    obtain ⟨t, isT⟩ := texts b isB
    exact (distinct.differs (perm.mem_iff.2 isA) isB different).not_both isS isT up down
  · exact (List.mergeSort_perm ..).trans (perm.symm.trans (List.mergeSort_perm ..).symm)

end Scalar

end FirewallPolicy
