import FirewallPolicy.AddressSet
import FirewallPolicy.Proofs.Run.Simulation
import FirewallPolicy.Proofs.Value.Sorting

/-!
# Address sets in another order

The commands that create the address sets of a policy do not depend on the order in which the sets
are defined: sets whose names are texts are sorted, and no command is printed for other names.
-/

namespace FirewallPolicy.AddressSet

/-- Two results of reading address sets that print the same. -/
def PrintsAlike (sets others : List AddressSet) : Prop :=
  print others = print sets

theorem name_of_read
    {name : Scalar} {definition : Value} {set : AddressSet}
    (run : read name definition = .ok set) : set.name = name := by
  unfold read at run
  split at run
  · obtain ⟨type, _, run⟩ := except_bind_eq_ok.1 run
    obtain ⟨family, _, run⟩ := except_bind_eq_ok.1 run
    split at run
    · cases run
    · obtain ⟨options, _, run⟩ := except_bind_eq_ok.1 run
      obtain rfl := except_pure_eq_ok.1 run
      rfl
  · cases run

/-- Nothing is printed when the name of some set is no text. -/
theorem print_of_nameless
    {sets : List AddressSet} {set : AddressSet} (member : set ∈ sets)
    (nameless : ∀ name, set.name ≠ .text name) :
    print sets = .error .unusable := by
  have stops : sets.mapM createCommand = .error .unusable := by
    induction sets with
    | nil => exact absurd member List.not_mem_nil
    | cons first rest inductionHypothesis =>
        rw [List.mapM_cons]
        cases isFirst : createCommand first with
        | error failure =>
            unfold createCommand at isFirst
            split at isFirst
            · cases isFirst
            · cases isFirst
              rfl
        | ok command =>
            have isRest : set ∈ rest := by
              refine (List.mem_cons.1 member).resolve_left ?_
              rintro rfl
              unfold createCommand at isFirst
              split at isFirst
              · next name isText => exact nameless name isText
              · cases isFirst
            rw [inductionHypothesis isRest]
            rfl
  unfold print
  rw [stops]
  rfl

/-- Definitions under different keys print the same in any order. -/
theorem follows_readAll
    {definitions others : Entries} (distinct : Entries.AreDistinct definitions)
    (perm : definitions.Perm others) :
    Follows PrintsAlike (readAll definitions) (readAll others) := by
  intro sets run
  by_cases texts : ∀ entry ∈ definitions, ∃ name, entry.1 = .text name
  · refine ⟨sets, ?_, rfl⟩
    rw [← run]
    simp only [readAll, Scalar.sortByKey?_of_texts distinct perm texts]
  · push Not at texts
    obtain ⟨entry, isDefinition, nameless⟩ := texts
    unfold readAll at run ⊢
    cases sorts : Scalar.sortByKey? definitions with
    | none => simp [sorts] at run
    | some sorted =>
        simp only [sorts] at run
        have sortedPerm := Scalar.sortByKey?_perm sorts
        obtain ⟨otherSorted, otherSorts⟩ := Scalar.exists_sortByKey?_of_perm perm sorts
        have reordered : sorted.Perm otherSorted :=
          sortedPerm.trans (perm.trans (Scalar.sortByKey?_perm otherSorts).symm)
        obtain ⟨otherSets, otherRun, samePerm⟩ := exists_mapM_of_perm reordered run
        -- The set of the entry is among both results, so neither is printed.
        obtain ⟨set, isSet, isRead⟩ := exists_of_mem_forall₂ (forall₂_of_mapM_eq_ok run).flip
          (sortedPerm.mem_iff.2 isDefinition)
        have namelessSet : ∀ name, set.name ≠ .text name := by
          rw [name_of_read isRead]
          exact nameless
        refine ⟨otherSets, by simp only [otherSorts, otherRun], ?_⟩
        unfold PrintsAlike
        rw [print_of_nameless isSet namelessSet,
          print_of_nameless (samePerm.mem_iff.1 isSet) namelessSet]

end FirewallPolicy.AddressSet
