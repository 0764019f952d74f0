import FirewallPolicy.Proofs.Fragment.Narrowing
import FirewallPolicy.Proofs.Rule.Tracked
import FirewallPolicy.Proofs.Section.Order
import FirewallPolicy.Rule.Expansion
import FirewallPolicy.Section.Builtin
import Mathlib.Data.List.Nodup

/-!
# Rules for fewer families

The chain of a rule's own and the matches of a limit are made family by family.  Where only some
families are kept, what is left of them is what is made for the kept families in the first place.
-/

namespace FirewallPolicy

open Fragment

variable {keep : String → Bool}

/-! ## Own chains -/

namespace Rule

/-- The families that jumps of a chain are restricted to, in ascending order. -/
def jumpFamilies (jumps : List Fragment) : List String :=
  Text.sorted ((jumps.map (·.family)).eraseDups.filterMap id)

theorem nodup_jumpFamilies (jumps : List Fragment) : (jumpFamilies jumps).Nodup := by
  refine (List.mergeSort_perm ..).nodup_iff.2 (List.Nodup.filterMap ?_ (nodup_eraseDups _))
  rintro family other found isFamily isOther
  exact (Option.mem_def.1 isFamily).trans (Option.mem_def.1 isOther).symm

theorem mem_jumpFamilies {jumps : List Fragment} {family : String} :
    family ∈ jumpFamilies jumps ↔ some family ∈ jumps.map (·.family) := by
  unfold jumpFamilies
  rw [Text.mem_sorted, List.mem_filterMap]
  simp [List.mem_eraseDups]

theorem sameKept_chainBody
    (selection : IsSelection keep) {jumps otherJumps actions others : List Fragment}
    (alike : Alike keep jumps otherJumps) (same : SameKept keep actions others) :
    SameKept keep (chainBody jumps actions) (chainBody otherJumps others) := by
  rcases selection with all | ⟨only, rfl⟩
  · have sameJumps := alike.kept
    unfold SameKept at sameJumps same ⊢
    rw [narrow_of_all all, narrow_of_all all] at sameJumps same
    rw [sameJumps, same]
  have open_ : (jumps.map (·.family)).eraseDups.contains none =
      (otherJumps.map (·.family)).eraseDups.contains none := by
    rw [Bool.eq_iff_iff, List.contains_iff_mem, List.contains_iff_mem, List.mem_eraseDups,
      List.mem_eraseDups, alike.mem_families_iff rfl]
  have families : (jumpFamilies jumps).filter (· == only) =
      (jumpFamilies otherJumps).filter (· == only) := by
    rw [List.filter_beq, List.filter_beq, (nodup_jumpFamilies jumps).count,
      (nodup_jumpFamilies otherJumps).count]
    have stated : some only ∈ jumps.map (·.family) ↔ some only ∈ otherJumps.map (·.family) :=
      alike.mem_families_iff (by simp)
    simp only [mem_jumpFamilies, stated]
  unfold chainBody
  simp only [alike.isEmpty, open_]
  split
  · exact same
  · have sameFamilies : narrow (· == only) ((jumpFamilies jumps).map ofFamily) =
        narrow (· == only) ((jumpFamilies otherJumps).map ofFamily) := by
      rw [narrow_map_ofFamily, narrow_map_ofFamily, families]
    refine sameKept_combine ?_
    simp only [List.map_cons, Option.map_some, List.map_nil]
    rw [jumpFamilies, jumpFamilies] at sameFamilies
    rw [sameFamilies, same]

end Rule

/-! ## Limits -/

namespace Limit

variable {limit : Limit} {name : String} {families : List String}

theorem family_of_recentFragment
    {family : String} {recent : Fragment}
    (read : limit.recentFragment family name = .ok (some recent)) :
    recent.family = some family := by
  obtain ⟨mask, _, read⟩ := except_bind_eq_ok.1 read
  split at read
  · cases read
  · split at read
    · obtain rfl := Option.some.inj (Except.ok.inj read)
      rfl
    · cases read

/-- Further matches leave the family. -/
theorem exists_combine_matching (fragment : Fragment) (tokens : List String) :
    ∃ merged, combine [some [fragment], some [.matching tokens]] = [merged] ∧
      merged.family = fragment.family := by
  have unset {α : Type} [DecidableEq α] (stated : Option α) : agreed? stated none = some stated := by
    cases stated <;> rfl
  let merged : Fragment :=
    { fragment with tokens := fragment.tokens ++ (matching tokens).tokens }
  have merges : fragment.merge (.matching tokens) = some merged := by
    simp [merge, matching, unset, merged]
  refine ⟨merged, ?_, rfl⟩
  rw [combine_pair, product, List.flatMap_singleton, List.filterMap_cons, merges]
  rfl

/-- The only match of a family is kept where the family is. -/
theorem narrow_singleton {keep : String → Bool} {fragment : Fragment} {family : String}
    (isFamily : fragment.family = some family) :
    narrow keep [fragment] = if keep family then [fragment] else [] := by
  rw [narrow_cons, isKept, isFamily]
  rfl

theorem hashFragments_filter (keep : String → Bool) {above : Bool} {found : List Fragment}
    (read : limit.hashFragments families name above = .ok found) :
    limit.hashFragments (families.filter keep) name above = .ok (narrow keep found) ∧
      found.isEmpty = families.isEmpty := by
  induction families generalizing found with
  | nil =>
      obtain rfl := Except.ok.inj read
      exact ⟨rfl, rfl⟩
  | cons family rest inductionHypothesis =>
      unfold hashFragments at read inductionHypothesis ⊢
      simp only [List.mapM_cons, except_bind_eq_ok, except_pure_eq_ok] at read
      obtain ⟨first, firstRead, others, othersRead, rfl⟩ := read
      have isFamily : first.family = some family := by
        simp only [hashFragment, except_bind_eq_ok] at firstRead
        obtain ⟨_, _, _, _, _, _, made⟩ := firstRead
        obtain rfl := Except.ok.inj made
        rfl
      refine ⟨?_, rfl⟩
      rw [List.filter_cons, narrow_cons, isKept, isFamily, Option.all_some]
      have othersFilter := (inductionHypothesis othersRead).1
      split
      · rw [List.mapM_cons, firstRead, othersFilter]
        rfl
      · exact othersFilter

theorem recordFragments_filter {found : List Fragment}
    (read : limit.recordFragments name families = .ok found) :
    limit.recordFragments name (families.filter keep) = .ok (narrow keep found) := by
  induction families generalizing found with
  | nil =>
      obtain rfl := Except.ok.inj read
      rfl
  | cons family rest inductionHypothesis =>
      obtain ⟨recent, recentRead, read⟩ := except_bind_eq_ok.1 read
      cases recent with
      | none => cases read
      | some recent =>
          obtain ⟨others, othersRead, made⟩ := except_bind_eq_ok.1 read
          obtain rfl := Except.ok.inj made
          have othersFilter := inductionHypothesis othersRead
          obtain ⟨record, isRecord, sameFamily⟩ := exists_combine_matching recent ["--set"]
          rw [family_of_recentFragment recentRead] at sameFamily
          have narrowed : narrow keep (recordFragment recent) =
              if keep family then recordFragment recent else [] := by
            rw [recordFragment, isRecord, narrow_singleton sameFamily]
          rw [List.filter_cons, narrow_append, narrowed]
          split
          · rw [recordFragments, recentRead]
            change (do return recordFragment recent ++
              (← limit.recordFragments name (rest.filter keep))) = _
            rw [othersFilter]
            rfl
          · exact othersFilter

theorem recentPairs_filter
    (keep : String → Bool) {count interval : Amount} {checks records : List Fragment}
    (read : limit.recentPairs name count interval families = .ok (some (checks, records))) :
    limit.recentPairs name count interval (families.filter keep) =
        .ok (some (narrow keep checks, narrow keep records)) ∧
      checks.isEmpty = families.isEmpty := by
  induction families generalizing checks records with
  | nil =>
      obtain ⟨rfl, rfl⟩ : [] = checks ∧ [] = records := by simpa [recentPairs] using read
      exact ⟨rfl, rfl⟩
  | cons family rest inductionHypothesis =>
      obtain ⟨recent, recentRead, read⟩ := except_bind_eq_ok.1 read
      cases recent with
      | none => cases read
      | some recent =>
          obtain ⟨_, isCount, read⟩ := except_bind_eq_ok.1 read
          obtain ⟨_, isInterval, read⟩ := except_bind_eq_ok.1 read
          obtain ⟨others, othersRead, read⟩ := except_bind_eq_ok.1 read
          cases others with
          | none => cases read
          | some others =>
              obtain ⟨otherChecks, otherRecords⟩ := others
              obtain ⟨rfl, rfl⟩ := Prod.mk.inj (Option.some.inj (Except.ok.inj read))
              have othersFilter := (inductionHypothesis othersRead).1
              have isFamily := family_of_recentFragment recentRead
              obtain ⟨check, isCheck, sameFamily⟩ : ∃ check,
                  limit.checkFragment recent count interval = [check] ∧
                    check.family = some family := by
                rw [← isFamily]
                exact exists_combine_matching recent _
              obtain ⟨record, isRecord, recordFamily⟩ : ∃ record,
                  (if limit.updates then recordFragment recent else [.ofFamily family]) = [record] ∧
                    record.family = some family := by
                rw [← isFamily]
                split
                · exact exists_combine_matching recent _
                · exact ⟨_, rfl, isFamily.symm⟩
              rw [isCheck, isRecord, List.filter_cons, narrow_append, narrow_append,
                narrow_singleton sameFamily, narrow_singleton recordFamily]
              refine ⟨?_, rfl⟩
              split
              · rw [recentPairs, recentRead]
                change (requireText count >>= fun _ => requireText interval >>= fun _ =>
                  limit.recentPairs name count interval (rest.filter keep) >>= _) = _
                rw [isCount, isInterval, othersFilter, ← isCheck, ← isRecord]
                rfl
              · exact othersFilter

/-- A limit that tracks one address in each family can be kept in lists of recent events. -/
theorem TracksSingly.recentPairs_ne_none {count interval : Amount}
    (single : limit.TracksSingly) :
    limit.recentPairs name count interval families ≠ .ok none := by
  have fragment (family : String) : limit.recentFragment family name ≠ .ok none := by
    intro read
    obtain ⟨mask, isMask, read⟩ := except_bind_eq_ok.1 read
    have tracked : (trackedAddress? mask).isSome = true := by
      unfold maskOf at isMask
      split at isMask
      · rw [← Except.ok.inj isMask]
        exact single.inet
      · rw [← Except.ok.inj isMask]
        exact single.inet6
      · cases isMask
    obtain ⟨address, isTracked⟩ := Option.isSome_iff_exists.1 tracked
    rw [isTracked] at read
    dsimp only at read
    split at read <;> cases read
  induction families with
  | nil => exact fun read => nomatch read
  | cons family rest inductionHypothesis =>
      intro read
      obtain ⟨recent, recentRead, read⟩ := except_bind_eq_ok.1 read
      cases recent with
      | none => exact fragment family recentRead
      | some recent =>
          simp only [except_bind_eq_ok] at read
          obtain ⟨_, _, _, _, others, othersRead, read⟩ := read
          cases others with
          | none => exact inductionHypothesis othersRead
          | some others => cases read

end Limit

end FirewallPolicy
