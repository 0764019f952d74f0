import FirewallPolicy.Proofs.Fragment.Merge

/-!
# Fragments of some families

Where only some address families are kept, a fragment of another family is left out, and one of no
family stays.  A merge is of a kept family exactly when both parts are, so a product is narrowed by
narrowing its lists.
-/

namespace FirewallPolicy

theorem nodup_eraseDups {α : Type} [BEq α] [LawfulBEq α] (items : List α) :
    items.eraseDups.Nodup := by
  -- The induction is on the length: what follows the first item is a part of the rest.
  match items with
  | [] => exact List.nodup_nil
  | first :: rest =>
      rw [List.eraseDups_cons, List.nodup_cons]
      constructor
      · simp
      · exact nodup_eraseDups _
termination_by items.length
decreasing_by
  have shorter := List.length_filter_le (fun other => !other == first) rest
  simp only [List.length_cons]
  omega

namespace Fragment

variable {keep : String → Bool}

/-- Is the fragment of a kept family, or of none? -/
def isKept (keep : String → Bool) (fragment : Fragment) : Bool :=
  fragment.family.all keep

/-- The fragments of the kept families, and those of no family. -/
def narrow (keep : String → Bool) (fragments : List Fragment) : List Fragment :=
  fragments.filter (isKept keep)

@[simp]
theorem narrow_nil : narrow keep [] = [] :=
  rfl

theorem narrow_cons (first : Fragment) (rest : List Fragment) :
    narrow keep (first :: rest) =
      if first.isKept keep then first :: narrow keep rest else narrow keep rest :=
  List.filter_cons ..

@[simp]
theorem narrow_append (left right : List Fragment) :
    narrow keep (left ++ right) = narrow keep left ++ narrow keep right :=
  List.filter_append ..

@[simp]
theorem narrow_narrow (fragments : List Fragment) :
    narrow keep (narrow keep fragments) = narrow keep fragments := by
  simp [narrow]

theorem narrow_eq_self {fragments : List Fragment}
    (kept : ∀ fragment ∈ fragments, fragment.isKept keep = true) :
    narrow keep fragments = fragments :=
  List.filter_eq_self.2 kept

theorem narrow_map {change : Fragment → Fragment}
    (sameFamily : ∀ fragment, (change fragment).family = fragment.family)
    (fragments : List Fragment) :
    narrow keep (fragments.map change) = (narrow keep fragments).map change := by
  have sameKept : isKept keep ∘ change = isKept keep :=
    funext fun fragment => by simp [isKept, sameFamily]
  rw [narrow, List.filter_map, sameKept, narrow]

theorem narrow_map_ofFamily (families : List String) :
    narrow keep (families.map ofFamily) = (families.filter keep).map ofFamily := by
  have sameKept : isKept keep ∘ ofFamily = keep :=
    funext fun family => by simp [isKept, ofFamily]
  rw [narrow, List.filter_map, sameKept]

/-! ## Products -/

theorem isKept_of_merge
    {left right merged : Fragment} (merges : left.merge right = some merged) :
    merged.isKept keep = (left.isKept keep && right.isKept keep) := by
  obtain ⟨agree, rfl⟩ := merge_eq_some_iff.1 merges
  unfold isKept union
  cases leftFamily : left.family with
  | none => simp
  | some mine =>
      cases rightFamily : right.family with
      | none => simp
      | some theirs =>
          obtain rfl := agree.family mine leftFamily theirs rightFamily
          simp

/-- A merge is kept where both of its parts are. -/
theorem filter_merge (left right : Fragment) :
    (left.merge right).filter (isKept keep) =
      if left.isKept keep then if right.isKept keep then left.merge right else none else none := by
  cases merges : left.merge right with
  | none => simp
  | some merged =>
      have kept : merged.isKept keep = (left.isKept keep && right.isKept keep) :=
        isKept_of_merge merges
      rw [Option.filter_some, kept]
      cases left.isKept keep <;> cases right.isKept keep <;> rfl

theorem narrow_filterMap_merge (left : Fragment) (rights : List Fragment) :
    narrow keep (rights.filterMap left.merge) =
      if left.isKept keep then (narrow keep rights).filterMap left.merge else [] := by
  rw [narrow, List.filter_filterMap]
  simp only [filter_merge]
  split
  · rw [narrow, List.filterMap_filter]
  · simp

theorem narrow_product (lefts rights : List Fragment) :
    narrow keep (product lefts rights) = product (narrow keep lefts) (narrow keep rights) := by
  induction lefts with
  | nil => rfl
  | cons left rest inductionHypothesis =>
      have head (lefts rights : List Fragment) : product (left :: lefts) rights =
          rights.filterMap left.merge ++ product lefts rights := rfl
      rw [head, narrow_append, narrow_filterMap_merge, inductionHypothesis, narrow_cons]
      split
      · rw [head]
      · rw [List.nil_append]

/-- A fragment is restricted to a family if it is of that family or of none. -/
theorem merge_ofFamily (fragment : Fragment) (family : String) :
    fragment.merge (ofFamily family) =
      if fragment.isKept (· == family) then some { fragment with family := some family }
      else none := by
  have unasked {α : Type} [DecidableEq α] (mine : Option α) : agreed? mine none = some mine := by
    cases mine <;> rfl
  have asked (mine : Option String) : agreed? mine (some family) =
      if mine.all (· == family) then some (some family) else none := by
    cases mine with
    | none => rfl
    | some known => by_cases same : known = family <;> simp [agreed?, same]
  simp only [merge, ofFamily, unasked, asked, isKept]
  by_cases kept : fragment.family.all (· == family) = true <;> simp [kept]

/-- A product with the family alone states it in the fragments that are usable there. -/
theorem product_ofFamily (fragments : List Fragment) (family : String) :
    product fragments [ofFamily family] =
      (narrow (· == family) fragments).map fun fragment =>
        { fragment with family := some family } := by
  rw [product_single, narrow, ← List.filterMap_eq_map, List.filterMap_filter]
  simp only [merge_ofFamily, Function.comp]

theorem narrow_combineLists (lists : List (List Fragment)) :
    narrow keep (combineLists lists) = combineLists (lists.map (narrow keep)) := by
  cases lists with
  | nil => rfl
  | cons first rest =>
      induction rest generalizing first with
      | nil => rfl
      | cons second rest inductionHypothesis =>
          rw [combineLists_cons_cons, inductionHypothesis, List.map_cons, List.map_cons,
            List.map_cons, combineLists_cons_cons, narrow_product]

/-- A product of optional lists is narrowed list by list. -/
theorem narrow_combine (lists : List (Option (List Fragment))) :
    narrow keep (combine lists) = combine (lists.map (Option.map (narrow keep))) := by
  rw [combine, narrow_combineLists, combine, List.map_filterMap, List.filterMap_map]
  rfl

/-- A product with fragments that are each of a kept family is narrow. -/
theorem narrow_combine_of_mem
    {lists : List (Option (List Fragment))} {list : List Fragment} (isFactor : some list ∈ lists)
    (kept : ∀ fragment ∈ list, ∃ family, fragment.family = some family ∧ keep family = true) :
    narrow keep (combine lists) = combine lists := by
  refine narrow_eq_self fun merged member => ?_
  obtain ⟨part, isPart, extends_⟩ := exists_extends_of_mem_combine member isFactor
  obtain ⟨family, isFamily, isKept⟩ := kept part isPart
  simp [Fragment.isKept, extends_.family family isFamily, isKept]

/-! ## Lists that are the same once they are narrowed -/

/-- What is kept of the two lists is the same. -/
def SameKept (keep : String → Bool) (fragments others : List Fragment) : Prop :=
  narrow keep fragments = narrow keep others

theorem SameKept.append
    {left right otherLeft otherRight : List Fragment}
    (sameLeft : SameKept keep left otherLeft) (sameRight : SameKept keep right otherRight) :
    SameKept keep (left ++ right) (otherLeft ++ otherRight) := by
  unfold SameKept at sameLeft sameRight ⊢
  rw [narrow_append, narrow_append, sameLeft, sameRight]

/-- Products of lists of which the same is kept. -/
theorem sameKept_combine {lists others : List (Option (List Fragment))}
    (same : lists.map (Option.map (narrow keep)) = others.map (Option.map (narrow keep))) :
    SameKept keep (combine lists) (combine others) := by
  unfold SameKept
  rw [narrow_combine, narrow_combine, same]

/-- A product of which the first list varies. -/
theorem SameKept.combine_left {fragments others : List Fragment}
    (same : SameKept keep fragments others) (further : List (Option (List Fragment))) :
    SameKept keep (combine (some fragments :: further)) (combine (some others :: further)) :=
  sameKept_combine (by rw [List.map_cons, List.map_cons, Option.map_some, Option.map_some, same])

/-- What is kept of the two lists is the same, and one is empty where the other one is. -/
structure Alike (keep : String → Bool) (fragments others : List Fragment) : Prop where
  kept : SameKept keep fragments others
  isEmpty : fragments.isEmpty = others.isEmpty

theorem Alike.refl (fragments : List Fragment) : Alike keep fragments fragments :=
  ⟨rfl, rfl⟩

theorem Alike.map
    {fragments others : List Fragment} (alike : Alike keep fragments others)
    {change : Fragment → Fragment}
    (sameFamily : ∀ fragment, (change fragment).family = fragment.family) :
    Alike keep (fragments.map change) (others.map change) where
  kept := by
    unfold SameKept
    rw [narrow_map sameFamily, narrow_map sameFamily, alike.kept]
  isEmpty := by rw [List.isEmpty_map, List.isEmpty_map, alike.isEmpty]

/-- Alike lists hold fragments of the same kept families, and fragments of no family where the other
one does. -/
theorem Alike.mem_families_iff
    {fragments others : List Fragment} (alike : Alike keep fragments others)
    {family : Option String} (kept : family.all keep = true) :
    family ∈ fragments.map (·.family) ↔ family ∈ others.map (·.family) := by
  have inNarrow (list : List Fragment) :
      family ∈ list.map (·.family) ↔ family ∈ (narrow keep list).map (·.family) := by
    simp only [List.mem_map, narrow, List.mem_filter]
    refine exists_congr fun fragment => ⟨fun ⟨member, same⟩ => ?_, fun ⟨⟨member, _⟩, same⟩ => ?_⟩
    · exact ⟨⟨member, by rw [isKept, same, kept]⟩, same⟩
    · exact ⟨member, same⟩
  rw [inNarrow fragments, inNarrow others, alike.kept]

/-! ## Kept families -/

/-- All families are kept, or a single one. -/
def IsSelection (keep : String → Bool) : Prop :=
  (∀ family, keep family = true) ∨ ∃ only, keep = (· == only)

theorem narrow_of_all (all : ∀ family, keep family = true) (fragments : List Fragment) :
    narrow keep fragments = fragments := by
  refine narrow_eq_self fun fragment _ => ?_
  unfold isKept
  cases fragment.family with
  | none => rfl
  | some family => exact all family

end Fragment

end FirewallPolicy
