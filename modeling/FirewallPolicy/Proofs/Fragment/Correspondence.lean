import FirewallPolicy.Proofs.Fragment.Merge
import Mathlib.Data.List.Forall2

/-!
# Corresponding products

Two lists correspond under a relation when every member of each is related to a member of the other.
A relation between fragments that merging respects is carried from lists to their products, in the
order of the lists or in the opposite one.
-/

namespace FirewallPolicy

/-- Every member of each list is related to a member of the other. -/
structure Corresponds {α β : Type} (relation : α → β → Prop) (left : List α) (right : List β) :
    Prop where
  forth : ∀ a ∈ left, ∃ b ∈ right, relation a b
  back : ∀ b ∈ right, ∃ a ∈ left, relation a b

namespace Corresponds

variable {α β γ δ : Type} {relation : α → β → Prop} {left : List α} {right : List β}

theorem nil : Corresponds relation [] [] :=
  ⟨fun _ member => absurd member List.not_mem_nil,
    fun _ member => absurd member List.not_mem_nil⟩

theorem singleton {a : α} {b : β} (related : relation a b) :
    Corresponds relation [a] [b] := by
  constructor <;> simpa using related

theorem of_self {relation : α → α → Prop} (related : ∀ a ∈ left, relation a a) :
    Corresponds relation left left :=
  ⟨fun a member => ⟨a, member, related a member⟩, fun a member => ⟨a, member, related a member⟩⟩

theorem append
    {lower : List α} {upper : List β}
    (first : Corresponds relation left right) (second : Corresponds relation lower upper) :
    Corresponds relation (left ++ lower) (right ++ upper) := by
  constructor
  · intro a member
    rcases List.mem_append.1 member with isLeft | isLower
    · obtain ⟨b, isRight, related⟩ := first.forth a isLeft
      exact ⟨b, List.mem_append_left _ isRight, related⟩
    · obtain ⟨b, isUpper, related⟩ := second.forth a isLower
      exact ⟨b, List.mem_append_right _ isUpper, related⟩
  · intro b member
    rcases List.mem_append.1 member with isRight | isUpper
    · obtain ⟨a, isLeft, related⟩ := first.back b isRight
      exact ⟨a, List.mem_append_left _ isLeft, related⟩
    · obtain ⟨a, isLower, related⟩ := second.back b isUpper
      exact ⟨a, List.mem_append_right _ isLower, related⟩

theorem map
    {target : γ → δ → Prop} {change : α → γ} {other : β → δ}
    (corresponds : Corresponds relation left right)
    (keeps : ∀ a b, relation a b → target (change a) (other b)) :
    Corresponds target (left.map change) (right.map other) := by
  constructor
  · intro c member
    obtain ⟨a, isLeft, rfl⟩ := List.mem_map.1 member
    obtain ⟨b, isRight, related⟩ := corresponds.forth a isLeft
    exact ⟨other b, List.mem_map_of_mem isRight, keeps a b related⟩
  · intro d member
    obtain ⟨b, isRight, rfl⟩ := List.mem_map.1 member
    obtain ⟨a, isLeft, related⟩ := corresponds.back b isRight
    exact ⟨change a, List.mem_map_of_mem isLeft, keeps a b related⟩

/-- Only the members of the lists count, neither their order nor how often they occur. -/
theorem of_mem_iff
    {others : List α} {further : List β}
    (corresponds : Corresponds relation left right)
    (sameLeft : ∀ a, a ∈ others ↔ a ∈ left) (sameRight : ∀ b, b ∈ further ↔ b ∈ right) :
    Corresponds relation others further := by
  constructor
  · intro a member
    obtain ⟨b, isRight, related⟩ := corresponds.forth a ((sameLeft a).1 member)
    exact ⟨b, (sameRight b).2 isRight, related⟩
  · intro b member
    obtain ⟨a, isLeft, related⟩ := corresponds.back b ((sameRight b).1 member)
    exact ⟨a, (sameLeft a).2 isLeft, related⟩

end Corresponds

namespace Fragment

/-! ## Conflicts -/

section Attributes

variable {α : Type} {mine theirs other : Option α}

theorem Compatible.symm (compatible : Compatible mine theirs) : Compatible theirs mine :=
  fun a theirsSet b mineSet => (compatible b mineSet a theirsSet).symm

theorem or_comm_of_compatible (compatible : Compatible mine theirs) :
    mine.or theirs = theirs.or mine := by
  cases mine with
  | none => simp
  | some a =>
      cases theirs with
      | none => rfl
      | some b => rw [compatible a rfl b rfl]

theorem compatible_or_iff (compatible : Compatible mine theirs) :
    Compatible (mine.or theirs) other ↔ Compatible mine other ∧ Compatible theirs other := by
  cases mine with
  | none => simp [Compatible]
  | some a =>
      simp only [Compatible, Option.some_or, Option.some.injEq, forall_eq']
      constructor
      · intro same
        refine ⟨same, fun b set c otherSet => ?_⟩
        exact (compatible a rfl b set).symm.trans (same c otherSet)
      · exact And.left

end Attributes

variable {left right first second : Fragment}

theorem Agree.symm (agree : Agree left right) : Agree right left :=
  ⟨agree.family.symm, agree.table.symm, agree.chain.symm, agree.target.symm,
    agree.position.symm, agree.index.symm⟩

theorem Agree.refl (fragment : Fragment) : Agree fragment fragment := by
  constructor <;> exact fun a isA b isB => Option.some.inj (isA.symm.trans isB)

/-- A merge conflicts with what one of the merged fragments conflicts with. -/
theorem agree_union_iff {other : Fragment} (agree : Agree left right) :
    Agree (left.union right) other ↔ Agree left other ∧ Agree right other := by
  constructor
  · intro both
    have family := (compatible_or_iff agree.family).1 both.family
    have table := (compatible_or_iff agree.table).1 both.table
    have chain := (compatible_or_iff agree.chain).1 both.chain
    have target := (compatible_or_iff agree.target).1 both.target
    have position := (compatible_or_iff agree.position).1 both.position
    have index := (compatible_or_iff agree.index).1 both.index
    exact ⟨⟨family.1, table.1, chain.1, target.1, position.1, index.1⟩,
      ⟨family.2, table.2, chain.2, target.2, position.2, index.2⟩⟩
  · rintro ⟨first, second⟩
    exact ⟨(compatible_or_iff agree.family).2 ⟨first.family, second.family⟩,
      (compatible_or_iff agree.table).2 ⟨first.table, second.table⟩,
      (compatible_or_iff agree.chain).2 ⟨first.chain, second.chain⟩,
      (compatible_or_iff agree.target).2 ⟨first.target, second.target⟩,
      (compatible_or_iff agree.position).2 ⟨first.position, second.position⟩,
      (compatible_or_iff agree.index).2 ⟨first.index, second.index⟩⟩

/-! ## Neutral fragments -/

/-- The fragment that asks for nothing is merged with any other. -/
theorem merge_empty (fragment : Fragment) : fragment.merge {} = some fragment := by
  refine merge_eq_some_iff.2 ⟨?_, ?_⟩
  · constructor <;> simp [Compatible]
  · simp [union]

theorem empty_merge (fragment : Fragment) : Fragment.merge {} fragment = some fragment := by
  refine merge_eq_some_iff.2 ⟨?_, ?_⟩
  · constructor <;> simp [Compatible]
  · simp [union]

theorem product_empty (list : List Fragment) : product list [{}] = list := by
  simp [product, merge_empty]

theorem empty_product (list : List Fragment) : product [{}] list = list := by
  have keeps : Fragment.merge {} = some := funext empty_merge
  simp [product, keeps]

/-! ## Associativity -/

theorem union_assoc (left right part : Fragment) :
    (left.union right).union part = left.union (right.union part) := by
  simp [union, Option.or_assoc]

theorem merge_assoc (left right part : Fragment) :
    (left.merge right).bind (fun both => both.merge part) =
      (right.merge part).bind fun both => left.merge both := by
  refine Option.ext fun merged => ?_
  simp only [Option.bind_eq_some_iff, merge_eq_some_iff]
  constructor
  · rintro ⟨_, ⟨agree, rfl⟩, agreeBoth, rfl⟩
    obtain ⟨outer, inner⟩ := (agree_union_iff agree).1 agreeBoth
    exact ⟨_, ⟨inner, rfl⟩, ((agree_union_iff inner).2 ⟨agree.symm, outer.symm⟩).symm,
      union_assoc ..⟩
  · rintro ⟨_, ⟨inner, rfl⟩, agreeBoth, rfl⟩
    obtain ⟨agree, outer⟩ := (agree_union_iff inner).1 agreeBoth.symm
    exact ⟨_, ⟨agree.symm, rfl⟩, (agree_union_iff agree.symm).2 ⟨outer.symm, inner⟩,
      (union_assoc ..).symm⟩

theorem product_assoc (first second third : List Fragment) :
    product (product first second) third = product first (product second third) := by
  have step (left right : Fragment) :
      ((left.merge right).toList.flatMap fun both => third.filterMap both.merge) =
        (third.filterMap right.merge).filterMap left.merge := by
    have regrouped : (third.filterMap right.merge).filterMap left.merge =
        third.filterMap fun part => (left.merge right).bind fun both => both.merge part := by
      simp only [List.filterMap_filterMap, merge_assoc]
    rw [regrouped]
    cases left.merge right <;> simp
  have inner (left : Fragment) : (product second third).filterMap left.merge =
      (second.filterMap left.merge).flatMap fun both => third.filterMap both.merge := by
    rw [product, List.filterMap_flatMap, List.filterMap_eq_flatMap_toList left.merge second,
      List.flatMap_assoc]
    simp only [step]
  calc
    product (product first second) third
        = first.flatMap fun left =>
            (second.filterMap left.merge).flatMap fun both => third.filterMap both.merge :=
          List.flatMap_assoc
    _ = product first (product second third) := by simp only [product, ← inner]

/-! ## Absent lists -/

/-- The fragments of a dimension; one that is not given is matched by everything. -/
def orAny (given : Option (List Fragment)) : List Fragment :=
  given.getD [{}]

/-- A product with absent lists is one in which everything is matched in their place. -/
theorem combineLists_filterMap (first : List Fragment) (lists : List (Option (List Fragment))) :
    combineLists (first :: lists.filterMap id) = (lists.map orAny).foldl product first := by
  induction lists generalizing first with
  | nil => rfl
  | cons given rest inductionHypothesis =>
      cases given with
      | none => simpa [orAny, product_empty] using inductionHypothesis first
      | some list => simpa [orAny, combineLists_cons_cons] using
          inductionHypothesis (product first list)

theorem combine_eq_foldl
    (lists : List (Option (List Fragment))) (given : ∃ list, some list ∈ lists) :
    combine lists = (lists.map orAny).foldl product [{}] := by
  rw [← combineLists_filterMap]
  obtain ⟨list, listGiven⟩ := given
  unfold combine
  cases shape : lists.filterMap id with
  | nil =>
      have member : list ∈ lists.filterMap id := by simpa using listGiven
      rw [shape] at member
      exact absurd member List.not_mem_nil
  | cons first rest => rw [combineLists_cons_cons, empty_product]

/-! ## Relations that merging respects -/

/-- Fragments related to ones that merge do merge, and the results are related. -/
def RespectsMerge (relation : Fragment → Fragment → Prop) : Prop :=
  ∀ left right first second, relation left first → relation right second →
    (Agree left right ↔ Agree first second) ∧
      (Agree left right → relation (left.union right) (first.union second))

variable {relation : Fragment → Fragment → Prop}
  {lefts rights firsts seconds : List Fragment}

theorem corresponds_product
    (respects : RespectsMerge relation)
    (one : Corresponds relation lefts firsts) (two : Corresponds relation rights seconds) :
    Corresponds relation (product lefts rights) (product firsts seconds) := by
  constructor
  · intro merged member
    obtain ⟨left, isLeft, right, isRight, merges⟩ := mem_product.1 member
    obtain ⟨agree, rfl⟩ := merge_eq_some_iff.1 merges
    obtain ⟨first, isFirst, relatedOne⟩ := one.forth left isLeft
    obtain ⟨second, isSecond, relatedTwo⟩ := two.forth right isRight
    obtain ⟨agree_iff, related⟩ := respects left right first second relatedOne relatedTwo
    exact ⟨first.union second, mem_product.2 ⟨first, isFirst, second, isSecond,
      merge_eq_some_iff.2 ⟨agree_iff.1 agree, rfl⟩⟩, related agree⟩
  · intro merged member
    obtain ⟨first, isFirst, second, isSecond, merges⟩ := mem_product.1 member
    obtain ⟨agree, rfl⟩ := merge_eq_some_iff.1 merges
    obtain ⟨left, isLeft, relatedOne⟩ := one.back first isFirst
    obtain ⟨right, isRight, relatedTwo⟩ := two.back second isSecond
    obtain ⟨agree_iff, related⟩ := respects left right first second relatedOne relatedTwo
    exact ⟨left.union right, mem_product.2 ⟨left, isLeft, right, isRight,
      merge_eq_some_iff.2 ⟨agree_iff.2 agree, rfl⟩⟩, related (agree_iff.2 agree)⟩

/-- The induction over the lists: the first two are multiplied and stand for one. -/
theorem corresponds_foldl
    (respects : RespectsMerge relation)
    {lists others : List (List Fragment)}
    (start : Corresponds relation lefts firsts)
    (each : List.Forall₂ (Corresponds relation) lists others) :
    Corresponds relation (lists.foldl product lefts) (others.foldl product firsts) := by
  induction each generalizing lefts firsts with
  | nil => exact start
  | cons one _ inductionHypothesis =>
      exact inductionHypothesis (corresponds_product respects start one)

/-- Products correspond when their lists do, where some list is given. -/
theorem corresponds_combine
    (respects : RespectsMerge relation) (neutral : relation {} {})
    {lists others : List (Option (List Fragment))}
    (given : ∃ list, some list ∈ lists) (othersGiven : ∃ list, some list ∈ others)
    (each : List.Forall₂ (fun one two => Corresponds relation (orAny one) (orAny two))
      lists others) :
    Corresponds relation (combine lists) (combine others) := by
  rw [combine_eq_foldl lists given, combine_eq_foldl others othersGiven]
  refine corresponds_foldl respects (Corresponds.singleton neutral) ?_
  rw [List.forall₂_map_left_iff, List.forall₂_map_right_iff]
  exact each

end Fragment

end FirewallPolicy
