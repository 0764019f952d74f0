import FirewallPolicy.Proofs.Fragment.Merge

/-!
# The meaning of fragments

A fragment is read as a condition on a complete rule: every attribute it sets has to be the one of
the rule, and every match token has to be true.  Under this reading a list of fragments is a
disjunction and a product of lists is the conjunction of its members.
-/

namespace FirewallPolicy.Fragment

/-- A value for every attribute, and which match tokens are true. -/
structure Assignment where
  family : String
  table : String
  chain : String
  target : String
  position : String
  index : Int
  holds : String → Prop

/-- What an attribute asks of a value: an unset one asks nothing. -/
def Allows {α : Type} (stated : Option α) (value : α) : Prop :=
  ∀ a, stated = some a → a = value

/-- Every attribute that the fragment sets has the assigned value, and every token is true. -/
structure Satisfied (fragment : Fragment) (assignment : Assignment) : Prop where
  family : Allows fragment.family assignment.family
  table : Allows fragment.table assignment.table
  chain : Allows fragment.chain assignment.chain
  target : Allows fragment.target assignment.target
  position : Allows fragment.position assignment.position
  index : Allows fragment.index assignment.index
  tokens : ∀ token ∈ fragment.tokens, assignment.holds token

/-- Some fragment of the list is satisfied. -/
def SomeSatisfied (list : List Fragment) (assignment : Assignment) : Prop :=
  ∃ fragment ∈ list, Satisfied fragment assignment

/-! ## Merging -/

section Attributes

variable {α : Type} {mine theirs : Option α} {value : α}

theorem compatible_of_allows
    (left : Allows mine value) (right : Allows theirs value) :
    Compatible mine theirs := by
  intro a mineSet b theirsSet
  rw [left a mineSet, right b theirsSet]

theorem allows_or_iff
    (compatible : Compatible mine theirs) :
    Allows (mine.or theirs) value ↔
      Allows mine value ∧ Allows theirs value := by
  cases mine with
  | none => simp [Allows]
  | some a =>
      simp only [Allows, Option.some_or, Option.some.injEq, forall_eq']
      constructor
      · intro same
        exact ⟨same, fun b set => (compatible a rfl b set).symm.trans same⟩
      · exact And.left

end Attributes

/-- Conflicting fragments are satisfied by no common assignment. -/
theorem Agree.of_satisfied
    {left right : Fragment} {assignment : Assignment}
    (first : Satisfied left assignment)
    (second : Satisfied right assignment) :
    Agree left right :=
  ⟨compatible_of_allows first.family second.family,
    compatible_of_allows first.table second.table,
    compatible_of_allows first.chain second.chain,
    compatible_of_allows first.target second.target,
    compatible_of_allows first.position second.position,
    compatible_of_allows first.index second.index⟩

theorem satisfied_union_iff
    {left right : Fragment} (agree : Agree left right)
    (assignment : Assignment) :
    Satisfied (left.union right) assignment ↔
      Satisfied left assignment ∧ Satisfied right assignment := by
  constructor
  · intro both
    have family := (allows_or_iff agree.family).1 both.family
    have table := (allows_or_iff agree.table).1 both.table
    have chain := (allows_or_iff agree.chain).1 both.chain
    have target := (allows_or_iff agree.target).1 both.target
    have position := (allows_or_iff agree.position).1 both.position
    have index := (allows_or_iff agree.index).1 both.index
    have tokens := List.forall_mem_append.1 both.tokens
    exact
      ⟨⟨family.1, table.1, chain.1, target.1, position.1, index.1, tokens.1⟩,
        ⟨family.2, table.2, chain.2, target.2, position.2, index.2, tokens.2⟩⟩
  · rintro ⟨first, second⟩
    exact
      ⟨(allows_or_iff agree.family).2 ⟨first.family, second.family⟩,
        (allows_or_iff agree.table).2 ⟨first.table, second.table⟩,
        (allows_or_iff agree.chain).2 ⟨first.chain, second.chain⟩,
        (allows_or_iff agree.target).2 ⟨first.target, second.target⟩,
        (allows_or_iff agree.position).2 ⟨first.position, second.position⟩,
        (allows_or_iff agree.index).2 ⟨first.index, second.index⟩,
        List.forall_mem_append.2 ⟨first.tokens, second.tokens⟩⟩

/-! ## Products -/

/-- A product of two lists is satisfied when both lists are. -/
theorem someSatisfied_product_iff
    (lefts rights : List Fragment) (assignment : Assignment) :
    SomeSatisfied (product lefts rights) assignment ↔
      SomeSatisfied lefts assignment ∧ SomeSatisfied rights assignment := by
  constructor
  · rintro ⟨merged, member, satisfied⟩
    obtain ⟨left, leftMember, right, rightMember, merges⟩ := mem_product.1 member
    obtain ⟨agree, rfl⟩ := merge_eq_some_iff.1 merges
    obtain ⟨first, second⟩ := (satisfied_union_iff agree assignment).1 satisfied
    exact ⟨⟨left, leftMember, first⟩, ⟨right, rightMember, second⟩⟩
  · rintro ⟨⟨left, leftMember, first⟩, ⟨right, rightMember, second⟩⟩
    have agree : Agree left right := Agree.of_satisfied first second
    refine ⟨left.union right, ?_, ?_⟩
    · exact mem_product.2
        ⟨left, leftMember, right, rightMember, merge_eq_some_iff.2 ⟨agree, rfl⟩⟩
    · exact (satisfied_union_iff agree assignment).2 ⟨first, second⟩

/-- The induction over the lists: the first two are multiplied and stand for one. -/
theorem someSatisfied_combineLists_iff
    (first : List Fragment) (rest : List (List Fragment))
    (assignment : Assignment) :
    SomeSatisfied (combineLists (first :: rest)) assignment ↔
      ∀ list ∈ first :: rest, SomeSatisfied list assignment := by
  induction rest generalizing first with
  | nil => simp [combineLists]
  | cons second rest inductionHypothesis =>
      rw [combineLists_cons_cons, inductionHypothesis]
      simp only [List.forall_mem_cons, someSatisfied_product_iff, and_assoc]

/-- A product is the conjunction of the disjunctions that its lists are.  Absent lists ask for
nothing; of the others there has to be at least one. -/
theorem combine_satisfied_iff
    (lists : List (Option (List Fragment)))
    (given : ∃ list, some list ∈ lists)
    (assignment : Assignment) :
    (∃ fragment ∈ combine lists, Satisfied fragment assignment) ↔
      ∀ list, some list ∈ lists →
        ∃ fragment ∈ list, Satisfied fragment assignment := by
  have members (list : List Fragment) :
      list ∈ lists.filterMap id ↔ some list ∈ lists := by
    simp
  obtain ⟨list, listGiven⟩ := given
  have listMember := (members list).2 listGiven
  unfold combine
  cases shape : lists.filterMap id with
  | nil =>
      rw [shape] at listMember
      exact absurd listMember List.not_mem_nil
  | cons first rest =>
      have whole := someSatisfied_combineLists_iff first rest assignment
      rw [← shape] at whole ⊢
      exact whole.trans (forall_congr' fun list => by rw [members list]; rfl)

/-- The product of two lists that agree in one choice only: the chain is kept, the family of the
second list is taken over, and a conflicting choice is no member. -/
theorem combine_satisfied_two_lists :
    (∃ list, some list ∈
      [some [ofChain "INPUT", ofChain "OUTPUT"], none,
        some [{ ofFamily "inet" with chain := some "INPUT" }]]) ∧
    ∀ assignment : Assignment,
      ((∃ fragment ∈ combine
          [some [ofChain "INPUT", ofChain "OUTPUT"], none,
            some [{ ofFamily "inet" with chain := some "INPUT" }]],
          Satisfied fragment assignment) ↔
        ∀ list, some list ∈
            [some [ofChain "INPUT", ofChain "OUTPUT"], none,
              some [{ ofFamily "inet" with chain := some "INPUT" }]] →
          ∃ fragment ∈ list, Satisfied fragment assignment) :=
  ⟨⟨[ofChain "INPUT", ofChain "OUTPUT"], by simp⟩,
    fun assignment =>
      combine_satisfied_iff _ ⟨[ofChain "INPUT", ofChain "OUTPUT"], by simp⟩ assignment⟩

end FirewallPolicy.Fragment
