import FirewallPolicy.Fragment

/-!
# Merging as a union of compatible fragments

Two fragments merge exactly when no attribute is set to different values by them.  The merge then
takes each attribute from the side that sets it and joins the match tokens.  The attributes of the
members of a product are traced back to the lists they come from.
-/

namespace FirewallPolicy.Fragment

/-! ## One attribute -/

section Attributes

variable {α : Type} [DecidableEq α]

/-- Two optional attributes that are not set to different values. -/
def Compatible (mine theirs : Option α) : Prop :=
  ∀ a, mine = some a → ∀ b, theirs = some b → a = b

theorem agreed?_eq_some_iff
    {mine theirs merged : Option α} :
    agreed? mine theirs = some merged ↔
      Compatible mine theirs ∧ merged = mine.or theirs := by
  cases mine with
  | none =>
      simp [agreed?, Compatible, eq_comm]
  | some a =>
      cases theirs with
      | none =>
          simp [agreed?, Compatible, eq_comm]
      | some b =>
          by_cases same : a = b
          · simp [agreed?, Compatible, same, eq_comm]
          · simp [agreed?, Compatible, same]

end Attributes

/-! ## Whole fragments -/

/-- No attribute is set to different values by the two fragments. -/
structure Agree (left right : Fragment) : Prop where
  family : Compatible left.family right.family
  table : Compatible left.table right.table
  chain : Compatible left.chain right.chain
  target : Compatible left.target right.target
  position : Compatible left.position right.position
  index : Compatible left.index right.index

/-- Each attribute from the side that sets it, the left one first, and the tokens of both. -/
def union (left right : Fragment) : Fragment where
  family := left.family.or right.family
  table := left.table.or right.table
  chain := left.chain.or right.chain
  tokens := left.tokens ++ right.tokens
  target := left.target.or right.target
  position := left.position.or right.position
  index := left.index.or right.index

theorem merge_eq_some_iff
    {left right merged : Fragment} :
    left.merge right = some merged ↔
      Agree left right ∧ merged = left.union right := by
  simp only [merge, Option.bind_eq_bind, Option.bind_eq_some_iff,
    agreed?_eq_some_iff, Option.pure_def, Option.some.injEq]
  constructor
  · rintro ⟨_, ⟨family, rfl⟩, _, ⟨table, rfl⟩, _, ⟨chain, rfl⟩,
      _, ⟨target, rfl⟩, _, ⟨position, rfl⟩, _, ⟨index, rfl⟩, rfl⟩
    exact ⟨⟨family, table, chain, target, position, index⟩, rfl⟩
  · rintro ⟨agree, rfl⟩
    exact ⟨_, ⟨agree.family, rfl⟩, _, ⟨agree.table, rfl⟩,
      _, ⟨agree.chain, rfl⟩, _, ⟨agree.target, rfl⟩,
      _, ⟨agree.position, rfl⟩, _, ⟨agree.index, rfl⟩, rfl⟩

theorem Compatible.or_some
    {own : Option String} {name : String} (fits : Compatible own (some name)) :
    own.or (some name) = some name := by
  cases isOwn : own with
  | none => rfl
  | some other => rw [fits other isOwn name rfl, Option.some_or]

theorem merge_ofFamily_eq_some_iff {part merged : Fragment} {family : String} :
    part.merge (ofFamily family) = some merged ↔
      Compatible part.family (some family) ∧ merged = { part with family := some family } := by
  rw [merge_eq_some_iff]
  constructor
  · rintro ⟨agree, rfl⟩
    exact ⟨agree.family, by simp [union, ofFamily, agree.family.or_some]⟩
  · rintro ⟨fits, rfl⟩
    refine ⟨⟨fits, ?_, ?_, ?_, ?_, ?_⟩, by simp [union, ofFamily, fits.or_some]⟩
    all_goals simp [Compatible, ofFamily]

theorem merge_ofTable_eq_some_iff {part merged : Fragment} {table : String} :
    part.merge (.ofTable table) = some merged ↔
      Compatible part.table (some table) ∧ merged = { part with table := some table } := by
  rw [merge_eq_some_iff]
  constructor
  · rintro ⟨agree, rfl⟩
    exact ⟨agree.table, by simp [union, ofTable, agree.table.or_some]⟩
  · rintro ⟨fits, rfl⟩
    refine ⟨⟨?_, fits, ?_, ?_, ?_, ?_⟩, by simp [union, ofTable, fits.or_some]⟩
    all_goals simp [Compatible, ofTable]

/-! ## Products -/

theorem mem_product
    {lefts rights : List Fragment} {merged : Fragment} :
    merged ∈ product lefts rights ↔
      ∃ left ∈ lefts, ∃ right ∈ rights,
        left.merge right = some merged := by
  simp [product, List.mem_flatMap, List.mem_filterMap]

/-- A product with one fragment merges it into each of the others. -/
theorem product_single (fragments : List Fragment) (added : Fragment) :
    product fragments [added] = fragments.filterMap fun fragment => fragment.merge added := by
  induction fragments with
  | nil => rfl
  | cons fragment rest inductionHypothesis =>
      have head : product (fragment :: rest) [added] =
          [added].filterMap fragment.merge ++ product rest [added] := rfl
      rw [head, inductionHypothesis, List.filterMap_cons, List.filterMap_cons, List.filterMap_nil]
      cases fragment.merge added <;> rfl

/-- A product of several lists is one of fewer lists, the first two of them multiplied. -/
theorem combineLists_cons_cons
    (first second : List Fragment) (rest : List (List Fragment)) :
    combineLists (first :: second :: rest) =
      combineLists (product first second :: rest) := rfl

theorem combine_pair (first second : List Fragment) :
    combine [some first, some second] = product first second := rfl

/-! ## Where attributes come from -/

/-- The second fragment keeps all that the first one states. -/
structure Extends (part whole : Fragment) : Prop where
  family : ∀ a, part.family = some a → whole.family = some a
  table : ∀ a, part.table = some a → whole.table = some a
  chain : ∀ a, part.chain = some a → whole.chain = some a
  target : ∀ a, part.target = some a → whole.target = some a
  position : ∀ a, part.position = some a → whole.position = some a
  tokens : part.tokens.Sublist whole.tokens

theorem Extends.refl (fragment : Fragment) : Extends fragment fragment :=
  ⟨fun _ h => h, fun _ h => h, fun _ h => h, fun _ h => h, fun _ h => h,
    List.Sublist.refl _⟩

theorem Extends.trans
    {first second third : Fragment}
    (lower : Extends first second) (upper : Extends second third) :
    Extends first third :=
  ⟨fun a h => upper.family a (lower.family a h),
    fun a h => upper.table a (lower.table a h),
    fun a h => upper.chain a (lower.chain a h),
    fun a h => upper.target a (lower.target a h),
    fun a h => upper.position a (lower.position a h),
    lower.tokens.trans upper.tokens⟩

private theorem or_eq_some_of_compatible
    {α : Type} {mine theirs : Option α} {b : α}
    (compatible : Compatible mine theirs)
    (set : theirs = some b) :
    mine.or theirs = some b := by
  cases mine with
  | none => simpa using set
  | some a => simpa using compatible a rfl b set

theorem extends_merge_left
    {left right merged : Fragment}
    (merges : left.merge right = some merged) :
    Extends left merged := by
  obtain ⟨-, rfl⟩ := merge_eq_some_iff.1 merges
  constructor <;> simp +contextual [union]

theorem extends_merge_right
    {left right merged : Fragment}
    (merges : left.merge right = some merged) :
    Extends right merged := by
  obtain ⟨agree, rfl⟩ := merge_eq_some_iff.1 merges
  exact ⟨fun _ => or_eq_some_of_compatible agree.family,
    fun _ => or_eq_some_of_compatible agree.table,
    fun _ => or_eq_some_of_compatible agree.chain,
    fun _ => or_eq_some_of_compatible agree.target,
    fun _ => or_eq_some_of_compatible agree.position,
    List.sublist_append_right _ _⟩

/-- A member of a product keeps what one fragment of each list states. -/
theorem exists_extends_of_mem_combineLists
    {lists : List (List Fragment)} {merged : Fragment}
    (member : merged ∈ combineLists lists) :
    ∀ list ∈ lists, ∃ part ∈ list, Extends part merged := by
  match lists with
  | [] => simp [combineLists] at member
  | [only] =>
      intro list listMember
      obtain rfl := List.mem_singleton.1 listMember
      exact ⟨merged, member, Extends.refl merged⟩
  | first :: second :: rest =>
      rw [combineLists_cons_cons] at member
      have inner := exists_extends_of_mem_combineLists member
      obtain ⟨between, betweenMember, upper⟩ :=
        inner (product first second) (List.mem_cons_self ..)
      obtain ⟨left, leftMember, right, rightMember, merges⟩ :=
        mem_product.1 betweenMember
      rintro list (_ | ⟨_, _ | ⟨_, restMember⟩⟩)
      · exact ⟨left, leftMember, (extends_merge_left merges).trans upper⟩
      · exact ⟨right, rightMember, (extends_merge_right merges).trans upper⟩
      · exact inner list (List.mem_cons_of_mem _ restMember)
termination_by lists.length

/-- An attribute that a member of a product states is stated by a fragment of one of the lists. -/
theorem exists_origin_of_mem_combineLists
    {α : Type} (field : Fragment → Option α)
    (unites : ∀ left right : Fragment,
      field (left.union right) = (field left).or (field right))
    {lists : List (List Fragment)} {merged : Fragment} {a : α}
    (member : merged ∈ combineLists lists)
    (stated : field merged = some a) :
    ∃ list ∈ lists, ∃ part ∈ list, field part = some a := by
  match lists with
  | [] => simp [combineLists] at member
  | [only] => exact ⟨only, List.mem_singleton.2 rfl, merged, member, stated⟩
  | first :: second :: rest =>
      rw [combineLists_cons_cons] at member
      obtain ⟨list, listMember, part, partMember, partStated⟩ :=
        exists_origin_of_mem_combineLists field unites member stated
      rcases List.mem_cons.1 listMember with rfl | restMember
      · obtain ⟨left, leftMember, right, rightMember, merges⟩ :=
          mem_product.1 partMember
        obtain ⟨-, rfl⟩ := merge_eq_some_iff.1 merges
        rw [unites, Option.or_eq_some_iff] at partStated
        rcases partStated with fromLeft | ⟨-, fromRight⟩
        · exact ⟨first, by simp, left, leftMember, fromLeft⟩
        · exact ⟨second, by simp, right, rightMember, fromRight⟩
      · exact ⟨list, by simp [restMember], part, partMember, partStated⟩
termination_by lists.length

section Products

variable {lists : List (Option (List Fragment))} {merged : Fragment}

theorem exists_extends_of_mem_combine
    (member : merged ∈ combine lists)
    {list : List Fragment} (given : some list ∈ lists) :
    ∃ part ∈ list, Extends part merged :=
  exists_extends_of_mem_combineLists member list (by simpa using given)

theorem exists_origin_of_mem_combine
    {α : Type} (field : Fragment → Option α)
    (unites : ∀ left right : Fragment,
      field (left.union right) = (field left).or (field right))
    {a : α}
    (member : merged ∈ combine lists)
    (stated : field merged = some a) :
    ∃ list, some list ∈ lists ∧ ∃ part ∈ list, field part = some a := by
  obtain ⟨list, listMember, part, partMember, partStated⟩ :=
    exists_origin_of_mem_combineLists field unites member stated
  exact ⟨list, by simpa using listMember, part, partMember, partStated⟩

/-- What no part states, no member of the product states. -/
theorem eq_none_of_mem_combine
    {α : Type} (field : Fragment → Option α)
    (unites : ∀ left right : Fragment,
      field (left.union right) = (field left).or (field right))
    (member : merged ∈ combine lists)
    (unset : ∀ list, some list ∈ lists → ∀ part ∈ list, field part = none) :
    field merged = none := by
  refine Option.eq_none_iff_forall_ne_some.2 fun a stated => ?_
  obtain ⟨list, given, part, isPart, partStated⟩ :=
    exists_origin_of_mem_combine field unites member stated
  rw [unset list given part isPart] at partStated
  cases partStated

/-- The target of a member of a product is the target of one of its parts. -/
theorem exists_target_of_mem_combine
    {target : String}
    (member : merged ∈ combine lists)
    (stated : merged.target = some target) :
    ∃ list, some list ∈ lists ∧ ∃ part ∈ list, part.target = some target :=
  exists_origin_of_mem_combine Fragment.target
    (fun _ _ => rfl) member stated

/-- The chain of a member of a product is the chain of one of its parts. -/
theorem exists_chain_of_mem_combine
    {chain : String}
    (member : merged ∈ combine lists)
    (stated : merged.chain = some chain) :
    ∃ list, some list ∈ lists ∧ ∃ part ∈ list, part.chain = some chain :=
  exists_origin_of_mem_combine Fragment.chain
    (fun _ _ => rfl) member stated

/-- The position of a member of a product is the position of one of its parts. -/
theorem exists_position_of_mem_combine
    {position : String}
    (member : merged ∈ combine lists)
    (stated : merged.position = some position) :
    ∃ list, some list ∈ lists ∧ ∃ part ∈ list, part.position = some position :=
  exists_origin_of_mem_combine Fragment.position
    (fun _ _ => rfl) member stated

end Products

end FirewallPolicy.Fragment
