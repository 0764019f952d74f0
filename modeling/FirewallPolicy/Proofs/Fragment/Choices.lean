import FirewallPolicy.Proofs.Fragment.Correspondence
import FirewallPolicy.Proofs.Fragment.Meaning

/-!
# Choices from lists

A product is the list of the merges of all choices of one fragment from each list, in the order of
the positions chosen.  A choice has no merge when two of its fragments conflict.  The tokens of a
merge are those of its fragments in order, and fragments that one assignment satisfies do merge.
-/

namespace FirewallPolicy.Fragment

variable {start merged left right part : Fragment} {chosen firsts : List Fragment}
  {lists : List (List Fragment)} {given : List (Option (List Fragment))} {assignment : Assignment}

/-- The merge of fragments, one after the other. -/
def mergeAll (start : Fragment) (chosen : List Fragment) : Option Fragment :=
  chosen.foldlM merge start

theorem mergeAll_cons_eq_some :
    start.mergeAll (part :: chosen) = some merged ↔
      ∃ both, start.merge part = some both ∧ both.mergeAll chosen = some merged := by
  rw [mergeAll, List.foldlM_cons]
  exact Option.bind_eq_some_iff

/-- Merging keeps what each fragment asks for. -/
theorem extends_of_mergeAll (merges : start.mergeAll chosen = some merged) :
    start.Extends merged ∧ ∀ part ∈ chosen, part.Extends merged := by
  induction chosen generalizing start with
  | nil =>
      obtain rfl := Option.some.inj merges
      exact ⟨Extends.refl _, fun part none => absurd none List.not_mem_nil⟩
  | cons part rest inductionHypothesis =>
      obtain ⟨both, mergesFirst, mergesRest⟩ := mergeAll_cons_eq_some.1 merges
      obtain ⟨upper, others⟩ := inductionHypothesis mergesRest
      refine ⟨(extends_merge_left mergesFirst).trans upper, List.forall_mem_cons.2 ⟨?_, others⟩⟩
      exact (extends_merge_right mergesFirst).trans upper

theorem tokens_of_mergeAll (merges : start.mergeAll chosen = some merged) :
    merged.tokens = start.tokens ++ chosen.flatMap (·.tokens) := by
  induction chosen generalizing start with
  | nil =>
      obtain rfl := Option.some.inj merges
      simp
  | cons part rest inductionHypothesis =>
      obtain ⟨both, mergesFirst, mergesRest⟩ := mergeAll_cons_eq_some.1 merges
      obtain ⟨_, rfl⟩ := merge_eq_some_iff.1 mergesFirst
      simp [inductionHypothesis mergesRest, union]

/-- The chain of a merge is the chain of the start or of one of the fragments. -/
theorem exists_chain_of_mergeAll
    {chain : String} (merges : start.mergeAll chosen = some merged)
    (stands : merged.chain = some chain) :
    start.chain = some chain ∨ ∃ part ∈ chosen, part.chain = some chain := by
  induction chosen generalizing start with
  | nil =>
      obtain rfl := Option.some.inj merges
      exact Or.inl stands
  | cons part rest inductionHypothesis =>
      obtain ⟨both, mergesFirst, mergesRest⟩ := mergeAll_cons_eq_some.1 merges
      obtain ⟨_, rfl⟩ := merge_eq_some_iff.1 mergesFirst
      rcases inductionHypothesis mergesRest with early | ⟨later, isLater, standsLater⟩
      · rcases Option.or_eq_some_iff.1 early with fromStart | ⟨-, fromPart⟩
        · exact Or.inl fromStart
        · exact Or.inr ⟨part, List.mem_cons_self .., fromPart⟩
      · exact Or.inr ⟨later, List.mem_cons_of_mem _ isLater, standsLater⟩

/-- Fragments that one assignment satisfies merge, and the assignment satisfies the merge. -/
theorem exists_mergeAll
    (isStart : Satisfied start assignment) (each : ∀ part ∈ chosen, Satisfied part assignment) :
    ∃ merged, start.mergeAll chosen = some merged ∧ Satisfied merged assignment := by
  induction chosen generalizing start with
  | nil => exact ⟨start, rfl, isStart⟩
  | cons part rest inductionHypothesis =>
      obtain ⟨first, others⟩ := List.forall_mem_cons.1 each
      have agree : Agree start part := Agree.of_satisfied isStart first
      obtain ⟨merged, merges, satisfied⟩ :=
        inductionHypothesis ((satisfied_union_iff agree assignment).2 ⟨isStart, first⟩) others
      exact ⟨merged, mergeAll_cons_eq_some.2 ⟨_, merge_eq_some_iff.2 ⟨agree, rfl⟩, merges⟩,
        satisfied⟩

/-! ## All choices in order -/

section Choices

variable {α : Type}

/-- All choices of one member from each list, the member of the first list varying slowest. -/
def choices : List (List α) → List (List α)
  | [] => [[]]
  | list :: rest => list.flatMap fun a => (choices rest).map (a :: ·)

/-- All choices of one position in each list. -/
def positionChoices (lists : List (List α)) : List (List Nat) :=
  choices (lists.map fun list => List.range list.length)

theorem mem_choices {lists : List (List α)} {chosen : List α} :
    chosen ∈ choices lists ↔ List.Forall₂ (· ∈ ·) chosen lists := by
  induction lists generalizing chosen with
  | nil => simp [choices]
  | cons list rest inductionHypothesis =>
      simp only [choices, List.mem_flatMap, List.mem_map, inductionHypothesis,
        List.forall₂_cons_right_iff]
      constructor
      · rintro ⟨a, isMember, others, areChosen, rfl⟩
        exact ⟨a, others, isMember, areChosen, rfl⟩
      · rintro ⟨a, others, isMember, areChosen, rfl⟩
        exact ⟨a, isMember, others, areChosen, rfl⟩

theorem mem_positionChoices {lists : List (List α)} {positions : List Nat} :
    positions ∈ positionChoices lists ↔
      List.Forall₂ (fun position list => position < list.length) positions lists := by
  simp [positionChoices, mem_choices, List.forall₂_map_right_iff]

/-- Choices from ascending lists ascend lexicographically. -/
theorem pairwise_lex_choices
    {before : α → α → Prop} {lists : List (List α)}
    (ascending : ∀ list ∈ lists, list.Pairwise before) :
    (choices lists).Pairwise (List.Lex before) := by
  induction lists with
  | nil => exact List.pairwise_singleton _ _
  | cons list rest inductionHypothesis =>
      obtain ⟨firstAscends, others⟩ := List.forall_mem_cons.1 ascending
      refine List.pairwise_flatMap.2 ⟨fun a _ => ?_, firstAscends.imp fun less => ?_⟩
      · exact List.pairwise_map.2 ((inductionHypothesis others).imp List.Lex.cons)
      · intro one isOne two isTwo
        obtain ⟨_, _, rfl⟩ := List.mem_map.1 isOne
        obtain ⟨_, _, rfl⟩ := List.mem_map.1 isTwo
        exact List.Lex.rel less

theorem pairwise_lex_positionChoices (lists : List (List α)) :
    (positionChoices lists).Pairwise (List.Lex (· < ·)) := by
  refine pairwise_lex_choices fun positions member => ?_
  obtain ⟨list, _, rfl⟩ := List.mem_map.1 member
  exact List.pairwise_lt_range

end Choices

/-- The fragments that stand at the positions. -/
def membersAt (lists : List (List Fragment)) (positions : List Nat) : List Fragment :=
  List.zipWith (fun list position => list.getD position {}) lists positions

theorem map_getD_range (list : List Fragment) :
    (List.range list.length).map (fun position => list.getD position {}) = list := by
  refine List.ext_getElem (by simp) fun position _ inBounds => ?_
  simp [inBounds]

theorem choices_eq_map_membersAt (lists : List (List Fragment)) :
    choices lists = (positionChoices lists).map (membersAt lists) := by
  induction lists with
  | nil => rfl
  | cons list rest inductionHypothesis =>
      have unfolded : (positionChoices (list :: rest)).map (membersAt (list :: rest)) =
          (List.range list.length).flatMap fun position =>
            ((positionChoices rest).map (membersAt rest)).map (list.getD position {} :: ·) := by
        simp [positionChoices, choices, membersAt, List.map_flatMap, Function.comp_def]
      rw [unfolded, ← inductionHypothesis, choices]
      conv_lhs => rw [← map_getD_range list, List.flatMap_map]

/-! ## Products of several lists -/

/-- The merges of a fragment with choices from one more list. -/
theorem filterMap_mergeAll_choices
    (start : Fragment) (list : List Fragment) (rest : List (List Fragment)) :
    (choices (list :: rest)).filterMap start.mergeAll =
      (list.filterMap start.merge).flatMap fun both => (choices rest).filterMap both.mergeAll := by
  induction list with
  | nil => rfl
  | cons part others inductionHypothesis =>
      have step : (choices ((part :: others) :: rest)).filterMap start.mergeAll =
          (choices rest).filterMap (fun chosen => start.mergeAll (part :: chosen)) ++
            (choices (others :: rest)).filterMap start.mergeAll := by
        simp [choices, List.filterMap_map]
      have continued : (fun chosen => start.mergeAll (part :: chosen)) = fun chosen =>
          (start.merge part).bind fun both => both.mergeAll chosen := rfl
      rw [step, inductionHypothesis, continued]
      cases merges : start.merge part <;> simp [merges]

/-- The induction over the lists: the first two are multiplied and stand for one. -/
theorem foldl_product_eq_flatMap (firsts : List Fragment) (lists : List (List Fragment)) :
    lists.foldl product firsts =
      firsts.flatMap fun start => (choices lists).filterMap start.mergeAll := by
  induction lists generalizing firsts with
  | nil => simp [choices, mergeAll]
  | cons list rest inductionHypothesis =>
      rw [List.foldl_cons, inductionHypothesis, product, List.flatMap_assoc]
      simp only [filterMap_mergeAll_choices]

theorem mem_foldl_product :
    merged ∈ lists.foldl product firsts ↔
      ∃ start ∈ firsts, ∃ chosen, List.Forall₂ (· ∈ ·) chosen lists ∧
        start.mergeAll chosen = some merged := by
  simp only [foldl_product_eq_flatMap, List.mem_flatMap, List.mem_filterMap, mem_choices]

/-- A member of a product is the merge of one fragment from each list that is given. -/
theorem mem_combine_iff (some_ : ∃ list, some list ∈ given) :
    merged ∈ combine given ↔
      ∃ chosen, List.Forall₂ (fun part list => part ∈ orAny list) chosen given ∧
        mergeAll {} chosen = some merged := by
  rw [combine_eq_foldl given some_, mem_foldl_product]
  simp only [List.mem_singleton, exists_eq_left, List.forall₂_map_right_iff]

/-! ## Merging a choice -/

/-- The merge of a choice, from left to right. -/
def mergeChoice? : List Fragment → Option Fragment
  | [] => none
  | start :: chosen => start.mergeAll chosen

theorem combine_eq_filterMap (given : List (Option (List Fragment))) :
    combine given = (choices (given.filterMap id)).filterMap mergeChoice? := by
  unfold combine
  cases given.filterMap id with
  | nil => rfl
  | cons first rest =>
      rw [combineLists, foldl_product_eq_flatMap, choices, List.filterMap_flatMap]
      simp [List.filterMap_map, Function.comp_def, mergeChoice?]

/-! ## Common values -/

section Attributes

variable {α : Type} {mine theirs value : Option α} {rest : List (Option α)}

/-- The value that the attributes are set to, if any of them is. -/
def IsCommon (stated : List (Option α)) (value : Option α) : Prop :=
  ∀ a, value = some a ↔ some a ∈ stated

theorem isCommon_singleton (value : Option α) : IsCommon [value] value := by
  simp [IsCommon, eq_comm]

/-- Two attributes that are compatible may be merged. -/
theorem isCommon_or_cons (compatible : Compatible mine theirs) :
    IsCommon (mine.or theirs :: rest) value ↔ IsCommon (mine :: theirs :: rest) value := by
  have either (a : α) : mine.or theirs = some a ↔ mine = some a ∨ theirs = some a := by
    constructor
    · intro set
      exact (Option.or_eq_some_iff.1 set).imp_right And.right
    · rintro (rfl | set)
      · rfl
      · rw [or_comm_of_compatible compatible, set]
        rfl
  simp only [IsCommon, List.mem_cons, @eq_comm _ (some _), either, or_assoc]

end Attributes

/-- Each attribute has the common value of the fragments that set it, and the tokens are theirs in
order. -/
structure Joins (chosen : List Fragment) (merged : Fragment) : Prop where
  family : IsCommon (chosen.map (·.family)) merged.family
  table : IsCommon (chosen.map (·.table)) merged.table
  chain : IsCommon (chosen.map (·.chain)) merged.chain
  target : IsCommon (chosen.map (·.target)) merged.target
  position : IsCommon (chosen.map (·.position)) merged.position
  index : IsCommon (chosen.map (·.index)) merged.index
  tokens : merged.tokens = chosen.flatMap (·.tokens)

theorem joins_singleton (fragment : Fragment) : Joins [fragment] fragment :=
  ⟨isCommon_singleton _, isCommon_singleton _, isCommon_singleton _, isCommon_singleton _,
    isCommon_singleton _, isCommon_singleton _, by simp⟩

/-- The merge of two fragments may stand for them. -/
theorem joins_union_cons (agree : Agree left right) :
    Joins (left.union right :: chosen) merged ↔ Joins (left :: right :: chosen) merged := by
  have tokens : (left.union right :: chosen).flatMap (·.tokens) =
      (left :: right :: chosen).flatMap (·.tokens) := by
    simp [union]
  constructor
  · intro joins
    exact ⟨(isCommon_or_cons agree.family).1 joins.family,
      (isCommon_or_cons agree.table).1 joins.table,
      (isCommon_or_cons agree.chain).1 joins.chain,
      (isCommon_or_cons agree.target).1 joins.target,
      (isCommon_or_cons agree.position).1 joins.position,
      (isCommon_or_cons agree.index).1 joins.index, joins.tokens.trans tokens⟩
  · intro joins
    exact ⟨(isCommon_or_cons agree.family).2 joins.family,
      (isCommon_or_cons agree.table).2 joins.table,
      (isCommon_or_cons agree.chain).2 joins.chain,
      (isCommon_or_cons agree.target).2 joins.target,
      (isCommon_or_cons agree.position).2 joins.position,
      (isCommon_or_cons agree.index).2 joins.index, joins.tokens.trans tokens.symm⟩

/-- Fragments merge when no two of them conflict.  The induction is on the fragments still to be
merged, of which the next one is merged with the start. -/
theorem exists_mergeAll_iff :
    (∃ merged, start.mergeAll chosen = some merged) ↔ (start :: chosen).Pairwise Agree := by
  induction chosen generalizing start with
  | nil => simp [mergeAll]
  | cons part rest inductionHypothesis =>
      have agree_all (agree : Agree start part) :
          (start.union part :: rest).Pairwise Agree ↔ (start :: part :: rest).Pairwise Agree := by
        simp only [List.pairwise_cons, agree_union_iff agree, List.forall_mem_cons, agree,
          true_and, forall_and]
        tauto
      simp only [mergeAll_cons_eq_some]
      constructor
      · rintro ⟨merged, both, merges, mergesRest⟩
        obtain ⟨agree, rfl⟩ := merge_eq_some_iff.1 merges
        exact (agree_all agree).1 (inductionHypothesis.1 ⟨merged, mergesRest⟩)
      · intro agreeing
        have agree : Agree start part := List.rel_of_pairwise_cons agreeing (List.mem_cons_self ..)
        obtain ⟨merged, mergesRest⟩ := inductionHypothesis.2 ((agree_all agree).2 agreeing)
        exact ⟨merged, start.union part, merge_eq_some_iff.2 ⟨agree, rfl⟩, mergesRest⟩

theorem joins_of_mergeAll (merges : start.mergeAll chosen = some merged) :
    Joins (start :: chosen) merged := by
  induction chosen generalizing start with
  | nil =>
      obtain rfl := Option.some.inj merges
      exact joins_singleton start
  | cons part rest inductionHypothesis =>
      obtain ⟨both, mergesFirst, mergesRest⟩ := mergeAll_cons_eq_some.1 merges
      obtain ⟨agree, rfl⟩ := merge_eq_some_iff.1 mergesFirst
      exact (joins_union_cons agree).1 (inductionHypothesis mergesRest)

/-- Fragments of a choice agree in pairs when any two of them agree. -/
theorem pairwise_agree_iff :
    chosen.Pairwise Agree ↔ ∀ left ∈ chosen, ∀ right ∈ chosen, Agree left right := by
  constructor
  · intro pairs left isLeft right isRight
    exact pairs.forall_of_forall_of_flip (fun fragment _ => Agree.refl fragment)
      (pairs.imp Agree.symm) isLeft isRight
  · intro agreeing
    exact List.pairwise_of_forall_mem_list agreeing

/-- A choice has no merge when two of its fragments conflict, or when there is nothing to merge. -/
theorem mergeChoice?_eq_none_iff :
    mergeChoice? chosen = none ↔
      chosen = [] ∨ ∃ left ∈ chosen, ∃ right ∈ chosen, ¬ Agree left right := by
  cases chosen with
  | nil => simp [mergeChoice?]
  | cons start rest =>
      have merges : (∃ merged, mergeChoice? (start :: rest) = some merged) ↔
          ∀ left ∈ start :: rest, ∀ right ∈ start :: rest, Agree left right :=
        exists_mergeAll_iff.trans pairwise_agree_iff
      rw [← Option.not_isSome_iff_eq_none, Option.isSome_iff_exists, merges]
      push Not
      simp

theorem joins_of_mergeChoice? (merges : mergeChoice? chosen = some merged) :
    Joins chosen merged := by
  cases chosen with
  | nil => cases merges
  | cons start rest => exact joins_of_mergeAll merges

/-- The product has the merges of the choices, in the order of the positions chosen: a choice
without a conflict gives the values its fragments have in common and all their tokens.  Products may
be regrouped, absent lists left out, and the fragment that asks for nothing is neutral. -/
theorem combine_ordered_product :
    (∀ lists : List (List Fragment),
      combine (lists.map some) =
          (positionChoices lists).filterMap (fun positions =>
            mergeChoice? (membersAt lists positions)) ∧
        (positionChoices lists).Pairwise (List.Lex (· < ·)) ∧
        ∀ positions, positions ∈ positionChoices lists ↔
          List.Forall₂ (fun position list => position < list.length) positions lists) ∧
    (∀ chosen : List Fragment,
      (mergeChoice? chosen = none ↔
        chosen = [] ∨ ∃ left ∈ chosen, ∃ right ∈ chosen, ¬ Agree left right) ∧
      ∀ merged, mergeChoice? chosen = some merged → Joins chosen merged) ∧
    (∀ first second third : List Fragment,
      combine [some first, some (combine [some second, some third])] =
          combine [some first, some second, some third] ∧
        combine [some (combine [some first, some second]), some third] =
          combine [some first, some second, some third]) ∧
    (∀ early late : List (Option (List Fragment)),
      combine (early ++ none :: late) = combine (early ++ late)) ∧
    ∀ list : List Fragment,
      combine [some [{}], some list] = list ∧ combine [some list, some [{}]] = list := by
  refine ⟨fun lists => ⟨?_, pairwise_lex_positionChoices lists, fun _ => mem_positionChoices⟩,
    fun chosen => ⟨mergeChoice?_eq_none_iff, fun _ => joins_of_mergeChoice?⟩,
    fun first second third => ?_, fun early late => ?_, fun list => ?_⟩
  · have given : (lists.map some).filterMap id = lists := by simp
    rw [combine_eq_filterMap, given, choices_eq_map_membersAt, List.filterMap_map]
    rfl
  · have three : combine [some first, some second, some third] =
        product (product first second) third := rfl
    rw [three, combine_pair, combine_pair, combine_pair, combine_pair]
    exact ⟨(product_assoc first second third).symm, rfl⟩
  · simp [combine]
  · exact ⟨(combine_pair _ _).trans (empty_product list),
      (combine_pair _ _).trans (product_empty list)⟩

example :
    (combine [some [ofChain "INPUT", ofChain "FORWARD"],
      some [matching ["-i lan"], ofChain "FORWARD"]]).map (·.tokens) =
      [["-i lan"], ["-i lan"], []] := by
  decide

/-! ## Properties of all tokens -/

/-- All tokens of the fragments have the property. -/
def AllTokens (property : String → Prop) (fragments : List Fragment) : Prop :=
  ∀ part ∈ fragments, ∀ token ∈ part.tokens, property token

section Tokens

variable {property : String → Prop} {fragments others : List Fragment}

theorem AllTokens.imp
    {further : String → Prop} (all : AllTokens property fragments)
    (implies : ∀ token, property token → further token) : AllTokens further fragments :=
  fun part member token isToken => implies token (all part member token isToken)

theorem AllTokens.append
    (first : AllTokens property fragments) (second : AllTokens property others) :
    AllTokens property (fragments ++ others) :=
  fun part member => (List.mem_append.1 member).elim (first part) (second part)

theorem allTokens_of_tokens_eq_nil {part : Fragment} (isEmpty : part.tokens = []) :
    AllTokens property [part] := by
  intro other member token isToken
  rw [List.mem_singleton.1 member, isEmpty] at isToken
  exact absurd isToken List.not_mem_nil

theorem allTokens_matching
    {tokens : List String} {part : Fragment} (isMatching : part.tokens = (matching tokens).tokens)
    (each : ∀ token ∈ tokens, property token) : AllTokens property [part] := by
  intro other member token isToken
  rw [List.mem_singleton.1 member, isMatching] at isToken
  exact each token (List.mem_filter.1 isToken).1

theorem allTokens_product
    (first : AllTokens property fragments) (second : AllTokens property others) :
    AllTokens property (product fragments others) := by
  intro merged member token isToken
  obtain ⟨left, isLeft, right, isRight, merges⟩ := mem_product.1 member
  obtain ⟨_, rfl⟩ := merge_eq_some_iff.1 merges
  rcases List.mem_append.1 isToken with inLeft | inRight
  · exact first left isLeft token inLeft
  · exact second right isRight token inRight

theorem allTokens_foldl
    (first : AllTokens property firsts) (each : ∀ list ∈ lists, AllTokens property list) :
    AllTokens property (lists.foldl product firsts) := by
  induction lists generalizing firsts with
  | nil => exact first
  | cons list rest inductionHypothesis =>
      obtain ⟨isFirst, others⟩ := List.forall_mem_cons.1 each
      exact inductionHypothesis (allTokens_product first isFirst) others

/-- The tokens of a product are those of its factors. -/
theorem allTokens_combine (each : ∀ list, some list ∈ given → AllTokens property list) :
    AllTokens property (combine given) := by
  have isGiven : ∀ list ∈ given.filterMap id, AllTokens property list := by
    intro list member
    apply each list
    simpa using member
  unfold combine
  revert isGiven
  cases given.filterMap id with
  | nil => exact fun _ part none => absurd none List.not_mem_nil
  | cons first rest =>
      intro isGiven
      obtain ⟨isFirst, isRest⟩ := List.forall_mem_cons.1 isGiven
      exact allTokens_foldl isFirst isRest

end Tokens

end FirewallPolicy.Fragment
