import FirewallPolicy.Proofs.Fragment.Correspondence
import FirewallPolicy.Proofs.Fragment.Options

/-!
# Mirror images of fragments

The mirror image of a fragment matches the traffic of the other direction: the hooks of received and
of sent traffic change places, and so do the options for the two sides of interfaces, addresses and
ports.  Fragments that ask for the same in another order of tokens are not told apart.
-/

namespace FirewallPolicy

/-! ## Options of the other direction -/

/-- The options for one side of traffic, each with the one for the other side. -/
def mirroredOptions : List (String × String) :=
  [("-i", "-o"), ("-o", "-i"), ("-s", "-d"), ("-d", "-s"),
    ("--sport", "--dport"), ("--dport", "--sport"),
    ("-m multiport --sports", "-m multiport --dports"),
    ("-m multiport --dports", "-m multiport --sports")]

/-- The token with the option for the other side, if it has an option for a side. -/
def mirrorToken (token : String) : String :=
  match mirroredOptions.find? fun pair => isOption pair.1 token with
  | some pair => pair.2 ++ " " ++ String.ofList (token.toList.drop (pair.1 ++ " ").length)
  | none => token

theorem mirroredOptions_distinct :
    ∀ pair ∈ mirroredOptions, ∀ other ∈ mirroredOptions,
      pair = other ∨ areDistinct pair.1 other.1 = true := by
  decide

theorem mirrorToken_option
    {option other : String} (isPair : (option, other) ∈ mirroredOptions) (value : String) :
    mirrorToken (option ++ " " ++ value) = other ++ " " ++ value := by
  have finds : mirroredOptions.find? (fun pair => isOption pair.1 (option ++ " " ++ value)) =
      some (option, other) := by
    cases found : mirroredOptions.find? fun pair => isOption pair.1 (option ++ " " ++ value) with
    | none =>
        have missed := List.find?_eq_none.1 found _ isPair
        exact absurd (isOption_self option value) missed
    | some pair =>
        have isOwn : isOption pair.1 (option ++ " " ++ value) = true := by
          simpa using List.find?_some found
        rcases mirroredOptions_distinct pair (List.mem_of_find?_eq_some found) _ isPair with
          rfl | distinct
        · rfl
        · rw [isOption_of_distinct distinct value] at isOwn
          cases isOwn
  have rest : (option ++ " " ++ value).toList.drop (option ++ " ").length = value.toList := by
    rw [String.toList_append, ← String.length_toList, List.drop_left]
  rw [mirrorToken, finds]
  simp only [rest, String.ofList_toList]

theorem mirrorToken_of_distinct
    {option : String} (distinct : ∀ pair ∈ mirroredOptions, areDistinct pair.1 option = true)
    (value : String) : mirrorToken (option ++ " " ++ value) = option ++ " " ++ value := by
  have missed : mirroredOptions.find? (fun pair => isOption pair.1 (option ++ " " ++ value)) =
      none := by
    refine List.find?_eq_none.2 fun pair isPair => ?_
    simp [isOption_of_distinct (distinct pair isPair) value]
  simp [mirrorToken, missed]

theorem isEmpty_mirrorToken (token : String) : (mirrorToken token).isEmpty = token.isEmpty := by
  unfold mirrorToken
  split
  · next pair found =>
      have isOwn : isOption pair.1 token = true := by simpa using List.find?_some found
      have nonempty : token.isEmpty = false := by
        rw [Bool.eq_false_iff]
        intro isEmpty
        obtain rfl := String.isEmpty_iff.1 isEmpty
        simp [isOption] at isOwn
      rw [isEmpty_option, nonempty]
  · rfl

/-- The chain for the traffic of the other direction. -/
def mirrorChain : String → String
  | "INPUT" => "OUTPUT"
  | "OUTPUT" => "INPUT"
  | chain => chain

theorem mirrorChain_mirrorChain (chain : String) : mirrorChain (mirrorChain chain) = chain := by
  by_cases received : chain = "INPUT"
  · subst received
    rfl
  by_cases sent : chain = "OUTPUT"
  · subst sent
    rfl
  have other : mirrorChain chain = chain := by simp [mirrorChain]
  rw [other, other]

theorem mirrorChain_injective {chain other : String} (same : mirrorChain chain = mirrorChain other) :
    chain = other := by
  rw [← mirrorChain_mirrorChain chain, same, mirrorChain_mirrorChain]

namespace Fragment

/-! ## Orders of tokens -/

/-- The fragments differ in the order of their tokens at most. -/
structure Reordered (left right : Fragment) : Prop where
  family : left.family = right.family
  table : left.table = right.table
  chain : left.chain = right.chain
  target : left.target = right.target
  position : left.position = right.position
  index : left.index = right.index
  tokens : left.tokens.Perm right.tokens

/-- The fragment for the traffic of the other direction. -/
def mirrored (fragment : Fragment) : Fragment :=
  { fragment with
    chain := fragment.chain.map mirrorChain
    tokens := fragment.tokens.map mirrorToken }

/-- The second fragment is the mirror image of the first one, up to the order of tokens. -/
def Mirrors (left right : Fragment) : Prop :=
  left.mirrored.Reordered right

variable {left right first second fragment : Fragment}

theorem Reordered.refl (fragment : Fragment) : fragment.Reordered fragment :=
  ⟨rfl, rfl, rfl, rfl, rfl, rfl, List.Perm.refl _⟩

theorem Reordered.symm (reordered : left.Reordered right) : right.Reordered left :=
  ⟨reordered.family.symm, reordered.table.symm, reordered.chain.symm, reordered.target.symm,
    reordered.position.symm, reordered.index.symm, reordered.tokens.symm⟩

theorem Reordered.trans (one : left.Reordered right) (two : right.Reordered first) :
    left.Reordered first :=
  ⟨one.family.trans two.family, one.table.trans two.table, one.chain.trans two.chain,
    one.target.trans two.target, one.position.trans two.position, one.index.trans two.index,
    one.tokens.trans two.tokens⟩

theorem Reordered.union
    (one : left.Reordered first) (two : right.Reordered second) :
    (left.union right).Reordered (first.union second) := by
  constructor
  case tokens => exact one.tokens.append two.tokens
  all_goals simp only [Fragment.union, one.family, two.family, one.table, two.table, one.chain,
    two.chain, one.target, two.target, one.position, two.position, one.index, two.index]

theorem Reordered.agree
    (one : left.Reordered first) (two : right.Reordered second) (agree : Agree first second) :
    Agree left right := by
  constructor
  · rw [one.family, two.family]
    exact agree.family
  · rw [one.table, two.table]
    exact agree.table
  · rw [one.chain, two.chain]
    exact agree.chain
  · rw [one.target, two.target]
    exact agree.target
  · rw [one.position, two.position]
    exact agree.position
  · rw [one.index, two.index]
    exact agree.index

theorem Reordered.agree_iff
    (one : left.Reordered first) (two : right.Reordered second) :
    Agree left right ↔ Agree first second :=
  ⟨one.symm.agree two.symm, one.agree two⟩

/-- In which order two fragments are merged shows in the order of tokens only. -/
theorem Agree.reordered_union (agree : Agree left right) :
    (left.union right).Reordered (right.union left) :=
  ⟨or_comm_of_compatible agree.family, or_comm_of_compatible agree.table,
    or_comm_of_compatible agree.chain, or_comm_of_compatible agree.target,
    or_comm_of_compatible agree.position, or_comm_of_compatible agree.index,
    List.perm_append_comm⟩

/-! ## Merging mirror images -/

theorem mirrors_of_eq (same : left.mirrored = right) : Mirrors left right :=
  same ▸ Reordered.refl _

theorem mirrors_empty : Mirrors {} {} :=
  mirrors_of_eq rfl

theorem mirrors_ofChain (chain : String) :
    Mirrors (ofChain chain) (ofChain (mirrorChain chain)) :=
  mirrors_of_eq rfl

theorem mirrors_ofFamily (family : String) : Mirrors (ofFamily family) (ofFamily family) :=
  mirrors_of_eq rfl

/-- What only matches is mirrored token by token. -/
theorem mirrors_matching
    {tokens others : List String} (same : tokens.map mirrorToken = others)
    (family : Option String) :
    Mirrors { matching tokens with family } { matching others with family } := by
  have kept : (tokens.map mirrorToken).filter (!·.isEmpty) =
      (tokens.filter (!·.isEmpty)).map mirrorToken := by
    rw [List.filter_map]
    congr 1
    exact List.filter_congr fun token _ => by simp [isEmpty_mirrorToken]
  subst same
  refine mirrors_of_eq ?_
  simp only [mirrored, matching, kept, Option.map_none]

theorem compatible_map_mirrorChain {mine theirs : Option String} :
    Compatible (mine.map mirrorChain) (theirs.map mirrorChain) ↔ Compatible mine theirs := by
  constructor
  · intro compatible a isMine b isTheirs
    have same := compatible (mirrorChain a) (by simp [isMine]) (mirrorChain b) (by simp [isTheirs])
    exact mirrorChain_injective same
  · intro compatible a isMine b isTheirs
    obtain ⟨a, isOwn, rfl⟩ := Option.map_eq_some_iff.1 isMine
    obtain ⟨b, isOther, rfl⟩ := Option.map_eq_some_iff.1 isTheirs
    rw [compatible a isOwn b isOther]

theorem mirrored_union (left right : Fragment) :
    (left.union right).mirrored = left.mirrored.union right.mirrored := by
  cases isChain : left.chain <;> simp [mirrored, union, isChain]

theorem agree_mirrored : Agree left.mirrored right.mirrored ↔ Agree left right :=
  ⟨fun agree => ⟨agree.family, agree.table, compatible_map_mirrorChain.1 agree.chain,
      agree.target, agree.position, agree.index⟩,
    fun agree => ⟨agree.family, agree.table, compatible_map_mirrorChain.2 agree.chain,
      agree.target, agree.position, agree.index⟩⟩

theorem respectsMerge_mirrors : RespectsMerge Mirrors := by
  intro left right first second one two
  constructor
  · rw [← agree_mirrored]
    exact one.agree_iff two
  · intro _
    rw [Mirrors, mirrored_union]
    exact one.union two

/-- The mirror image of a product, with its factors in the opposite order. -/
theorem corresponds_product_swap
    {lefts rights firsts seconds : List Fragment}
    (one : Corresponds Mirrors lefts seconds) (two : Corresponds Mirrors rights firsts) :
    Corresponds Mirrors (product lefts rights) (product firsts seconds) := by
  have inOrder : Corresponds Mirrors (product lefts rights) (product seconds firsts) :=
    corresponds_product respectsMerge_mirrors one two
  have swapped (first second : Fragment) (agree : Agree first second) :
      second.merge first = some (second.union first) :=
    merge_eq_some_iff.2 ⟨agree.symm, rfl⟩
  constructor
  · intro merged member
    obtain ⟨other, isOther, mirrors⟩ := inOrder.forth merged member
    obtain ⟨second, isSecond, first, isFirst, merges⟩ := mem_product.1 isOther
    obtain ⟨agree, rfl⟩ := merge_eq_some_iff.1 merges
    refine ⟨first.union second, mem_product.2 ⟨first, isFirst, second, isSecond, ?_⟩, ?_⟩
    · exact swapped second first agree
    · exact mirrors.trans agree.reordered_union
  · intro merged member
    obtain ⟨first, isFirst, second, isSecond, merges⟩ := mem_product.1 member
    obtain ⟨agree, rfl⟩ := merge_eq_some_iff.1 merges
    have isOther : second.union first ∈ product seconds firsts :=
      mem_product.2 ⟨second, isSecond, first, isFirst, swapped first second agree⟩
    obtain ⟨origin, isOrigin, mirrors⟩ := inOrder.back _ isOther
    exact ⟨origin, isOrigin, mirrors.trans agree.symm.reordered_union⟩

end Fragment

end FirewallPolicy
