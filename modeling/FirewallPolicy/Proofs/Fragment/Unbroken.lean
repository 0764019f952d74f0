import FirewallPolicy.Proofs.Fragment.Choices
import FirewallPolicy.Proofs.Run.Contract
import FirewallPolicy.Proofs.Text.Unbroken

/-!
# Fragments on one line

What a fragment says about a rule is written on one line when none of its texts has a line break.
A product of such fragments is made of such fragments.
-/

namespace FirewallPolicy.Fragment

/-- No text that ends up in a rule, or in the names of its place, has a line break. -/
structure IsUnbroken (fragment : Fragment) : Prop where
  family : IfGiven Text.IsUnbroken fragment.family
  table : IfGiven Text.IsUnbroken fragment.table
  chain : IfGiven Text.IsUnbroken fragment.chain
  target : IfGiven Text.IsUnbroken fragment.target
  tokens : ∀ token ∈ fragment.tokens, Text.IsUnbroken token

/-- No fragment of the list has a line break. -/
def AreUnbroken (fragments : List Fragment) : Prop :=
  ∀ fragment ∈ fragments, fragment.IsUnbroken

variable {fragments others : List Fragment}

theorem AreUnbroken.append
    (first : AreUnbroken fragments) (second : AreUnbroken others) :
    AreUnbroken (fragments ++ others) :=
  List.forall_mem_append.2 ⟨first, second⟩

theorem areUnbroken_map
    {α : Type} {items : List α} {make : α → Fragment}
    (each : ∀ item ∈ items, (make item).IsUnbroken) : AreUnbroken (items.map make) :=
  List.forall_mem_map.2 each

theorem areUnbroken_flatten
    {lists : List (List Fragment)} (each : ∀ list ∈ lists, AreUnbroken list) :
    AreUnbroken lists.flatten := by
  intro fragment member
  obtain ⟨list, isList, inList⟩ := List.mem_flatten.1 member
  exact each list isList fragment inList

/-! ## Products -/

theorem areUnbroken_combine
    {lists : List (Option (List Fragment))} (each : ∀ given ∈ lists, IfGiven AreUnbroken given) :
    AreUnbroken (combine lists) := by
  have stated {field : Fragment → Option String}
      (unites : ∀ left right : Fragment, field (left.union right) = (field left).or (field right))
      (unbroken : ∀ part : Fragment, part.IsUnbroken → ∀ text, field part = some text →
        Text.IsUnbroken text)
      {merged : Fragment} (member : merged ∈ combine lists) (text : String)
      (states : field merged = some text) : Text.IsUnbroken text := by
    obtain ⟨list, given, part, isPart, partStates⟩ :=
      exists_origin_of_mem_combine field unites member states
    exact unbroken part (each (some list) given list rfl part isPart) text partStates
  have tokens : AllTokens Text.IsUnbroken (combine lists) :=
    allTokens_combine fun list given part isPart =>
      (each (some list) given list rfl part isPart).tokens
  intro merged member
  exact {
    family := stated (fun _ _ => rfl) (fun _ unbroken => unbroken.family) member
    table := stated (fun _ _ => rfl) (fun _ unbroken => unbroken.table) member
    chain := stated (fun _ _ => rfl) (fun _ unbroken => unbroken.chain) member
    target := stated (fun _ _ => rfl) (fun _ unbroken => unbroken.target) member
    tokens := tokens merged member }

theorem areUnbroken_restricted
    {given : Option (List Fragment)} (first : IfGiven AreUnbroken given)
    (second : AreUnbroken others) : AreUnbroken (combine [given, some others]) := by
  refine areUnbroken_combine ?_
  simpa using ⟨first, second⟩

theorem AreUnbroken.combine
    (first : AreUnbroken fragments) (second : AreUnbroken others) :
    AreUnbroken (combine [some fragments, some others]) :=
  areUnbroken_restricted (ifGiven_some.2 first) second

/-! ## Single fragments -/

theorem areUnbroken_singleton {fragment : Fragment} (unbroken : fragment.IsUnbroken) :
    AreUnbroken [fragment] :=
  List.forall_mem_singleton.2 unbroken

theorem isUnbroken_empty : IsUnbroken {} := by
  constructor <;> simp

theorem isUnbroken_matching {tokens : List String}
    (each : ∀ token ∈ tokens, Text.IsUnbroken token) : (matching tokens).IsUnbroken :=
  { isUnbroken_empty with
    tokens := fun token member => each token (List.mem_filter.1 member).1 }

theorem IsUnbroken.withFamily {fragment : Fragment} (unbroken : fragment.IsUnbroken)
    {family : Option String} (isFamily : IfGiven Text.IsUnbroken family) :
    IsUnbroken { fragment with family := family } :=
  { unbroken with family := isFamily }

theorem IsUnbroken.withChain {fragment : Fragment} (unbroken : fragment.IsUnbroken)
    {chain : String} (isChain : Text.IsUnbroken chain) :
    IsUnbroken { fragment with chain := some chain } :=
  { unbroken with chain := ifGiven_some.2 isChain }

theorem IsUnbroken.withTarget {fragment : Fragment} (unbroken : fragment.IsUnbroken)
    {target : String} (isTarget : Text.IsUnbroken target) :
    IsUnbroken { fragment with target := some target } :=
  { unbroken with target := ifGiven_some.2 isTarget }

theorem isUnbroken_ofTarget {target : String} (isTarget : Text.IsUnbroken target) :
    (ofTarget target).IsUnbroken :=
  isUnbroken_empty.withTarget isTarget

theorem isUnbroken_ofChain {chain : String} (isChain : Text.IsUnbroken chain) :
    (ofChain chain).IsUnbroken :=
  isUnbroken_empty.withChain isChain

theorem isUnbroken_ofFamily {family : String} (isFamily : Text.IsUnbroken family) :
    (ofFamily family).IsUnbroken :=
  isUnbroken_empty.withFamily (ifGiven_some.2 isFamily)

instance (fragment : Fragment) : Decidable fragment.IsUnbroken :=
  decidable_of_iff
    ((∀ text ∈ fragment.family.toList ++ fragment.table.toList ++ fragment.chain.toList ++
        fragment.target.toList ++ fragment.tokens, Text.IsUnbroken text))
    ⟨fun each => by
      constructor <;> intro text given <;> exact each text (by simp [given]),
    fun unbroken text member => by
      simp only [List.mem_append, Option.mem_toList] at member
      rcases member with (((family | table) | chain) | target) | token
      · exact unbroken.family text family
      · exact unbroken.table text table
      · exact unbroken.chain text chain
      · exact unbroken.target text target
      · exact unbroken.tokens text token⟩

instance (fragments : List Fragment) : Decidable (AreUnbroken fragments) :=
  inferInstanceAs (Decidable (∀ fragment ∈ fragments, fragment.IsUnbroken))

end FirewallPolicy.Fragment
