import FirewallPolicy.Proofs.Context.Tidy
import FirewallPolicy.Proofs.Fragment.Unbroken
import FirewallPolicy.Proofs.Insertion.Steps
import FirewallPolicy.Proofs.Run.Contract

/-!
# Insertion on one line

Inserting fragments without line breaks puts no line break into the tree, where the auxiliary
chains have none: whatever is opened or brought in belongs to such a fragment or to such a chain.
-/

namespace FirewallPolicy

open Fragment

/-! ## Rules of a tree -/

/-- No name of the place has a line break. -/
structure Place.IsUnbroken (place : Place) : Prop where
  family : Text.IsUnbroken place.family
  table : Text.IsUnbroken place.table
  chain : Text.IsUnbroken place.chain

theorem Place.IsUnbroken.withChain {place : Place} (unbroken : place.IsUnbroken) {chain : String}
    (isChain : Text.IsUnbroken chain) : (place.withChain chain).IsUnbroken :=
  { unbroken with chain := isChain }

theorem Fragment.IsUnbroken.place {fragment : Fragment} (unbroken : fragment.IsUnbroken)
    {place : Place} (stands : fragment.place? = some place) : place.IsUnbroken := by
  obtain ⟨family, table, chain⟩ := Fragment.place?_eq_some_iff.1 stands
  exact ⟨unbroken.family _ family, unbroken.table _ table, unbroken.chain _ chain⟩

/-- A rule is written with the tokens and the target of its fragment. -/
theorem ChainRule.isUnbroken_line {rule : ChainRule} (unbroken : rule.fragment.IsUnbroken) :
    Text.IsUnbroken rule.line.text := by
  have condition : Text.IsUnbroken rule.line.condition :=
    Text.isUnbroken_intercalate (by decide) unbroken.tokens
  have target : Text.IsUnbroken (rule.line.target.getD "") := by
    cases stated : rule.line.target with
    | none => decide
    | some text => exact unbroken.target text stated
  refine Text.isUnbroken_intercalate (by decide) (List.forall_mem_append.2 ⟨?_, ?_⟩)
  · split
    · simp
    · exact List.forall_mem_singleton.2 condition
  · split
    · exact List.forall_mem_singleton.2 (Text.isUnbroken_append.2 ⟨by decide, target⟩)
    · simp

namespace RuleTree

/-- Neither the name of a chain nor a rule has a line break. -/
def IsUnbroken (tree : RuleTree) : Prop :=
  ∀ chain ∈ tree.chains, chain.1.IsUnbroken ∧ ∀ rule ∈ chain.2, Text.IsUnbroken rule.text

variable {tree : RuleTree} {place : Place}

theorem IsUnbroken.openChain (unbroken : tree.IsUnbroken) (isPlace : place.IsUnbroken) :
    (tree.openChain place).IsUnbroken := by
  unfold RuleTree.openChain
  split
  · exact unbroken
  · exact List.forall_mem_append.2 ⟨unbroken, List.forall_mem_singleton.2 ⟨isPlace, by simp⟩⟩

theorem IsUnbroken.update (unbroken : tree.IsUnbroken) {change : List RuleLine → List RuleLine}
    (changes : ∀ rules : List RuleLine, (∀ rule ∈ rules, Text.IsUnbroken rule.text) →
      ∀ rule ∈ change rules, Text.IsUnbroken rule.text) : (tree.update place change).IsUnbroken := by
  refine List.forall_mem_map.2 fun chain member => ?_
  obtain ⟨isPlace, areRules⟩ := unbroken chain member
  split
  · exact ⟨isPlace, changes chain.2 areRules⟩
  · exact ⟨isPlace, areRules⟩

end RuleTree

/-! ## Auxiliary chains -/

theorem ChainSource.isUnbroken_atPlace {place : Place} (isPlace : place.IsUnbroken) :
    (atPlace place).IsUnbroken :=
  { isUnbroken_empty with
    family := ifGiven_some.2 isPlace.family
    table := ifGiven_some.2 isPlace.table
    chain := ifGiven_some.2 isPlace.chain }

namespace CustomChain

theorem isUnbroken_of_tokensOf?
    {items : List Value} (unbroken : ∀ item ∈ items, item.isUnbroken = true) :
    IfGiven (fun tokens => ∀ token ∈ tokens, Text.IsUnbroken token) (tokensOf? items) := by
  intro tokens read token member
  obtain ⟨item, isItem, isToken⟩ := exists_of_mem_mapM? read member
  have isUnbroken := unbroken item (List.mem_filter.1 isItem).1
  split at isToken
  · exact Option.some.inj isToken ▸ Value.isUnbroken_text.1 isUnbroken
  · simp at isToken

theorem gives_readTokens {matched : Value} (unbroken : matched.isUnbroken = true) :
    Gives (IfGiven fun tokens => ∀ token ∈ tokens, Text.IsUnbroken token)
      (readTokens matched) := by
  have opened := Value.isUnbroken_opened unbroken
  unfold readTokens
  split
  · exact gives_ok (by simp)
  · next s same =>
      rw [same, Value.isUnbroken_text] at opened
      refine gives_ok (ifGiven_some.2 ?_)
      split
      · simp
      · exact List.forall_mem_singleton.2 opened
  · next items same =>
      rw [same, Value.isUnbroken_list] at opened
      exact gives_ok (isUnbroken_of_tokensOf? opened)
  · next entries same =>
      rw [same, Value.isUnbroken_map] at opened
      exact gives_ok (isUnbroken_of_tokensOf? (List.forall_mem_map.2 fun entry member =>
        (opened entry member).1))
  · next members same =>
      rw [same, Value.isUnbroken_set] at opened
      exact gives_ok (isUnbroken_of_tokensOf? (List.forall_mem_map.2 opened))
  · exact gives_ok (isUnbroken_of_tokensOf? (List.forall_mem_map.2 fun _ _ => rfl))
  · exact gives_error

theorem isUnbroken_of_readTarget {stated : Value} (unbroken : stated.isUnbroken = true) :
    IfGiven Text.IsUnbroken (readTarget stated).2 := by
  intro target named
  rw [readTarget_eq_some named] at unbroken
  exact Value.isUnbroken_text.1 unbroken

theorem gives_readRule {location : String} {place : Place} {stated : Value}
    (isPlace : place.IsUnbroken) (unbroken : stated.isUnbroken = true) :
    Gives (IfGiven fun rule => rule.fragment.IsUnbroken)
      (readRule location place stated) := by
  unfold readRule
  split
  · next entries isMap =>
      have fields := Value.isUnbroken_of_entries? unbroken isMap
      dsimp only
      split
      · exact gives_error
      · exact gives_error
      · refine (gives_readTokens (Entries.isUnbroken_get? fields _)).bind fun tokens areTokens => ?_
        split
        · exact gives_ok (by simp)
        · have target := isUnbroken_of_readTarget (Entries.isUnbroken_get? fields (.text "target"))
          generalize readTarget ((Entries.get? entries (.text "target")).getD .null) = read
            at target ⊢
          obtain ⟨jump, named⟩ := read
          refine gives_ok (ifGiven_some.2 ?_)
          exact { ChainSource.isUnbroken_atPlace isPlace with
            target := target
            tokens := by
              cases tokens with
              | none => simp
              | some tokens => exact areTokens tokens rfl }
  · exact gives_error

theorem gives_body {chains : SectionEntries} {owner name : String} {place : Place}
    (tidy : chains.IsTidy) (isPlace : place.IsUnbroken) :
    Gives (fun rules => ∀ rule ∈ rules, rule.fragment.IsUnbroken)
      (body chains owner name place) := by
  refine Gives.bind (?_ : Gives (IfGiven fun entry => entry ∈ chains.values) _)
    fun found isFound => ?_
  · rintro found lookup entry rfl
    exact mem_values_of_find? lookup
  · cases found with
    | none => exact gives_error
    | some entry =>
        have stated : ∀ rule ∈ rulesOf entry, rule.isUnbroken = true := by
          have isTidy := tidy.2 entry (isFound entry rfl)
          cases entry with
          | object _ => exact List.forall_mem_singleton.2 rfl
          | raw value =>
              have opened := Value.isUnbroken_opened isTidy
              unfold rulesOf
              dsimp only
              split
              · next items same =>
                  rw [same, Value.isUnbroken_list] at opened
                  exact opened
              · exact List.forall_mem_singleton.2 isTidy
        refine (gives_mapM fun rule member => gives_readRule isPlace (stated rule member)).bind
          fun results areRules => gives_ok fun rule member => ?_
        have stands : some rule ∈ results := by simpa using member
        exact areRules (some rule) stands rule rfl

end CustomChain

namespace ChainSource

/-- No auxiliary chain has a line break. -/
structure IsUnbroken (source : ChainSource) : Prop where
  auxiliary : AreUnbroken source.auxiliary
  custom : source.custom.IsTidy

theorem IsUnbroken.gives_body {source : ChainSource} (unbroken : source.IsUnbroken)
    {owner : String} {place : Place} (isPlace : place.IsUnbroken) :
    Gives (fun rules => ∀ rule ∈ rules, rule.fragment.IsUnbroken) (source.body owner place) := by
  unfold ChainSource.body
  split
  · exact CustomChain.gives_body unbroken.custom isPlace
  · refine gives_ok (List.forall_mem_map.2 ?_)
    refine unbroken.auxiliary.combine (areUnbroken_singleton ?_)
    exact isUnbroken_atPlace isPlace

end ChainSource

/-! ## Insertions -/

namespace Assembly

variable {assembly after : Assembly} {rule : ChainRule} {located : Place}

theorem isUnbroken_place (unbroken : assembly.tree.IsUnbroken)
    (isRule : rule.fragment.IsUnbroken) (front : Nat) :
    (assembly.place rule located front).tree.IsUnbroken := by
  have line := ChainRule.isUnbroken_line isRule
  unfold Assembly.place
  dsimp only
  split
  · refine unbroken.update fun rules areRules => List.forall_mem_append.2 ⟨?_, ?_⟩
    · exact fun other member => areRules other (List.mem_of_mem_take member)
    · exact List.forall_mem_cons.2 ⟨line, fun other member =>
        areRules other (List.mem_of_mem_drop member)⟩
  · exact unbroken.update fun rules areRules =>
      List.forall_mem_append.2 ⟨areRules, List.forall_mem_singleton.2 line⟩

theorem isUnbroken_noteTarget (unbroken : assembly.tree.IsUnbroken)
    (isPlace : located.IsUnbroken) : (assembly.noteTarget located).tree.IsUnbroken := by
  unfold noteTarget
  dsimp only
  split
  · exact unbroken.openChain isPlace
  · exact unbroken

/-- Inserting rules without line breaks keeps the tree without line breaks. -/
theorem Inserts.isUnbroken
    {source : ChainSource} {front : List Place} {rules : List ChainRule}
    (inserts : Inserts source front rules assembly after) (isSource : source.IsUnbroken)
    (areRules : ∀ rule ∈ rules, rule.fragment.IsUnbroken)
    (unbroken : assembly.tree.IsUnbroken) : after.tree.IsUnbroken := by
  induction inserts with
  | nil => exact unbroken
  | plain stands _ _ _ tail =>
      obtain ⟨isRule, areOthers⟩ := List.forall_mem_cons.1 areRules
      have reached := unbroken.openChain (isRule.place stands)
      exact tail areOthers (isUnbroken_place reached isRule _)
  | bringing stands isNew read _ _ _ inner tail =>
      obtain ⟨isRule, areOthers⟩ := List.forall_mem_cons.1 areRules
      have isPlace := isRule.place stands
      have reached := unbroken.openChain isPlace
      have isTarget := isPlace.withChain (isRule.target _ (newTarget?_eq_some isNew).1)
      have filled := inner (isSource.gives_body isTarget _ read)
        (isUnbroken_noteTarget reached isTarget)
      exact tail areOthers (isUnbroken_place filled isRule _)

end Assembly

end FirewallPolicy
