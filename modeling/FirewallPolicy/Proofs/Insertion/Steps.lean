import FirewallPolicy.Compile.Insertion
import FirewallPolicy.Proofs.Fragment.Merge
import FirewallPolicy.Proofs.Insertion.Tree
import FirewallPolicy.Proofs.Run.Basic

/-!
# Successful insertions

A successful insertion is a sequence of steps, one for each rule: the chain of the rule is opened,
the chain it jumps to is brought in unless it was looked up before, and the rule is put in its
place.
-/

namespace FirewallPolicy

/-! ## Places -/

namespace Fragment

theorem place?_eq_some_iff
    {fragment : Fragment} {place : Place} :
    fragment.place? = some place ↔
      fragment.family = some place.family ∧
        fragment.table = some place.table ∧
        fragment.chain = some place.chain := by
  simp only [place?, Option.bind_eq_bind, Option.bind_eq_some_iff,
    Option.pure_def, Option.some.injEq]
  constructor
  · rintro ⟨family, familySet, table, tableSet, chain, chainSet, rfl⟩
    exact ⟨familySet, tableSet, chainSet⟩
  · rintro ⟨familySet, tableSet, chainSet⟩
    exact ⟨_, familySet, _, tableSet, _, chainSet, rfl⟩

end Fragment

/-- The chain that a rule at a place jumps to, in the same table of the same family. -/
def Place.withChain (place : Place) (chain : String) : Place :=
  { place with chain := chain }

/-! ## Bodies of auxiliary chains -/

/-- Rules that all belong to one place and jump to the given targets only. -/
structure BodyAt (targets : List String) (place : Place) (body : List ChainRule) : Prop where
  place : ∀ rule ∈ body, rule.fragment.place? = some place
  target : ∀ rule ∈ body, ∀ target,
    rule.fragment.target = some target → target ∈ targets

namespace CustomChain

theorem readTarget_eq_some
    {stated : Value} {target : String}
    (named : (readTarget stated).2 = some target) :
    stated = .text target := by
  unfold readTarget at named
  split at named
  · simp at named
  · simpa using named
  · split at named <;> simp at named

theorem mem_values_of_find?
    {chains : SectionEntries} {name : String} {entry : Entry}
    (found : find? chains name = .ok (some entry)) :
    entry ∈ chains.values := by
  unfold find? at found
  split at found
  · simp at found
  · simp at found
  · next entries =>
      split at found
      · simp at found
      · simp only [Except.ok.injEq, Entries.get?, Option.map_eq_some_iff] at found
        obtain ⟨stored, isFound, rfl⟩ := found
        exact List.mem_map_of_mem (List.mem_of_find?_eq_some isFound)

/-- A rule of a custom chain stands at the place where the chain is looked up, at its end, with the
target that the policy states. -/
theorem readRule_eq_some
    {location : String} {place : Place} {stated : Value} {rule : ChainRule}
    (read : readRule location place stated = .ok (some rule)) :
    rule.fragment.place? = some place ∧ rule.fragment.position = none ∧
      ∀ target, rule.fragment.target = some target →
        target ∈ targetsOf stated := by
  unfold readRule at read
  cases shape : stated.entries? with
  | none => simp [shape] at read
  | some entries =>
      simp only [shape] at read
      split at read
      · simp at read
      · simp at read
      · cases tokens : readTokens
            ((Entries.get? entries (.text "match")).getD .null) with
        | error failure => simp [tokens, bind, Except.bind] at read
        | ok tokens' =>
            simp only [tokens, bind, Except.bind] at read
            split at read
            · simp [pure, Except.pure] at read
            · simp only [pure, Except.pure, Except.ok.injEq, Option.some.injEq] at read
              subst read
              refine ⟨Fragment.place?_eq_some_iff.2 ⟨rfl, rfl, rfl⟩, rfl, ?_⟩
              intro target named
              have isText := readTarget_eq_some named
              simp [targetsOf, shape, isText]

/-- Each rule of a custom chain is read from what the policy states for the chain. -/
theorem exists_readRule_of_body
    {chains : SectionEntries} {owner name : String} {place : Place}
    {rules : List ChainRule} {rule : ChainRule}
    (read : body chains owner name place = .ok rules) (member : rule ∈ rules) :
    ∃ entry ∈ chains.values, ∃ stated ∈ rulesOf entry,
      readRule ("custom " ++ name) place stated = .ok (some rule) := by
  simp only [body, except_bind_eq_ok] at read
  obtain ⟨found, lookup, read⟩ := read
  cases found with
  | none => simp at read
  | some entry =>
      simp only [except_bind_eq_ok, except_pure_eq_ok] at read
      obtain ⟨results, run, rfl⟩ := read
      have stands : some rule ∈ results := by simpa using member
      exact ⟨entry, mem_values_of_find? lookup, exists_of_mem_mapM run stands⟩

theorem bodyAt_of_body_eq_ok
    {chains : SectionEntries} {owner name : String} {place : Place}
    {rules : List ChainRule}
    (read : body chains owner name place = .ok rules) :
    BodyAt (targets chains) place rules := by
  constructor
  · intro rule member
    obtain ⟨_, _, _, _, reading⟩ := exists_readRule_of_body read member
    exact (readRule_eq_some reading).1
  · intro rule member target named
    obtain ⟨entry, isEntry, stated, isStated, reading⟩ := exists_readRule_of_body read member
    have ofStated := (readRule_eq_some reading).2.2 target named
    exact List.mem_flatMap.2 ⟨entry, isEntry, List.mem_flatMap.2 ⟨stated, isStated, ofStated⟩⟩

end CustomChain

namespace ChainSource

/-- What is brought in stands at the place where it was looked up and has one of the targets that
auxiliary chains have. -/
theorem bodyAt_of_body_eq_ok
    {source : ChainSource} {owner : String} {place : Place}
    {rules : List ChainRule}
    (read : source.body owner place = .ok rules) :
    BodyAt source.targets place rules := by
  unfold body at read
  split at read
  · next name _ =>
      have custom := CustomChain.bodyAt_of_body_eq_ok read
      exact ⟨custom.place, fun rule member target named =>
        List.mem_append_right _ (custom.target rule member target named)⟩
  · rw [Except.ok.injEq] at read
    subst read
    constructor
    · intro rule member
      obtain ⟨fragment, combined, rfl⟩ := List.mem_map.1 member
      obtain ⟨bound, isPlace, upper⟩ :=
        Fragment.exists_extends_of_mem_combine combined
          (show some [atPlace place] ∈ _ by simp)
      obtain rfl := List.mem_singleton.1 isPlace
      exact Fragment.place?_eq_some_iff.2
        ⟨upper.family _ rfl, upper.table _ rfl, upper.chain _ rfl⟩
    · intro rule member target named
      obtain ⟨fragment, combined, rfl⟩ := List.mem_map.1 member
      obtain ⟨list, isList, part, partMember, partTarget⟩ :=
        Fragment.exists_target_of_mem_combine combined named
      rcases List.mem_cons.1 isList with isAuxiliary | isPlace
      · obtain rfl : list = source.auxiliary := by simpa using isAuxiliary
        exact List.mem_append_left _ (List.mem_filterMap.2 ⟨part, partMember, partTarget⟩)
      · obtain rfl : list = [atPlace place] := by simpa using isPlace
        obtain rfl := List.mem_singleton.1 partMember
        simp [atPlace] at partTarget

/-- A rule of an auxiliary chain has a position only if a rule that is declared for all places has
it. -/
theorem exists_position_of_body
    {source : ChainSource} {owner : String} {place : Place}
    {rules : List ChainRule} {rule : ChainRule} {position : String}
    (read : source.body owner place = .ok rules) (member : rule ∈ rules)
    (stated : rule.fragment.position = some position) :
    ∃ fragment ∈ source.auxiliary, fragment.position = some position := by
  unfold body at read
  split at read
  · obtain ⟨_, _, _, _, reading⟩ := CustomChain.exists_readRule_of_body read member
    rw [(CustomChain.readRule_eq_some reading).2.1] at stated
    cases stated
  · rw [Except.ok.injEq] at read
    subst read
    obtain ⟨fragment, combined, rfl⟩ := List.mem_map.1 member
    obtain ⟨list, isList, part, isPart, partStated⟩ :=
      Fragment.exists_position_of_mem_combine combined stated
    rcases List.mem_cons.1 isList with isAuxiliary | isPlace
    · obtain rfl : list = source.auxiliary := by simpa using isAuxiliary
      exact ⟨part, isPart, partStated⟩
    · obtain rfl : list = [atPlace place] := by simpa using isPlace
      obtain rfl := List.mem_singleton.1 isPart
      simp [atPlace] at partStated

end ChainSource

/-! ## Steps -/

namespace Assembly

/-- The assembly after the chain of a rule was opened and its target read. -/
def reach (assembly : Assembly) (rule : ChainRule) (place : Place) : Assembly :=
  { assembly with
    tree := assembly.tree.openChain place
    strayed := assembly.strayed || rule.jump = .misnamed }

/-- The places of the rules that were put to the front, after one more rule. -/
def nextFront (front : List Place) (rule : ChainRule) (place : Place) : List Place :=
  if isFront rule then place :: front else front

/-- A successful insertion of rules, with the places of the rules put to the front before. -/
inductive Inserts (source : ChainSource) :
    List Place → List ChainRule → Assembly → Assembly → Prop
  | nil {front : List Place} {assembly : Assembly} :
      Inserts source front [] assembly assembly
  | plain {front : List Place} {rule : ChainRule} {rest : List ChainRule}
      {assembly after : Assembly} {place : Place} :
      rule.fragment.place? = some place →
      (assembly.reach rule place).newTarget? rule.fragment place = none →
      rule.isUsable = true →
      Inserts source (nextFront front rule place) rest
        ((assembly.reach rule place).place rule place (front.count place)) after →
      Inserts source front (rule :: rest) assembly after
  | bringing {front : List Place} {rule : ChainRule} {rest body : List ChainRule}
      {assembly filled after : Assembly} {place : Place} {target owner : String} :
      rule.fragment.place? = some place →
      (assembly.reach rule place).newTarget? rule.fragment place = some target →
      source.body owner (place.withChain target) = .ok body →
      Inserts source [] body
        ((assembly.reach rule place).noteTarget (place.withChain target)) filled →
      rule.isUsable = true →
      Inserts source (nextFront front rule place) rest
        (filled.place rule place (front.count place)) after →
      Inserts source front (rule :: rest) assembly after

theorem Inserts.expanded_subset
    {source : ChainSource} {front : List Place} {rules : List ChainRule}
    {assembly after : Assembly}
    (inserts : Inserts source front rules assembly after) :
    assembly.expanded ⊆ after.expanded := by
  induction inserts with
  | nil => exact List.Subset.refl _
  | plain _ _ _ _ tail => exact tail
  | bringing _ _ _ _ _ _ inner tail =>
      intro place member
      exact tail (inner (List.mem_cons_of_mem _ member))

theorem newTarget?_eq_some
    {assembly : Assembly} {rule : Fragment} {place : Place} {target : String}
    (fresh : assembly.newTarget? rule place = some target) :
    rule.target = some target ∧ target.isEmpty = false ∧
      place.withChain target ∉ assembly.expanded := by
  unfold newTarget? at fresh
  split at fresh
  · split at fresh
    · simp at fresh
    · next stated condition =>
        obtain rfl : _ = target := by simpa using fresh
        simp only [Bool.or_eq_true, List.contains_eq_mem, decide_eq_true_eq, not_or,
          Bool.not_eq_true] at condition
        exact ⟨stated, condition.1, condition.2⟩
  · simp at fresh

theorem newTarget?_eq_none
    {assembly : Assembly} {rule : Fragment} {place : Place}
    (known : assembly.newTarget? rule place = none)
    {target : String} (stated : rule.target = some target)
    (named : target.isEmpty = false) :
    place.withChain target ∈ assembly.expanded := by
  simp only [newTarget?, stated, named, Bool.false_or] at known
  split at known
  · next contained => simpa [Place.withChain] using contained
  · simp at known

end Assembly

end FirewallPolicy
