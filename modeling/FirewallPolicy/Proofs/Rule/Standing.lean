import FirewallPolicy.Proofs.Insertion.Steps
import FirewallPolicy.Proofs.Rule.Composition
import FirewallPolicy.Proofs.Rule.LimitChain
import FirewallPolicy.Proofs.Rule.Limited
import FirewallPolicy.Proofs.Rule.Projection

/-!
# Where the fragments of a rule stand

Every fragment of a rule is bound to a place: a family that the rule is generated for, the table of
its kind, and a chain.  The chain stands for a filter hook, or it is one of the rule's own.  To a
chain of its own the rule jumps in every family in which it has rules there, unless it matches
nothing.
-/

namespace FirewallPolicy

open Context Fragment Run Stateful

/-! ## Jumps that cover a fragment -/

/-- The jump is made in the family and the table of the other fragment, or in all of them. -/
structure Fragment.Covers (jump part : Fragment) : Prop where
  family : jump.family = none ∨ jump.family = part.family
  table : jump.table = none ∨ jump.table = part.table

/-- Among the fragments is a jump to the chain that covers the given one. -/
def JumpsTo (fragments : List Fragment) (part : Fragment) (chain : String) : Prop :=
  ∃ jump ∈ fragments, jump.target = some chain ∧ jump.Covers part

/-- A fragment that names a chain names a known one, or one that another fragment jumps to. -/
def AllStand (known : String → Prop) (fragments : List Fragment) : Prop :=
  ∀ part ∈ fragments, ∀ chain, part.chain = some chain →
    known chain ∨ JumpsTo fragments part chain

section AllStand

variable {known : String → Prop} {fragments others : List Fragment} {part : Fragment}
  {chain : String}

theorem JumpsTo.mono
    (jumps : JumpsTo fragments part chain) (within : fragments ⊆ others) :
    JumpsTo others part chain := by
  obtain ⟨jump, isJump, goes, covers⟩ := jumps
  exact ⟨jump, within isJump, goes, covers⟩

theorem allStand_of_open (isOpen : ∀ part ∈ fragments, part.chain = none) :
    AllStand known fragments := by
  intro part isPart chain isChain
  rw [isOpen part isPart] at isChain
  cases isChain

theorem AllStand.append
    (first : AllStand known fragments) (second : AllStand known others) :
    AllStand known (fragments ++ others) := by
  intro part isPart chain isChain
  rcases List.mem_append.1 isPart with isFirst | isSecond
  · exact (first part isFirst chain isChain).imp_right
      (JumpsTo.mono · (List.subset_append_left _ _))
  · exact (second part isSecond chain isChain).imp_right
      (JumpsTo.mono · (List.subset_append_right _ _))

/-- The fragment selects traffic in a known chain, or in any chain, whatever its table. -/
structure Fragment.Selects (known : String → Prop) (fragment : Fragment) : Prop where
  table : fragment.table = none
  target : fragment.target = none
  chain : ∀ chain, fragment.chain = some chain → known chain

theorem Fragment.IsMatch.selects (isMatch : part.IsMatch []) : part.Selects known :=
  ⟨isMatch.table, isMatch.target, fun chain stands =>
    absurd (isMatch.chain chain stands) List.not_mem_nil⟩

theorem allStand_of_selects (selects : ∀ part ∈ fragments, part.Selects known) :
    AllStand known fragments :=
  fun part isPart chain isChain => Or.inl ((selects part isPart).chain chain isChain)

/-- Selections that are merged with fragments outside of chains stay in their chains. -/
theorem allStand_combine
    (selects : ∀ part ∈ fragments, part.Selects known)
    (isOpen : ∀ other ∈ others, other.chain = none) :
    AllStand known (combine [some fragments, some others]) := by
  intro merged isMerged chain isChain
  obtain ⟨list, given, part, isPart, partStands⟩ := exists_chain_of_mem_combine isMerged isChain
  simp only [List.mem_cons, Option.some.injEq, List.not_mem_nil, or_false] at given
  rcases given with rfl | rfl
  · exact Or.inl ((selects part isPart).chain chain partStands)
  · rw [isOpen part isPart] at partStands
    cases partStands

/-! ## Narrowing -/

/-- The fragment restricts to a family or a table and states nothing else. -/
def Fragment.Restricts (restriction : Fragment) : Prop :=
  restriction = { family := restriction.family, table := restriction.table }

theorem restricts_ofFamily (family : String) : (Fragment.ofFamily family).Restricts := rfl

theorem restricts_ofTable (table : String) : (Fragment.ofTable table).Restricts := rfl

variable {jump restriction merged : Fragment}

/-- A restriction can only disagree about the family and the table. -/
theorem Fragment.merge_restriction
    (restricts : restriction.Restricts) (family : Compatible part.family restriction.family)
    (table : Compatible part.table restriction.table) :
    part.merge restriction = some (part.union restriction) := by
  refine merge_eq_some_iff.2 ⟨⟨family, table, ?_, ?_, ?_, ?_⟩, rfl⟩
  all_goals
    intro own _ other isOther
    rw [restricts] at isOther
    cases isOther

/-- A jump that covers a fragment is narrowed together with it. -/
theorem Fragment.Covers.narrow
    (covers : jump.Covers part) (restricts : restriction.Restricts)
    (merges : part.merge restriction = some merged) :
    ∃ narrowed, jump.merge restriction = some narrowed ∧ narrowed.target = jump.target ∧
      narrowed.Covers merged := by
  obtain ⟨agree, rfl⟩ := merge_eq_some_iff.1 merges
  have within {own stated other : Option String} (same : own = none ∨ own = stated)
      (fits : Compatible stated other) : Compatible own other := by
    rcases same with rfl | rfl
    · exact nofun
    · exact fits
  -- Where only the restriction states a value, what it restricts states no other one.
  have kept {own stated other : Option String} (same : own = none ∨ own = stated)
      (fits : Compatible stated other) : own.or other = none ∨ own.or other = stated.or other := by
    rcases same with rfl | rfl
    · cases other with
      | none => exact Or.inl rfl
      | some value =>
          cases stated with
          | none => exact Or.inr rfl
          | some mine => exact Or.inr (congrArg some (fits mine rfl value rfl).symm)
    · exact Or.inr rfl
  refine ⟨jump.union restriction, merge_restriction restricts (within covers.family agree.family)
    (within covers.table agree.table), ?_, kept covers.family agree.family,
    kept covers.table agree.table⟩
  rw [restricts]
  exact Option.or_none

/-- Narrowed to each of the restrictions, fragments stand as before. -/
theorem AllStand.narrow
    (stand : AllStand known fragments) (restrict : ∀ other ∈ others, other.Restricts) :
    AllStand known (combine [some fragments, some others]) := by
  intro merged isMerged chain isChain
  rw [combine_pair] at isMerged ⊢
  obtain ⟨part, isPart, restriction, isRestriction, merges⟩ := mem_product.1 isMerged
  have restricts := restrict restriction isRestriction
  have partStands : part.chain = some chain := by
    obtain ⟨-, rfl⟩ := merge_eq_some_iff.1 merges
    rw [restricts] at isChain
    exact (Option.or_none (o := part.chain)).symm.trans isChain
  refine (stand part isPart chain partStands).imp_right ?_
  rintro ⟨jump, isJump, goes, covers⟩
  obtain ⟨narrowed, narrows, same, covered⟩ := covers.narrow restricts merges
  exact ⟨narrowed, mem_product.2 ⟨jump, isJump, restriction, isRestriction, narrows⟩,
    same.trans goes, covered⟩

end AllStand

section Tells

variable {known : String → Prop} {families : List String} {answer : Bool → Bool} {found : List Fragment}

theorem Tells.selects (tells : Tells families answer found) :
    ∀ part ∈ found, part.Selects known :=
  fun part isPart => (tells.isMatch part isPart).selects

/-- A limit has matches in every family. -/
theorem Tells.ne_nil (tells : Tells families answer found) (enabled : families ≠ []) :
    found ≠ [] := by
  obtain ⟨family, rest, rfl⟩ := List.exists_cons_of_ne_nil enabled
  obtain ⟨part, isPart, _⟩ := tells.covers family (List.mem_cons_self ..)
  exact List.ne_nil_of_mem isPart

end Tells

namespace Rule

variable {rule : Rule} {before after : Context} {matched actions attached : List Fragment}
  {known : String → Prop} {chain : String}

/-! ## Chains of a rule's own -/

theorem placeIn_of_named
    {part : Fragment} (named : part.chain.any (!·.isEmpty) = true) : placeIn chain part = part :=
  if_pos named

theorem placeIn_of_unnamed
    {part : Fragment} (unnamed : part.chain.any (!·.isEmpty) = false) :
    placeIn chain part = { part with chain := some chain } :=
  if_neg (by simp [unnamed])

theorem covers_placeIn {jump part : Fragment} (covers : jump.Covers part) :
    (placeIn chain jump).Covers (placeIn chain part) := by
  have family (part : Fragment) : (placeIn chain part).family = part.family := by
    unfold placeIn
    split <;> rfl
  have table (part : Fragment) : (placeIn chain part).table = part.table := by
    unfold placeIn
    split <;> rfl
  constructor
  · rw [family, family]
    exact covers.family
  · rw [table, table]
    exact covers.table

theorem target_placeIn (part : Fragment) : (placeIn chain part).target = part.target := by
  unfold placeIn
  split <;> rfl

/-- The body of a chain is the actions, restricted to the families of the jumps if need be. -/
theorem chainBody_eq_combine
    {jumps : List Fragment} (given : List Fragment) (nonempty : jumps ≠ [])
    (restricted : ∀ jump ∈ jumps, jump.family ≠ none) :
    ∃ families : List String, (∀ family ∈ families, ∃ jump ∈ jumps, jump.family = some family) ∧
      chainBody jumps given =
        combine [some given, some (families.map Fragment.ofFamily)] := by
  refine ⟨Text.sorted ((jumps.map (·.family)).eraseDups.filterMap id), fun family member => ?_, ?_⟩
  · rw [Text.mem_sorted] at member
    simpa using member
  · unfold chainBody
    rw [if_neg (by simpa [nonempty] using restricted)]

/-- Some jump covers each fragment of the body, unless there are no jumps. -/
theorem exists_covers_of_mem_chainBody
    {jumps given : List Fragment} (tables : ∀ jump ∈ jumps, jump.table = none)
    {part : Fragment} (member : part ∈ chainBody jumps given) :
    jumps = [] ∨ ∃ jump ∈ jumps, jump.Covers part := by
  by_cases nonempty : jumps = []
  · exact Or.inl nonempty
  · refine Or.inr ?_
    by_cases restricted : ∀ jump ∈ jumps, jump.family ≠ none
    · obtain ⟨families, jumped, same⟩ := chainBody_eq_combine given nonempty restricted
      rw [same] at member
      obtain ⟨_, isFamily, upper⟩ := exists_extends_of_mem_combine member
        (show some (families.map Fragment.ofFamily) ∈ _ by simp)
      obtain ⟨family, isListed, rfl⟩ := List.mem_map.1 isFamily
      obtain ⟨jump, isJump, jumpFamily⟩ := jumped family isListed
      exact ⟨jump, isJump, Or.inr (jumpFamily.trans (upper.family family rfl).symm),
        Or.inl (tables jump isJump)⟩
    · push Not at restricted
      obtain ⟨jump, isJump, unrestricted⟩ := restricted
      exact ⟨jump, isJump, Or.inl unrestricted, Or.inl (tables jump isJump)⟩

theorem allStand_chainBody
    {jumps given : List Fragment} (stand : AllStand known given) :
    AllStand known (chainBody jumps given) := by
  by_cases restricted : jumps ≠ [] ∧ ∀ jump ∈ jumps, jump.family ≠ none
  · obtain ⟨families, -, same⟩ := chainBody_eq_combine given restricted.1 restricted.2
    rw [same]
    refine stand.narrow fun other isOther => ?_
    obtain ⟨family, _, rfl⟩ := List.mem_map.1 isOther
    exact restricts_ofFamily family
  · unfold chainBody
    rw [if_pos]
    · exact stand
    · by_cases nonempty : jumps = []
      · simp [nonempty]
      · push Not at restricted
        simpa [nonempty] using restricted nonempty

/-- What an action names is jumped to among the placed actions; all others stand in the chain. -/
theorem allStand_placeIn (stand : AllStand known actions) :
    AllStand (fun other => other = chain ∨ known other) (actions.map (placeIn chain)) := by
  intro placed isPlaced other isOther
  obtain ⟨part, isPart, rfl⟩ := List.mem_map.1 isPlaced
  cases named : part.chain.any (!·.isEmpty) with
  | false =>
      rw [placeIn_of_unnamed named] at isOther
      exact Or.inl (Or.inl (Option.some.inj isOther).symm)
  | true =>
      rw [placeIn_of_named named] at isOther
      refine (stand part isPart other isOther).imp Or.inr ?_
      rintro ⟨jump, isJump, goes, covers⟩
      exact ⟨placeIn chain jump, List.mem_map_of_mem isJump, (target_placeIn jump).trans goes,
        covers_placeIn covers⟩

/-- The selections jump to the chain, and the fragments of its body stand there, unless they name a
chain that the body jumps to. -/
theorem allStand_ownChain
    (selects : ∀ part ∈ matched, part.Selects known)
    (stand : AllStand known actions) (idle : matched = [] → known chain) :
    AllStand known (ownChain chain matched actions) := by
  have isJump : ∀ jump ∈ matched.map (jumpTo chain), ∃ part ∈ matched,
      jump = { part with target := some chain } := by
    intro jump isJump
    obtain ⟨part, isPart, rfl⟩ := List.mem_map.1 isJump
    exact ⟨part, isPart, jumpTo_of_open (selects part isPart).target chain⟩
  have tables : ∀ jump ∈ matched.map (jumpTo chain), jump.table = none := by
    intro jump member
    obtain ⟨part, isPart, rfl⟩ := isJump jump member
    exact (selects part isPart).table
  intro part isPart other isOther
  rcases List.mem_append.1 isPart with jumps | inBody
  · obtain ⟨matching, isMatching, rfl⟩ := isJump part jumps
    exact Or.inl ((selects matching isMatching).chain other isOther)
  · rcases allStand_chainBody (allStand_placeIn stand) part inBody other isOther with
      isKnown | goes
    · rcases isKnown with rfl | isChain
      · rcases exists_covers_of_mem_chainBody tables inBody with nothing | covered
        · exact Or.inl (idle (List.map_eq_nil_iff.1 nothing))
        · obtain ⟨jump, member, covers⟩ := covered
          obtain ⟨_, _, rfl⟩ := isJump jump member
          exact Or.inr ⟨_, List.mem_append_left _ member, rfl, covers⟩
      · exact Or.inl isChain
    · exact Or.inr (goes.mono (List.subset_append_right _ _))

/-! ## Attaching actions -/

/-- The chain is named for the rule. -/
def OwnsChain (rule : Rule) (context : Context) (chain : String) : Prop :=
  ∃ key, context.chainNames.lookup (rule.serial, key) = some chain

theorem allStand_attachLog
    {log : Option LogClass} {action : String} {target : Option String}
    (selects : ∀ part ∈ matched, part.Selects known)
    (idle : matched = [] → ∀ chain, rule.OwnsChain after chain → known chain)
    (run : rule.attachLog matched log action target before = (.ok attached, after)) :
    AllStand known attached := by
  cases logAttachment_of_attachLog run with
  | nothing _ => exact allStand_of_selects selects
  | merged isSingle =>
      refine allStand_combine selects fun single isMember => ?_
      rw [← isSingle] at isMember
      exact chain_of_mem_actionFragments isMember
  | shared _ _ _ _ =>
      refine allStand_combine selects fun jump isJump => ?_
      rw [List.mem_singleton.1 isJump]
      rfl
  | own _ _ names =>
      refine allStand_ownChain selects (allStand_of_open fun _ => chain_of_mem_actionFragments)
        fun nothing => idle nothing _ ⟨_, lookup_of_chainNameOf names⟩

theorem allStand_attachAction
    (selects : ∀ part ∈ matched, part.Selects known)
    (idle : matched = [] → ∀ chain, rule.OwnsChain after chain → known chain)
    (run : rule.attachAction matched before = (.ok attached, after)) :
    AllStand known attached := by
  simp only [attachAction, bind_eq_ok, recording_eq_ok] at run
  obtain ⟨target, _, ⟨_, rfl⟩, run⟩ := run
  exact allStand_attachLog selects idle run

/-! ## Limit chains -/

section Limits

variable {families : List String} {answer : Bool → Bool} {found body : List Fragment}
  {log : Option LogClass} {limit : Limit} {connection : Bool} {target : Option String}

theorem allStand_attachLog_of_tells
    {action : String} (tells : Tells families answer found) (enabled : families ≠ [])
    (run : rule.attachLog found log action target before = (.ok attached, after)) :
    AllStand known attached :=
  allStand_attachLog tells.selects (fun nothing => absurd nothing (tells.ne_nil enabled)) run

theorem allStand_actionFragments : AllStand known (actionFragments log target) :=
  allStand_of_open fun _ => chain_of_mem_actionFragments

/-- Where a family is enabled, the rules in a limit chain stand there or are jumped to from
there. -/
theorem allStand_limitBody
    (enabled : before.settings.families ≠ [])
    (isBody : LimitBody rule limit chain log connection target before body after) :
    AllStand known body := by
  cases isBody with
  | recent read builds =>
      obtain ⟨checksTell, recordsTell⟩ := Limit.tells_recentFragments read
      simp only [recentChain, bind_eq_ok, pure_eq_ok] at builds
      obtain ⟨dropped, _, drops, rfl, rfl⟩ := builds
      refine ((allStand_attachLog_of_tells checksTell enabled drops).append ?_).append ?_
      · split
        · exact allStand_actionFragments
        · exact allStand_of_open fun _ none => absurd none List.not_mem_nil
      · exact allStand_combine recordsTell.selects (by simp)
  | passing _ _ builds =>
      simp only [passingChain, bind_eq_ok, pure_eq_ok, get_eq_ok, recording_eq_ok] at builds
      obtain ⟨_, _, ⟨rfl, rfl⟩, above, _, ⟨read, rfl⟩, dropped, _, drops, rfl, rfl⟩ := builds
      exact (allStand_attachLog_of_tells (Limit.tells_hashFragments read) enabled drops).append
        allStand_actionFragments
  | counting _ _ builds =>
      simp only [countingChain, bind_eq_ok, get_eq_ok, recording_eq_ok] at builds
      obtain ⟨_, _, ⟨rfl, rfl⟩, within, _, ⟨read, rfl⟩, builds⟩ := builds
      have tells := Limit.tells_hashFragments read
      split at builds
      · simp only [bind_eq_ok, pure_eq_ok, attachAction, recording_eq_ok] at builds
        obtain ⟨passed, _, ⟨goal, _, ⟨_, rfl⟩, passes⟩, rfl, rfl⟩ := builds
        exact (allStand_attachLog_of_tells tells enabled passes).append allStand_actionFragments
      · simp only [bind_eq_ok, pure_eq_ok] at builds
        obtain ⟨_, _, ⟨rfl, rfl⟩, rfl, rfl⟩ := builds
        exact (allStand_combine tells.selects (by simp [ofTarget])).append allStand_actionFragments

end Limits

/-! ## Rules -/

/-- The rule matches in some chain for a filter hook. -/
theorem exists_chain_of_mem_dimensions
    (run : rule.dimensions before = (.ok matched, after)) :
    ∀ part ∈ matched, ∃ chain ∈ rule.kind.hookChains, part.chain = some chain := by
  have inHook : Yields (fun found => ∀ part ∈ found,
      ∃ chain ∈ rule.kind.hookChains, part.chain = some chain) rule.zoneFragments := by
    refine Yields.bind (yields_gather fun pair _ => yields_gather fun chain isChain => ?_)
      fun found holds => yields_pure fun part isPart => holds part (List.mem_eraseDups.1 isPart)
    obtain ⟨hook, _, stands⟩ := List.mem_filterMap.1 isChain
    intro start stop found finds part isPart
    exact ⟨chain, mem_hookChains stands, yields_chain_chainFragments.of_eq finds part isPart⟩
  simp only [dimensions, bind_eq_ok, pure_eq_ok] at run
  obtain ⟨zones, _, zonesRun, _, _, _, _, _, _, _, _, _, _, _, _, _, _, _, rfl, _⟩ := run
  intro part isPart
  obtain ⟨zone, isZone, upper⟩ := exists_extends_of_mem_combine isPart (List.mem_cons_self ..)
  obtain ⟨chain, isHook, stands⟩ := inHook.of_eq zonesRun zone isZone
  exact ⟨chain, isHook, upper.chain chain stands⟩

/-- What a rule matches, it selects in the chains for the filter hooks. -/
theorem selects_dimensions
    (run : rule.dimensions before = (.ok matched, after)) (hooks : ∀ chain ∈ rule.kind.hookChains, known chain) :
    ∀ part ∈ matched, part.Selects known := by
  intro part isPart
  obtain ⟨_, _, matchAt⟩ := dimensions_eq_ok run
  obtain ⟨chain, isHook, stands⟩ := exists_chain_of_mem_dimensions run part isPart
  refine ⟨(matchAt part isPart).table, (matchAt part isPart).target, fun other isOther => ?_⟩
  obtain rfl := Option.some.inj (stands.symm.trans isOther)
  exact hooks chain isHook

theorem allStand_finish
    (enabled : before.settings.families ≠ [])
    (selects : ∀ part ∈ matched, part.Selects known)
    (idle : matched = [] → ∀ chain, rule.OwnsChain after chain → known chain)
    (run : rule.finish matched before = (.ok attached, after)) :
    AllStand known attached := by
  cases finishing_of_finish run with
  | update _ updates =>
      simp only [attachUpdate, bind_eq_ok, get_eq_ok, recording_eq_ok, pure_eq_ok] at updates
      obtain ⟨limit, _, _, _, _, _, records, _, ⟨read, _⟩, rfl, _⟩ := updates
      exact allStand_combine selects fun record isRecord =>
        (Limit.isMatch_recordFragments read record isRecord).chain_eq_none
  | limited _ _ limits =>
      obtain ⟨chain, mapping, limit, target, body, named, declared, filled, _, names, _, declares,
        _, isBody, attaches⟩ := attachLimit_eq_ok limits
      obtain ⟨own, again, rfl⟩ := attach_own_eq_ok attaches
      have grows : Grows before declared := (grows_chainNameOf.of_eq names).trans
        (Limit.notes_declare.of_eq declares : Notes _ _).grows
      exact allStand_ownChain selects (allStand_limitBody (grows.settings ▸ enabled) isBody)
        fun nothing => idle nothing _ ⟨_, lookup_of_chainNameOf again⟩
  | action _ _ acts => exact allStand_attachAction selects idle acts
  | jump _ => exact allStand_combine selects (by simp [ofTarget])
  | plain _ => exact allStand_of_selects selects

/-- The fragments of a rule stand in the chains for the filter hooks and in chains that the rule
jumps to; where it matches nothing, also in its own chains. -/
theorem allStand_ownFragments
    {own : List Fragment} (run : rule.ownFragments before = (.ok own, after)) :
    ∃ matched middle, rule.dimensions before = (.ok matched, middle) ∧
      AllStand (fun chain => chain ∈ rule.kind.hookChains ∨ matched = [] ∧ rule.OwnsChain after chain)
        own := by
  obtain ⟨matched, middle, finished, matches_, finishes, rfl⟩ := ownFragments_eq_ok run
  refine ⟨matched, middle, matches_, ?_⟩
  by_cases enabled : middle.settings.families = []
  · -- Where no family is enabled, the rule has no fragments at all.
    intro part isPart
    obtain ⟨_, isFamily, _⟩ := exists_extends_of_mem_combine isPart
      (show some ((rule.families after.settings).map Fragment.ofFamily) ∈ _ by simp)
    have grows : Grows middle after := grows_finish.of_eq finishes
    simp [families, grows.settings, enabled] at isFamily
  · have stand : AllStand (fun chain =>
        chain ∈ rule.kind.hookChains ∨ matched = [] ∧ rule.OwnsChain after chain) finished :=
      allStand_finish enabled (selects_dimensions matches_ fun _ => Or.inl)
        (fun nothing _ owns => Or.inr ⟨nothing, owns⟩) finishes
    have inFamilies : AllStand _ (combine [some finished,
        some ((rule.families after.settings).map Fragment.ofFamily)]) :=
      stand.narrow (by simp [restricts_ofFamily])
    have inTable : AllStand _ (combine [some _, some [.ofTable rule.kind.table]]) :=
      inFamilies.narrow (by simp [restricts_ofTable])
    exact inTable

/-! ## Places -/

/-- Every fragment names the chain that it stands in. -/
def AllNamed (fragments : List Fragment) : Prop :=
  ∀ part ∈ fragments, ∃ chain, part.chain = some chain

theorem allNamed_combine
    {lists : List (Option (List Fragment))} {fragments : List Fragment}
    (named : AllNamed fragments) (given : some fragments ∈ lists) :
    AllNamed (combine lists) := by
  intro merged isMerged
  obtain ⟨part, isPart, upper⟩ := exists_extends_of_mem_combine isMerged given
  obtain ⟨chain, stands⟩ := named part isPart
  exact ⟨chain, upper.chain chain stands⟩

theorem allNamed_ownChain (named : AllNamed matched) :
    AllNamed (ownChain chain matched actions) := by
  have placed : AllNamed (actions.map (placeIn chain)) := by
    intro part isPart
    obtain ⟨action, _, rfl⟩ := List.mem_map.1 isPart
    unfold placeIn
    split
    · next isNamed =>
        obtain ⟨other, stands, _⟩ := (Option.any_eq_true _ _).1 isNamed
        exact ⟨other, stands⟩
    · exact ⟨chain, rfl⟩
  intro part isPart
  rcases List.mem_append.1 isPart with isJump | inBody
  · obtain ⟨matching, isMatching, rfl⟩ := List.mem_map.1 isJump
    obtain ⟨other, stands⟩ := named matching isMatching
    refine ⟨other, ?_⟩
    unfold jumpTo
    split <;> exact stands
  · unfold chainBody at inBody
    extract_lets families at inBody
    split at inBody
    · exact placed part inBody
    · exact allNamed_combine placed (List.mem_cons_self ..) part inBody

theorem allNamed_attachLog
    {log : Option LogClass} {action : String} {target : Option String} (named : AllNamed matched)
    (run : rule.attachLog matched log action target before = (.ok attached, after)) :
    AllNamed attached := by
  cases logAttachment_of_attachLog run with
  | nothing _ => exact named
  | merged _ => exact allNamed_combine named (List.mem_cons_self ..)
  | shared _ _ _ _ => exact allNamed_combine named (List.mem_cons_self ..)
  | own _ _ _ => exact allNamed_ownChain named

theorem allNamed_finish
    (named : AllNamed matched) (run : rule.finish matched before = (.ok attached, after)) :
    AllNamed attached := by
  cases finishing_of_finish run with
  | update _ updates =>
      simp only [attachUpdate, bind_eq_ok, get_eq_ok, recording_eq_ok, pure_eq_ok] at updates
      obtain ⟨_, _, _, _, _, _, _, _, _, rfl, _⟩ := updates
      exact allNamed_combine named (List.mem_cons_self ..)
  | limited _ _ limits =>
      obtain ⟨_, _, _, _, _, _, _, _, _, _, _, _, _, _, attaches⟩ := attachLimit_eq_ok limits
      obtain ⟨_, _, rfl⟩ := attach_own_eq_ok attaches
      exact allNamed_ownChain named
  | action _ _ acts =>
      simp only [attachAction, bind_eq_ok, recording_eq_ok] at acts
      obtain ⟨_, _, _, acts⟩ := acts
      exact allNamed_attachLog named acts
  | jump _ => exact allNamed_combine named (List.mem_cons_self ..)
  | plain _ => exact named

/-- A fragment of a rule has a place, in the table of the rule and in one of its families. -/
theorem exists_place_of_mem_ownFragments
    {own : List Fragment} (run : rule.ownFragments before = (.ok own, after)) {part : Fragment}
    (member : part ∈ own) :
    ∃ place, part.place? = some place ∧ place.family ∈ rule.families after.settings ∧
      place.table = rule.kind.table := by
  obtain ⟨matched, middle, finished, matches_, finishes, rfl⟩ := ownFragments_eq_ok run
  have named : AllNamed finished := allNamed_finish (fun part isPart =>
    (exists_chain_of_mem_dimensions matches_ part isPart).imp fun _ => And.right) finishes
  obtain ⟨chain, stands⟩ := allNamed_combine named (List.mem_cons_self ..) part member
  obtain ⟨_, isFamily, inFamily⟩ := exists_extends_of_mem_combine member
    (show some ((rule.families after.settings).map Fragment.ofFamily) ∈ _ by simp)
  obtain ⟨family, enabled, rfl⟩ := List.mem_map.1 isFamily
  obtain ⟨_, isTable, inTable⟩ := exists_extends_of_mem_combine member
    (show some [Fragment.ofTable rule.kind.table] ∈ _ by simp)
  obtain rfl := List.mem_singleton.1 isTable
  exact ⟨⟨family, rule.kind.table, chain⟩,
    Fragment.place?_eq_some_iff.2 ⟨inFamily.family _ rfl, inTable.table _ rfl, stands⟩, enabled, rfl⟩

end Rule

end FirewallPolicy
