import FirewallPolicy.Proofs.Rule.Dimensions
import FirewallPolicy.Proofs.Rule.Final

/-!
# Rules at the hooks

A rule stands at a hook as what it matches there, with one place that it jumps to, in each family
that it is generated for.  The bodies of the chains that it jumps to stand in chains of its own, not
at a hook.
-/

namespace FirewallPolicy

open Context Fragment Run Stateful

/-- A match in a family and a table, with the place that it jumps to. -/
def Fragment.placedAs (fragment : Fragment) (family table goal : String) : Fragment :=
  { fragment with family := some family, table := some table, target := some goal }

namespace Rule

variable {rule : Rule} {before after context : Context}
  {matched attached finished body own : List Fragment} {chain goal : String}

/-! ## Chains aside -/

/-- The chains that the fragments name were given out to rules. -/
def StandAside (context : Context) (fragments : List Fragment) : Prop :=
  ∀ part ∈ fragments, ∀ chain, part.chain = some chain →
    ∃ owner, context.chainNames.lookup owner = some chain

section Aside

variable {fragments others : List Fragment}

theorem standAside_of_open (free : ∀ part ∈ fragments, part.chain = none) :
    StandAside context fragments := by
  intro part member chain stands
  rw [free part member] at stands
  cases stands

theorem StandAside.append
    (first : StandAside context fragments) (second : StandAside context others) :
    StandAside context (fragments ++ others) :=
  fun part member => (List.mem_append.1 member).elim (first part) (second part)

theorem StandAside.grows (aside : StandAside before fragments) (grows : Grows before after) :
    StandAside after fragments := by
  intro part member chain stands
  obtain ⟨owner, known⟩ := aside part member chain stands
  exact ⟨owner, grows.nameOf _ _ known⟩

theorem StandAside.chain_ne
    (aside : StandAside context fragments) (sound : Context.Sound context) :
    ∀ part ∈ fragments, ∀ hook ∈ hookNames, part.chain ≠ some hook := by
  intro part member hook isHook stands
  obtain ⟨owner, known⟩ := aside part member hook stands
  exact sound.not_isOrdinary known (isOrdinary_of_hook isHook)

theorem standAside_combine
    {lists : List (Option (List Fragment))}
    (each : ∀ list, some list ∈ lists → StandAside context list) :
    StandAside context (combine lists) := by
  intro merged member chain stands
  obtain ⟨list, given, part, isPart, partStands⟩ := exists_chain_of_mem_combine member stands
  exact each list given part isPart chain partStands

theorem standAside_combine_pair
    (first : StandAside context fragments) (second : StandAside context others) :
    StandAside context (combine [some fragments, some others]) := by
  refine standAside_combine fun list given => ?_
  simp only [List.mem_cons, Option.some.injEq, List.not_mem_nil, or_false] at given
  rcases given with rfl | rfl
  · exact first
  · exact second

/-- The body of a chain stands in the chain, but for what stands in other chains already. -/
theorem standAside_chainBody
    {owner : Nat × String} {jumps actions : List Fragment}
    (known : context.chainNames.lookup owner = some chain)
    (aside : StandAside context actions) :
    StandAside context (chainBody jumps (actions.map (placeIn chain))) := by
  have placed : StandAside context (actions.map (placeIn chain)) := by
    intro part member name stands
    obtain ⟨action, isAction, rfl⟩ := List.mem_map.1 member
    unfold placeIn at stands
    split at stands
    · exact aside action isAction name stands
    · obtain rfl := Option.some.inj stands
      exact ⟨owner, known⟩
  unfold chainBody
  extract_lets families
  split
  · exact placed
  · refine standAside_combine_pair placed (standAside_of_open fun part member => ?_)
    obtain ⟨family, _, rfl⟩ := List.mem_map.1 member
    rfl

theorem standAside_ownChain
    {owner : Nat × String} {actions : List Fragment}
    (free : ∀ part ∈ matched, part.chain = none)
    (known : context.chainNames.lookup owner = some chain)
    (aside : StandAside context actions) :
    StandAside context (ownChain chain matched actions) := by
  refine StandAside.append (standAside_of_open fun part member => ?_)
    (standAside_chainBody known aside)
  obtain ⟨origin, isOrigin, rfl⟩ := List.mem_map.1 member
  rw [jumpTo_chain]
  exact free origin isOrigin

theorem standAside_actionFragments (log : Option LogClass) (target : Option String) :
    StandAside context (actionFragments log target) :=
  standAside_of_open fun _ => chain_of_mem_actionFragments

/-- What logs and jumps for matches at no hook stands at none. -/
theorem standAside_attachLog
    {log : Option LogClass} {action : String} {target : Option String}
    (free : ∀ part ∈ matched, part.chain = none)
    (run : rule.attachLog matched log action target before = (.ok attached, after)) :
    StandAside after attached := by
  have open_ (context : Context) : StandAside context matched := standAside_of_open free
  cases logAttachment_of_attachLog run with
  | nothing _ => exact open_ _
  | merged isSingle =>
      refine standAside_combine_pair (open_ _) ?_
      rw [← isSingle]
      exact standAside_actionFragments _ _
  | shared _ _ _ _ =>
      refine standAside_combine_pair (open_ _) (standAside_of_open fun part member => ?_)
      rw [List.mem_singleton.1 member]
      rfl
  | own _ _ names =>
      exact standAside_ownChain free (lookup_of_chainNameOf names)
        (standAside_actionFragments _ _)

theorem standAside_attachAction
    (free : ∀ part ∈ matched, part.chain = none)
    (run : rule.attachAction matched before = (.ok attached, after)) :
    StandAside after attached := by
  obtain ⟨target, middle, _, attaches⟩ := bind_eq_ok.1 run
  exact standAside_attachLog free attaches

theorem chain_eq_none_of_isMatch
    (isMatch : ∀ part ∈ matched, part.IsMatch []) : ∀ part ∈ matched, part.chain = none := by
  intro part member
  refine Option.eq_none_iff_forall_ne_some.2 fun chain stands => ?_
  exact absurd ((isMatch part member).chain chain stands) List.not_mem_nil

/-- The body of a limit chain stands at no hook. -/
theorem standAside_limitBody
    {limit : Limit} {log : Option LogClass} {connection : Bool} {target : Option String}
    (isBody : LimitBody rule limit chain log connection target before body after) :
    StandAside after body := by
  cases isBody with
  | recent read builds =>
      have free := chain_eq_none_of_isMatch (Limit.isMatch_recentFragments read)
      simp only [recentChain, bind_eq_ok, pure_eq_ok] at builds
      obtain ⟨dropped, _, drops, rfl, rfl⟩ := builds
      refine StandAside.append (StandAside.append ?_ ?_) ?_
      · exact standAside_attachLog
          (fun part member => free part (List.mem_append_left _ member)) drops
      · split
        · exact standAside_actionFragments _ _
        · exact standAside_of_open (by simp)
      · refine standAside_combine_pair
          (standAside_of_open fun part member => free part (List.mem_append_right _ member))
          (standAside_of_open (by simp))
  | passing _ _ builds =>
      simp only [passingChain, bind_eq_ok, pure_eq_ok, get_eq_ok, recording_eq_ok] at builds
      obtain ⟨_, _, ⟨rfl, rfl⟩, above, _, ⟨read, rfl⟩, dropped, _, drops, rfl, rfl⟩ := builds
      have free := chain_eq_none_of_isMatch (Limit.isMatch_hashFragments read)
      exact (standAside_attachLog free drops).append (standAside_actionFragments _ _)
  | counting _ _ builds =>
      simp only [countingChain, bind_eq_ok, get_eq_ok, recording_eq_ok] at builds
      obtain ⟨_, _, ⟨rfl, rfl⟩, within, _, ⟨read, rfl⟩, builds⟩ := builds
      have free := chain_eq_none_of_isMatch (Limit.isMatch_hashFragments read)
      split at builds
      · simp only [bind_eq_ok, pure_eq_ok] at builds
        obtain ⟨passed, _, passes, rfl, rfl⟩ := builds
        exact (standAside_attachAction free passes).append (standAside_actionFragments _ _)
      · simp only [bind_eq_ok, pure_eq_ok] at builds
        obtain ⟨_, _, ⟨rfl, rfl⟩, rfl, rfl⟩ := builds
        refine StandAside.append ?_ (standAside_actionFragments _ _)
        refine standAside_combine_pair (standAside_of_open free)
          (standAside_of_open fun part member => ?_)
        rw [List.mem_singleton.1 member]
        rfl

end Aside

/-! ## Jumps -/

/-- The ways in which a rule with a target goes on from its matches: to the chain of its limit, to
its target by way of its log class, or to its target. -/
inductive GoesOnTo (rule : Rule) (matched : List Fragment) (after : Context)
    (finished : List Fragment) : String → Prop
  | limit {name chain : String} {body : List Fragment} :
      rule.limitName? = .ok (some name) →
      after.chainNames.lookup (rule.serial, "limit") = some chain →
      StandAside after body →
      finished = ownChain chain matched body →
      GoesOnTo rule matched after finished chain
  | route {target goal : String} :
      rule.kind.logs = true → (rule.kind.isFilter = true → rule.limitName? = .ok none) →
      rule.target = .ok (some target) →
      Route rule matched rule.action target after finished goal →
      GoesOnTo rule matched after finished goal
  | jump {target : String} :
      rule.target = .ok (some target) →
      finished = matched.map (jumpTo target) →
      GoesOnTo rule matched after finished target

/-- What a rule with a target does to its matches. -/
theorem exists_goesOnTo
    {target : String} (read : rule.target = .ok (some target))
    (free : ∀ part ∈ matched, part.target = none)
    (isKnown : ∀ known, rule.log? = some known → before.logBook.Knows known)
    (run : rule.finish matched before = (.ok finished, after)) :
    ∃ goal, GoesOnTo rule matched after finished goal := by
  cases finishing_of_finish run with
  | update isUpdate _ =>
      have none : rule.target = .ok none := by simp [Rule.target, isUpdate]
      rw [none] at read
      cases read
  | limited _ isLimit limits =>
      obtain ⟨chain, mapping, limit, _, body, named, declared, filled, -, _, _, _, -, isBody,
        attaches⟩ := attachLimit_eq_ok limits
      obtain ⟨again, names, rfl⟩ := attach_own_eq_ok attaches
      exact ⟨again, .limit isLimit (lookup_of_chainNameOf names)
        ((standAside_limitBody isBody).grows (grows_chainNameOf.of_eq names)) rfl⟩
  | action logs unlimited acts =>
      simp only [attachAction, bind_eq_ok, recording_eq_ok] at acts
      obtain ⟨_, _, ⟨again, rfl⟩, attaches⟩ := acts
      obtain rfl : some target = _ := Except.ok.inj (read.symm.trans again)
      obtain ⟨goal, route⟩ := exists_route free isKnown attaches
      exact ⟨goal, .route logs unlimited read route⟩
  | jump again =>
      exact ⟨_, .jump again (combine_ofTarget free)⟩
  | plain none =>
      rw [none] at read
      cases read

/-- A rule that has no log class and no limit jumps to its target. -/
theorem GoesOnTo.of_plain
    (plain : rule.kind.logs = false) (goesOn : GoesOnTo rule matched after finished goal) :
    rule.target = .ok (some goal) ∧ finished = matched.map (jumpTo goal) := by
  cases goesOn with
  | limit limited _ _ _ =>
      have notFilter : rule.kind.isFilter = false := by
        cases isKind : rule.kind <;> first | rfl | (rw [isKind] at plain; cases plain)
      have unlimited : rule.limitName? = .ok none := by simp [limitName?, notFilter]
      rw [unlimited] at limited
      cases limited
  | route logs _ _ _ =>
      rw [plain] at logs
      cases logs
  | jump read same => exact ⟨read, same⟩

/-- Each match jumps. -/
theorem GoesOnTo.jumpTo_mem
    (goesOn : GoesOnTo rule matched after finished goal) {origin : Fragment}
    (member : origin ∈ matched) : jumpTo goal origin ∈ finished := by
  have isJump : jumpTo goal origin ∈ matched.map (jumpTo goal) := List.mem_map_of_mem member
  cases goesOn with
  | limit _ _ _ same => exact same ▸ List.mem_append_left _ isJump
  | route _ _ _ route =>
      cases route with
      | direct same => exact same ▸ isJump
      | shared _ same => exact same ▸ isJump
      | own _ same => exact same ▸ List.mem_append_left _ isJump
  | jump _ same => exact same ▸ isJump

/-- What stands at a hook is a match that jumps. -/
theorem GoesOnTo.exists_origin
    (goesOn : GoesOnTo rule matched after finished goal) (sound : Context.Sound after)
    {part : Fragment} (member : part ∈ finished) {hook : String} (isHook : hook ∈ hookNames)
    (inHook : part.chain = some hook) :
    ∃ origin ∈ matched, part = jumpTo goal origin := by
  have ofJump {goal : String} (isJump : part ∈ matched.map (jumpTo goal)) :
      ∃ origin ∈ matched, part = jumpTo goal origin := by
    obtain ⟨origin, isOrigin, rfl⟩ := List.mem_map.1 isJump
    exact ⟨origin, isOrigin, rfl⟩
  cases goesOn with
  | limit _ known aside same =>
      subst same
      rcases List.mem_append.1 member with isJump | isBody
      · exact ofJump isJump
      · have elsewhere := (standAside_chainBody known aside).chain_ne sound part isBody hook isHook
        exact absurd inHook elsewhere
  | route _ _ _ route =>
      rcases route.cases_of_mem member with isJump | ⟨inGoal, known⟩
      · exact isJump
      · obtain rfl := Option.some.inj (inGoal.symm.trans inHook)
        exact absurd (isOrdinary_of_hook isHook) (sound.not_isOrdinary known)
  | jump _ same => exact ofJump (same ▸ member)

/-! ## Fragments at a hook -/

theorem hookName_mem (hook : Hook) : hook.chainName ∈ hookNames := by
  cases hook <;> decide

/-- The chain that stands for a hook is one of the hooks. -/
theorem mem_hookNames_of_chainOf?
    {kind : RuleKind} {hook : Hook} {chain : String} (mapped : kind.chainOf? hook = some chain) :
    chain ∈ hookNames := by
  have each : ∀ chain ∈ kind.chainOf? hook, chain ∈ hookNames := by
    cases kind <;> cases hook <;> simp [RuleKind.chainOf?, hookNames]
  exact each chain mapped

/-- A rule in a table and in families: what agrees with them. -/
theorem mem_spread_iff
    {families : List String} {table : String} {placed : Fragment} :
    placed ∈ combine [some finished, some (families.map ofFamily), some [.ofTable table]] ↔
      ∃ part ∈ finished, ∃ family ∈ families, Compatible part.family (some family) ∧
        Compatible part.table (some table) ∧
        placed = { part with family := some family, table := some table } := by
  have lists : combine [some finished, some (families.map ofFamily), some [.ofTable table]] =
      product (product finished (families.map ofFamily)) [.ofTable table] := rfl
  rw [lists]
  constructor
  · intro member
    obtain ⟨restricted, isRestricted, _, isTable, merged⟩ := mem_product.1 member
    obtain rfl := List.mem_singleton.1 isTable
    obtain ⟨part, isPart, _, isFamily, both⟩ := mem_product.1 isRestricted
    obtain ⟨family, enabled, rfl⟩ := List.mem_map.1 isFamily
    obtain ⟨fits, rfl⟩ := merge_ofFamily_eq_some_iff.1 both
    obtain ⟨inTable, rfl⟩ := merge_ofTable_eq_some_iff.1 merged
    exact ⟨part, isPart, family, enabled, fits, inTable, rfl⟩
  · rintro ⟨part, isPart, family, enabled, fits, inTable, rfl⟩
    refine mem_product.2 ⟨{ part with family := some family }, ?_, .ofTable table,
      List.mem_singleton_self _, merge_ofTable_eq_some_iff.2 ⟨inTable, rfl⟩⟩
    exact mem_product.2 ⟨part, isPart, ofFamily family, List.mem_map_of_mem enabled,
      merge_ofFamily_eq_some_iff.2 ⟨fits, rfl⟩⟩

/-- The fragments of a rule at the hooks: each match with the place that the rule goes on to, in
each family that agrees with it. -/
def StandsAtHooks (rule : Rule) (matched own : List Fragment) (after : Context)
    (goal : String) : Prop :=
  ∀ hook ∈ hookNames, ∀ part, part.chain = some hook →
    (part ∈ own ↔ ∃ origin ∈ matched, ∃ family ∈ rule.families after.settings,
      Compatible origin.family (some family) ∧
        part = origin.placedAs family rule.kind.table goal)

theorem exists_standsAtHooks
    {target : String} (read : rule.target = .ok (some target))
    (sound : Context.Sound before) (ruleSound : rule.Sound before.logBook)
    (run : rule.ownFragments before = (.ok own, after)) :
    ∃ matched middle finished goal, rule.dimensions before = (.ok matched, middle) ∧
      GoesOnTo rule matched after finished goal ∧
      own = combine [some finished, some ((rule.families after.settings).map ofFamily),
        some [.ofTable rule.kind.table]] ∧
      StandsAtHooks rule matched own after goal := by
  have soundAfter : Context.Sound after := sound_ownFragments sound ruleSound run
  obtain ⟨matched, middle, finished, dimensions, finishes, rfl⟩ := ownFragments_eq_ok run
  obtain ⟨position, _, isMatched⟩ := dimensions_eq_ok dimensions
  have notes : Notes before middle := notes_dimensions.of_eq dimensions
  have ruleMiddle := ruleSound.keeps sound.logs notes.logs
  obtain ⟨goal, goesOn⟩ := exists_goesOnTo read (fun part isPart => (isMatched part isPart).target)
    ruleMiddle.log finishes
  refine ⟨matched, middle, finished, goal, dimensions, goesOn, rfl,
    fun hook isHook part inHook => ?_⟩
  rw [mem_spread_iff]
  constructor
  · rintro ⟨standing, isStanding, family, enabled, fits, _, rfl⟩
    obtain ⟨origin, isOrigin, rfl⟩ :=
      goesOn.exists_origin soundAfter isStanding isHook inHook
    rw [jumpTo_family] at fits
    refine ⟨origin, isOrigin, family, enabled, fits, ?_⟩
    rw [jumpTo_of_open (isMatched origin isOrigin).target]
    rfl
  · rintro ⟨origin, isOrigin, family, enabled, fits, rfl⟩
    have isMatch := isMatched origin isOrigin
    refine ⟨jumpTo goal origin, goesOn.jumpTo_mem isOrigin, family, enabled, ?_, ?_, ?_⟩
    · rwa [jumpTo_family]
    · rw [jumpTo_of_open isMatch.target]
      simp [Compatible, isMatch.table]
    · rw [jumpTo_of_open isMatch.target]
      rfl

end Rule

end FirewallPolicy
