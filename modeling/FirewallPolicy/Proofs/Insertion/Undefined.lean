import FirewallPolicy.Proofs.Insertion.Growth
import Mathlib.Data.List.Induction

/-!
# Jumps to chains that are not defined

A rule that jumps to a chain of the policy is put into the tree behind the lookup of the chain, and
a chain that is not defined makes the call fail right there.  The lookup stays recorded, however, so
a later call does not look the chain up again.  A rule of the tree therefore jumps to a chain that
is not defined only if an earlier call failed at that very chain.
-/

namespace FirewallPolicy

namespace CustomChain

/-- The section of custom chains defines a chain of that name. -/
def IsDefined (chains : SectionEntries) (name : String) : Prop :=
  ∃ entry, find? chains name = .ok (some entry)

/-- What the lookup of a chain that is not defined fails with: the name is refused, or the section
is a list, in which no name can be looked up. -/
inductive Refuses (chains : SectionEntries) (name : String) : Failure → Prop where
  | undefined (owner : String) : Refuses chains name (.fault owner (.invalidCustomChain name))
  | listed {items : List Entry} : chains = .list items → Refuses chains name .unusable

theorem find?_of_not_isDefined
    {chains : SectionEntries} {name : String} (undefined : ¬ IsDefined chains name) :
    find? chains name = .ok none ∨
      (find? chains name = .error .unusable ∧ ∃ items, chains = .list items) := by
  cases read : find? chains name with
  | ok found =>
      cases found with
      | none => exact Or.inl rfl
      | some entry => exact absurd ⟨entry, read⟩ undefined
  | error failure =>
      unfold find? at read
      split at read
      · cases read
      · obtain rfl := Except.error.inj read
        exact Or.inr ⟨rfl, _, rfl⟩
      · split at read <;> cases read

/-- A chain that is not defined has no body. -/
theorem body_of_not_isDefined
    {chains : SectionEntries} {name : String} (undefined : ¬ IsDefined chains name)
    (owner : String) (place : Place) :
    ∃ failure, body chains owner name place = .error failure ∧ Refuses chains name failure := by
  rcases find?_of_not_isDefined undefined with missing | ⟨failed, items, isList⟩
  · exact ⟨_, by rw [body, missing]; rfl, .undefined owner⟩
  · exact ⟨_, by rw [body, failed]; rfl, .listed isList⟩

end CustomChain

namespace Assembly

variable {source : ChainSource} {task : Task} {before after : Assembly} {lookups : List Lookup}
  {result : Except Failure Unit} {place : Place}

/-! ## One call -/

/-- A chain is looked up where its source has it. -/
theorem Performs.exists_body
    (performs : Performs source task before lookups result after)
    {lookup : Lookup} (member : lookup ∈ lookups) :
    ∃ owner, lookup.body = source.body owner lookup.chain := by
  induction performs with
  | done | unplaced _ | known _ => cases member
  | stopped _ _ inductionHypothesis => exact inductionHypothesis member
  | refused _ _ _ inductionHypothesis => exact inductionHypothesis member
  | placed _ _ _ _ jumpHypothesis restHypothesis =>
      exact (List.mem_append.1 member).elim jumpHypothesis restHypothesis
  | @missing owner _ _ _ _ _ _ read =>
      obtain rfl := List.mem_singleton.1 member
      exact ⟨owner, read.symm⟩
  | @brought owner _ _ _ _ _ _ _ _ _ read _ inductionHypothesis =>
      rcases List.mem_cons.1 member with rfl | inner
      · exact ⟨owner, read.symm⟩
      · exact inductionHypothesis inner

/-- A call fails with what the lookup of a chain fails with. -/
theorem Performs.result_eq_error
    (performs : Performs source task before lookups result after)
    {lookup : Lookup} (member : lookup ∈ lookups) {failure : Failure}
    (missing : lookup.body = .error failure) :
    result = .error failure := by
  induction performs with
  | done | unplaced _ | known _ => cases member
  | stopped _ _ inductionHypothesis => exact inductionHypothesis member
  | refused _ _ _ inductionHypothesis => cases inductionHypothesis member
  | placed _ _ _ _ jumpHypothesis restHypothesis =>
      rcases List.mem_append.1 member with inJump | inRest
      · cases jumpHypothesis inJump
      · exact restHypothesis inRest
  | missing _ _ =>
      obtain rfl := List.mem_singleton.1 member
      exact congrArg Except.error (Except.error.inj missing)
  | brought _ _ _ inductionHypothesis =>
      rcases List.mem_cons.1 member with rfl | inner
      · cases missing
      · exact inductionHypothesis inner

/-- What is recorded as looked up was recorded before, or it was looked up now. -/
theorem Performs.exists_lookup_of_expanded
    (performs : Performs source task before lookups result after)
    (expanded : place ∈ after.expanded) :
    place ∈ before.expanded ∨ ∃ lookup ∈ lookups, lookup.chain = place := by
  rw [performs.recorded.expanded] at expanded
  rcases List.mem_append.1 expanded with isNew | old
  · exact Or.inr (List.mem_map.1 (List.mem_reverse.1 isNew))
  · exact Or.inl old

/-- When a jump succeeds, its chain was looked up before or is found to have a body. -/
theorem Performs.known_or_found
    {owner : String} {rule : ChainRule} {located : Place} {target : String}
    (performs : Performs source (.jump owner rule located) before lookups (.ok ()) after)
    (states : rule.fragment.target = some target) (named : target.isEmpty = false) :
    located.withChain target ∈ before.expanded ∨
      ∃ lookup ∈ lookups, lookup.chain = located.withChain target ∧
        ∃ body, lookup.body = .ok body := by
  cases performs with
  | known old => exact Or.inl (newTarget?_eq_none old states named)
  | brought fresh read _ =>
      obtain rfl := Option.some.inj (states.symm.trans (newTarget?_eq_some fresh).1)
      exact Or.inr ⟨_, List.mem_cons_self .., rfl, _, rfl⟩

/-- The chain of a rule is open when its jump succeeded. -/
theorem Performs.isOpen_of_jump
    {owner : String} {rule : ChainRule} {located : Place}
    (performs : Performs source (.jump owner rule located) (before.reach rule located) lookups
      (.ok ()) after) :
    after.tree.isOpen located = true := by
  rcases performs.succeeds with ⟨-, rfl⟩ | ⟨target, body, -, -, inner⟩
  · exact isOpen_reach_self ..
  · exact inner.isOpen_of_reach

theorem jumpsTo_congr
    {first second : Assembly} (same : ∀ origin, first.tree.rules origin = second.tree.rules origin) :
    first.tree.JumpsTo place ↔ second.tree.JumpsTo place := by
  unfold RuleTree.JumpsTo
  simp only [same]

/-- A chain that something jumps to afterwards was jumped to or looked up before, or it was found to
have a body. -/
theorem Performs.jumpsTo_cases
    (performs : Performs source task before lookups result after)
    (named : place.chain.isEmpty = false) (jumps : after.tree.JumpsTo place) :
    before.tree.JumpsTo place ∨ place ∈ before.expanded ∨
      ∃ lookup ∈ lookups, lookup.chain = place ∧ ∃ body, lookup.body = .ok body := by
  induction performs with
  | done | unplaced _ | known _ => exact Or.inl jumps
  | stopped _ _ inductionHypothesis | refused _ _ _ inductionHypothesis =>
      exact (inductionHypothesis jumps).imp_left (jumpsTo_congr (rules_reach _ _ _)).1
  | @placed owner front rule rest assembly filled after located lookups more result here jump usable
      tail jumpHypothesis restHypothesis =>
      -- What is known once the rule was brought in counts for the whole call.
      have early (known : filled.tree.JumpsTo place ∨ place ∈ filled.expanded) :
          assembly.tree.JumpsTo place ∨ place ∈ assembly.expanded ∨
            ∃ lookup ∈ lookups ++ more, lookup.chain = place ∧ ∃ body, lookup.body = .ok body := by
        rcases known with earlier | expanded
        · rcases jumpHypothesis earlier with old | known | ⟨lookup, member, found⟩
          · exact Or.inl ((jumpsTo_congr (rules_reach _ _ _)).1 old)
          · exact Or.inr (Or.inl known)
          · exact Or.inr (Or.inr ⟨lookup, List.mem_append_left _ member, found⟩)
        · rcases jump.exists_lookup_of_expanded expanded with known | ⟨lookup, member, same⟩
          · exact Or.inr (Or.inl known)
          · cases found : lookup.body with
            | ok body =>
                exact Or.inr (Or.inr ⟨lookup, List.mem_append_left _ member, same, body, found⟩)
            | error failure => cases jump.result_eq_error member found
      rcases restHypothesis jumps with ⟨origin, family, table, line, member, goes⟩ | known |
        ⟨lookup, member, found⟩
      · rcases mem_rules_place jump.isOpen_of_jump member with old | ⟨rfl, rfl⟩
        · exact early (Or.inl ⟨origin, family, table, line, old, goes⟩)
        · have isChain : origin.withChain place.chain = place := by
            unfold Place.withChain
            rw [family, table]
          rcases jump.known_or_found goes named with known | ⟨lookup, member, same, found⟩
          · exact Or.inr (Or.inl (isChain ▸ known))
          · exact Or.inr (Or.inr
              ⟨lookup, List.mem_append_left _ member, same.trans isChain, found⟩)
      · exact early (Or.inr known)
      · exact Or.inr (Or.inr ⟨lookup, List.mem_append_right _ member, found⟩)
  | missing _ _ => exact Or.inl ((jumpsTo_congr (rules_noteTarget _ _)).1 jumps)
  | brought fresh read _ inductionHypothesis =>
      rcases inductionHypothesis jumps with old | known | ⟨lookup, member, found⟩
      · exact Or.inl ((jumpsTo_congr (rules_noteTarget _ _)).1 old)
      · rcases List.mem_cons.1 known with rfl | old
        · exact Or.inr (Or.inr ⟨_, List.mem_cons_self .., rfl, _, rfl⟩)
        · exact Or.inr (Or.inl old)
      · exact Or.inr (Or.inr ⟨lookup, List.mem_cons_of_mem _ member, found⟩)

/-! ## Calls one after the other -/

theorem insertCalls_append (early late : List Call) (before : Assembly) :
    (insertCalls (early ++ late) before).2 =
      (insertCalls late (insertCalls early before).2).2 := by
  induction early generalizing before with
  | nil => rfl
  | cons call rest inductionHypothesis => exact inductionHypothesis _

theorem insertCalls_concat (calls : List Call) (call : Call) (before : Assembly) :
    (insertCalls (calls ++ [call]) before).2 =
      (insert call.source call.owner call.fragments (insertCalls calls before).2).2 :=
  insertCalls_append calls [call] before

/-- What the rules of a tree jump to was looked up. -/
def IsLookedUp (assembly : Assembly) : Prop :=
  ∀ place : Place, place.chain.isEmpty = false → assembly.tree.JumpsTo place →
    place ∈ assembly.expanded

theorem IsLookedUp.insert
    (lookedUp : before.IsLookedUp) (call : Call) :
    (Assembly.insert call.source call.owner call.fragments before).2.IsLookedUp := by
  obtain ⟨lookups, performs⟩ := endsWith_insert call.source call.owner call.fragments before
  intro place named jumps
  have recorded := performs.recorded
  rcases performs.jumpsTo_cases named jumps with old | known | ⟨lookup, member, rfl, -⟩
  · exact recorded.subset (lookedUp place named old)
  · exact recorded.subset known
  · rw [recorded.expanded]
    exact List.mem_append_left _ (List.mem_reverse.2 (List.mem_map_of_mem member))

theorem isLookedUp_insertCalls (calls : List Call) :
    (insertCalls calls {}).2.IsLookedUp := by
  induction calls using List.reverseRecOn with
  | nil =>
      rintro place - ⟨origin, -, -, line, member, -⟩
      cases member
  | append_singleton calls call inductionHypothesis =>
      rw [insertCalls_concat]
      exact inductionHypothesis.insert call

/-- What was looked up in the end was looked up by one of the calls. -/
theorem exists_call_of_expanded
    {calls : List Call} (expanded : place ∈ (insertCalls calls {}).2.expanded) :
    ∃ early call late, calls = early ++ call :: late ∧
      place ∉ (insertCalls early {}).2.expanded ∧
      place ∈ (insertCalls (early ++ [call]) {}).2.expanded := by
  induction calls using List.reverseRecOn with
  | nil => cases expanded
  | append_singleton calls call inductionHypothesis =>
      by_cases known : place ∈ (insertCalls calls {}).2.expanded
      · obtain ⟨early, first, late, rfl, fresh, found⟩ := inductionHypothesis known
        exact ⟨early, first, late ++ [call], by simp, fresh, found⟩
      · exact ⟨calls, call, [], rfl, known, expanded⟩

/-- A call that looks up a chain that is not defined fails there and leaves nothing that jumps to
the chain. -/
theorem refuses_of_lookup
    {call : Call} {name : String} (isCustom : customName? place.chain = some name)
    (undefined : ¬ CustomChain.IsDefined call.source.custom name)
    (named : place.chain.isEmpty = false) (lookedUp : before.IsLookedUp)
    (fresh : place ∉ before.expanded)
    (expanded : place ∈ (insert call.source call.owner call.fragments before).2.expanded) :
    (∃ failure, CustomChain.Refuses call.source.custom name failure ∧
      (insert call.source call.owner call.fragments before).1 = .error failure) ∧
    ¬ (insert call.source call.owner call.fragments before).2.tree.JumpsTo place := by
  obtain ⟨lookups, performs⟩ := endsWith_insert call.source call.owner call.fragments before
  have refused : ∀ lookup ∈ lookups, lookup.chain = place →
      ∃ failure, lookup.body = .error failure ∧
        CustomChain.Refuses call.source.custom name failure := by
    rintro lookup member rfl
    obtain ⟨owner, isBody⟩ := performs.exists_body member
    rw [isBody, ChainSource.body, isCustom]
    exact CustomChain.body_of_not_isDefined undefined owner lookup.chain
  constructor
  · rcases performs.exists_lookup_of_expanded expanded with known | ⟨lookup, member, same⟩
    · exact absurd known fresh
    · obtain ⟨failure, missing, refuses⟩ := refused lookup member same
      exact ⟨failure, refuses, performs.result_eq_error member missing⟩
  · intro jumps
    rcases performs.jumpsTo_cases named jumps with old | known | ⟨lookup, member, same, _, found⟩
    · exact fresh (lookedUp place named old)
    · exact fresh known
    · obtain ⟨failure, missing, -⟩ := refused lookup member same
      cases found.symm.trans missing

theorem isEmpty_of_customName?
    {target name : String} (isCustom : customName? target = some name) :
    target.isEmpty = false := by
  rw [Bool.eq_false_iff]
  intro isEmpty
  rw [String.isEmpty_iff] at isEmpty
  subst isEmpty
  have nameless : customName? "" = none := by decide
  cases nameless.symm.trans isCustom

/-- A rule of the tree jumps to a chain that the policy does not define only behind a call that
failed at the lookup of that chain and left nothing that jumps to it. -/
theorem refused_of_jumpsTo_undefined
    {calls : List Call} {chains : SectionEntries}
    (oneSection : ∀ call ∈ calls, call.source.custom = chains)
    {name : String} (isCustom : customName? place.chain = some name)
    (undefined : ¬ CustomChain.IsDefined chains name)
    (jumps : (insertCalls calls {}).2.tree.JumpsTo place) :
    ∃ early call late failure, calls = early ++ call :: late ∧
      CustomChain.Refuses chains name failure ∧
      (insert call.source call.owner call.fragments (insertCalls early {}).2).1 = .error failure ∧
      place ∉ (insertCalls early {}).2.expanded ∧
      place ∈ (insertCalls (early ++ [call]) {}).2.expanded ∧
      ¬ (insertCalls (early ++ [call]) {}).2.tree.JumpsTo place := by
  have named := isEmpty_of_customName? isCustom
  obtain ⟨early, call, late, rfl, fresh, expanded⟩ :=
    exists_call_of_expanded (isLookedUp_insertCalls calls place named jumps)
  have isSection := oneSection call (by simp)
  rw [← isSection] at undefined
  rw [insertCalls_concat] at expanded
  obtain ⟨⟨failure, refuses, failed⟩, unjumped⟩ := refuses_of_lookup isCustom undefined named
    (isLookedUp_insertCalls early) fresh expanded
  rw [← insertCalls_concat] at expanded unjumped
  exact ⟨early, call, late, failure, rfl, isSection ▸ refuses, failed, fresh, expanded, unjumped⟩

/-- A rule that jumps to a chain that is not defined. -/
def undefinedJump : Fragment where
  family := some "inet"
  table := some "filter"
  chain := some "INPUT"
  target := some "custom:x"

/-- A call with that rule, in a policy without chains of its own. -/
def undefinedCall : Call where
  source := ⟨[], .map []⟩
  owner := ""
  fragments := [undefinedJump]

theorem not_isDefined_empty (name : String) : ¬ CustomChain.IsDefined (.map []) name := by
  rintro ⟨entry, found⟩
  cases found

theorem rules_undefinedCalls :
    (insertCalls [undefinedCall, undefinedCall] {}).2.tree.rules ⟨"inet", "filter", "INPUT"⟩ =
      [RuleLine.ofFragment undefinedJump] := by
  decide

theorem jumpsTo_undefinedCalls :
    (insertCalls [undefinedCall, undefinedCall] {}).2.tree.JumpsTo
      ⟨"inet", "filter", "custom:x"⟩ := by
  refine ⟨⟨"inet", "filter", "INPUT"⟩, rfl, rfl, RuleLine.ofFragment undefinedJump, ?_, rfl⟩
  rw [rules_undefinedCalls]
  exact List.mem_singleton_self _

/-- The first call is refused, and the same call after it puts the jump into the tree. -/
theorem exists_jumpsTo_undefined :
    ∃ calls chains place name, (∀ call ∈ calls, call.source.custom = chains) ∧
      customName? place.chain = some name ∧ ¬ CustomChain.IsDefined chains name ∧
      (insertCalls calls {}).2.tree.JumpsTo place :=
  ⟨[undefinedCall, undefinedCall], .map [], ⟨"inet", "filter", "custom:x"⟩, "x", by simp [undefinedCall],
    by decide, not_isDefined_empty "x", jumpsTo_undefinedCalls⟩

theorem refused_of_undefinedCalls :
    ∃ early call late failure, [undefinedCall, undefinedCall] = early ++ call :: late ∧
      CustomChain.Refuses (.map []) "x" failure ∧
      (insert call.source call.owner call.fragments (insertCalls early {}).2).1 =
        .error failure ∧
      ⟨"inet", "filter", "custom:x"⟩ ∉ (insertCalls early {}).2.expanded ∧
      ⟨"inet", "filter", "custom:x"⟩ ∈ (insertCalls (early ++ [call]) {}).2.expanded ∧
      ¬ (insertCalls (early ++ [call]) {}).2.tree.JumpsTo ⟨"inet", "filter", "custom:x"⟩ :=
  refused_of_jumpsTo_undefined (by simp [undefinedCall]) (by decide) (not_isDefined_empty "x")
    jumpsTo_undefinedCalls

/-! ## Who jumps there -/

theorem customName?_eq_some {target name : String} (isCustom : customName? target = some name) :
    target = customMark ++ name := by
  unfold customName? at isCustom
  split at isCustom
  · next marked =>
      obtain ⟨rest, same⟩ := List.isPrefixOf_iff_prefix.1 marked
      obtain rfl := Option.some.inj isCustom
      rw [← String.toList_inj, String.toList_append, String.toList_ofList, ← same,
        show customMark.length = customMark.toList.length from rfl, List.drop_left]
  · cases isCustom

/-- One of the rules jumps to the policy's own chain of that name. -/
def JumpToCustom (rules : List ChainRule) (name : String) : Prop :=
  ∃ rule ∈ rules, rule.fragment.target = some (customMark ++ name)

theorem JumpToCustom.mono {rules others : List ChainRule} {name : String}
    (jump : JumpToCustom rules name) (subset : rules ⊆ others) : JumpToCustom others name := by
  obtain ⟨rule, member, target⟩ := jump
  exact ⟨rule, subset member, target⟩

/-- Where the jumps of a task come from. -/
def Task.owner : Task → String
  | .insert owner _ _ => owner
  | .jump owner _ _ => owner

/-- The rules that a task is about. -/
def Task.rules : Task → List ChainRule
  | .insert _ _ rules => rules
  | .jump _ rule _ => [rule]

/-- A task fails at a chain that is not defined, at its owner where one of its rules jumps to the
chain.  A rule of a chain that was brought in has no owner, so the location is empty then. -/
theorem Performs.jumps
    (performs : Performs source task before lookups result after) {location name : String}
    (fails : result = .error (.fault location (.invalidCustomChain name))) :
    CustomChain.find? source.custom name = .ok none ∧
      (location = task.owner ∧ JumpToCustom task.rules name ∨
        location = "" ∧ ∃ owner place body, source.body owner place = .ok body ∧
          JumpToCustom body name) := by
  induction performs with
  | done | known _ => cases fails
  | unplaced _ => cases fails
  | stopped _ _ inductionHypothesis =>
      refine (inductionHypothesis fails).imp_right (Or.imp_left (And.imp_right fun jump => ?_))
      exact jump.mono (List.cons_subset.2 ⟨List.mem_cons_self .., List.nil_subset _⟩)
  | refused _ _ _ _ => cases fails
  | placed _ _ _ _ _ restHypothesis =>
      refine (restHypothesis fails).imp_right (Or.imp_left (And.imp_right fun jump => ?_))
      exact jump.mono (List.subset_cons_self _ _)
  | @missing owner target rule _ _ _ fresh read =>
      obtain rfl := Except.error.inj fails
      rcases ChainSource.failsOnly_body _ read with isPlain | ⟨other, isCustom, missing, same⟩
      · simp at isPlain
      · obtain ⟨rfl, cause⟩ := Fault.mk.inj (Failure.policy.inj same)
        obtain rfl := Cause.invalidCustomChain.inj cause
        refine ⟨missing, .inl ⟨rfl, rule, List.mem_singleton_self _, ?_⟩⟩
        rw [(newTarget?_eq_some fresh).1]
        exact congrArg some (customName?_eq_some isCustom)
  | brought _ read _ inductionHypothesis =>
      refine (inductionHypothesis fails).imp_right (Or.rec ?_ .inr)
      rintro ⟨rfl, jump⟩
      exact .inr ⟨rfl, _, _, _, read, jump⟩

end Assembly

namespace CustomChain

/-- The chain of that name is defined, and one of its rules jumps to the other one. -/
def JumpsTo (chains : SectionEntries) (name other : String) : Prop :=
  ∃ entry, find? chains name = .ok (some entry) ∧
    ∃ stated ∈ rulesOf entry, customMark ++ other ∈ targetsOf stated

theorem jumpsTo_of_body
    {chains : SectionEntries} {owner name other : String} {place : Place} {rules : List ChainRule}
    (read : body chains owner name place = .ok rules)
    (jump : Assembly.JumpToCustom rules other) : JumpsTo chains name other := by
  obtain ⟨rule, member, target⟩ := jump
  simp only [body, except_bind_eq_ok] at read
  obtain ⟨found, isFound, read⟩ := read
  cases found with
  | none => simp at read
  | some entry =>
      simp only [except_bind_eq_ok, except_pure_eq_ok] at read
      obtain ⟨results, run, rfl⟩ := read
      obtain ⟨stated, isStated, reading⟩ :=
        exists_of_mem_mapM run (show some rule ∈ results by simpa using member)
      exact ⟨entry, isFound, stated, isStated, (readRule_eq_some reading).2.2 _ target⟩

end CustomChain

/-- Where no rule of a declared chain jumps to the policy's own chains, only the chains of the policy
do. -/
theorem ChainSource.exists_jumpsTo_of_body
    {source : ChainSource} {owner name : String} {place : Place} {body : List ChainRule}
    (declared : ∀ fragment ∈ source.auxiliary, fragment.target ≠ some (customMark ++ name))
    (read : source.body owner place = .ok body) (jump : Assembly.JumpToCustom body name) :
    ∃ other, CustomChain.JumpsTo source.custom other name := by
  unfold ChainSource.body at read
  split at read
  · exact ⟨_, CustomChain.jumpsTo_of_body read jump⟩
  · obtain rfl := Except.ok.inj read
    obtain ⟨rule, member, target⟩ := jump
    obtain ⟨fragment, combined, rfl⟩ := List.mem_map.1 member
    obtain ⟨list, isList, part, isPart, partTarget⟩ :=
      Fragment.exists_target_of_mem_combine combined target
    rcases List.mem_cons.1 isList with isAuxiliary | isPlace
    · obtain rfl : list = source.auxiliary := by simpa using isAuxiliary
      exact absurd partTarget (declared part isPart)
    · obtain rfl : list = [atPlace place] := by simpa using isPlace
      obtain rfl := List.mem_singleton.1 isPart
      simp [atPlace] at partTarget

end FirewallPolicy
