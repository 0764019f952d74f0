import FirewallPolicy.Proofs.Compile.Soundness
import FirewallPolicy.Proofs.Compile.Virtual

/-!
# Complete auxiliary chains

An auxiliary chain gets its rules in the batch that looks it up first, and nothing else stands in
it.  So it is complete at the end exactly when it was known by then.  Rules of the policy jump to
known chains only, and just a chain that the policy defines may jump to one that is declared later.
-/

namespace FirewallPolicy

open Assembly Context Stateful

/-! ## Known rules of auxiliary chains -/

/-- The rules that are known for an auxiliary chain at a place. -/
def Context.auxiliaryAt (context : Context) (place : Place) : List Fragment :=
  Fragment.combine [some context.auxiliary, some [ChainSource.atPlace place]]

/-- The place is one of a built-in auxiliary chain or of one that was declared. -/
def Context.Declares (context : Context) (place : Place) : Prop :=
  place.chain = "tarpit" ∨ place.chain ∈ context.declared

section Known

variable {before after context : Context} {place : Place}

/-- A rule of another chain is none of a chain. -/
theorem merge_atPlace_of_ne
    {rule : Fragment} {chain : String}
    (stands : rule.chain = some chain) (different : chain ≠ place.chain) :
    rule.merge (ChainSource.atPlace place) = none := by
  rw [Option.eq_none_iff_forall_ne_some]
  intro merged merges
  obtain ⟨agree, -⟩ := Fragment.merge_eq_some_iff.1 merges
  exact different (agree.chain chain stands place.chain rfl)

/-- What is known of a chain that was declared stays as it is. -/
theorem auxiliaryAt_eq_of_grows
    (grows : Grows before after) (known : before.Declares place) :
    after.auxiliaryAt place = before.auxiliaryAt place := by
  obtain ⟨added, isAdded, declares⟩ := grows.auxiliary
  have elsewhere : ∀ rule ∈ added,
      [ChainSource.atPlace place].filterMap rule.merge = [] := by
    intro rule member
    obtain ⟨chain, stands, declared, fresh⟩ := declares rule member
    have isLog := (grows.logNames chain declared).resolve_left fresh
    have ordinary : IsOrdinary "tarpit" := by decide
    have different : chain ≠ place.chain := by
      rintro rfl
      rcases known with isTarpit | isDeclared
      · exact ordinary.ne_of_isLogName isLog isTarpit
      · exact fresh isDeclared
    simp [merge_atPlace_of_ne stands different]
  unfold auxiliaryAt
  rw [isAdded, Fragment.combine_pair, Fragment.combine_pair]
  unfold Fragment.product
  rw [List.flatMap_append, List.flatMap_eq_nil_iff.2 elsewhere, List.append_nil]

/-- A chain with known rules was declared, unless it is the built-in one. -/
theorem Context.Sound.declares_of_auxiliaryAt
    (sound : Context.Sound context) (known : context.auxiliaryAt place ≠ []) :
    context.Declares place := by
  by_contra undeclared
  rw [Declares, not_or] at undeclared
  refine known ?_
  unfold auxiliaryAt
  rw [Fragment.combine_pair]
  unfold Fragment.product
  rw [List.flatMap_eq_nil_iff]
  intro rule member
  obtain ⟨chain, stands, isKnown⟩ := sound.auxiliary rule member
  have different : chain ≠ place.chain := by
    rintro rfl
    exact isKnown.elim undeclared.1 undeclared.2
  simp [merge_atPlace_of_ne stands different]

/-- All rules of a chain are known as soon as any are. -/
theorem auxiliaryAt_eq_iff
    (sound : Context.Sound before) (grows : Grows before after)
    (known : after.auxiliaryAt place ≠ []) :
    before.auxiliaryAt place = after.auxiliaryAt place ↔ before.auxiliaryAt place ≠ [] := by
  constructor
  · exact fun same => same ▸ known
  · exact fun some => (auxiliaryAt_eq_of_grows grows (sound.declares_of_auxiliaryAt some)).symm

end Known

/-! ## Rules of auxiliary chains -/

/-- A rule of a shared chain is appended.  Its target has an ordinary name, and is none of the policy's
own chains. -/
theorem plain_of_mem_sharedBody
    {chain : String} {log : LogClass} {entry : String × String} (isEntry : entry ∈ actionTargets)
    {rule : Fragment} (member : rule ∈ sharedBody chain log entry.2) :
    rule.position = none ∧
      ∀ target, rule.target = some target → IsOrdinary target ∧ customName? target = none := by
  obtain ⟨part, isPart, rfl⟩ := List.mem_map.1 member
  rcases List.mem_append.1 isPart with logs | acts
  · rcases log.fragments_cases with none | ⟨tokens, target, isLog, one⟩
    · simp [none] at logs
    · obtain rfl : part = { tokens, target := some target } := by simpa [one] using logs
      refine ⟨rfl, ?_⟩
      rintro _ ⟨⟩
      exact ⟨isLog.isOrdinary, isLog.customName?_eq_none⟩
  · obtain rfl : part = Fragment.ofTarget entry.2 := by simpa using acts
    refine ⟨rfl, ?_⟩
    rintro _ ⟨⟩
    exact ⟨Rule.isOrdinary_of_action isEntry, Rule.customName?_eq_none_of_action isEntry⟩

section Compiled

variable {policy : Policy} {hosts : HostBook} {settings : Settings}
  {start before after last : Context} {place : Place} {batch : Batch}

/-- A rule of an auxiliary chain is appended.  Its target has an ordinary name, and is none of the
policy's own chains. -/
theorem plain_of_mem_auxiliary
    (framed : Building.Framed (Building.checked policy hosts settings) start)
    (grows : Grows start last) (sound : Context.Sound last)
    {rule : Fragment} (member : rule ∈ last.auxiliary) :
    rule.position = none ∧
      ∀ target, rule.target = some target → IsOrdinary target ∧ customName? target = none := by
  have registered : ∀ rule ∈ Builtin.filter.auxiliary,
      rule.position = none ∧ rule.target ∈ [some "TARPIT", some "DROP"] := by
    decide +kernel
  obtain ⟨added, isAdded, declares⟩ := grows.auxiliary
  rcases List.mem_append.1 (isAdded ▸ member) with known | isNew
  · rw [framed.auxiliary] at known
    obtain ⟨position, isTarget⟩ := registered rule known
    refine ⟨position, fun target jumps => ?_⟩
    rw [jumps] at isTarget
    simp only [List.mem_cons, Option.some.injEq, List.not_mem_nil, or_false] at isTarget
    rcases isTarget with rfl | rfl <;> decide
  · obtain ⟨chain, stands, declared, -⟩ := declares rule isNew
    obtain ⟨entry, isEntry, name, log, -, -, -, body⟩ := sound.shared chain declared
    have inBody : rule ∈ last.auxiliary.filter fun other => other.chain = some chain :=
      List.mem_filter.2 ⟨member, by simpa using stands⟩
    exact plain_of_mem_sharedBody isEntry (body ▸ inBody)

theorem isLogName_of_declared
    (sound : Context.Sound last) {chain : String} (declared : chain ∈ last.declared) :
    IsLogName chain :=
  (sound.shared chain declared).isSharedName.isLogName

theorem not_hook_of_declares
    (sound : Context.Sound last) (declares : last.Declares place) :
    place.chain ≠ "icmp-routing" ∧ place.chain ∉ hookNames := by
  rcases declares with isTarpit | declared
  · rw [isTarpit]
    decide
  · have isLog := isLogName_of_declared sound declared
    have ordinary : IsOrdinary "icmp-routing" := by decide
    exact ⟨ordinary.ne_of_isLogName isLog,
      fun isHook => (isOrdinary_of_hook isHook).not_isLogName isLog⟩

theorem not_names_of_declares
    (sound : Context.Sound last) (declares : last.Declares place) {owns : Nat × String → Prop} :
    ¬ Names last owns place.chain := by
  intro names
  rcases declares with isTarpit | declared
  · obtain ⟨owner, _, known⟩ := names
    obtain ⟨isKey, number, named⟩ := sound.isChainKey known
    refine not_isOrdinary_numberedName isKey number ?_
    rw [← named, isTarpit]
    decide
  · exact sound.notMem_declared names declared

/-- No rule of a batch stands in an auxiliary chain. -/
theorem Batch.Expands.elsewhere_of_declares
    (expands : batch.Expands before after) (isBuiltin : batch.described ∈ Builtin.ordered)
    (grows : Grows after last) (sound : Context.Sound last) (declares : last.Declares place) :
    ∀ rule ∈ batch.rules, rule.fragment.place? ≠ some place := by
  intro rule member stands
  obtain ⟨fragment, isFragment, rfl⟩ := List.mem_map.1 member
  have inChain := (Fragment.place?_eq_some_iff.1 stands).2.2
  obtain ⟨notRouting, notHook⟩ := not_hook_of_declares sound declares
  cases expands with
  | object run =>
      rcases (Rule.allPlaced_fragments run fragment isFragment).chain _ inChain with
        isHook | names
      · exact notHook isHook
      · exact not_names_of_declares sound declares (names.grows grows)
  | virtual isVirtual run =>
      have standing := Builtin.isStanding_rules
        (Builtin.rules_of_isVirtual _ isBuiltin isVirtual) run fragment isFragment
      exact (standing.chain _ inChain).elim notRouting notHook

/-- A rule of a batch that jumps to an auxiliary chain does so after the chain was declared. -/
theorem Batch.Expands.declares_of_target
    (expands : batch.Expands before after) (isBuiltin : batch.described ∈ Builtin.ordered)
    (grows : Grows after last) (sound : Context.Sound last) (declares : last.Declares place)
    {rule : ChainRule} (member : rule ∈ batch.rules)
    (jumps : rule.fragment.target = some place.chain) :
    after.Declares place := by
  obtain ⟨fragment, isFragment, rfl⟩ := List.mem_map.1 member
  refine declares.imp_right fun declared => ?_
  have isLog := isLogName_of_declared sound declared
  cases expands with
  | object run =>
      rcases (Rule.allPlaced_fragments run fragment isFragment).target _ jumps with
        ordinary | known | names
      · exact absurd isLog ordinary.not_isLogName
      · exact known
      · exact absurd (names.grows grows) (not_names_of_declares sound declares)
  | virtual isVirtual run =>
      have standing := Builtin.isStanding_rules
        (Builtin.rules_of_isVirtual _ isBuiltin isVirtual) run fragment isFragment
      exact absurd isLog (standing.target _ jumps).not_isLogName

end Compiled

/-! ## The first lookup -/

section Lookup

variable {batches : List Batch} {start final : Build} {place : Place}

/-- The batch is the first one to look up the chain at a place; `before` and `after` are the builds
around it. -/
structure FirstLookup (batches : List Batch) (start final : Build) (place : Place)
    (batch : Batch) (before after : Build) : Prop where
  split : ∃ early late, batches = early ++ batch :: late ∧
    RunsAll early start before ∧ RunsAll late after final
  runs : batch.Runs before after
  fresh : place ∉ before.assembly.expanded
  looked : place ∈ after.assembly.expanded

/-- A chain that was looked up in the end was looked up by a first batch. -/
theorem RunsAll.exists_firstLookup
    (runs : RunsAll batches start final)
    (fresh : place ∉ start.assembly.expanded) (looked : place ∈ final.assembly.expanded) :
    ∃ batch before after, FirstLookup batches start final place batch before after := by
  induction runs with
  | nil => exact absurd looked fresh
  | @cons first rest start middle final runs tail inductionHypothesis =>
      by_cases known : place ∈ middle.assembly.expanded
      · exact ⟨first, start, middle, ⟨[], rest, rfl, RunsAll.nil, tail⟩, runs, fresh, known⟩
      · obtain ⟨batch, before, after, lookup⟩ := inductionHypothesis known looked
        obtain ⟨early, late, rfl, earlyRuns, lateRuns⟩ := lookup.split
        exact ⟨batch, before, after,
          ⟨first :: early, late, rfl, RunsAll.cons runs earlyRuns, lateRuns⟩,
          lookup.runs, lookup.fresh, lookup.looked⟩

/-- Where no rule of the batches stands, only the batch that looks a chain up changes it. -/
theorem RunsAll.rules_of_elsewhere
    (runs : RunsAll batches start final)
    (elsewhere : ∀ batch ∈ batches, ∀ rule ∈ batch.rules, rule.fragment.place? ≠ some place)
    (settled : place ∈ start.assembly.expanded ∨ place ∉ final.assembly.expanded) :
    final.assembly.tree.rules place = start.assembly.tree.rules place := by
  induction runs with
  | nil => rfl
  | @cons first rest start middle final runs tail inductionHypothesis =>
      rw [List.forall_mem_cons] at elsewhere
      have firstSettled : Settled first.source place start.assembly middle.assembly :=
        settled.imp_right fun unknown =>
          Or.inl fun known => unknown (tail.expanded_subset known)
      have tailSettled : place ∈ middle.assembly.expanded ∨ place ∉ final.assembly.expanded :=
        settled.imp_left fun known => runs.inserts.expanded_subset known
      rw [inductionHypothesis elsewhere.2 tailSettled,
        runs.inserts.rules_of_elsewhere (Nat.zero_le _) firstSettled elsewhere.1]

/-- The batch that looks an auxiliary chain up brings in the rules that are known by then. -/
theorem Batch.Runs.rules_of_firstLookup
    {batch : Batch} {before after : Build}
    (runs : batch.Runs before after)
    (fresh : place ∉ before.assembly.expanded) (looked : place ∈ after.assembly.expanded)
    (elsewhere : ∀ rule ∈ batch.rules, rule.fragment.place? ≠ some place)
    (notCustom : customName? place.chain = none)
    (backs : ∀ rule ∈ after.context.auxiliary, rule.position = none) :
    after.assembly.tree.rules place = before.assembly.tree.rules place ++
      (after.context.auxiliaryAt place).map RuleLine.ofFragment := by
  have bodies : ∀ owner body, batch.source.body owner place = .ok body →
      body = (after.context.auxiliaryAt place).map fun fragment => { fragment } := by
    intro owner body read
    rw [runs.expands.source_eq] at read
    simp only [ChainSource.body, notCustom, Except.ok.injEq] at read
    exact read.symm
  have bodiesBack : ∀ owner body, batch.source.body owner place = .ok body →
      ∀ rule ∈ body, isFront rule = false := by
    intro owner body read rule member
    rw [isFront, decide_eq_false_iff_not]
    intro stated
    obtain ⟨fragment, isFragment, position⟩ :=
      ChainSource.exists_position_of_body read member stated
    rw [runs.expands.source_eq] at isFragment
    simp [backs fragment isFragment] at position
  obtain ⟨owner, body, read, result⟩ :=
    runs.inserts.rules_of_brought rfl fresh looked elsewhere bodiesBack
  rw [result, bodies owner body read, List.map_map]
  rfl

end Lookup

/-! ## Completeness -/

namespace Compilation

variable {policy : Policy} {hosts : HostBook} {given : Option Settings}
  {compilation : Compilation} {place : Place}

/-- The chain at a place holds all rules that are known for it at the end, in order. -/
def IsComplete (compilation : Compilation) (place : Place) : Prop :=
  compilation.tree.rules place =
    (compilation.build.context.auxiliaryAt place).map RuleLine.ofFragment

instance (compilation : Compilation) (place : Place) : Decidable (compilation.IsComplete place) :=
  inferInstanceAs (Decidable (_ = _))

theorem customName?_of_declares
    {context : Context} (sound : Context.Sound context) (declares : context.Declares place) :
    customName? place.chain = none := by
  rcases declares with isTarpit | declared
  · rw [isTarpit]
    decide +kernel
  · have isLog := isLogName_of_declared sound declared
    cases custom : customName? place.chain with
    | none => rfl
    | some name =>
        have ordinary := Rule.isOrdinary_of_customName? (by rw [custom]; rfl)
        exact absurd isLog ordinary.not_isLogName

theorem isEmpty_of_declares
    {context : Context} (sound : Context.Sound context) (declares : context.Declares place) :
    place.chain.isEmpty = false := by
  rcases declares with isTarpit | declared
  · rw [isTarpit]
    decide
  · obtain ⟨tail, same⟩ := isLogName_of_declared sound declared
    rw [same]
    simp

/-- A chain that is looked up was declared by then, unless a chain that the policy defines jumps
to it. -/
theorem declares_of_looked
    {start last : Context} {settings : Settings} {batch : Batch} {before after : Build}
    (framed : Building.Framed (Building.checked policy hosts settings) start)
    (grown : Grows start after.context) (grows : Grows after.context last)
    (sound : Context.Sound after.context) (soundLast : Context.Sound last)
    (isBuiltin : batch.described ∈ Builtin.ordered) (runs : batch.Runs before after)
    (fresh : place ∉ before.assembly.expanded) (looked : place ∈ after.assembly.expanded)
    (declares : last.Declares place)
    (notCustom : place.chain ∉ CustomChain.targets (last.entriesOf "custom")) :
    after.context.Declares place := by
  rcases runs.inserts.target_of_looked fresh looked with ⟨rule, member, jumps⟩ | isTarget
  · exact runs.expands.declares_of_target isBuiltin grows soundLast declares member jumps
  · rw [runs.expands.source_eq, ChainSource.targets, chainSource,
      ← grows.entriesOf (show "custom" ≠ "log" by decide)] at isTarget
    rcases List.mem_append.1 isTarget with ofAuxiliary | ofCustom
    · obtain ⟨rule, isRule, jumps⟩ := List.mem_filterMap.1 ofAuxiliary
      have ordinary := ((plain_of_mem_auxiliary framed grown sound isRule).2 _ jumps).1
      exact Or.inl (declares.resolve_right fun declared =>
        ordinary.not_isLogName (isLogName_of_declared soundLast declared))
    · exact absurd ofCustom notCustom

/-- An auxiliary chain that is jumped to holds what was known of it in the batch that looked it up
first.  It is complete if and only if its rules were known by then, which they were unless a chain
that the policy defines jumps to it. -/
theorem isComplete_iff
    (written : policy.IsWritten)
    (compiled : ofPolicy policy Builtin.modules hosts given = .ok compilation)
    {family table chain target : String} {line : RuleLine}
    (jumps : line ∈ compilation.tree.rules ⟨family, table, chain⟩)
    (isTarget : line.target = some target)
    (known : compilation.build.context.auxiliaryAt ⟨family, table, target⟩ ≠ []) :
    ∃ batches start batch before after,
      Building.Ran batches start compilation.build ∧
      FirstLookup batches start compilation.build ⟨family, table, target⟩ batch before after ∧
      compilation.tree.rules ⟨family, table, target⟩ =
        (after.context.auxiliaryAt ⟨family, table, target⟩).map RuleLine.ofFragment ∧
      (compilation.IsComplete ⟨family, table, target⟩ ↔
        after.context.auxiliaryAt ⟨family, table, target⟩ ≠ []) ∧
      (target ∉ CustomChain.targets (compilation.build.context.entriesOf "custom") →
        compilation.IsComplete ⟨family, table, target⟩) := by
  obtain ⟨settings, run⟩ := ofPolicy_eq_ok compiled
  obtain ⟨start, batches, ran, framed, soundStart, prepared⟩ :=
    Building.sound_of_compilePolicy written run
  have ruleSound : ∀ batch ∈ batches, ∀ rule, batch.origin = some rule →
      rule.Sound start.context.logBook :=
    fun batch member => (prepared batch member).2
  have soundFinal := ran.runs.sound ruleSound soundStart
  have declares := soundFinal.declares_of_auxiliaryAt known
  have looked : (⟨family, table, target⟩ : Place) ∈ compilation.build.assembly.expanded := by
    have reaches : Reaches compilation.build.assembly :=
      ran.runs.reaches (by rw [ran.empty]; exact fun _ _ none => absurd none List.not_mem_nil)
    exact reaches _ line jumps target isTarget (isEmpty_of_declares soundFinal declares)
  have fresh : (⟨family, table, target⟩ : Place) ∉ start.assembly.expanded := by
    rw [ran.empty]
    exact List.not_mem_nil
  obtain ⟨batch, before, after, lookup⟩ := ran.runs.exists_firstLookup fresh looked
  obtain ⟨early, late, isSplit, earlyRuns, lateRuns⟩ := lookup.split
  have elsewhere : ∀ batch ∈ batches, ∀ rule ∈ batch.rules,
      rule.fragment.place? ≠ some ⟨family, table, target⟩ := by
    intro batch member
    obtain ⟨_, _, _, runs, later⟩ := ran.runs.exists_of_mem member
    exact runs.expands.elsewhere_of_declares (prepared batch member).1 later soundFinal declares
  have earlyElsewhere : ∀ other ∈ early, ∀ rule ∈ other.rules,
      rule.fragment.place? ≠ some ⟨family, table, target⟩ :=
    fun other member => elsewhere other (by simp [isSplit, member])
  have lateElsewhere : ∀ other ∈ late, ∀ rule ∈ other.rules,
      rule.fragment.place? ≠ some ⟨family, table, target⟩ :=
    fun other member => elsewhere other (by simp [isSplit, member])
  have isBatch : batch ∈ batches := by simp [isSplit]
  have soundAfter : Context.Sound after.context := by
    have soundBefore := earlyRuns.sound
      (fun other member => ruleSound other (by simp [isSplit, member])) soundStart
    refine lookup.runs.expands.sound (fun rule isRule => ?_) soundBefore
    exact (ruleSound batch isBatch rule isRule).keeps soundStart.logs earlyRuns.grows.logs
  have grown : Grows start.context after.context :=
    earlyRuns.grows.trans lookup.runs.expands.grows
  have lines : compilation.tree.rules ⟨family, table, target⟩ =
      (after.context.auxiliaryAt ⟨family, table, target⟩).map RuleLine.ofFragment := by
    have empty : before.assembly.tree.rules ⟨family, table, target⟩ = [] := by
      rw [earlyRuns.rules_of_elsewhere earlyElsewhere (Or.inr lookup.fresh), ran.empty]
      rfl
    have atLookup := lookup.runs.rules_of_firstLookup lookup.fresh lookup.looked
      (elsewhere batch isBatch) (customName?_of_declares soundFinal declares)
      (fun rule member => (plain_of_mem_auxiliary framed grown soundAfter member).1)
    rw [tree, lateRuns.rules_of_elsewhere lateElsewhere (Or.inl lookup.looked), atLookup, empty,
      List.nil_append]
  have exact_ : compilation.IsComplete ⟨family, table, target⟩ ↔
      after.context.auxiliaryAt ⟨family, table, target⟩ ≠ [] := by
    rw [← auxiliaryAt_eq_iff soundAfter lateRuns.grows known, IsComplete, lines]
    constructor
    · intro same
      refine (auxiliaryAt_eq_iff soundAfter lateRuns.grows known).2 fun none => known ?_
      rw [none, List.map_nil] at same
      exact List.map_eq_nil_iff.1 same.symm
    · exact fun same => by rw [same]
  refine ⟨batches, start, batch, before, after, ran, lookup, lines, exact_, fun notCustom => ?_⟩
  have early := declares_of_looked framed grown lateRuns.grows soundAfter soundFinal
    (prepared batch isBatch).1 lookup.runs lookup.fresh lookup.looked declares notCustom
  exact exact_.2 (auxiliaryAt_eq_of_grows lateRuns.grows early ▸ known)

/-- A default policy that drops and logs what it drops. -/
def droppingPolicy : Policy :=
  { objects := [("policy", .list [.map [(.text "action", .text "drop")]])] }

theorem isComplete_droppingPolicy :
    ∃ compilation, ofPolicy droppingPolicy Builtin.modules .none (some { ipv6 := false }) =
        .ok compilation ∧
      droppingPolicy.IsWritten ∧
      ({ condition := "", target := some "logdrop" } : RuleLine) ∈
        compilation.tree.rules ⟨"inet", "filter", "INPUT"⟩ ∧
      compilation.build.context.auxiliaryAt ⟨"inet", "filter", "logdrop"⟩ ≠ [] ∧
      compilation.IsComplete ⟨"inet", "filter", "logdrop"⟩ := by
  obtain ⟨compilation, compiled, isBuild⟩ :=
    exists_of_process droppingPolicy .none { ipv6 := false } (by decide +kernel)
      (by decide +kernel)
  have written : droppingPolicy.IsWritten := by
    unfold Policy.IsWritten
    decide +kernel
  have jumps : ({ condition := "", target := some "logdrop" } : RuleLine) ∈
      compilation.tree.rules ⟨"inet", "filter", "INPUT"⟩ := by
    rw [tree, isBuild]
    decide +kernel
  have known : compilation.build.context.auxiliaryAt ⟨"inet", "filter", "logdrop"⟩ ≠ [] := by
    rw [isBuild]
    decide +kernel
  have notCustom : "logdrop" ∉
      CustomChain.targets (compilation.build.context.entriesOf "custom") := by
    rw [isBuild]
    decide +kernel
  obtain ⟨_, _, _, _, _, _, _, _, _, complete⟩ := isComplete_iff written compiled jumps rfl known
  exact ⟨compilation, compiled, written, jumps, known, complete notCustom⟩

/-- A chain of the policy that is jumped to before the log chain that it jumps to is declared. -/
def earlyJumpPolicy : Policy :=
  { objects := [
      ("custom", .map [(.text "c", .list [.map [(.text "target", .text "logdrop")]])]),
      ("filter", .list [.map [(.text "action", .text "custom:c")],
        .map [(.text "action", .text "drop")]])] }

/-- The log chain is jumped to and has rules at the end, but stays without them. -/
theorem not_isComplete_earlyJumpPolicy :
    ∃ compilation, ofPolicy earlyJumpPolicy Builtin.modules .none (some { ipv6 := false }) =
        .ok compilation ∧
      ({ condition := "", target := some "logdrop" } : RuleLine) ∈
        compilation.tree.rules ⟨"inet", "filter", "INPUT"⟩ ∧
      compilation.build.context.auxiliaryAt ⟨"inet", "filter", "logdrop"⟩ ≠ [] ∧
      compilation.tree.rules ⟨"inet", "filter", "logdrop"⟩ = [] ∧
      ¬ compilation.IsComplete ⟨"inet", "filter", "logdrop"⟩ := by
  obtain ⟨compilation, compiled, isBuild⟩ :=
    exists_of_process earlyJumpPolicy .none { ipv6 := false } (by decide +kernel)
      (by decide +kernel)
  refine ⟨compilation, compiled, ?_⟩
  rw [IsComplete, tree, isBuild]
  decide +kernel

end Compilation

end FirewallPolicy
