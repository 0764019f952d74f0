import FirewallPolicy.Proofs.Insertion.Steps
import Mathlib.Data.List.Nodup

/-!
# Lookups of auxiliary chains

An insertion brings in the chain that a rule jumps to, the rules of that chain bring in further
chains, and nothing but the record of the chains that were looked up stops chains that jump to each
other.  Every insertion performed that way ends all the same, successfully or not: next to one place
there are only so many targets, and each lookup leaves fewer of them.  No chain is looked up twice,
whatever insertions follow one another, and what a jump brings in stays in its table.
-/

namespace FirewallPolicy.Assembly

/-! ## Performing an insertion -/

/-- A chain that was looked up: the place of the rule that jumps to it, the chain, and the rules that
it was found to hold. -/
structure Lookup where
  origin : Place
  chain : Place
  body : Except Failure (List ChainRule)

/-- What is looked up stays in the table of the jump, and so do the rules that are brought in. -/
structure Lookup.Stays (lookup : Lookup) : Prop where
  family : lookup.chain.family = lookup.origin.family
  table : lookup.chain.table = lookup.origin.table
  body : ∀ rules, lookup.body = .ok rules →
    ∀ rule ∈ rules, rule.fragment.place? = some lookup.chain

/-- What there is to do: to insert rules that belong to the object at `owner`, or to bring in the
chain that a rule at a place jumps to. -/
inductive Task where
  | insert (owner : String) (front : List Place) (rules : List ChainRule)
  | jump (owner : String) (rule : ChainRule) (place : Place)

/-- A task is performed with the given lookups, however deep chains stand one inside the other. -/
inductive Performs (source : ChainSource) :
    Task → Assembly → List Lookup → Except Failure Unit → Assembly → Prop
  | done {owner : String} {front : List Place} {assembly : Assembly} :
      Performs source (.insert owner front []) assembly [] (.ok ()) assembly
  | unplaced {owner : String} {front : List Place} {rule : ChainRule} {rest : List ChainRule}
      {assembly : Assembly} :
      rule.fragment.place? = none →
      Performs source (.insert owner front (rule :: rest)) assembly []
        (.error (.fault owner (.incompletePlace rule.fragment))) assembly
  | stopped {owner : String} {front : List Place} {rule : ChainRule} {rest : List ChainRule}
      {assembly filled : Assembly} {place : Place} {lookups : List Lookup} {failure : Failure} :
      rule.fragment.place? = some place →
      Performs source (.jump owner rule place) (assembly.reach rule place) lookups
        (.error failure) filled →
      Performs source (.insert owner front (rule :: rest)) assembly lookups
        (.error failure) filled
  | refused {owner : String} {front : List Place} {rule : ChainRule} {rest : List ChainRule}
      {assembly filled : Assembly} {place : Place} {lookups : List Lookup} :
      rule.fragment.place? = some place →
      Performs source (.jump owner rule place) (assembly.reach rule place) lookups
        (.ok ()) filled →
      rule.isUsable = false →
      Performs source (.insert owner front (rule :: rest)) assembly lookups
        (.error .unusable) filled
  | placed {owner : String} {front : List Place} {rule : ChainRule} {rest : List ChainRule}
      {assembly filled after : Assembly} {place : Place} {lookups more : List Lookup}
      {result : Except Failure Unit} :
      rule.fragment.place? = some place →
      Performs source (.jump owner rule place) (assembly.reach rule place) lookups
        (.ok ()) filled →
      rule.isUsable = true →
      Performs source (.insert owner (nextFront front rule place) rest)
        (filled.place rule place (front.count place)) more result after →
      Performs source (.insert owner front (rule :: rest)) assembly (lookups ++ more)
        result after
  | known {owner : String} {rule : ChainRule} {place : Place} {assembly : Assembly} :
      assembly.newTarget? rule.fragment place = none →
      Performs source (.jump owner rule place) assembly [] (.ok ()) assembly
  | missing {owner target : String} {rule : ChainRule} {place : Place} {assembly : Assembly}
      {failure : Failure} :
      assembly.newTarget? rule.fragment place = some target →
      source.body owner (place.withChain target) = .error failure →
      Performs source (.jump owner rule place) assembly
        [⟨place, place.withChain target, .error failure⟩] (.error failure)
        (assembly.noteTarget (place.withChain target))
  | brought {owner target : String} {rule : ChainRule} {place : Place}
      {assembly filled : Assembly} {body : List ChainRule} {lookups : List Lookup}
      {result : Except Failure Unit} :
      assembly.newTarget? rule.fragment place = some target →
      source.body owner (place.withChain target) = .ok body →
      Performs source (.insert "" [] body) (assembly.noteTarget (place.withChain target))
        lookups result filled →
      Performs source (.jump owner rule place) assembly
        (⟨place, place.withChain target, .ok body⟩ :: lookups) result filled

variable {source : ChainSource} {task : Task} {before after : Assembly} {lookups : List Lookup}
  {result : Except Failure Unit}

/-- A task is performed in one way only. -/
theorem Performs.unique
    (performs : Performs source task before lookups result after)
    {others : List Lookup} {outcome : Except Failure Unit} {last : Assembly}
    (again : Performs source task before others outcome last) :
    others = lookups ∧ outcome = result ∧ last = after := by
  -- The first rule and the assembly decide which case applies, so the second way is of that case.
  induction performs generalizing others outcome last with
  | done =>
      cases again
      exact ⟨rfl, rfl, rfl⟩
  | unplaced nowhere =>
      cases again with
      | unplaced => exact ⟨rfl, rfl, rfl⟩
      | stopped located | refused located | placed located => simp [nowhere] at located
  | stopped located _ inductionHypothesis =>
      cases again with
      | unplaced nowhere => simp [located] at nowhere
      | stopped here jump =>
          obtain rfl := Option.some.inj (here.symm.trans located)
          exact inductionHypothesis jump
      | refused here jump | placed here jump =>
          obtain rfl := Option.some.inj (here.symm.trans located)
          simpa using (inductionHypothesis jump).2.1
  | refused located _ unusable inductionHypothesis =>
      cases again with
      | unplaced nowhere => simp [located] at nowhere
      | stopped here jump =>
          obtain rfl := Option.some.inj (here.symm.trans located)
          simpa using (inductionHypothesis jump).2.1
      | refused here jump =>
          obtain rfl := Option.some.inj (here.symm.trans located)
          obtain ⟨rfl, -, rfl⟩ := inductionHypothesis jump
          exact ⟨rfl, rfl, rfl⟩
      | placed _ _ usable => simp [unusable] at usable
  | placed located _ usable _ jumpHypothesis restHypothesis =>
      cases again with
      | unplaced nowhere => simp [located] at nowhere
      | stopped here jump =>
          obtain rfl := Option.some.inj (here.symm.trans located)
          simpa using (jumpHypothesis jump).2.1
      | refused _ _ unusable => simp [unusable] at usable
      | placed here jump _ tail =>
          obtain rfl := Option.some.inj (here.symm.trans located)
          obtain ⟨rfl, -, rfl⟩ := jumpHypothesis jump
          obtain ⟨rfl, rfl, rfl⟩ := restHypothesis tail
          exact ⟨rfl, rfl, rfl⟩
  | known old =>
      cases again with
      | known => exact ⟨rfl, rfl, rfl⟩
      | missing fresh | brought fresh => simp [old] at fresh
  | missing fresh read =>
      cases again with
      | known old => simp [fresh] at old
      | missing same readAgain =>
          obtain rfl := Option.some.inj (same.symm.trans fresh)
          obtain rfl := Except.error.inj (readAgain.symm.trans read)
          exact ⟨rfl, rfl, rfl⟩
      | brought same readAgain =>
          obtain rfl := Option.some.inj (same.symm.trans fresh)
          simp [read] at readAgain
  | brought fresh read _ inductionHypothesis =>
      cases again with
      | known old => simp [fresh] at old
      | missing same readAgain =>
          obtain rfl := Option.some.inj (same.symm.trans fresh)
          simp [read] at readAgain
      | brought same readAgain inner =>
          obtain rfl := Option.some.inj (same.symm.trans fresh)
          obtain rfl := Except.ok.inj (readAgain.symm.trans read)
          obtain ⟨rfl, rfl, rfl⟩ := inductionHypothesis inner
          exact ⟨rfl, rfl, rfl⟩

/-! ## Each chain once -/

/-- The lookups are recorded, none of them was made before, none is made twice, and each stays in
the table of its jump. -/
structure Recorded (before : Assembly) (lookups : List Lookup) (after : Assembly) : Prop where
  expanded : after.expanded = (lookups.map (·.chain)).reverse ++ before.expanded
  fresh : ∀ lookup ∈ lookups, lookup.chain ∉ before.expanded
  distinct : (lookups.map (·.chain)).Nodup
  stays : ∀ lookup ∈ lookups, lookup.Stays

theorem Recorded.nil {before after : Assembly} (same : after.expanded = before.expanded) :
    Recorded before [] after where
  expanded := same
  fresh _ member := absurd member List.not_mem_nil
  distinct := List.nodup_nil
  stays _ member := absurd member List.not_mem_nil

theorem Recorded.subset (recorded : Recorded before lookups after) :
    before.expanded ⊆ after.expanded := by
  rw [recorded.expanded]
  exact List.subset_append_right _ _

theorem Recorded.append
    {middle : Assembly} {more : List Lookup}
    (early : Recorded before lookups middle) (late : Recorded middle more after) :
    Recorded before (lookups ++ more) after where
  expanded := by
    rw [late.expanded, early.expanded, List.map_append, List.reverse_append, List.append_assoc]
  fresh := by
    intro lookup member
    rcases List.mem_append.1 member with isEarly | isLate
    · exact early.fresh lookup isEarly
    · exact fun known => late.fresh lookup isLate (early.subset known)
  distinct := by
    rw [List.map_append, List.nodup_append]
    refine ⟨early.distinct, late.distinct, ?_⟩
    rintro chain isEarly _ isLate rfl
    obtain ⟨lookup, member, same⟩ := List.mem_map.1 isLate
    refine late.fresh lookup member ?_
    rw [early.expanded, same]
    exact List.mem_append_left _ (List.mem_reverse.2 isEarly)
  stays lookup member := (List.mem_append.1 member).elim (early.stays lookup) (late.stays lookup)

/-- A lookup of a new target. -/
theorem Recorded.singleton
    {lookup : Lookup} (fresh : lookup.chain ∉ before.expanded) (stays : lookup.Stays)
    (expanded : after.expanded = lookup.chain :: before.expanded) :
    Recorded before [lookup] after where
  expanded := expanded
  fresh _ member := List.mem_singleton.1 member ▸ fresh
  distinct := List.nodup_singleton _
  stays _ member := List.mem_singleton.1 member ▸ stays

/-- What a performed task looks up is recorded.  The induction is on the task performed. -/
theorem Performs.recorded
    (performs : Performs source task before lookups result after) :
    Recorded before lookups after := by
  induction performs with
  | done => exact Recorded.nil rfl
  | unplaced _ => exact Recorded.nil rfl
  | stopped _ _ inductionHypothesis => exact { inductionHypothesis with }
  | refused _ _ _ inductionHypothesis => exact { inductionHypothesis with }
  | placed _ _ _ _ jumpHypothesis restHypothesis =>
      exact Recorded.append { jumpHypothesis with } { restHypothesis with }
  | known _ => exact Recorded.nil rfl
  | missing fresh read =>
      exact Recorded.singleton (newTarget?_eq_some fresh).2.2 ⟨rfl, rfl, by simp⟩ rfl
  | brought fresh read _ inductionHypothesis =>
      refine Recorded.append (Recorded.singleton (newTarget?_eq_some fresh).2.2 ⟨rfl, rfl, ?_⟩ rfl)
        inductionHypothesis
      rintro rules ⟨⟩
      exact (ChainSource.bodyAt_of_body_eq_ok read).place

/-! ## Enough depth -/

/-- The targets whose chains were not looked up next to a place. -/
def unexpanded (targets : List String) (place : Place) (assembly : Assembly) : List String :=
  targets.filter fun target => place.withChain target ∉ assembly.expanded

/-- Next to the places of the rules, at most so many targets were not looked up. -/
def Shallow (targets : List String) (depth : Nat) (rules : List ChainRule)
    (assembly : Assembly) : Prop :=
  ∀ rule ∈ rules, ∀ place, rule.fragment.place? = some place →
    (unexpanded targets place assembly).length ≤ depth

theorem length_unexpanded_le
    {assembly later : Assembly}
    (grown : assembly.expanded ⊆ later.expanded) (targets : List String) (place : Place) :
    (unexpanded targets place later).length ≤ (unexpanded targets place assembly).length := by
  refine (List.monotone_filter_right targets fun target new => ?_).length_le
  simp only [decide_eq_true_eq] at new ⊢
  exact fun known => new (grown known)

/-- Looking up a target leaves fewer. -/
theorem length_unexpanded_lt
    {assembly noted : Assembly} {targets : List String} {place : Place} {target : String}
    (isTarget : target ∈ targets) (fresh : place.withChain target ∉ assembly.expanded)
    (expanded : noted.expanded = place.withChain target :: assembly.expanded) :
    (unexpanded targets place noted).length < (unexpanded targets place assembly).length := by
  have narrowed : unexpanded targets place noted =
      (unexpanded targets place assembly).filter fun other =>
        place.withChain other ∉ noted.expanded := by
    unfold unexpanded
    rw [List.filter_filter]
    refine List.filter_congr fun other _ => ?_
    rw [expanded]
    simp only [List.mem_cons, not_or, Bool.decide_and]
    cases decide (place.withChain other ∉ assembly.expanded) <;> simp
  rw [narrowed, List.length_filter_lt_length_iff_exists]
  refine ⟨target, List.mem_filter.2 ⟨isTarget, by simpa using fresh⟩, ?_⟩
  simp [expanded]

theorem Shallow.tail
    {targets : List String} {depth : Nat} {rule : ChainRule} {rest : List ChainRule}
    {assembly later : Assembly}
    (shallow : Shallow targets depth (rule :: rest) assembly)
    (grown : assembly.expanded ⊆ later.expanded) :
    Shallow targets depth rest later :=
  fun other member place located => Nat.le_trans (length_unexpanded_le grown targets place)
    (shallow other (List.mem_cons_of_mem _ member) place located)

/-- What a jump does, with `bring` to insert the rules of a chain. -/
def bringTarget (source : ChainSource) (owner : String)
    (bring : List ChainRule → Assembly → Except Failure Unit × Assembly) (rule : ChainRule)
    (place : Place) (assembly : Assembly) : Except Failure Unit × Assembly :=
  match assembly.newTarget? rule.fragment place with
  | none => (.ok (), assembly)
  | some target =>
    match source.body owner (place.withChain target) with
    | .error failure => (.error failure, assembly.noteTarget (place.withChain target))
    | .ok body => bring body (assembly.noteTarget (place.withChain target))

theorem insertEach_cons
    (source : ChainSource) (owner : String)
    (bring : List ChainRule → Assembly → Except Failure Unit × Assembly) (front : List Place)
    (rule : ChainRule) (rest : List ChainRule) (assembly : Assembly) :
    insertEach source owner bring front (rule :: rest) assembly =
      match rule.fragment.place? with
      | none => (.error (.fault owner (.incompletePlace rule.fragment)), assembly)
      | some place =>
        match bringTarget source owner bring rule place (assembly.reach rule place) with
        | (.ok (), filled) =>
          if rule.isUsable then
            insertEach source owner bring (nextFront front rule place) rest
              (filled.place rule place (front.count place))
          else (.error .unusable, filled)
        | failed => failed :=
  rfl

/-- The task is performed with the given outcome. -/
def EndsWith (source : ChainSource) (task : Task) (before : Assembly)
    (outcome : Except Failure Unit × Assembly) : Prop :=
  ∃ lookups, Performs source task before lookups outcome.1 outcome.2

section Depth

variable {targets : List String} {depth : Nat} {owner : String} {front : List Place}
  {bring : List ChainRule → Assembly → Except Failure Unit × Assembly} {assembly : Assembly}

/-- Where fewer targets than the depth are left, `bring` inserts the rules of a chain. -/
def BringsWithin (source : ChainSource) (targets : List String) (depth : Nat)
    (bring : List ChainRule → Assembly → Except Failure Unit × Assembly) : Prop :=
  ∀ place body noted, BodyAt source.targets place body →
    (unexpanded targets place noted).length < depth →
    EndsWith source (.insert "" [] body) noted (bring body noted)

/-- Bringing in a chain leaves fewer targets. -/
theorem endsWith_bringTarget
    {rule : ChainRule} {place : Place}
    (brings : BringsWithin source targets depth bring)
    (within : ∀ target, rule.fragment.target = some target → target ∈ targets)
    (shallow : (unexpanded targets place assembly).length ≤ depth) :
    EndsWith source (.jump owner rule place) assembly
      (bringTarget source owner bring rule place assembly) := by
  unfold bringTarget
  split
  · next known => exact ⟨[], Performs.known known⟩
  · next target fresh =>
      split
      · next failure read => exact ⟨_, Performs.missing fresh read⟩
      · next body read =>
          obtain ⟨stated, -, notExpanded⟩ := newTarget?_eq_some fresh
          -- The chain is recorded before its rules are brought in, which is what ends circular jumps.
          have fewer : (unexpanded targets (place.withChain target)
              (assembly.noteTarget (place.withChain target))).length < depth := by
            refine Nat.lt_of_lt_of_le ?_ shallow
            change (unexpanded targets place _).length < _
            exact length_unexpanded_lt (within target stated) notExpanded rfl
          obtain ⟨lookups, inner⟩ := brings _ body _ (ChainSource.bodyAt_of_body_eq_ok read) fewer
          exact ⟨_, Performs.brought fresh read inner⟩

/-- Insertion performs the task where bringing in a chain does.  The induction is on the rules. -/
theorem endsWith_insertEach
    {rules : List ChainRule}
    (brings : BringsWithin source targets depth bring)
    (within : ∀ rule ∈ rules, ∀ target,
      rule.fragment.target = some target → target ∈ targets)
    (shallow : Shallow targets depth rules assembly) :
    EndsWith source (.insert owner front rules) assembly
      (insertEach source owner bring front rules assembly) := by
  induction rules generalizing front assembly with
  | nil => exact ⟨[], Performs.done⟩
  | cons rule rest inductionHypothesis =>
      rw [insertEach_cons]
      cases located : rule.fragment.place? with
      | none => exact ⟨[], Performs.unplaced located⟩
      | some place =>
          have ruleWithin := within rule (List.mem_cons_self ..)
          have ruleShallow : (unexpanded targets place (assembly.reach rule place)).length ≤ depth :=
            shallow rule (List.mem_cons_self ..) place located
          have brought : EndsWith source (.jump owner rule place) (assembly.reach rule place)
              (bringTarget source owner bring rule place (assembly.reach rule place)) :=
            endsWith_bringTarget brings ruleWithin ruleShallow
          obtain ⟨lookups, jump⟩ := brought
          dsimp only
          -- The rule is placed behind what it brings in, and only if that went well.
          split
          · next filled brought =>
              rw [brought] at jump
              by_cases usable : rule.isUsable = true
              · have restWithin : ∀ other ∈ rest, ∀ target,
                    other.fragment.target = some target → target ∈ targets :=
                  fun other member => within other (List.mem_cons_of_mem _ member)
                have restShallow : Shallow targets depth rest
                    (filled.place rule place (front.count place)) :=
                  shallow.tail jump.recorded.subset
                obtain ⟨more, tail⟩ := inductionHypothesis restWithin restShallow
                rw [if_pos usable]
                exact ⟨_, Performs.placed located jump usable tail⟩
              · rw [if_neg usable]
                exact ⟨_, Performs.refused located jump (by simpa using usable)⟩
          · next failed notOk =>
              generalize bringTarget source owner bring rule place _ = outcome at jump notOk
              obtain ⟨result, filled⟩ := outcome
              cases result with
              | ok done => exact (notOk filled rfl).elim
              | error failure => exact ⟨lookups, Performs.stopped located jump⟩

/-- Where no more targets are left than the insertion may go deep, it performs its task.  The
induction is on the depth. -/
theorem endsWith_insertTo
    {rules : List ChainRule}
    (sourceTargets : source.targets ⊆ targets)
    (within : ∀ rule ∈ rules, ∀ target,
      rule.fragment.target = some target → target ∈ targets)
    (shallow : Shallow targets depth rules assembly) :
    EndsWith source (.insert owner [] rules) assembly
      (insertTo source depth owner rules assembly) := by
  induction depth generalizing owner rules assembly with
  | zero =>
      exact endsWith_insertEach (fun _ _ _ _ none => absurd none (Nat.not_lt_zero _)) within
        shallow
  | succ depth inductionHypothesis =>
      refine endsWith_insertEach ?_ within shallow
      intro place body noted bodyAt fewer
      refine inductionHypothesis ?_ ?_
      · exact fun inside member other named =>
          sourceTargets (bodyAt.target inside member other named)
      · intro inside member located isPlace
        rw [bodyAt.place inside member, Option.some.injEq] at isPlace
        exact isPlace ▸ Nat.le_of_lt_succ fewer

end Depth

/-- Inserting fragments performs the task: the depth that it allows is never used up. -/
theorem endsWith_insert
    (source : ChainSource) (owner : String) (fragments : List Fragment) (assembly : Assembly) :
    EndsWith source (.insert owner [] (fragments.map fun fragment => { fragment })) assembly
      (insert source owner fragments assembly) := by
  have sourceTargets : source.targets ⊆ fragments.filterMap (·.target) ++ source.targets :=
    List.subset_append_right _ _
  refine endsWith_insertTo sourceTargets ?_ ?_
  · intro rule member target named
    obtain ⟨fragment, isRule, rfl⟩ := List.mem_map.1 member
    exact List.mem_append_left _ (List.mem_filterMap.2 ⟨fragment, isRule, named⟩)
  · exact fun _ _ _ _ => List.length_filter_le ..

/-! ## Success -/

/-- What a task does when it succeeds: a list of rules is inserted step by step, and so is the chain
that a jump brings in. -/
def Task.Succeeds (source : ChainSource) : Task → Assembly → Assembly → Prop
  | .insert _ front rules, before, after => Inserts source front rules before after
  | .jump owner rule place, before, after =>
    (before.newTarget? rule.fragment place = none ∧ after = before) ∨
      ∃ target body, before.newTarget? rule.fragment place = some target ∧
        source.body owner (place.withChain target) = .ok body ∧
        Inserts source [] body (before.noteTarget (place.withChain target)) after

/-- A task that is performed successfully follows the steps. -/
theorem Performs.succeeds
    (performs : Performs source task before lookups (.ok ()) after) :
    task.Succeeds source before after := by
  generalize success : (Except.ok () : Except Failure Unit) = result at performs
  induction performs with
  | done => exact Inserts.nil
  | unplaced _ => cases success
  | stopped _ _ _ => cases success
  | refused _ _ _ _ => cases success
  | placed located _ usable _ jumpHypothesis restHypothesis =>
      have tail := restHypothesis success
      rcases jumpHypothesis rfl with ⟨old, rfl⟩ | ⟨target, body, fresh, read, inner⟩
      · exact Inserts.plain located old usable tail
      · exact Inserts.bringing located fresh read inner usable tail
  | known old => exact Or.inl ⟨old, rfl⟩
  | missing _ _ => cases success
  | brought fresh read _ inductionHypothesis =>
      exact Or.inr ⟨_, _, fresh, read, inductionHypothesis success⟩

/-- A successful insertion of fragments follows the steps. -/
theorem inserts_of_insert
    {owner : String} {fragments : List Fragment}
    (run : insert source owner fragments before = (.ok (), after)) :
    Inserts source [] (fragments.map fun fragment => { fragment }) before after := by
  obtain ⟨lookups, performs⟩ := endsWith_insert source owner fragments before
  rw [run] at performs
  exact performs.succeeds

/-! ## Insertions one after the other -/

/-- A call that inserts fragments of the object at `owner`, with the auxiliary chains that are known
by then. -/
structure Call where
  source : ChainSource
  owner : String
  fragments : List Fragment

/-- The task of a call. -/
def Call.toTask (call : Call) : Task :=
  .insert call.owner [] (call.fragments.map fun fragment => { fragment })

/-- The results of calls, one after the other; what was done before a failure stays. -/
def insertCalls : List Call → Assembly → List (Except Failure Unit) × Assembly
  | [], assembly => ([], assembly)
  | call :: rest, assembly =>
    let (result, middle) := insert call.source call.owner call.fragments assembly
    let (results, after) := insertCalls rest middle
    (result :: results, after)

/-- Calls are performed one after the other with the given lookups and results. -/
inductive PerformsAll :
    List Call → Assembly → List Lookup → List (Except Failure Unit) → Assembly → Prop
  | nil {assembly : Assembly} : PerformsAll [] assembly [] [] assembly
  | cons {call : Call} {rest : List Call} {before middle after : Assembly}
      {lookups more : List Lookup} {result : Except Failure Unit}
      {results : List (Except Failure Unit)} :
      Performs call.source call.toTask before lookups result middle →
      PerformsAll rest middle more results after →
      PerformsAll (call :: rest) before (lookups ++ more) (result :: results) after

theorem PerformsAll.recorded
    {calls : List Call} {results : List (Except Failure Unit)}
    (performs : PerformsAll calls before lookups results after) :
    Recorded before lookups after := by
  induction performs with
  | nil => exact Recorded.nil rfl
  | cons first _ inductionHypothesis => exact first.recorded.append inductionHypothesis

theorem PerformsAll.unique
    {calls : List Call} {results : List (Except Failure Unit)}
    (performs : PerformsAll calls before lookups results after)
    {others : List Lookup} {outcomes : List (Except Failure Unit)} {last : Assembly}
    (again : PerformsAll calls before others outcomes last) :
    others = lookups ∧ outcomes = results ∧ last = after := by
  induction performs generalizing others outcomes last with
  | nil =>
      cases again
      exact ⟨rfl, rfl, rfl⟩
  | cons first _ inductionHypothesis =>
      cases again with
      | cons firstAgain tail =>
          obtain ⟨rfl, rfl, rfl⟩ := first.unique firstAgain
          obtain ⟨rfl, rfl, rfl⟩ := inductionHypothesis tail
          exact ⟨rfl, rfl, rfl⟩

theorem performsAll_insertCalls (calls : List Call) (before : Assembly) :
    ∃ lookups, PerformsAll calls before lookups (insertCalls calls before).1
      (insertCalls calls before).2 := by
  induction calls generalizing before with
  | nil => exact ⟨[], PerformsAll.nil⟩
  | cons call rest inductionHypothesis =>
      obtain ⟨lookups, first⟩ := endsWith_insert call.source call.owner call.fragments before
      obtain ⟨more, tail⟩ :=
        inductionHypothesis (insert call.source call.owner call.fragments before).2
      exact ⟨lookups ++ more, PerformsAll.cons first tail⟩

/-- Any calls, with any auxiliary chains, are performed to their end in exactly one way, whether they
succeed or not.  Together they look up no chain twice and none that was looked up before, and what a
jump brings in stays in the family and the table of the rule that jumps. -/
theorem lookups_of_calls (calls : List Call) (before : Assembly) :
    ∃ lookups,
      (∀ others results after, PerformsAll calls before others results after ↔
        others = lookups ∧ (results, after) = insertCalls calls before) ∧
      (lookups.map (·.chain)).Nodup ∧
      (∀ lookup ∈ lookups, lookup.chain ∉ before.expanded) ∧
      ∀ lookup ∈ lookups, lookup.Stays := by
  obtain ⟨lookups, performs⟩ := performsAll_insertCalls calls before
  have recorded := performs.recorded
  refine ⟨lookups, ?_, recorded.distinct, recorded.fresh, recorded.stays⟩
  intro others results after
  constructor
  · intro again
    obtain ⟨sameLookups, sameResults, sameAfter⟩ := performs.unique again
    exact ⟨sameLookups, Prod.ext sameResults sameAfter⟩
  · rintro ⟨rfl, same⟩
    rw [← same] at performs
    exact performs

/-- Two chains of a policy that jump to each other. -/
def mutualChains : SectionEntries :=
  .map [(.text "a", .raw (.map [(.text "target", .text "custom:b")])),
    (.text "b", .raw (.map [(.text "target", .text "custom:a")]))]

example :
    (insert ⟨[], mutualChains⟩ ""
      [⟨some "inet", some "filter", some "INPUT", [], some "custom:a", none, none⟩] {}).2.expanded =
        [⟨"inet", "filter", "custom:b"⟩, ⟨"inet", "filter", "custom:a"⟩] := by
  cbv

end FirewallPolicy.Assembly
