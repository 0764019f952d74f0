import FirewallPolicy.Proofs.Rule.Derived
import FirewallPolicy.Proofs.Rule.LimitMatches

/-!
# Limit chains decide

The limit chain of a rule drops the traffic above the limit.  Traffic within the limit is accepted
under a connection limit, and otherwise it goes on behind the jump to the chain.  Neither the way in
which the limit is matched nor what is logged on the way makes a difference.
-/

namespace FirewallPolicy

open Context Run Stateful

namespace Rule

/-! ## Parts of a chain -/

section Parts

variable {jump : String → Option Verdict} {traffic : Traffic} {place : Place}
  {families : List String} {answer : Bool → Bool} {found : List Fragment}

theorem log_actionFragments
    (silent : ∀ target, IsLogTarget target → jump target = none) (log : Option LogClass) :
    chainVerdict jump traffic place ((actionFragments log none).map (placeIn place.chain)) =
      none := by
  refine List.findSome?_eq_none_iff.2 fun rule member => ?_
  obtain ⟨part, isPart, rfl⟩ := List.mem_map.1 member
  cases log with
  | none => simp [actionFragments] at isPart
  | some log =>
      have isLog : part ∈ log.fragments := by simpa [actionFragments] using isPart
      rcases log.fragments_cases with nothing | ⟨tokens, target, isTarget, one⟩
      · simp [nothing] at isLog
      · rw [one] at isLog
        obtain rfl := List.mem_singleton.1 isLog
        rw [placeIn_of_open rfl]
        unfold Fragment.verdict
        simp [silent target isTarget]

/-- Logging and then jumping in a chain does what the jump does. -/
theorem verdict_actionFragments
    (silent : ∀ target, IsLogTarget target → jump target = none) (log : Option LogClass)
    (target : String) :
    chainVerdict jump traffic place
      ((actionFragments log (some target)).map (placeIn place.chain)) = jump target := by
  have split : actionFragments log (some target) =
      actionFragments log none ++ [Fragment.ofTarget target] := by
    simp [actionFragments]
  rw [split, List.map_append, chainVerdict_append, log_actionFragments silent, Option.none_or]
  have placed : placeIn place.chain (Fragment.ofTarget target) =
      { chain := some place.chain, target := some target } := rfl
  simp [chainVerdict, placed, Fragment.verdict, Fragment.standsAt]

/-- Matches of a limit that jump do what the jump does, where they hold. -/
theorem verdict_jumps
    (tells : Tells families answer found) (member : place.family ∈ families) (target : String) :
    chainVerdict jump traffic place ((found.map (jumpTo target)).map (placeIn place.chain)) =
      if answer traffic.exceeds then jump target else none := by
  have placed : ∀ part ∈ found, placeIn place.chain (jumpTo target part) =
      { part with chain := some place.chain, target := some target } := by
    intro part isPart
    have isMatch := tells.isMatch part isPart
    rw [jumpTo_of_open isMatch.target]
    refine placeIn_of_open ?_ place.chain
    exact isMatch.chain_eq_none
  rw [show jump target = (some target).bind jump from rfl]
  refine chainVerdict_uniform (fun rule isRule => ?_) ?_
  · obtain ⟨_, jumps, rfl⟩ := List.mem_map.1 isRule
    obtain ⟨part, isPart, rfl⟩ := List.mem_map.1 jumps
    rw [placed part isPart]
    exact ⟨tells.tells part isPart traffic, rfl⟩
  · obtain ⟨part, isPart, isFamily⟩ := tells.covers place.family member
    refine ⟨_, List.mem_map_of_mem (List.mem_map_of_mem isPart), ?_⟩
    rw [placed part isPart]
    simp [Fragment.standsAt, isFamily, (tells.isMatch part isPart).table]

end Parts

/-! ## A chain of the rule's own -/

section OwnChain

variable {jump : String → Option Verdict} {traffic : Traffic} {place : Place}
  {families : List String} {answer : Bool → Bool} {found : List Fragment} {chain : String}
  {log : Option LogClass} {target : String}

theorem chain_of_mem_chainBody
    {jumps actions : List Fragment} (free : ∀ rule ∈ actions, rule.chain = none)
    {rule : Fragment} (member : rule ∈ chainBody jumps (actions.map (placeIn chain))) :
    rule.chain = some chain := by
  have placed : ∀ rule ∈ actions.map (placeIn chain), rule.chain = some chain := by
    intro rule isRule
    obtain ⟨part, isPart, rfl⟩ := List.mem_map.1 isRule
    rw [placeIn_of_open (free part isPart)]
  unfold chainBody at member
  extract_lets restricted at member
  split at member
  · exact placed rule member
  · obtain ⟨part, isPart, upper⟩ :=
      Fragment.exists_extends_of_mem_combine member (List.mem_cons_self ..)
    exact upper.chain _ (placed part isPart)

theorem chain_of_mem_actionFragments
    {target : Option String} {rule : Fragment} (member : rule ∈ actionFragments log target) :
    rule.chain = none := by
  rcases List.mem_append.1 member with logs | acts
  · cases log with
    | none => simp at logs
    | some log =>
        rcases log.fragments_cases with nothing | ⟨tokens, logTarget, _, one⟩
        · simp [nothing] at logs
        · obtain rfl : rule = { tokens, target := some logTarget } := by simpa [one] using logs
          rfl
  · obtain ⟨goal, _, rfl⟩ := List.mem_map.1 (by simpa using acts : rule ∈ target.toList.map _)
    rfl

/-- Seen from another chain, a chain of the rule's own is jumped to. -/
theorem verdict_ownChain
    (tells : Tells families answer found) (member : place.family ∈ families)
    (different : chain ≠ place.chain) (named : chain ≠ "") :
    chainVerdict jump traffic place
        ((ownChain chain found (actionFragments log (some target))).map (placeIn place.chain)) =
      if answer traffic.exceeds then jump chain else none := by
  unfold ownChain
  rw [List.map_append, chainVerdict_append, verdict_jumps tells member]
  -- The body keeps its own chain when it is put into the place.
  have inside : chainVerdict jump traffic place
      ((chainBody (found.map (jumpTo chain))
        ((actionFragments log (some target)).map (placeIn chain))).map (placeIn place.chain)) =
      none := by
    refine chainVerdict_of_elsewhere fun rule isRule => ?_
    obtain ⟨part, isPart, rfl⟩ := List.mem_map.1 isRule
    have stands := chain_of_mem_chainBody (fun _ => chain_of_mem_actionFragments) isPart
    simpa [placeIn, stands, named] using different
  rw [inside, Option.or_none]

/-- A chain of the rule's own logs and then jumps. -/
theorem verdict_inside_ownChain
    (silent : ∀ target, IsLogTarget target → jump target = none)
    (tells : Tells families answer found) (member : place.family ∈ families)
    (different : chain ≠ place.chain) (named : place.chain ≠ "") :
    chainVerdict jump traffic place
        ((ownChain place.chain found (actionFragments log (some target))).map (placeIn chain)) =
      jump target := by
  rw [chainVerdict_placeIn different named]
  unfold ownChain
  rw [chainVerdict_append]
  -- The jumps name no chain: only where they are put do they stand in one.
  have outside : chainVerdict jump traffic place (found.map (jumpTo place.chain)) = none := by
    refine chainVerdict_of_elsewhere fun rule isRule => ?_
    obtain ⟨part, isPart, rfl⟩ := List.mem_map.1 isRule
    have isMatch := tells.isMatch part isPart
    rw [jumpTo_of_open isMatch.target]
    simp [isMatch.chain_eq_none]
  obtain ⟨part, isPart, isFamily⟩ := tells.covers place.family member
  have reached : ∃ rule ∈ found.map (jumpTo place.chain),
      ∀ own, rule.family = some own → own = place.family := by
    refine ⟨_, List.mem_map_of_mem isPart, ?_⟩
    rw [jumpTo_of_open (tells.isMatch part isPart).target]
    exact fun own isOwn => (Option.some.inj (isFamily.symm.trans isOwn)).symm
  rw [outside, Option.none_or, chainVerdict_chainBody reached, verdict_actionFragments silent]

end OwnChain

/-! ## Logging and a target -/

/-- Where the matches of a limit jump that log and then go to a target: to the target itself where
nothing is logged, or to a chain that does both. -/
inductive Route (rule : Rule) (found : List Fragment) (action target : String)
    (after : Context) (attached : List Fragment) : String → Prop
  | direct :
      attached = found.map (jumpTo target) →
      Route rule found action target after attached target
  | shared {name : String} :
      sharedName ("log" ++ action) (.text name) ∈ after.declared →
      attached = found.map (jumpTo (sharedName ("log" ++ action) (.text name))) →
      Route rule found action target after attached (sharedName ("log" ++ action) (.text name))
  | own {log : LogClass} {chain : String} :
      after.chainNames.lookup (rule.serial, "log" ++ action) = some chain →
      attached = ownChain chain found (actionFragments (some log) (some target)) →
      Route rule found action target after attached chain

variable {rule : Rule} {found attached : List Fragment} {action target goal : String}
  {before after : Context}

theorem exists_route
    {log : Option LogClass} (free : ∀ part ∈ found, part.target = none)
    (isKnown : ∀ known, log = some known → before.logBook.Knows known)
    (run : rule.attachLog found log action (some target) before = (.ok attached, after)) :
    ∃ goal, Route rule found action target after attached goal := by
  cases logAttachment_of_attachLog run with
  | nothing nothing => simp [actionFragments] at nothing
  | @merged single isSingle =>
      have isTarget : single = .ofTarget target := by
        have last := congrArg List.getLast? isSingle
        simpa [actionFragments] using last.symm
      subst isTarget
      exact ⟨target, Route.direct (combine_ofTarget free)⟩
  | shared isLog isGoal isName declares =>
      obtain ⟨name, rfl, -⟩ := (isKnown _ isLog).exists_calls isName
      exact ⟨_, Route.shared (mem_declared_of_declareChain declares) (combine_ofTarget free)⟩
  | own isLog isGoal names =>
      obtain rfl := Option.some.inj isGoal
      exact ⟨_, Route.own (lookup_of_chainNameOf names) rfl⟩

theorem Route.grows
    (route : Route rule found action target before attached goal) (grows : Grows before after) :
    Route rule found action target after attached goal := by
  cases route with
  | direct same => exact Route.direct same
  | shared declared same => exact Route.shared (grows.declared declared) same
  | own known same => exact Route.own (grows.nameOf _ _ known) same

/-! ## The body of a limit chain -/

/-- Jumps do what their targets stand for. -/
structure Obeys (jump : String → Option Verdict) : Prop where
  silent : ∀ target, IsLogTarget target → jump target = none
  verdict : ∀ target verdict, targetVerdict? target = some verdict → jump target = some verdict

/-- The body of a limit chain: first the matches of the limit jump towards a target, and what they
leave is decided by the other rules. -/
inductive LimitShape (rule : Rule) (families : List String) (after : Context)
    (outcome : Bool → Option Verdict) : List Fragment → Prop
  | intro {found attached rest : List Fragment} {answer : Bool → Bool}
      {action target goal : String} {verdict : Verdict} :
      Tells families answer found →
      Route rule found action target after attached goal →
      targetVerdict? target = some verdict →
      (goal = target ∨ (action, target) ∈ actionTargets ∧ verdict ≠ .returned) →
      (∀ jump (traffic : Traffic) (place : Place), Obeys jump → place.family ∈ families →
        (if answer traffic.exceeds then some verdict else none).or
            (chainVerdict jump traffic place (rest.map (placeIn place.chain))) =
          outcome traffic.exceeds) →
      LimitShape rule families after outcome (attached ++ rest)

theorem LimitShape.grows
    {families : List String} {outcome : Bool → Option Verdict} {body : List Fragment}
    (shape : LimitShape rule families before outcome body) (grows : Grows before after) :
    LimitShape rule families after outcome body := by
  cases shape with
  | intro tells route isVerdict ends decides =>
      exact LimitShape.intro tells (route.grows grows) isVerdict ends decides

/-- What a limit chain does to traffic that exceeds its limit or does not. -/
def limitOutcome (within : Option Verdict) (exceeds : Bool) : Option Verdict :=
  if exceeds then some .drop else within

/-- A limited rule accepts or passes. -/
theorem target_of_limited
    (isFilter : rule.kind.isFilter = true) (actions : rule.action = "accept" ∨ rule.action = "pass") :
    rule.action = "accept" ∧ rule.target = .ok (some "ACCEPT") ∨
      rule.action = "pass" ∧ rule.target = .ok none := by
  have notCustom : customName? "accept" = none := by decide +kernel
  rw [target_eq_filterTarget isFilter]
  unfold filterTarget isCustom
  rcases actions with accepts | passes
  · exact Or.inl ⟨accepts, by simp [accepts, notCustom]⟩
  · exact Or.inr ⟨passes, by simp [passes]⟩

section Bodies

variable {families : List String} {log : Option LogClass} {connection : Bool}
  {body : List Fragment}

/-- Traffic within a limit is accepted where that is said, and otherwise goes on behind the jump. -/
def GoesOn (accepting : Bool) (within : Option Verdict) : Prop :=
  if accepting then within = some .accept else within = none ∨ within = some .returned

end Bodies

end Rule

end FirewallPolicy
