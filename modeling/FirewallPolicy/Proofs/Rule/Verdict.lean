import FirewallPolicy.Proofs.Rule.Limit
import FirewallPolicy.Proofs.Section.Order

/-!
# What becomes of traffic in a chain

The rules of a chain are tried one after the other.  A rule that matches gives the verdict that its
target stands for, or sends the traffic through another chain; logging never ends the way of traffic.
How the matches of limits are to be read depends on whether the traffic exceeds its limit.
-/

namespace FirewallPolicy

/-! ## Verdicts -/

/-- What may become of traffic in a chain, unless it falls off the end. -/
inductive Verdict where
  | accept
  | drop
  | reject
  | returned
deriving DecidableEq, Repr

/-- The verdict that a target stands for. -/
def targetVerdict? : String → Option Verdict
  | "ACCEPT" => some .accept
  | "DROP" => some .drop
  | "REJECT" => some .reject
  | "RETURN" => some .returned
  | _ => none

/-- Does the target log? -/
def isLogging (target : String) : Bool :=
  ["LOG", "NFLOG", "ULOG"].any fun mode => mode.toList.isPrefixOf target.toList

/-! ## Traffic -/

/-- How the matches of limits begin that hold for traffic above the limit. -/
def aboveMarks : List String :=
  ["--update --hitcount ", "--rcheck --hitcount ", "--hashlimit-above "]

/-- How the matches of limits begin that hold for traffic within the limit. -/
def withinMarks : List String :=
  ["--hashlimit-upto "]

/-- Does a token begin with one of the marks? -/
def isMarked (marks : List String) (token : String) : Bool :=
  marks.any fun mark => mark.toList.isPrefixOf token.toList

/-- Traffic as the rules of a limit see it: whether it exceeds the limit, and which other matches
hold for it. -/
structure Traffic where
  exceeds : Bool
  others : List String → Bool

/-- Do the tokens of a rule match the traffic?  Recording an event always does. -/
def Traffic.satisfies (traffic : Traffic) (tokens : List String) : Bool :=
  if tokens.any (isMarked aboveMarks) then traffic.exceeds
  else if tokens.any (isMarked withinMarks) then !traffic.exceeds
  else if tokens.isEmpty || tokens.contains "--set" then true
  else traffic.others tokens

/-! ## Chains -/

/-- Does the rule stand at the place?  One without a family or a table stands in all of them. -/
def Fragment.standsAt (place : Place) (rule : Fragment) : Bool :=
  rule.family.all (· == place.family) && rule.table.all (· == place.table) &&
    rule.chain == some place.chain

theorem Fragment.standsAt_iff
    {place : Place} {rule : Fragment} :
    rule.standsAt place = true ↔
      (∀ family, rule.family = some family → family = place.family) ∧
      (∀ table, rule.table = some table → table = place.table) ∧
      rule.chain = some place.chain := by
  cases family : rule.family <;> cases table : rule.table <;>
    simp [standsAt, family, table, and_assoc]

/-- What a rule at the place does to traffic, given what becomes of traffic behind its jump. -/
def Fragment.verdict (jump : String → Option Verdict) (traffic : Traffic) (place : Place)
    (rule : Fragment) : Option Verdict :=
  if rule.standsAt place && traffic.satisfies rule.tokens then rule.target.bind jump else none

/-- What the rules at the place do to traffic, tried in their order. -/
def chainVerdict (jump : String → Option Verdict) (traffic : Traffic) (place : Place)
    (rules : List Fragment) : Option Verdict :=
  rules.findSome? (Fragment.verdict jump traffic place)

/-- What becomes of traffic behind a jump.  Jumps to chains are followed to the given depth, and
traffic that returns from a chain goes on behind the jump. -/
def jumpVerdict (rules : List Fragment) (traffic : Traffic) (family : String) :
    Nat → String → Option Verdict
  | 0, target => targetVerdict? target
  | depth + 1, target =>
    match targetVerdict? target with
    | some verdict => some verdict
    | none =>
      if isLogging target then none
      else
        (chainVerdict (jumpVerdict rules traffic family depth) traffic ⟨family, "filter", target⟩
          rules).filter (· != .returned)

/-! ### Jumps -/

section Jumps

variable {rules : List Fragment} {traffic : Traffic} {family target : String}

theorem jumpVerdict_of_targetVerdict?
    {verdict : Verdict} (isVerdict : targetVerdict? target = some verdict) (depth : Nat) :
    jumpVerdict rules traffic family depth target = some verdict := by
  cases depth with
  | zero => exact isVerdict
  | succ depth =>
      unfold jumpVerdict
      rw [isVerdict]

theorem isLogging_of_isLogTarget
    (isLog : IsLogTarget target) :
    isLogging target = true := by
  obtain ⟨mode, isMode, options, rfl⟩ := isLog
  refine List.any_eq_true.2 ⟨mode, isMode, ?_⟩
  rw [String.toList_append]
  exact List.isPrefixOf_iff_prefix.2 (List.prefix_append _ _)

theorem jumpVerdict_of_isLogTarget
    (isLog : IsLogTarget target) (depth : Nat) :
    jumpVerdict rules traffic family depth target = none := by
  -- The targets with a verdict do not start like those that log.
  have noVerdict : targetVerdict? target = none := by
    have logs := isLogging_of_isLogTarget isLog
    unfold targetVerdict?
    split
    · exact absurd logs (by decide)
    · exact absurd logs (by decide)
    · exact absurd logs (by decide)
    · exact absurd logs (by decide)
    · rfl
  cases depth with
  | zero => exact noVerdict
  | succ depth =>
      unfold jumpVerdict
      rw [noVerdict, isLogging_of_isLogTarget isLog]
      rfl

/-- A jump to a chain that ends with a verdict for all traffic gives the verdict. -/
theorem jumpVerdict_of_chainVerdict
    {verdict : Verdict} (noVerdict : targetVerdict? target = none)
    (notLogging : isLogging target = false) (ends : verdict ≠ .returned) {depth : Nat}
    (inChain : chainVerdict (jumpVerdict rules traffic family depth) traffic
      ⟨family, "filter", target⟩ rules = some verdict) :
    jumpVerdict rules traffic family (depth + 1) target = some verdict := by
  unfold jumpVerdict
  rw [noVerdict, notLogging, inChain]
  simp [Option.filter, ends]

end Jumps

/-! ### Lists of rules -/

section Rules

variable {jump : String → Option Verdict} {traffic : Traffic} {place : Place}
  {rules : List Fragment}

theorem chainVerdict_append (first second : List Fragment) :
    chainVerdict jump traffic place (first ++ second) =
      (chainVerdict jump traffic place first).or (chainVerdict jump traffic place second) :=
  List.findSome?_append

theorem chainVerdict_of_elsewhere
    (elsewhere : ∀ rule ∈ rules, rule.chain ≠ some place.chain) :
    chainVerdict jump traffic place rules = none := by
  refine List.findSome?_eq_none_iff.2 fun rule member => ?_
  unfold Fragment.verdict Fragment.standsAt
  simp [elsewhere rule member]

/-- Rules that all match alike and jump to one target do what any of them does. -/
theorem chainVerdict_uniform
    {holds : Bool} {target : Option String}
    (alike : ∀ rule ∈ rules, traffic.satisfies rule.tokens = holds ∧ rule.target = target)
    (stands : ∃ rule ∈ rules, rule.standsAt place = true) :
    chainVerdict jump traffic place rules = if holds then target.bind jump else none := by
  have each : ∀ rule ∈ rules, rule.verdict jump traffic place =
      if rule.standsAt place && holds then target.bind jump else none := by
    intro rule member
    unfold Fragment.verdict
    rw [(alike rule member).1, (alike rule member).2]
  -- Whether one of the rules gives the verdict depends only on the verdict that they share.
  cases result : (if holds then target.bind jump else none) with
  | none =>
      refine List.findSome?_eq_none_iff.2 fun rule member => ?_
      rw [each rule member]
      cases rule.standsAt place with
      | false => simp
      | true => simpa using result
  | some verdict =>
      obtain ⟨rule, member, standing⟩ := stands
      cases found : chainVerdict jump traffic place rules with
      | none =>
          have nothing := List.findSome?_eq_none_iff.1 found rule member
          rw [each rule member, standing, Bool.true_and, result] at nothing
          cases nothing
      | some other =>
          obtain ⟨other, isOther, same⟩ := List.exists_of_findSome?_eq_some found
          rw [each other isOther] at same
          cases stands : other.standsAt place with
          | false => simp [stands] at same
          | true => rw [← same, stands, Bool.true_and, result]

/-- Restrictions of a rule do what the rule does, if one of them stands where it does. -/
theorem chainVerdict_restrictions
    {rule : Fragment}
    (alike : ∀ other ∈ rules, other.tokens = rule.tokens ∧ other.target = rule.target)
    (stands : rule.standsAt place = true ↔ ∃ other ∈ rules, other.standsAt place = true) :
    chainVerdict jump traffic place rules = rule.verdict jump traffic place := by
  unfold Fragment.verdict
  by_cases standing : rule.standsAt place = true
  · rw [standing, Bool.true_and]
    refine chainVerdict_uniform (fun other member => ?_) (stands.1 standing)
    rw [(alike other member).1, (alike other member).2]
    exact ⟨rfl, rfl⟩
  · rw [eq_false_of_ne_true standing, Bool.false_and, if_neg Bool.false_ne_true]
    refine List.findSome?_eq_none_iff.2 fun other member => ?_
    have absent : other.standsAt place = false :=
      eq_false_of_ne_true fun standsOther => standing (stands.2 ⟨other, member, standsOther⟩)
    unfold Fragment.verdict
    simp [absent]

/-- Rules do the same when each one is replaced by restrictions that do the same. -/
theorem chainVerdict_product
    {parts : List Fragment}
    (same : ∀ rule ∈ rules, chainVerdict jump traffic place (parts.filterMap rule.merge) =
      rule.verdict jump traffic place) :
    chainVerdict jump traffic place (Fragment.product rules parts) =
      chainVerdict jump traffic place rules := by
  unfold Fragment.product
  induction rules with
  | nil => rfl
  | cons rule rest inductionHypothesis =>
      rw [List.forall_mem_cons] at same
      rw [List.flatMap_cons, chainVerdict_append, same.1, inductionHypothesis same.2]
      unfold chainVerdict
      rw [List.findSome?_cons]
      cases rule.verdict jump traffic place <;> rfl

/-- A restriction to one of several families or to a table takes nothing away where it is allowed. -/
theorem chainVerdict_restricted
    {parts : List Fragment} {allowed : Fragment} (isAllowed : allowed ∈ parts)
    (narrow : ∀ part ∈ parts, part.chain = none ∧ part.tokens = [] ∧ part.target = none ∧
      part.position = none ∧ part.index = none)
    (family : ∀ own, allowed.family = some own → own = place.family)
    (table : ∀ own, allowed.table = some own → own = place.table) :
    chainVerdict jump traffic place (Fragment.product rules parts) =
      chainVerdict jump traffic place rules := by
  refine chainVerdict_product fun rule _ => chainVerdict_restrictions ?_ ?_
  -- A restriction matches and jumps like the rule, and it stands where the rule does: where it is
  -- allowed the two agree, and a restriction keeps what the rule states.
  · intro other member
    obtain ⟨part, isPart, merges⟩ := List.mem_filterMap.1 member
    obtain ⟨_, tokens, target, _⟩ := narrow part isPart
    obtain ⟨-, rfl⟩ := Fragment.merge_eq_some_iff.1 merges
    simp [Fragment.union, tokens, target]
  · rw [Fragment.standsAt_iff]
    constructor
    · rintro ⟨ownFamily, ownTable, ownChain⟩
      obtain ⟨chain, _, target, position, index⟩ := narrow allowed isAllowed
      have agree : Fragment.Agree rule allowed := by
        constructor
        · exact fun own isOwn other isOther =>
            (ownFamily own isOwn).trans (family other isOther).symm
        · exact fun own isOwn other isOther =>
            (ownTable own isOwn).trans (table other isOther).symm
        all_goals simp [Fragment.Compatible, chain, target, position, index]
      refine ⟨rule.union allowed, List.mem_filterMap.2
        ⟨allowed, isAllowed, Fragment.merge_eq_some_iff.2 ⟨agree, rfl⟩⟩, ?_⟩
      rw [Fragment.standsAt_iff]
      refine ⟨fun own isOwn => ?_, fun own isOwn => ?_, ?_⟩
      · exact (Option.or_eq_some_iff.1 isOwn).elim (ownFamily own) fun both => family own both.2
      · exact (Option.or_eq_some_iff.1 isOwn).elim (ownTable own) fun both => table own both.2
      · simp [Fragment.union, ownChain]
    · rintro ⟨other, member, stands⟩
      obtain ⟨part, isPart, merges⟩ := List.mem_filterMap.1 member
      have extended := Fragment.extends_merge_left merges
      obtain ⟨partChain, _⟩ := narrow part isPart
      rw [Fragment.standsAt_iff] at stands
      obtain ⟨otherFamily, otherTable, otherChain⟩ := stands
      refine ⟨fun own isOwn => otherFamily own (extended.family own isOwn),
        fun own isOwn => otherTable own (extended.table own isOwn), ?_⟩
      obtain ⟨-, rfl⟩ := Fragment.merge_eq_some_iff.1 merges
      simpa [Fragment.union, partChain] using otherChain

/-! ### Auxiliary chains -/

namespace Rule

theorem combine_ofTarget
    {matched : List Fragment} (free : ∀ rule ∈ matched, rule.target = none) {target : String} :
    Fragment.combine [some matched, some [.ofTarget target]] = matched.map (jumpTo target) := by
  rw [Fragment.combine_pair]
  unfold Fragment.product
  rw [← List.flatMap_singleton' (matched.map _), List.flatMap_map]
  refine List.flatMap_congr fun rule member => ?_
  have merges : rule.merge (.ofTarget target) = some (jumpTo target rule) := by
    rw [Fragment.merge_eq_some_iff]
    constructor
    · constructor <;> simp [Fragment.Compatible, Fragment.ofTarget, free rule member]
    · simp [Fragment.union, Fragment.ofTarget, jumpTo, namesTarget, free rule member]
  simp [merges]

theorem jumpTo_of_open
    {rule : Fragment} (free : rule.target = none) (target : String) :
    jumpTo target rule = { rule with target := some target } := by
  simp [jumpTo, namesTarget, free]

theorem placeIn_of_open
    {rule : Fragment} (free : rule.chain = none) (chain : String) :
    placeIn chain rule = { rule with chain := some chain } := by
  simp [placeIn, free]

/-- Placing rules in a chain changes nothing in other chains. -/
theorem chainVerdict_placeIn
    {chain : String} (different : chain ≠ place.chain) (named : place.chain ≠ "") :
    chainVerdict jump traffic place (rules.map (placeIn chain)) =
      chainVerdict jump traffic place rules := by
  unfold chainVerdict
  rw [List.findSome?_map]
  congr 1
  funext rule
  dsimp only [Function.comp_apply]
  unfold placeIn
  split
  · rfl
  · next unnamed =>
      have elsewhere : rule.chain ≠ some place.chain := by
        intro stands
        simp [stands, named] at unnamed
      unfold Fragment.verdict Fragment.standsAt
      simp [elsewhere, different]

/-- The body of a chain stands in every family that is jumped to it from. -/
theorem chainVerdict_chainBody
    {jumps : List Fragment}
    (reached : ∃ jump ∈ jumps, ∀ own, jump.family = some own → own = place.family) :
    chainVerdict jump traffic place (chainBody jumps rules) =
      chainVerdict jump traffic place rules := by
  unfold chainBody
  extract_lets families
  split
  · rfl
  · next restricted =>
      rw [Fragment.combine_pair]
      obtain ⟨reaching, isJump, family⟩ := reached
      have isFamily : reaching.family ∈ families :=
        List.mem_eraseDups.2 (List.mem_map_of_mem isJump)
      cases stated : reaching.family with
      | none =>
          rw [stated] at isFamily
          simp [isFamily] at restricted
      | some own =>
          rw [stated] at isFamily
          obtain rfl := family own stated
          have isAllowed : Fragment.ofFamily place.family ∈
              (Text.sorted (families.filterMap id)).map Fragment.ofFamily :=
            List.mem_map_of_mem
              (Text.mem_sorted.2 (List.mem_filterMap.2 ⟨_, isFamily, rfl⟩))
          refine chainVerdict_restricted isAllowed ?_ ?_ ?_
          · intro part isPart
            obtain ⟨_, _, rfl⟩ := List.mem_map.1 isPart
            exact ⟨rfl, rfl, rfl, rfl, rfl⟩
          · rintro _ ⟨⟩
            rfl
          · rintro _ ⟨⟩

end Rule

end Rules

end FirewallPolicy
