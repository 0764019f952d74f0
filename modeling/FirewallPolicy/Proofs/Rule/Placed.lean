import FirewallPolicy.Proofs.Rule.Attachment

/-!
# Where the fragments of a rule stand and jump to

A fragment of a rule stands in a chain of the filter hooks or in a chain that was given out to an
owner.  It jumps to such a chain, to a shared chain that was declared, or to something with an
ordinary name.
-/

namespace FirewallPolicy

open Context Run Stateful

/-! ## Places of fragments -/

/-- The fragment stands and jumps where rules of the owners may; it goes to the front only where
that is allowed. -/
structure Fragment.Placed (context : Context) (owns : Nat × String → Prop) (front : Prop)
    (fragment : Fragment) : Prop where
  chain : ∀ chain, fragment.chain = some chain →
    chain ∈ hookNames ∨ Names context owns chain
  target : ∀ target, fragment.target = some target →
    IsOrdinary target ∨ target ∈ context.declared ∨ Names context owns target
  position : fragment.position = some "prepend" → front

/-- All fragments of a list stand and jump where rules of the owners may. -/
def AllPlaced (context : Context) (owns : Nat × String → Prop) (front : Prop)
    (fragments : List Fragment) : Prop :=
  ∀ fragment ∈ fragments, fragment.Placed context owns front

variable {before after : Context} {owns : Nat × String → Prop} {front : Prop}

theorem Fragment.Placed.grows
    {fragment : Fragment}
    (placed : fragment.Placed before owns front) (grows : Grows before after) :
    fragment.Placed after owns front where
  chain chain stands := (placed.chain chain stands).imp_right fun names => names.grows grows
  target target jumps := by
    rcases placed.target target jumps with other | declared | names
    · exact Or.inl other
    · exact Or.inr (Or.inl (grows.declared declared))
    · exact Or.inr (Or.inr (names.grows grows))
  position := placed.position

/-- More owners and more freedom only allow more. -/
theorem Fragment.Placed.imp
    {fragment : Fragment} {others : Nat × String → Prop} {freer : Prop}
    (placed : fragment.Placed before owns front)
    (owners : ∀ owner, owns owner → others owner) (freed : front → freer) :
    fragment.Placed before others freer where
  chain chain stands := by
    refine (placed.chain chain stands).imp_right ?_
    rintro ⟨owner, isOwner, known⟩
    exact ⟨owner, owners owner isOwner, known⟩
  target target jumps := by
    refine (placed.target target jumps).imp_right (Or.imp_right ?_)
    rintro ⟨owner, isOwner, known⟩
    exact ⟨owner, owners owner isOwner, known⟩
  position stated := freed (placed.position stated)

theorem AllPlaced.grows
    {fragments : List Fragment}
    (placed : AllPlaced before owns front fragments) (grows : Grows before after) :
    AllPlaced after owns front fragments :=
  fun fragment member => (placed fragment member).grows grows

theorem AllPlaced.imp
    {fragments : List Fragment} {others : Nat × String → Prop} {freer : Prop}
    (placed : AllPlaced before owns front fragments)
    (owners : ∀ owner, owns owner → others owner) (freed : front → freer) :
    AllPlaced before others freer fragments :=
  fun fragment member => (placed fragment member).imp owners freed

theorem allPlaced_nil : AllPlaced before owns front [] :=
  fun _ none => absurd none List.not_mem_nil

theorem allPlaced_append
    {first second : List Fragment}
    (firstPlaced : AllPlaced before owns front first)
    (secondPlaced : AllPlaced before owns front second) :
    AllPlaced before owns front (first ++ second) :=
  fun fragment member =>
    (List.mem_append.1 member).elim (firstPlaced fragment) (secondPlaced fragment)

theorem allPlaced_singleton
    {fragment : Fragment} (placed : fragment.Placed before owns front) :
    AllPlaced before owns front [fragment] :=
  fun _ member => List.mem_singleton.1 member ▸ placed

/-- A product stands and jumps where its parts may. -/
theorem allPlaced_combine
    {lists : List (Option (List Fragment))}
    (placed : ∀ list, some list ∈ lists → AllPlaced before owns front list) :
    AllPlaced before owns front (Fragment.combine lists) := by
  intro fragment member
  constructor
  · intro chain stands
    obtain ⟨list, given, part, isPart, partStands⟩ :=
      Fragment.exists_chain_of_mem_combine member stands
    exact (placed list given part isPart).chain chain partStands
  · intro target jumps
    obtain ⟨list, given, part, isPart, partJumps⟩ :=
      Fragment.exists_target_of_mem_combine member jumps
    exact (placed list given part isPart).target target partJumps
  · intro stated
    obtain ⟨list, given, part, isPart, partStated⟩ :=
      Fragment.exists_position_of_mem_combine member stated
    exact (placed list given part isPart).position partStated

theorem allPlaced_combine_pair
    {first second : List Fragment}
    (firstPlaced : AllPlaced before owns front first)
    (secondPlaced : AllPlaced before owns front second) :
    AllPlaced before owns front (Fragment.combine [some first, some second]) := by
  refine allPlaced_combine fun list given => ?_
  simp only [List.mem_cons, Option.some.injEq, List.not_mem_nil, or_false] at given
  rcases given with rfl | rfl
  · exact firstPlaced
  · exact secondPlaced

/-! ## Parts -/

theorem Fragment.IsMatch.placed
    {chains : List String} {fragment : Fragment}
    (isMatch : fragment.IsMatch chains) (hooks : chains ⊆ hookNames) :
    fragment.Placed before owns front where
  chain chain stands := Or.inl (hooks (isMatch.chain chain stands))
  target target jumps := by simp [isMatch.target] at jumps
  position stated := by simp [isMatch.position] at stated

theorem allPlaced_of_isMatch
    {fragments : List Fragment} (matching : ∀ fragment ∈ fragments, fragment.IsMatch []) :
    AllPlaced before owns front fragments :=
  fun fragment member => (matching fragment member).placed (List.nil_subset _)

theorem placed_ofTarget
    {target : String}
    (jumps : IsOrdinary target ∨ target ∈ before.declared ∨ Names before owns target) :
    (Fragment.ofTarget target).Placed before owns front where
  chain := by simp [Fragment.ofTarget]
  target := by
    rintro _ ⟨⟩
    exact jumps
  position := by simp [Fragment.ofTarget]

theorem allPlaced_families (families : List String) :
    AllPlaced before owns front (families.map Fragment.ofFamily) := by
  refine allPlaced_of_isMatch fun fragment member => ?_
  obtain ⟨family, _, rfl⟩ := List.mem_map.1 member
  exact Fragment.isMatch_ofFamily family

theorem allPlaced_logFragments (log : LogClass) :
    AllPlaced before owns front log.fragments := by
  rcases log.fragments_cases with none | ⟨tokens, target, isLog, one⟩
  · rw [none]
    exact allPlaced_nil
  · rw [one]
    refine allPlaced_singleton ⟨by simp, ?_, by simp⟩
    rintro _ ⟨⟩
    exact Or.inl isLog.isOrdinary

namespace Rule

theorem allPlaced_actionFragments
    (log : Option LogClass) {target : Option String}
    (ordinary : ∀ goal, target = some goal → IsOrdinary goal) :
    AllPlaced before owns front (actionFragments log target) := by
  refine allPlaced_append ?_ ?_
  · cases log with
    | none => exact allPlaced_nil
    | some log => exact allPlaced_logFragments log
  · cases target with
    | none => exact allPlaced_nil
    | some goal => exact allPlaced_singleton (placed_ofTarget (Or.inl (ordinary goal rfl)))

/-- A chain of a rule's own and the jumps to it. -/
theorem allPlaced_ownChain
    {chain : String} {matched actions : List Fragment}
    (names : Names before owns chain)
    (matchedPlaced : AllPlaced before owns front matched)
    (actionsPlaced : AllPlaced before owns front actions) :
    AllPlaced before owns front (ownChain chain matched actions) := by
  have bodyPlaced : AllPlaced before owns front (actions.map (placeIn chain)) := by
    intro fragment member
    obtain ⟨action, isAction, rfl⟩ := List.mem_map.1 member
    have placed := actionsPlaced action isAction
    unfold placeIn
    split
    · exact placed
    · refine ⟨?_, placed.target, placed.position⟩
      rintro _ ⟨⟩
      exact Or.inr names
  refine allPlaced_append ?_ ?_
  · intro fragment member
    obtain ⟨matching, isMatching, rfl⟩ := List.mem_map.1 member
    have placed := matchedPlaced matching isMatching
    unfold jumpTo
    split
    · exact placed
    · refine ⟨placed.chain, ?_, placed.position⟩
      rintro _ ⟨⟩
      exact Or.inr (Or.inr names)
  · unfold chainBody
    extract_lets families
    split
    · exact bodyPlaced
    · exact allPlaced_combine_pair bodyPlaced (allPlaced_families _)

/-! ## Targets -/

theorem isOrdinary_of_customName?
    {target : String} (custom : (customName? target).isSome = true) :
    IsOrdinary target := by
  unfold IsOrdinary
  unfold customName? at custom
  split at custom
  · next isCustom =>
      obtain ⟨rest, same⟩ := List.isPrefixOf_iff_prefix.1 isCustom
      rw [← same]
      simp [customMark]
  · simp at custom

theorem target_eq_filterTarget {rule : Rule} (isFilter : rule.kind.isFilter = true) :
    rule.target = rule.filterTarget := by
  unfold target
  revert isFilter
  cases rule.kind <;> simp [RuleKind.isFilter]

theorem filterTarget_cases
    {rule : Rule} {target : String}
    (read : rule.filterTarget = .ok (some target)) :
    (rule.isCustom = true ∧ target = rule.action) ∨
      (rule.action, target) ∈ actionTargets := by
  unfold filterTarget at read
  extract_lets action at read
  split at read
  · simp at read
  · split at read
    · next custom =>
        obtain rfl : action = target := by simpa using read
        exact Or.inl ⟨custom, rfl⟩
    · right
      split at read
      · next isAction =>
          obtain rfl : "ACCEPT" = target := by simpa using read
          simp [actionTargets, show rule.action = _ from isAction]
      · split at read
        · next isAction =>
            obtain rfl : "DROP" = target := by simpa using read
            simp [actionTargets, show rule.action = _ from isAction]
        · split at read
          · next isAction =>
              obtain rfl : "REJECT" = target := by simpa using read
              simp [actionTargets, show rule.action = _ from isAction]
          · split at read
            · next isAction =>
                obtain rfl : "tarpit" = target := by simpa using read
                simp [actionTargets, show rule.action = _ from isAction]
            · simp at read

theorem isOrdinary_of_action
    {action target : String} (isAction : (action, target) ∈ actionTargets) :
    IsOrdinary target := by
  simp only [actionTargets, List.mem_cons, Prod.mk.injEq, List.not_mem_nil, or_false] at isAction
  rcases isAction with ⟨_, rfl⟩ | ⟨_, rfl⟩ | ⟨_, rfl⟩ | ⟨_, rfl⟩ <;> decide

private theorem isOrdinary_append
    {start : String} (rest : String)
    (head : ∃ first tail, start.toList = first :: tail ∧ first ≠ 'l') :
    IsOrdinary (start ++ rest) := by
  obtain ⟨first, tail, shape, different⟩ := head
  rw [IsOrdinary, String.toList_append, shape]
  simpa using different

/-- What the targets start with that rules of other kinds than filter rules have. -/
def fixedTargets : List String :=
  ["ACCEPT", "CT --notrack", "DNAT --to-destination ", "REDIRECT --to-ports ",
    "SNAT --to-source ", "MASQUERADE"]

theorem sourceTarget_cases (rule : Rule) :
    ∃ start ∈ fixedTargets, ∃ rest, rule.sourceTarget = start ++ rest := by
  unfold sourceTarget
  split
  · next address _ => exact ⟨"SNAT --to-source ", by decide, address, rfl⟩
  · split
    · refine ⟨"MASQUERADE", by decide, " --to-ports " ++ (rule.attributes.get "to-port").written, ?_⟩
      rw [← String.append_assoc]
      rfl
    · exact ⟨"MASQUERADE", by decide, "", by simp⟩

theorem destinationTarget_cases
    {rule : Rule} {target : String} (read : rule.destinationTarget = .ok (some target)) :
    ∃ start ∈ fixedTargets, ∃ rest, target = start ++ rest := by
  unfold destinationTarget at read
  split at read
  · next address _ =>
      obtain rfl := Option.some.inj (Except.ok.inj read)
      exact ⟨"DNAT --to-destination ", by decide, address, rfl⟩
  · split at read
    · obtain rfl := Option.some.inj (Except.ok.inj read)
      exact ⟨"REDIRECT --to-ports ", by decide, (rule.attributes.get "to-port").written, rfl⟩
    · simp at read

/-- The target of a rule is that of a filter rule, or it starts in one of the fixed ways. -/
theorem target_cases
    {rule : Rule} {target : String} (read : rule.target = .ok (some target)) :
    (rule.kind.isFilter = true ∧ rule.filterTarget = .ok (some target)) ∨
      ∃ start ∈ fixedTargets, ∃ rest, target = start ++ rest := by
  have fixed {name : String} (isFixed : name ∈ fixedTargets)
      (isName : (.ok (some name) : Except Failure (Option String)) = .ok (some target)) :
      ∃ start ∈ fixedTargets, ∃ rest, target = start ++ rest := by
    obtain rfl := Option.some.inj (Except.ok.inj isName)
    exact ⟨name, isFixed, "", by simp⟩
  cases kind : rule.kind <;> simp only [Rule.target, kind] at read
  case plain | redirecting | limitUpdate => simp at read
  case logging | related | noTrack => exact Or.inr (fixed (by decide) read)
  case filter | policy => exact Or.inl ⟨rfl, read⟩
  case dnat => exact Or.inr (destinationTarget_cases read)
  case snat =>
    obtain rfl := Option.some.inj (Except.ok.inj read)
    exact Or.inr (sourceTarget_cases rule)

/-- The target of a rule has an ordinary name. -/
theorem isOrdinary_target
    {rule : Rule} {target : String}
    (read : rule.target = .ok (some target)) :
    IsOrdinary target := by
  rcases target_cases read with ⟨-, read⟩ | ⟨start, isStart, rest, rfl⟩
  · rcases filterTarget_cases read with ⟨custom, rfl⟩ | isAction
    · exact isOrdinary_of_customName? custom
    · exact isOrdinary_of_action isAction
  · refine isOrdinary_append rest ?_
    simp only [fixedTargets, List.mem_cons, List.not_mem_nil, or_false] at isStart
    rcases isStart with rfl | rfl | rfl | rfl | rfl | rfl <;> exact ⟨_, _, rfl, by decide⟩

/-! ## The policy's own chains as targets -/

theorem customName?_append_eq_none
    {start : String} (rest : String)
    (head : ∃ first tail, start.toList = first :: tail ∧ first ≠ 'c') :
    customName? (start ++ rest) = none := by
  obtain ⟨first, tail, shape, different⟩ := head
  have mark : customMark.toList = 'c' :: "ustom:".toList := by decide
  unfold customName?
  rw [String.toList_append, shape, mark, List.cons_append, List.isPrefixOf_cons_cons,
    beq_false_of_ne (Ne.symm different), Bool.false_and, if_neg Bool.false_ne_true]

theorem customName?_eq_none_of_action
    {action target : String} (isAction : (action, target) ∈ actionTargets) :
    customName? target = none := by
  simp only [actionTargets, List.mem_cons, Prod.mk.injEq, List.not_mem_nil, or_false] at isAction
  rcases isAction with ⟨_, rfl⟩ | ⟨_, rfl⟩ | ⟨_, rfl⟩ | ⟨_, rfl⟩ <;> decide

/-- Only filter rules jump to the policy's own chains. -/
theorem customName?_eq_none_of_target
    {rule : Rule} {target : String} (notFilter : rule.kind.isFilter = false)
    (read : rule.target = .ok (some target)) : customName? target = none := by
  rcases target_cases read with ⟨isFilter, -⟩ | ⟨start, isStart, rest, rfl⟩
  · simp [isFilter] at notFilter
  · refine customName?_append_eq_none rest ?_
    simp only [fixedTargets, List.mem_cons, List.not_mem_nil, or_false] at isStart
    rcases isStart with rfl | rfl | rfl | rfl | rfl | rfl <;> exact ⟨_, _, rfl, by decide⟩

end Rule

theorem IsLogTarget.customName?_eq_none
    {target : String} (isLog : IsLogTarget target) : customName? target = none := by
  obtain ⟨mode, member, options, rfl⟩ := isLog
  refine Rule.customName?_append_eq_none options ?_
  simp only [List.mem_cons, List.not_mem_nil, or_false] at member
  rcases member with rfl | rfl | rfl <;> exact ⟨_, _, rfl, by decide⟩

end FirewallPolicy
