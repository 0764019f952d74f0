import FirewallPolicy.Proofs.Section.Order

/-!
# Ties between sections

Directives that ask for the same order of the same names are resolved alike, however they are
stated.  What they leave open is decided by names alone: a name is put into the order when the first
one of the names that lead to it is visited.
-/

namespace FirewallPolicy.Order

/-! ## Visits of several names -/

section Visits

variable {predecessors : String → List String}
  {known free path order names more result : List String} {name earlier : String}

/-- The names that a settled name leads to are there as well. -/
theorem Settled.mem_of_leads
    (settled : Settled predecessors order) (member : name ∈ order)
    (leads : Relation.ReflTransGen (Requires predecessors known) name earlier) :
    earlier ∈ order := by
  induction leads with
  | refl => exact member
  | tail _ requires done =>
      obtain ⟨early, late, same⟩ := List.append_of_mem done
      rw [same]
      exact List.mem_append_left _ (settled early _ late same requires.2)

/-- Only what the known names require counts for a visit. -/
theorem visit_congr
    {others : String → List String}
    (within : ∀ name ∈ known, predecessors name ⊆ known)
    (same : ∀ name ∈ known, predecessors name = others name) (areKnown : names ⊆ known) :
    visit predecessors free path order names = visit others free path order names := by
  fun_induction visit predecessors free path order names with
  | case1 free path order => rw [visit]
  | case2 free path order name rest done inductionHypothesis =>
      rw [visit, if_pos done]
      exact inductionHypothesis (List.cons_subset.1 areKnown).2
  | case3 free path order name rest undone isFree inner innerRun innerHypothesis
      inductionHypothesis =>
      obtain ⟨isKnown, restKnown⟩ := List.cons_subset.1 areKnown
      rw [visit, if_neg undone, dif_pos isFree, ← same name isKnown,
        ← innerHypothesis (within name isKnown), innerRun]
      exact inductionHypothesis restKnown
  | case4 free path order name rest undone isFree cycle innerRun innerHypothesis =>
      obtain ⟨isKnown, _⟩ := List.cons_subset.1 areKnown
      rw [visit, if_neg undone, dif_pos isFree, ← same name isKnown,
        ← innerHypothesis (within name isKnown), innerRun]
  | case5 free path order name rest undone notFree =>
      rw [visit, if_neg undone, dif_neg notFree]

/-- Names after others are visited once those are done. -/
theorem visit_append :
    visit predecessors free path order (names ++ more) =
      (visit predecessors free path order names).bind fun inner =>
        visit predecessors free path inner more := by
  induction names generalizing order with
  | nil => simp [visit, Except.bind]
  | cons name rest inductionHypothesis =>
      rw [List.cons_append, visit, visit]
      split_ifs with done isFree
      · exact inductionHypothesis
      · cases visit predecessors (free.erase name) (path ++ [name]) order (predecessors name) with
        | ok inner => exact inductionHypothesis
        | error cycle => rfl
      · rfl

/-- A visit adds only names that the visited names lead to. -/
theorem exists_added_of_visit
    (within : ∀ name ∈ known, predecessors name ⊆ known) (areKnown : names ⊆ known)
    (run : visit predecessors free path order names = .ok result) :
    ∃ added, result = order ++ added ∧ ∀ name ∈ added, ∃ root ∈ names,
      Relation.ReflTransGen (Requires predecessors known) root name := by
  fun_induction visit predecessors free path order names generalizing result with
  | case1 free path order =>
      obtain rfl := Except.ok.inj run
      exact ⟨[], by simp⟩
  | case2 free path order name rest done inductionHypothesis =>
      obtain ⟨added, rfl, fromRest⟩ := inductionHypothesis (List.cons_subset.1 areKnown).2 run
      refine ⟨added, rfl, fun other member => ?_⟩
      obtain ⟨root, isRoot, leads⟩ := fromRest other member
      exact ⟨root, List.mem_cons_of_mem _ isRoot, leads⟩
  -- What is added before the name is led to by what the name requires.
  | case3 free path order name rest undone isFree inner innerRun innerHypothesis
      inductionHypothesis =>
      obtain ⟨isKnown, restKnown⟩ := List.cons_subset.1 areKnown
      obtain ⟨before, rfl, fromRequired⟩ := innerHypothesis (within name isKnown) innerRun
      obtain ⟨after, rfl, fromRest⟩ := inductionHypothesis restKnown run
      refine ⟨before ++ name :: after, by simp, fun other member => ?_⟩
      rcases List.mem_append.1 member with isBefore | isLater
      · obtain ⟨root, isRequired, leads⟩ := fromRequired other isBefore
        exact ⟨name, List.mem_cons_self .., .head ⟨isKnown, isRequired⟩ leads⟩
      · rcases List.mem_cons.1 isLater with rfl | isAfter
        · exact ⟨other, List.mem_cons_self .., .refl⟩
        · obtain ⟨root, isRoot, leads⟩ := fromRest other isAfter
          exact ⟨root, List.mem_cons_of_mem _ isRoot, leads⟩
  | case4 => cases run
  | case5 => cases run

/-- What the first names of a visit lead to stands before all that only later ones lead to. -/
theorem standsBefore_of_visit
    {roots : List String} {upper lower : String} (distinct : known.Nodup)
    (within : ∀ name ∈ known, predecessors name ⊆ known) (areKnown : roots ++ more ⊆ known)
    (run : visit predecessors known [] [] (roots ++ more) = .ok order)
    (early : ∃ root ∈ roots, Relation.ReflTransGen (Requires predecessors known) root upper)
    (late : ∀ root ∈ roots, ¬ Relation.ReflTransGen (Requires predecessors known) root lower)
    (member : lower ∈ order) :
    StandsBefore order upper lower := by
  obtain ⟨rootsKnown, moreKnown⟩ := List.append_subset.1 areKnown
  rw [visit_append] at run
  cases rootsRun : visit predecessors known [] [] roots with
  | error cycle => simp [rootsRun, Except.bind] at run
  | ok inner =>
      rw [rootsRun] at run
      have visited := visited_or_isCycle within (visiting_start distinct)
        (show Due predecessors known [] roots from ⟨rootsKnown, by simp⟩)
      rw [rootsRun] at visited
      obtain ⟨root, isRoot, leads⟩ := early
      have upperInner : upper ∈ inner := visited.settled.mem_of_leads (visited.done isRoot) leads
      -- The names that are done early are led to by early names, so the lower one is added later.
      obtain ⟨_, rfl, fromRoots⟩ := exists_added_of_visit within rootsKnown rootsRun
      obtain ⟨added, rfl, _⟩ := exists_added_of_visit within moreKnown run
      rcases List.mem_append.1 member with isInner | isAdded
      · obtain ⟨other, isOther, otherLeads⟩ := fromRoots lower isInner
        exact absurd otherLeads (late other isOther)
      · obtain ⟨between, rest, rfl⟩ := List.append_of_mem isAdded
        exact ⟨_, rest, (List.append_assoc ..).symm, List.mem_append_left _ upperInner⟩

end Visits

/-! ## Directives that ask alike -/

variable {directives left right : List Directive} {order : List String} {name : String}

/-- The directives ask for the same order of the same names. -/
structure AskAlike (left right : List Directive) : Prop where
  known : ∀ name, name ∈ knownNames left ↔ name ∈ knownNames right
  follows : ∀ later earlier, Follows left later earlier ↔ Follows right later earlier

theorem requires_eq_true_iff {later earlier : String} :
    requires directives later earlier = true ↔ ∃ directive ∈ directives,
      (directive.name = later ∧ earlier ∈ directive.after) ∨
        (directive.name = earlier ∧ later ∈ directive.before) := by
  simp [requires]

theorem required_eq_of_askAlike
    (alike : AskAlike left right) {later : String} (isKnown : later ∈ knownNames left) :
    required left (Text.sorted (knownNames left)) later =
      required right (Text.sorted (knownNames left)) later := by
  refine List.filter_congr fun earlier member => Bool.eq_iff_iff.2 ?_
  have earlierKnown : earlier ∈ knownNames left := Text.mem_sorted.1 member
  have follows := alike.follows later earlier
  simpa [Follows, isKnown, earlierKnown, ← alike.known, requires_eq_true_iff] using follows

/-- Which names are known and which of them follow each other decides the order and the cycle. -/
theorem resolve_eq_of_askAlike
    (leftDistinct : ((knownNames left).map Text.codes).Nodup)
    (rightDistinct : (knownNames right).Nodup) (alike : AskAlike left right) :
    resolve left = resolve right := by
  have perm : (knownNames left).Perm (knownNames right) :=
    (List.perm_ext_iff_of_nodup leftDistinct.of_map rightDistinct).2 alike.known
  have sameNames : Text.sorted (knownNames right) = Text.sorted (knownNames left) :=
    Text.sorted_eq_of_perm perm (List.pairwise_map.1 leftDistinct)
  have unfolded : resolve right = visit (required right (Text.sorted (knownNames left)))
      (Text.sorted (knownNames left)) [] [] (Text.sorted (knownNames left)) := by
    rw [← sameNames]
    rfl
  rw [unfolded]
  refine visit_congr ?_ ?_ (List.Subset.refl (Text.sorted (knownNames left)))
  · exact fun _ _ => List.filter_subset_self _
  · exact fun later member => required_eq_of_askAlike alike (Text.mem_sorted.1 member)

/-! ## First names -/

/-- The first one of the names that are the given one or ask, one through another, to come
after it. -/
structure IsFirst (directives : List Directive) (first name : String) : Prop where
  leads : Relation.ReflTransGen (Follows directives) first name
  least : ∀ other, Relation.ReflTransGen (Follows directives) other name →
    Text.precedes other first = false

theorem mem_knownNames_of_leads
    {first : String} (leads : Relation.ReflTransGen (Follows directives) first name)
    (isKnown : name ∈ knownNames directives) : first ∈ knownNames directives := by
  rcases Relation.ReflTransGen.cases_head leads with rfl | ⟨next, follows, _⟩
  · exact isKnown
  · exact follows.1

theorem existsUnique_isFirst
    (distinct : ((knownNames directives).map Text.codes).Nodup)
    (isKnown : name ∈ knownNames directives) : ∃! first, IsFirst directives first name := by
  classical
  let leading : String → Bool := fun other =>
    decide (Relation.ReflTransGen (Follows directives) other name)
  have strict := Text.pairwise_precedes_sorted (List.pairwise_map.1 distinct)
  obtain ⟨first, found⟩ : ∃ first, (Text.sorted (knownNames directives)).find? leading =
      some first := by
    refine Option.isSome_iff_exists.1 (List.find?_isSome.2 ?_)
    exact ⟨name, Text.mem_sorted.2 isKnown, decide_eq_true .refl⟩
  obtain ⟨isLeading, early, late, split, notEarly⟩ := List.find?_eq_some_iff_append.1 found
  have leads := of_decide_eq_true isLeading
  have least : ∀ other, Relation.ReflTransGen (Follows directives) other name →
      Text.precedes other first = false := by
    intro other otherLeads
    have member : other ∈ early ++ first :: late :=
      split ▸ Text.mem_sorted.2 (mem_knownNames_of_leads otherLeads isKnown)
    rw [split] at strict
    rcases List.mem_append.1 member with isEarly | isLater
    · simpa [leading, otherLeads] using notEarly other isEarly
    · rcases List.mem_cons.1 isLater with rfl | isLate
      · exact Text.precedes_self _
      · exact Text.precedes_asymm
          (List.rel_of_pairwise_cons (List.pairwise_append.1 strict).2.1 isLate)
  refine ⟨first, ⟨leads, least⟩, fun other isFirst => ?_⟩
  have sameCodes : Text.codes other = Text.codes first :=
    Text.codes_eq_of_not_precedes (least other isFirst.leads) (isFirst.least first leads)
  exact List.inj_on_of_nodup_map distinct (mem_knownNames_of_leads isFirst.leads isKnown)
    (mem_knownNames_of_leads leads isKnown) sameCodes

/-! ## Places in the order -/

theorem leads_iff {first : String} :
    Relation.ReflTransGen (Requires (required directives (Text.sorted (knownNames directives)))
        (Text.sorted (knownNames directives))) first name ↔
      Relation.ReflTransGen (Follows directives) first name := by
  have same : Requires (required directives (Text.sorted (knownNames directives)))
      (Text.sorted (knownNames directives)) = Follows directives := by
    funext later earlier
    exact propext requires_required_iff
  rw [same]

/-- A name stands where the first name that leads to it is visited. -/
theorem standsBefore_of_isFirst
    (distinct : ((knownNames directives).map Text.codes).Nodup)
    (resolved : resolve directives = .ok order)
    {first second upper lower : String} (upperMember : upper ∈ order) (lowerMember : lower ∈ order)
    (isFirst : IsFirst directives first upper) (isSecond : IsFirst directives second lower)
    (less : Text.precedes first second = true) :
    StandsBefore order upper lower := by
  have namesDistinct : (knownNames directives).Nodup := distinct.of_map
  have isOrder := isOrder_of_resolve namesDistinct resolved
  have strict := Text.pairwise_precedes_sorted (List.pairwise_map.1 distinct)
  have secondKnown : second ∈ Text.sorted (knownNames directives) := Text.mem_sorted.2
    (mem_knownNames_of_leads isSecond.leads ((isOrder.complete lower).1 lowerMember))
  have firstKnown : first ∈ Text.sorted (knownNames directives) := Text.mem_sorted.2
    (mem_knownNames_of_leads isFirst.leads ((isOrder.complete upper).1 upperMember))
  obtain ⟨early, late, split⟩ := List.append_of_mem secondKnown
  have run : visit (required directives (Text.sorted (knownNames directives)))
      (Text.sorted (knownNames directives)) [] [] (early ++ second :: late) = .ok order :=
    split ▸ resolved
  have areKnown : early ++ second :: late ⊆ Text.sorted (knownNames directives) :=
    split ▸ List.Subset.refl _
  rw [split] at strict
  obtain ⟨_, fromSecond, precede⟩ := List.pairwise_append.1 strict
  have firstEarly : first ∈ early := by
    rw [split] at firstKnown
    rcases List.mem_append.1 firstKnown with isEarly | isLater
    · exact isEarly
    · rcases List.mem_cons.1 isLater with rfl | isLate
      · simp [Text.precedes_self] at less
      · have greater := List.rel_of_pairwise_cons fromSecond isLate
        simp [Text.precedes_asymm greater] at less
  refine standsBefore_of_visit ((List.mergeSort_perm ..).nodup_iff.2 namesDistinct)
    (fun _ _ => List.filter_subset_self _) areKnown run
    ⟨first, firstEarly, leads_iff.2 isFirst.leads⟩ (fun root isEarly leads => ?_) lowerMember
  have before := precede root isEarly second (List.mem_cons_self ..)
  simp [isSecond.least root (leads_iff.1 leads)] at before

/-- Directives that ask for the same order of the same names are resolved alike: to the same order
or the same cycle.  In an order each name has one first name that leads to it, and these first names
decide what the directives leave open. -/
theorem resolve_of_askAlike
    {left right : List Directive}
    (leftDistinct : ((knownNames left).map Text.codes).Nodup)
    (rightDistinct : ((knownNames right).map Text.codes).Nodup) (alike : AskAlike left right) :
    resolve left = resolve right ∧ ∀ order, resolve left = .ok order →
      (∀ name ∈ order, ∃! first, IsFirst left first name) ∧
      ∀ upper ∈ order, ∀ lower ∈ order, ∀ first second,
        IsFirst left first upper → IsFirst left second lower →
          Text.precedes first second = true → StandsBefore order upper lower := by
  refine ⟨resolve_eq_of_askAlike leftDistinct rightDistinct.of_map alike, fun order resolved => ?_⟩
  have isOrder := isOrder_of_resolve leftDistinct.of_map resolved
  constructor
  · intro name member
    exact existsUnique_isFirst leftDistinct ((isOrder.complete name).1 member)
  · intro upper upperMember lower lowerMember first second isFirst isSecond less
    exact standsBefore_of_isFirst leftDistinct resolved upperMember lowerMember isFirst isSecond
      less

/-- One section asks to precede another one, and a third one asks for nothing. -/
def askingBefore : List Directive :=
  [⟨"c", ["a"], []⟩, ⟨"b", [], []⟩, ⟨"a", [], []⟩]

/-- The same order, asked for by the section that comes later. -/
def askingAfter : List Directive :=
  [⟨"a", [], ["c", "z", "c"]⟩, ⟨"b", [], []⟩, ⟨"c", [], []⟩]

theorem resolve_askingBefore :
    ((knownNames askingBefore).map Text.codes).Nodup ∧
      ((knownNames askingAfter).map Text.codes).Nodup ∧ AskAlike askingBefore askingAfter ∧
      resolve askingAfter = .ok ["c", "a", "b"] ∧ IsFirst askingBefore "a" "c" ∧
      IsFirst askingBefore "b" "b" ∧ StandsBefore ["c", "a", "b"] "c" "b" := by
  have beforeDistinct : ((knownNames askingBefore).map Text.codes).Nodup := by decide
  have afterDistinct : ((knownNames askingAfter).map Text.codes).Nodup := by decide
  have follows_before (later earlier : String) :
      Follows askingBefore later earlier ↔ later = "a" ∧ earlier = "c" := by
    constructor
    · rintro ⟨-, -, asked⟩
      obtain ⟨rfl, rfl⟩ : "c" = earlier ∧ later = "a" := by simpa [askingBefore] using asked
      exact ⟨rfl, rfl⟩
    · rintro ⟨rfl, rfl⟩
      simp [Follows, knownNames, askingBefore]
  have follows_after (later earlier : String) :
      Follows askingAfter later earlier ↔ later = "a" ∧ earlier = "c" := by
    constructor
    · rintro ⟨-, isKnown, asked⟩
      obtain ⟨rfl, isListed⟩ : "a" = later ∧ earlier ∈ ["c", "z", "c"] := by
        simpa [askingAfter] using asked
      have notZ : earlier ≠ "z" := by
        rintro rfl
        simp [knownNames, askingAfter] at isKnown
      exact ⟨rfl, by simpa [notZ] using isListed⟩
    · rintro ⟨rfl, rfl⟩
      simp [Follows, knownNames, askingAfter]
  have alike : AskAlike askingBefore askingAfter := by
    constructor
    · intro name
      have perm : (knownNames askingBefore).Perm (knownNames askingAfter) := by decide
      exact perm.mem_iff
    · intro later earlier
      rw [follows_before, follows_after]
  have names : Text.sorted (askingBefore.map (·.name)) = ["a", "b", "c"] :=
    Text.sorted_eq (by decide) (by decide)
  have forA : required askingBefore ["a", "b", "c"] "a" = ["c"] := by decide
  have forB : required askingBefore ["a", "b", "c"] "b" = [] := by decide
  have forC : required askingBefore ["a", "b", "c"] "c" = [] := by decide
  have run : resolve askingBefore = .ok ["c", "a", "b"] := by
    simp [resolve, names, visit, forA, forC, forB]
  have firstOfC : IsFirst askingBefore "a" "c" := by
    refine ⟨.single ((follows_before _ _).2 ⟨rfl, rfl⟩), fun other leads => ?_⟩
    rcases leads.cases_tail with same | ⟨middle, toMiddle, follows⟩
    · subst same
      decide
    · obtain ⟨rfl, -⟩ := (follows_before _ _).1 follows
      rcases toMiddle.cases_tail with same | ⟨last, -, further⟩
      · subst same
        decide
      · simp [follows_before] at further
  have firstOfB : IsFirst askingBefore "b" "b" := by
    refine ⟨.refl, fun other leads => ?_⟩
    rcases leads.cases_tail with same | ⟨last, -, follows⟩
    · subst same
      decide
    · simp [follows_before] at follows
  obtain ⟨same, places⟩ := resolve_of_askAlike beforeDistinct afterDistinct alike
  exact ⟨beforeDistinct, afterDistinct, alike, same ▸ run, firstOfC, firstOfB,
    (places _ run).2 "c" (by decide) "b" (by decide) "a" "b" firstOfC firstOfB (by decide)⟩

end FirewallPolicy.Order
