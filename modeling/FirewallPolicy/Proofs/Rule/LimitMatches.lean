import FirewallPolicy.Proofs.Fragment.Options
import FirewallPolicy.Proofs.Rule.Verdict

/-!
# What the matches of limits tell

In every enabled family a limit has matches that hold for traffic above the limit, or for traffic
within it, or that record any traffic, whichever way the limit is matched.
-/

namespace FirewallPolicy

open Context Run Stateful

/-! ## Marks -/

/-- Do the marks differ from the start of a text? -/
def differ (marks : List String) (start : String) : Bool :=
  marks.all fun mark => (mark.toList.zip start.toList).any fun pair => pair.1 != pair.2

theorem isMarked_append_eq_false
    {marks : List String} {start : String} (rest : String) (differs : differ marks start = true) :
    isMarked marks (start ++ rest) = false := by
  refine List.any_eq_false.2 fun mark isMark => ?_
  rw [String.toList_append, isPrefixOf_append_eq_false rest.toList
    (List.all_eq_true.1 differs mark isMark)]
  exact Bool.false_ne_true

theorem isMarked_append
    {marks : List String} {mark : String} (isMark : mark ∈ marks) (rest : String) :
    isMarked marks (mark ++ rest) = true := by
  refine List.any_eq_true.2 ⟨mark, isMark, ?_⟩
  rw [String.toList_append]
  exact List.isPrefixOf_iff_prefix.2 (List.prefix_append _ _)

/-! ## Tokens -/

namespace Traffic

variable {traffic : Traffic} {tokens : List String}

theorem satisfies_of_above
    (above : ∃ token ∈ tokens, isMarked aboveMarks token = true) :
    traffic.satisfies tokens = traffic.exceeds := by
  unfold satisfies
  rw [if_pos (List.any_eq_true.2 above)]

theorem satisfies_of_within
    (notAbove : ∀ token ∈ tokens, isMarked aboveMarks token = false)
    (within : ∃ token ∈ tokens, isMarked withinMarks token = true) :
    traffic.satisfies tokens = !traffic.exceeds := by
  unfold satisfies
  rw [if_neg (by simpa using notAbove), if_pos (List.any_eq_true.2 within)]

theorem satisfies_of_set
    (notAbove : ∀ token ∈ tokens, isMarked aboveMarks token = false)
    (notWithin : ∀ token ∈ tokens, isMarked withinMarks token = false)
    (records : "--set" ∈ tokens) :
    traffic.satisfies tokens = true := by
  unfold satisfies
  rw [if_neg (by simpa using notAbove), if_neg (by simpa using notWithin)]
  simp [records]

@[simp] theorem satisfies_nil : traffic.satisfies [] = true := rfl

end Traffic

/-! ## Matches -/

/-- Matches of each of the families that hold for traffic by whether it exceeds the limit. -/
structure Tells (families : List String) (answer : Bool → Bool) (found : List Fragment) : Prop where
  isMatch : ∀ fragment ∈ found, fragment.IsMatch []
  tells : ∀ fragment ∈ found, ∀ traffic : Traffic,
    traffic.satisfies fragment.tokens = answer traffic.exceeds
  covers : ∀ family ∈ families, ∃ fragment ∈ found, fragment.family = some family

theorem Fragment.IsMatch.chain_eq_none
    {fragment : Fragment} (isMatch : fragment.IsMatch []) :
    fragment.chain = none := by
  refine Option.eq_none_iff_forall_ne_some.2 fun chain stands => ?_
  exact absurd (isMatch.chain chain stands) List.not_mem_nil

theorem tells_nil {answer : Bool → Bool} : Tells [] answer [] :=
  ⟨by simp, by simp, by simp⟩

theorem Tells.append
    {families : List String} {answer : Bool → Bool} {family : String}
    {first rest : List Fragment} (tells : Tells [family] answer first)
    (others : Tells families answer rest) :
    Tells (family :: families) answer (first ++ rest) where
  isMatch fragment member :=
    (List.mem_append.1 member).elim (tells.isMatch fragment) (others.isMatch fragment)
  tells fragment member :=
    (List.mem_append.1 member).elim (tells.tells fragment) (others.tells fragment)
  covers other member := by
    rcases List.mem_cons.1 member with rfl | later
    · obtain ⟨fragment, isFirst, isFamily⟩ := tells.covers other (by simp)
      exact ⟨fragment, List.mem_append_left _ isFirst, isFamily⟩
    · obtain ⟨fragment, isRest, isFamily⟩ := others.covers other later
      exact ⟨fragment, List.mem_append_right _ isRest, isFamily⟩

namespace Limit

variable {limit : Limit} {name : String}

/-! ### Lists of recent events -/

/-- A list of recent events is matched by tokens without marks. -/
theorem recentFragment_eq_ok
    {family : String} {recent : Fragment}
    (read : limit.recentFragment family name = .ok (some recent)) :
    ∃ tokens, recent = { tokens, family := some family } ∧
      ∀ token ∈ tokens, isMarked aboveMarks token = false ∧ isMarked withinMarks token = false := by
  unfold recentFragment at read
  obtain ⟨mask, _, read⟩ := except_bind_eq_ok.1 read
  split at read
  · simp [pure, Except.pure] at read
  · split at read
    · next option length isSide _ =>
        obtain rfl := Option.some.inj (Except.ok.inj read)
        refine ⟨_, rfl, fun token member => ?_⟩
        have listed := (List.mem_filter.1 member).1
        simp only [List.mem_cons, List.not_mem_nil, or_false] at listed
        rcases listed with rfl | rfl | rfl | rfl
        · decide
        · exact ⟨isMarked_append_eq_false name (by decide), isMarked_append_eq_false name (by decide)⟩
        · unfold recentSide? at isSide
          split at isSide
          · obtain rfl := Option.some.inj isSide
            decide
          · obtain rfl := Option.some.inj isSide
            decide
          · cases isSide
        · exact ⟨isMarked_append_eq_false _ (by decide), isMarked_append_eq_false _ (by decide)⟩
    · simp [throw, throwThe, MonadExceptOf.throw] at read

theorem combine_matching
    (tokens more : List String) (family : String) :
    Fragment.combine [some [{ tokens, family := some family }],
        some [Fragment.matching more]] =
      [{ tokens := tokens ++ (Fragment.matching more).tokens, family := some family }] := rfl

theorem tells_singleton
    {answer : Bool → Bool} {tokens : List String} {family : String}
    (answers : ∀ traffic : Traffic, traffic.satisfies tokens = answer traffic.exceeds) :
    Tells [family] answer [{ tokens, family := some family }] where
  isMatch fragment member := by
    obtain rfl := List.mem_singleton.1 member
    exact ⟨rfl, rfl, rfl, rfl, by simp⟩
  tells fragment member := by
    obtain rfl := List.mem_singleton.1 member
    exact answers
  covers other member := ⟨_, List.mem_singleton_self _, by rw [List.mem_singleton.1 member]⟩

theorem tells_checkFragment
    {family : String} {recent : Fragment} {count interval : Amount}
    (read : limit.recentFragment family name = .ok (some recent)) :
    Tells [family] id (limit.checkFragment recent count interval) := by
  obtain ⟨tokens, rfl, _⟩ := recentFragment_eq_ok read
  unfold checkFragment
  extract_lets check
  rw [combine_matching]
  refine tells_singleton fun traffic => Traffic.satisfies_of_above ?_
  have marked : isMarked aboveMarks (check ++ " --hitcount " ++ count.written ++ " --seconds " ++
      interval.written) = true := by
    rw [String.append_assoc, String.append_assoc]
    refine isMarked_append ?_ _
    unfold check
    split <;> decide
  refine ⟨_, List.mem_append_right _ (List.mem_filter.2 ⟨List.mem_singleton_self _, ?_⟩), marked⟩
  simp

theorem tells_recordFragment
    {family : String} {recent : Fragment}
    (read : limit.recentFragment family name = .ok (some recent)) :
    Tells [family] (fun _ => true) (recordFragment recent) := by
  obtain ⟨tokens, rfl, plain⟩ := recentFragment_eq_ok read
  unfold recordFragment
  rw [combine_matching]
  -- With no mark at all, the token that records decides.
  have setPlain : isMarked aboveMarks "--set" = false ∧ isMarked withinMarks "--set" = false := by
    decide
  have allPlain : ∀ token ∈ tokens ++ (Fragment.matching ["--set"]).tokens,
      isMarked aboveMarks token = false ∧ isMarked withinMarks token = false := by
    intro token member
    rcases List.mem_append.1 member with isRecent | isSet
    · exact plain token isRecent
    · obtain rfl := List.mem_singleton.1 (List.mem_filter.1 isSet).1
      exact setPlain
  refine tells_singleton fun traffic => Traffic.satisfies_of_set
    (fun token member => (allPlain token member).1) (fun token member => (allPlain token member).2) ?_
  exact List.mem_append_right _ (by decide)

theorem tells_recentPairs
    {count interval : Amount} {families : List String} {checks records : List Fragment}
    (read : limit.recentPairs name count interval families = .ok (some (checks, records))) :
    Tells families id checks ∧ Tells families (fun _ => true) records := by
  induction families generalizing checks records with
  | nil =>
      obtain ⟨rfl, rfl⟩ : [] = checks ∧ [] = records := by simpa [recentPairs] using read
      exact ⟨tells_nil, tells_nil⟩
  | cons family rest inductionHypothesis =>
      obtain ⟨recent, otherChecks, otherRecords, recentRead, _, _, othersRead, rfl, rfl⟩ :=
        recentPairs_cons_eq_ok read
      obtain ⟨checksTell, recordsTell⟩ := inductionHypothesis othersRead
      refine ⟨(tells_checkFragment recentRead).append checksTell, Tells.append ?_ recordsTell⟩
      split
      · exact tells_recordFragment recentRead
      · exact tells_singleton fun _ => rfl

/-- Where recent events are listed, the checks hold for traffic above the limit and the records for
all traffic. -/
theorem tells_recentFragments
    {settings : Settings} {checks records : List Fragment}
    (read : limit.recentFragments settings name = .ok (some (checks, records))) :
    Tells settings.families id checks ∧ Tells settings.families (fun _ => true) records := by
  obtain ⟨_, _, _, _, _, pairsRead⟩ := recentFragments_eq_ok read
  exact tells_recentPairs pairsRead

/-! ### Counting filters -/

/-- Only the rate of a counting filter has a mark. -/
theorem plain_of_mem_groupingTokens
    {mask : Entries} {token : String} (member : token ∈ groupingTokens mask) :
    isMarked aboveMarks token = false ∧ isMarked withinMarks token = false := by
  unfold groupingTokens at member
  extract_lets lengthOf active at member
  split at member
  · simp at member
  · rcases List.mem_cons.1 member with rfl | isMask
    · exact ⟨isMarked_append_eq_false _ (by decide), isMarked_append_eq_false _ (by decide)⟩
    · obtain ⟨selector, isActive, rfl⟩ := List.mem_map.1 isMask
      have isSelector := (List.mem_filter.1 isActive).1
      have masks : ∀ selector ∈ hashSelectors,
          differ aboveMarks (selector.2.2 ++ " ") = true ∧
            differ withinMarks (selector.2.2 ++ " ") = true := by
        decide
      obtain ⟨notAbove, notWithin⟩ := masks selector isSelector
      exact ⟨isMarked_append_eq_false _ notAbove, isMarked_append_eq_false _ notWithin⟩

/-- The tokens of a counting filter, of which the second one has the rate. -/
def hashTokens (limit : Limit) (above : Bool) (rate name : String) (mask : Entries) :
    List String :=
  ["-m hashlimit", "--hashlimit-" ++ (if above then "above" else "upto") ++ " " ++ rate,
    "--hashlimit-burst " ++ limit.count.text] ++
    groupingTokens mask ++ ["--hashlimit-name " ++ name]

theorem satisfies_hashTokens
    (traffic : Traffic) (above : Bool) (rate : String) (mask : Entries) :
    traffic.satisfies (Fragment.matching (limit.hashTokens above rate name mask)).tokens =
      (traffic.exceeds == above) := by
  -- The rate has the mark; that no other token has one matters only for traffic within the limit.
  have isRate (mark : String) (isMark : "--hashlimit-" ++ (if above then "above" else "upto") ++
      " " ++ rate = mark ++ rate) (nonempty : mark ≠ "") :
      mark ++ rate ∈ (Fragment.matching (limit.hashTokens above rate name mask)).tokens := by
    rw [← isMark]
    refine List.mem_filter.2 ⟨by simp [hashTokens], ?_⟩
    simp [isMark, nonempty]
  cases above with
  | true =>
      rw [beq_true]
      exact Traffic.satisfies_of_above
        ⟨_, isRate "--hashlimit-above " rfl (by decide), isMarked_append (by decide) rate⟩
  | false =>
      rw [beq_false]
      refine Traffic.satisfies_of_within ?_
        ⟨_, isRate "--hashlimit-upto " rfl (by decide), isMarked_append (by decide) rate⟩
      intro token member
      have listed := (List.mem_filter.1 member).1
      simp only [hashTokens, List.mem_append, List.mem_cons, List.not_mem_nil, or_false] at listed
      rcases listed with ((rfl | rfl | rfl) | isGrouping) | rfl
      · decide
      · exact isMarked_append_eq_false rate (by decide)
      · exact isMarked_append_eq_false _ (by decide)
      · exact (plain_of_mem_groupingTokens isGrouping).1
      · exact isMarked_append_eq_false name (by decide)

theorem tells_hashFragment
    {above : Bool} {family : String} {fragment : Fragment}
    (read : limit.hashFragment name above family = .ok fragment) :
    Tells [family] (fun exceeds => exceeds == above) [fragment] := by
  simp only [hashFragment, except_bind_eq_ok] at read
  obtain ⟨rate, _, _, _, mask, _, made⟩ := read
  obtain rfl := Except.ok.inj made
  exact tells_singleton fun traffic => satisfies_hashTokens traffic above rate mask

/-- Where events are counted, the matches hold for traffic above the limit or within it. -/
theorem tells_hashFragments
    {above : Bool} {families : List String} {found : List Fragment}
    (read : limit.hashFragments families name above = .ok found) :
    Tells families (fun exceeds => exceeds == above) found := by
  have each := forall₂_of_mapM_eq_ok read
  clear read
  induction each with
  | nil => exact tells_nil
  | cons first _ inductionHypothesis => exact (tells_hashFragment first).append inductionHypothesis

end Limit

end FirewallPolicy
