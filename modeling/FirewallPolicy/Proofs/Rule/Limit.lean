import FirewallPolicy.Proofs.Rule.Attachment

/-!
# The limits of a rule

The matches of a limit only match.  Attaching a limit builds the body of the limit chain in one of
three ways, and the chain belongs to the rule.
-/

namespace FirewallPolicy

open Context Run Stateful

/-! ## Matches of limits -/

namespace Limit

open Fragment

theorem isMatch_recentFragment
    {limit : Limit} {family name : String} {recent : Fragment}
    (read : limit.recentFragment family name = .ok (some recent)) :
    recent.IsMatch [] := by
  unfold recentFragment at read
  obtain ⟨mask, _, read⟩ := except_bind_eq_ok.1 read
  split at read
  · simp [pure, Except.pure] at read
  · split at read
    · obtain rfl := Option.some.inj (Except.ok.inj read)
      exact (isMatch_matching _).withFamily _
    · simp [throw, throwThe, MonadExceptOf.throw] at read

theorem isMatch_restricted
    {recent restriction : Fragment}
    (isRecent : recent.IsMatch []) (isRestriction : restriction.IsMatch []) :
    ∀ fragment ∈ combine [some [recent], some [restriction]], fragment.IsMatch [] := by
  refine Rule.areMatches_restricted (areMatches_some ?_) isRestriction
  intro fragment member
  rwa [List.mem_singleton.1 member]

theorem isMatch_recordFragment
    {recent : Fragment} (isRecent : recent.IsMatch []) :
    ∀ fragment ∈ recordFragment recent, fragment.IsMatch [] :=
  isMatch_restricted isRecent (isMatch_matching _)

theorem isMatch_checkFragment
    {limit : Limit} {recent : Fragment} {count interval : Amount}
    (isRecent : recent.IsMatch []) :
    ∀ fragment ∈ limit.checkFragment recent count interval, fragment.IsMatch [] :=
  isMatch_restricted isRecent (isMatch_matching _)

/-- A list is used for all families or for none, and only with amounts that have texts. -/
theorem recentPairs_cons_eq_ok
    {limit : Limit} {name family : String} {hits seconds : Amount} {families : List String}
    {checks records : List Fragment}
    (read : limit.recentPairs name hits seconds (family :: families) =
      .ok (some (checks, records))) :
    ∃ recent otherChecks otherRecords, limit.recentFragment family name = .ok (some recent) ∧
      requireText hits = .ok () ∧ requireText seconds = .ok () ∧
      limit.recentPairs name hits seconds families = .ok (some (otherChecks, otherRecords)) ∧
      checks = limit.checkFragment recent hits seconds ++ otherChecks ∧
      records = (if limit.updates then recordFragment recent else [Fragment.ofFamily family]) ++
        otherRecords := by
  unfold recentPairs at read
  obtain ⟨recent, recentRead, read⟩ := except_bind_eq_ok.1 read
  cases recent with
  | none => cases read
  | some recent =>
      simp only [except_bind_eq_ok] at read
      obtain ⟨_, hitsText, _, secondsText, others, othersRead, read⟩ := read
      cases others with
      | none => cases read
      | some others =>
          obtain ⟨otherChecks, otherRecords⟩ := others
          obtain ⟨isChecks, isRecords⟩ := Prod.mk.inj (Option.some.inj (Except.ok.inj read))
          exact ⟨recent, otherChecks, otherRecords, recentRead, hitsText, secondsText, othersRead,
            isChecks.symm, isRecords.symm⟩

theorem recentFragments_eq_ok
    {limit : Limit} {settings : Settings} {name : String} {checks records : List Fragment}
    (read : limit.recentFragments settings name = .ok (some (checks, records))) :
    ∃ maxCount hits seconds, settings.recentMaxCount = some maxCount ∧
      limit.recentAmounts maxCount = .ok (some (hits, seconds)) ∧
      limit.recentPairs (limit.recentName name) hits seconds settings.families =
        .ok (some (checks, records)) := by
  unfold recentFragments at read
  cases isMax : settings.recentMaxCount with
  | none =>
      rw [isMax] at read
      cases read
  | some maxCount =>
      rw [isMax] at read
      obtain ⟨amounts, amountsRead, read⟩ := except_bind_eq_ok.1 read
      cases amounts with
      | none => cases read
      | some amounts => exact ⟨maxCount, amounts.1, amounts.2, rfl, amountsRead, read⟩

theorem isMatch_recentPairs
    {limit : Limit} {name : String} {count interval : Amount} {families : List String}
    {checks records : List Fragment}
    (read : limit.recentPairs name count interval families = .ok (some (checks, records))) :
    ∀ fragment ∈ checks ++ records, fragment.IsMatch [] := by
  induction families generalizing checks records with
  | nil =>
      obtain ⟨rfl, rfl⟩ : [] = checks ∧ [] = records := by simpa [recentPairs] using read
      exact fun fragment none => absurd none List.not_mem_nil
  | cons family rest inductionHypothesis =>
      obtain ⟨recent, otherChecks, otherRecords, recentRead, _, _, othersRead, rfl, rfl⟩ :=
        recentPairs_cons_eq_ok read
      have isRecent := isMatch_recentFragment recentRead
      have isOther := inductionHypothesis othersRead
      intro fragment member
      simp only [List.mem_append] at member isOther
      rcases member with (isCheck | isCheck) | (isRecord | isRecord)
      · exact isMatch_checkFragment isRecent fragment isCheck
      · exact isOther fragment (Or.inl isCheck)
      · split at isRecord
        · exact isMatch_recordFragment isRecent fragment isRecord
        · rw [List.mem_singleton.1 isRecord]
          exact isMatch_ofFamily family
      · exact isOther fragment (Or.inr isRecord)

theorem isMatch_recentFragments
    {limit : Limit} {settings : Settings} {name : String} {checks records : List Fragment}
    (read : limit.recentFragments settings name = .ok (some (checks, records))) :
    ∀ fragment ∈ checks ++ records, fragment.IsMatch [] := by
  obtain ⟨_, _, _, _, _, pairsRead⟩ := recentFragments_eq_ok read
  exact isMatch_recentPairs pairsRead

theorem isMatch_hashFragments
    {limit : Limit} {families : List String} {name : String} {above : Bool}
    {found : List Fragment}
    (read : limit.hashFragments families name above = .ok found) :
    ∀ fragment ∈ found, fragment.IsMatch [] := by
  intro fragment member
  obtain ⟨family, _, fragmentRead⟩ := exists_of_mem_mapM read member
  simp only [hashFragment, except_bind_eq_ok] at fragmentRead
  obtain ⟨_, _, _, _, _, _, made⟩ := fragmentRead
  obtain rfl := Except.ok.inj made
  exact (isMatch_matching _).withFamily _

theorem isMatch_recordFragments
    {limit : Limit} {name : String} {families : List String} {found : List Fragment}
    (read : limit.recordFragments name families = .ok found) :
    ∀ fragment ∈ found, fragment.IsMatch [] := by
  induction families generalizing found with
  | nil =>
      obtain rfl : [] = found := by simpa [recordFragments] using read
      exact fun fragment none => absurd none List.not_mem_nil
  | cons family rest inductionHypothesis =>
      unfold recordFragments at read
      obtain ⟨recent, recentRead, read⟩ := except_bind_eq_ok.1 read
      cases recent with
      | none => simp [throw, throwThe, MonadExceptOf.throw] at read
      | some recent =>
          obtain ⟨others, othersRead, made⟩ := except_bind_eq_ok.1 read
          obtain rfl := Except.ok.inj made
          intro fragment member
          rcases List.mem_append.1 member with isRecord | isOther
          · exact isMatch_recordFragment (isMatch_recentFragment recentRead) fragment isRecord
          · exact inductionHypothesis othersRead fragment isOther

end Limit

namespace Rule

/-! ## Attaching a limit -/

/-- The ways in which the body of a limit chain is built. -/
inductive LimitBody (rule : Rule) (limit : Limit) (chain : String) (log : Option LogClass)
    (connection : Bool) (target : Option String) (before : Context) :
    List Fragment → Context → Prop
  | recent {checks records body : List Fragment} {after : Context} :
      limit.recentFragments before.settings chain = .ok (some (checks, records)) →
      rule.recentChain checks records log connection target before = (.ok body, after) →
      LimitBody rule limit chain log connection target before body after
  | passing {body : List Fragment} {after : Context} :
      limit.recentFragments before.settings chain = .ok none →
      target = none →
      rule.passingChain limit chain log before = (.ok body, after) →
      LimitBody rule limit chain log connection target before body after
  | counting {goal : String} {body : List Fragment} {after : Context} :
      limit.recentFragments before.settings chain = .ok none →
      target = some goal →
      rule.countingChain limit chain log connection before = (.ok body, after) →
      LimitBody rule limit chain log connection target before body after

/-- Attaching a limit, step by step. -/
theorem attachLimit_eq_ok
    {rule : Rule} {matched attached : List Fragment} {name : String} {before after : Context}
    (run : rule.attachLimit matched name before = (.ok attached, after)) :
    ∃ chain mapping limit target body named declared filled,
      (rule.action = "accept" ∨ rule.action = "pass") ∧
      Run.chainNameOf rule.serial "limit" before = (.ok chain, named) ∧
      (rule.attributes.get name).entries? = some mapping ∧
      Limit.declare .filterLimit (rule.location ++ " limit") (.raw (.map mapping)) named =
        (.ok limit, declared) ∧
      rule.target = .ok target ∧
      LimitBody rule limit chain (limitLog? mapping) (decide (name = "conn-limit")) target
        declared body filled ∧
      rule.attach matched body "limit" none true filled = (.ok attached, after) := by
  unfold attachLimit at run
  dsimp only at run
  split at run
  · simp only [bind_eq_ok, report_eq_ok] at run
    simp at run
  · next actions =>
      have accepts : rule.action = "accept" ∨ rule.action = "pass" := by
        simpa [or_iff_not_imp_left] using actions
      obtain ⟨chain, named, names, run⟩ := bind_eq_ok.1 run
      cases isMapping : (rule.attributes.get name).entries? with
      | none =>
          simp only [isMapping, bind_eq_ok, unusable_eq_ok] at run
          simp at run
      | some mapping =>
          simp only [isMapping, bind_eq_ok, pure_eq_ok, recording_eq_ok, get_eq_ok] at run
          obtain ⟨_, _, ⟨rfl, rfl⟩, limit, declared, declares, target, _, ⟨read, rfl⟩,
            _, _, ⟨rfl, rfl⟩, recent, _, ⟨recentRead, rfl⟩, run⟩ := run
          cases recent with
          | some pair =>
              obtain ⟨checks, records⟩ := pair
              obtain ⟨body, filled, builds, attaches⟩ := bind_eq_ok.1 run
              exact ⟨chain, mapping, limit, target, body, named, declared, filled, accepts, names,
                rfl, declares, read, LimitBody.recent recentRead builds, attaches⟩
          | none =>
              cases target with
              | none =>
                  obtain ⟨body, filled, builds, attaches⟩ := bind_eq_ok.1 run
                  exact ⟨chain, mapping, limit, none, body, named, declared, filled, accepts,
                    names, rfl, declares, read, LimitBody.passing recentRead rfl builds, attaches⟩
              | some goal =>
                  obtain ⟨body, filled, builds, attaches⟩ := bind_eq_ok.1 run
                  exact ⟨chain, mapping, limit, some goal, body, named, declared, filled, accepts,
                    names, rfl, declares, read, LimitBody.counting recentRead rfl builds, attaches⟩

end Rule

end FirewallPolicy
