import FirewallPolicy.Proofs.Limit.Rate
import FirewallPolicy.Proofs.Rule.LimitMatches

/-!
# What a list of recent events is asked for

A list of recent events is checked for a number of hits in a number of seconds.  These are the
amounts of the limit themselves, unless the list cannot hold that many hits: then they are the
events of one second, rounded up.  The checked rate is never below that of the limit, and it is
above by less than one event.
-/

namespace FirewallPolicy

open Stateful Run

namespace Limit

/-! ## The check -/

/-- The text that checks for an amount of hits in an amount of seconds. -/
def checkText (limit : Limit) (hits seconds : Amount) : String :=
  (if limit.updates then "--update" else "--rcheck") ++ " --hitcount " ++ hits.written ++
    " --seconds " ++ seconds.written

theorem exists_checkFragment
    {limit : Limit} {name family : String} {recent : Fragment} (hits seconds : Amount)
    (read : limit.recentFragment family name = .ok (some recent)) :
    ∃ check, limit.checkFragment recent hits seconds = [check] ∧ check.family = some family ∧
      check.tokens.getLast? = some (limit.checkText hits seconds) := by
  obtain ⟨tokens, rfl, _⟩ := recentFragment_eq_ok read
  have nonempty : (limit.checkText hits seconds).isEmpty = false := by
    rw [checkText, String.append_assoc, String.append_assoc]
    split <;> simp
  have one : (Fragment.matching [limit.checkText hits seconds]).tokens =
      [limit.checkText hits seconds] := by
    simp [Fragment.matching, nonempty]
  refine ⟨{ tokens := tokens ++ [limit.checkText hits seconds], family := some family }, ?_, rfl,
    by simp⟩
  unfold checkFragment
  extract_lets check
  have token : check ++ " --hitcount " ++ hits.written ++ " --seconds " ++ seconds.written =
      limit.checkText hits seconds := rfl
  rw [combine_matching, token, one]

/-- The amounts that a list is asked for have texts where there is a check at all. -/
theorem checks_of_recentPairs
    {limit : Limit} {name : String} {families : List String} {hits seconds : Amount}
    {checks records : List Fragment}
    (read : limit.recentPairs name hits seconds families = .ok (some (checks, records))) :
    checks.map (·.family) = families.map some ∧
      ∀ check ∈ checks, requireText hits = .ok () ∧ requireText seconds = .ok () ∧
        check.tokens.getLast? = some (limit.checkText hits seconds) := by
  induction families generalizing checks records with
  | nil =>
      obtain ⟨rfl, -⟩ : [] = checks ∧ [] = records := by simpa [recentPairs] using read
      exact ⟨rfl, fun check member => absurd member List.not_mem_nil⟩
  | cons family rest inductionHypothesis =>
      obtain ⟨recent, otherChecks, otherRecords, recentRead, hitsText, secondsText, othersRead, rfl,
        rfl⟩ := recentPairs_cons_eq_ok read
      obtain ⟨check, isCheck, isFamily, token⟩ := exists_checkFragment hits seconds recentRead
      obtain ⟨laterFamilies, laterTokens⟩ := inductionHypothesis othersRead
      rw [isCheck]
      exact ⟨congrArg₂ List.cons isFamily laterFamilies,
        List.forall_mem_cons.2 ⟨⟨hitsText, secondsText, token⟩, laterTokens⟩⟩

/-- The text that checks for a number of hits in a number of seconds. -/
def checkToken (limit : Limit) (hits seconds : Int) : String :=
  (if limit.updates then "--update" else "--rcheck") ++ " --hitcount " ++ toString hits ++
    " --seconds " ++ toString seconds

/-- In each of the families there is one check, which asks for the hits in the seconds. -/
structure ChecksFor (limit : Limit) (families : List String) (hits seconds : Int)
    (checks : List Fragment) : Prop where
  families : checks.map (·.family) = families.map some
  tokens : ∀ check ∈ checks, check.tokens.getLast? = some (limit.checkToken hits seconds)

theorem isWritten_of_requireText
    {i : Int} (isText : requireText (.int i) = .ok ()) : isWritten i = true := by
  unfold requireText at isText
  split at isText
  · next written => exact written
  · cases isText

theorem written_of_requireText
    {i : Int} (isText : requireText (.int i) = .ok ()) :
    (Amount.int i).written = toString i :=
  if_pos (isWritten_of_requireText isText)

theorem checksFor_of_recentPairs
    {limit : Limit} {name : String} {families : List String} {hits seconds : Int}
    {checks records : List Fragment}
    (read : limit.recentPairs name (.int hits) (.int seconds) families =
      .ok (some (checks, records))) :
    limit.ChecksFor families hits seconds checks := by
  obtain ⟨inFamilies, tokens⟩ := checks_of_recentPairs read
  refine ⟨inFamilies, fun check member => ?_⟩
  obtain ⟨hitsText, secondsText, token⟩ := tokens check member
  rw [token, checkText, written_of_requireText hitsText, written_of_requireText secondsText]
  rfl

/-! ## The rounded rate -/

theorem ceil_div_bounds (count : Int) {interval : Int} (positive : 0 < interval) :
    count ≤ ((count : Rat) / interval).ceil * interval ∧
      ((count : Rat) / interval).ceil * interval < count + interval := by
  have above : (0 : Rat) < interval := by exact_mod_cast positive
  have atLeast : (count : Rat) / interval ≤ ((count : Rat) / interval).ceil := Rat.le_ceil
  have below : (((count : Rat) / interval).ceil : Rat) < (count : Rat) / interval + 1 := Rat.ceil_lt
  constructor
  · rw [div_le_iff₀ above] at atLeast
    exact_mod_cast atLeast
  · have less : (((count : Rat) / interval).ceil : Rat) * interval < count + interval := by
      calc (((count : Rat) / interval).ceil : Rat) * interval
          < ((count : Rat) / interval + 1) * interval := mul_lt_mul_of_pos_right below above
        _ = count + interval := by field_simp
    exact_mod_cast less

/-- Rounding up is without effect exactly where the interval divides the count. -/
theorem ceil_div_le_iff {count interval : Int} (positive : 0 < interval) :
    ((count : Rat) / interval).ceil * interval ≤ count ↔ interval ∣ count := by
  constructor
  · intro within
    have same := le_antisymm within (ceil_div_bounds count positive).1
    exact ⟨_, same.symm.trans (mul_comm _ interval)⟩
  · rintro ⟨events, rfl⟩
    have whole : ((interval * events : Int) : Rat) / interval = events := by
      push_cast
      field_simp
    rw [whole, Rat.ceil_intCast, mul_comm]

/-- The checked rate against that of a limit: it is never below, it is above by less than one
event, and it is above exactly where an event list that cannot hold the count is asked for a rate
that is no whole number. -/
structure ChecksRate (count interval : Int) (fits : Prop) (hits seconds : Int) : Prop where
  atLeast : count * seconds ≤ hits * interval
  below : hits * interval < count * seconds + interval
  within : hits * interval ≤ count * seconds ↔ fits ∨ interval ∣ count

/-- The list can hold as many hits as the limit allows events. -/
def FitsList (limit : Limit) (settings : Settings) : Prop :=
  ∀ maxCount, settings.recentMaxCount = some maxCount → limit.count.exceeds maxCount = false

/-- What a list is asked for: the amounts of the limit, or where the list cannot hold the count, the
events of one second, rounded up. -/
theorem recentAmounts_eq_ok
    {limit : Limit} {maxCount hits seconds : Amount}
    (read : limit.recentAmounts maxCount = .ok (some (hits, seconds))) :
    hits.exceeds maxCount = false ∧
      ((limit.count.exceeds maxCount = false ∧ hits = limit.count ∧ seconds = limit.interval) ∨
        (limit.count.exceeds maxCount = true ∧ seconds = .int 1 ∧
          ∃ rate, limit.rate = .ok rate ∧ hits = .int rate.ceil)) := by
  unfold recentAmounts at read
  by_cases exceeds : limit.count.exceeds maxCount = true
  · rw [if_pos exceeds] at read
    obtain ⟨whole, isWhole, chosen⟩ := except_bind_eq_ok.1 read
    obtain ⟨rate, isRate, isCeil⟩ := except_bind_eq_ok.1 isWhole
    obtain rfl := Except.ok.inj isCeil
    have chosen := Except.ok.inj chosen
    split at chosen
    · cases chosen
    · next within =>
        obtain ⟨rfl, rfl⟩ := Prod.mk.inj (Option.some.inj chosen)
        exact ⟨Bool.eq_false_of_not_eq_true within, Or.inr ⟨exceeds, rfl, rate, isRate, rfl⟩⟩
  · rw [if_neg exceeds] at read
    obtain ⟨rfl, rfl⟩ := Prod.mk.inj (Option.some.inj (Except.ok.inj read))
    have within := Bool.eq_false_of_not_eq_true exceeds
    exact ⟨within, Or.inl ⟨within, rfl, rfl⟩⟩

theorem exists_recentAmounts
    {limit : Limit} {count interval : Int} (positive : limit.IsPositive)
    (isCount : limit.count = .int count) (isInterval : limit.interval = .int interval)
    {maxCount asked time : Amount}
    (read : limit.recentAmounts maxCount = .ok (some (asked, time))) :
    ∃ hits seconds, asked = .int hits ∧ time = .int seconds ∧
      ChecksRate count interval (limit.count.exceeds maxCount = false) hits seconds := by
  have intervalPositive : 0 < interval := by
    have exact := pos_of_toRat? positive.2 (congrArg Amount.toRat? isInterval)
    exact_mod_cast exact
  obtain ⟨-, ⟨within, rfl, rfl⟩ | ⟨exceeds, rfl, rate, isRate, rfl⟩⟩ := recentAmounts_eq_ok read
  · exact ⟨count, interval, isCount, isInterval, le_rfl, by omega,
      iff_of_true le_rfl (Or.inl within)⟩
  · have stated : limit.rate = .ok ((count : Rat) / interval) := by
      rw [Limit.rate, isCount, isInterval]
      rfl
    obtain rfl : (count : Rat) / interval = rate := Except.ok.inj (stated.symm.trans isRate)
    obtain ⟨atLeast, below⟩ := ceil_div_bounds count intervalPositive
    refine ⟨_, 1, rfl, rfl, by simpa using atLeast, by simpa using below, ?_⟩
    rw [mul_one, ceil_div_le_iff intervalPositive, exceeds]
    simp

/-- Where lists of recent events are used for a limit with whole amounts, every family has a check
for the same number of hits in the same number of seconds.  The checked rate is within that of the
limit exactly where the list can hold the count or the interval divides it; otherwise it is
rounded up to whole events per second. -/
theorem recentFragments_of_declare
    {kind : ObjectKind} {location : String} {source : Entry} {limit : Limit}
    {before after : Context} {count interval : Int} {settings : Settings} {name : String}
    {checks records : List Fragment}
    (declares : declare kind location source before = (.ok limit, after))
    (isCount : limit.count = .int count) (isInterval : limit.interval = .int interval)
    (read : limit.recentFragments settings name = .ok (some (checks, records))) :
    ∃ hits seconds, limit.ChecksFor settings.families hits seconds checks ∧
      ChecksRate count interval (limit.FitsList settings) hits seconds := by
  unfold recentFragments at read
  cases isMax : settings.recentMaxCount with
  | none =>
      rw [isMax] at read
      cases read
  | some maxCount =>
      rw [isMax] at read
      obtain ⟨amounts, amountsRead, read⟩ := except_bind_eq_ok.1 read
      cases amounts with
      | none => cases read
      | some amounts =>
          obtain ⟨asked, time⟩ := amounts
          obtain ⟨hits, seconds, rfl, rfl, rates⟩ := exists_recentAmounts
            (isPositive_of_declare declares) isCount isInterval amountsRead
          have fits : limit.FitsList settings ↔ limit.count.exceeds maxCount = false := by
            unfold FitsList
            rw [isMax]
            simp
          refine ⟨hits, seconds, checksFor_of_recentPairs read, ?_⟩
          rw [fits]
          exact rates

/-! ## Thirty events -/

/-- A limit of so many events in so many seconds. -/
def amountsSource (count interval : Int) : Entry :=
  .raw (.map [(.text "count", .int count), (.text "interval", .int interval)])

/-- The limit is declared with these amounts, and its events are listed under the usual bound. -/
structure IsListed (count interval : Int) (limit : Limit) (after : Context)
    (checks records : List Fragment) : Prop where
  declares : declare .filterLimit "limit" (amountsSource count interval) {} = (.ok limit, after)
  count : limit.count = .int count
  interval : limit.interval = .int interval
  read : limit.recentFragments {} "limit-0" = .ok (some (checks, records))

theorem exists_isListed
    (count interval hits seconds : Int)
    (run : ∃ limit ∈ (declare .filterLimit "limit" (amountsSource count interval) {}).1.toOption,
      limit.count = .int count ∧ limit.interval = .int interval ∧
        ∃ pair ∈ (limit.recentFragments {} "limit-0").toOption, ∃ found ∈ pair,
          found.1.map (·.family) = [some "inet", some "inet6"] ∧
            ∀ check ∈ found.1, check.tokens.getLast? = some (limit.checkToken hits seconds)) :
    ∃ limit after checks records, IsListed count interval limit after checks records ∧
      limit.ChecksFor ["inet", "inet6"] hits seconds checks := by
  obtain ⟨limit, declares, isCount, isInterval, _, read, ⟨checks, records⟩, rfl, families,
    tokens⟩ := run
  exact ⟨limit, _, checks, records,
    ⟨eq_of_mem_toOption declares, isCount, isInterval, eq_ok_of_mem_toOption read⟩,
    families, tokens⟩

/-- Thirty events in six seconds are too many for the list, so it is asked for five in a second. -/
theorem recentFragments_thirty_in_six :
    ∃ limit after checks records, IsListed 30 6 limit after checks records ∧
      limit.ChecksFor ["inet", "inet6"] 5 1 checks ∧
      ∃ hits seconds, limit.ChecksFor ["inet", "inet6"] hits seconds checks ∧
        ChecksRate 30 6 (limit.FitsList {}) hits seconds := by
  obtain ⟨limit, after, checks, records, listed, asked⟩ :=
    exists_isListed 30 6 5 1 (by decide +kernel)
  exact ⟨limit, after, checks, records, listed, asked,
    recentFragments_of_declare listed.declares listed.count listed.interval listed.read⟩

/-- Thirty events in seven seconds are too many as well, and five in a second are more. -/
theorem above_rate_thirty_in_seven :
    ∃ limit after checks records, IsListed 30 7 limit after checks records ∧
      ∃ hits seconds, limit.ChecksFor ["inet", "inet6"] hits seconds checks ∧
        ¬ hits * 7 ≤ 30 * seconds := by
  obtain ⟨limit, after, checks, records, listed, asked⟩ :=
    exists_isListed 30 7 5 1 (by decide +kernel)
  exact ⟨limit, after, checks, records, listed, 5, 1, asked, by decide⟩

end Limit

end FirewallPolicy
