import FirewallPolicy.Proofs.Limit.Recent

/-!
# The numbers in the options of a limit

The options that limit traffic take positive whole numbers.  A list of recent events is given the
amounts of a limit as they are written, which for a double is never with digits alone, unless the
list cannot hold the count: then the amounts are computed and whole.  A counting filter is given
every whole count with digits alone, whether or not it is a double.
-/

namespace FirewallPolicy

open Stateful Run

/-- The text is that of a positive whole number. -/
def IsCountText (text : String) : Prop :=
  ∃ number : Nat, 0 < number ∧ text = toString number

theorem IsCountText.isDigit {text : String} (isCount : IsCountText text) :
    ∀ c ∈ text.toList, c.isDigit = true := by
  obtain ⟨number, -, rfl⟩ := isCount
  intro c member
  rw [Nat.toString_eq_repr, Nat.toList_repr] at member
  exact Nat.isDigit_of_mem_toDigits (by decide) (by decide) member

/-- Whole numbers have a text where there are not too many digits. -/
theorem isCountText_wholeText_iff {i : Int} (positive : 0 < i) :
    IsCountText (wholeText i) ↔ i < 10 ^ maxWrittenDigits := by
  rw [← isWritten_iff positive.le, wholeText]
  by_cases written : isWritten i = true
  · rw [if_pos written]
    obtain ⟨number, rfl⟩ := Int.eq_ofNat_of_zero_le positive.le
    exact iff_of_true ⟨number, by exact_mod_cast positive, rfl⟩ written
  · rw [if_neg written]
    refine iff_of_false (fun isCount => ?_) written
    exact absurd (isCount.isDigit Text.mark (by simp [Text.gap])) (by decide)

/-! ## Doubles -/

namespace Double

/-- A decimal is written with a point or with an exponent. -/
theorem exists_not_isDigit_decimal (decimal : Decimal) :
    ∃ c ∈ decimal.written, c.isDigit = false := by
  unfold Decimal.written
  extract_lets digits point whole fraction
  split
  · split
    · exact ⟨'.', by simp, by decide⟩
    · split
      · exact ⟨'.', by simp, by decide⟩
      · exact ⟨'.', by simp, by decide⟩
  · exact ⟨'e', by simp, by decide⟩

theorem exists_not_isDigit_written (x : Double) : ∃ c ∈ x.written.toList, c.isDigit = false := by
  cases x with
  | finite negative significand exponent =>
      have size : ∃ c ∈ if significand = 0 then ['0', '.', '0']
          else (shortest significand exponent).written, c.isDigit = false := by
        split
        · exact ⟨'.', by simp, by decide⟩
        · exact exists_not_isDigit_decimal _
      obtain ⟨c, member, notDigit⟩ := size
      refine ⟨c, ?_, notDigit⟩
      simp only [written, String.toList_ofList]
      split
      · exact List.mem_cons_of_mem _ member
      · exact member
  | infinite negative => cases negative <;> exact ⟨'i', by decide, by decide⟩
  | undefined mark => exact ⟨'n', by simp [written], by decide⟩

theorem not_isCountText_written (x : Double) : ¬ IsCountText x.written := by
  obtain ⟨c, member, notDigit⟩ := exists_not_isDigit_written x
  intro isCount
  rw [isCount.isDigit c member] at notDigit
  cases notDigit

theorem toInt?_eq_some {x : Double} {i : Int} : x.toInt? = some i ↔ x.toRat? = some (i : Rat) := by
  unfold toInt?
  cases x.toRat? with
  | none => simp
  | some value =>
      dsimp only
      split
      · next whole =>
          have same : (value.num : Rat) = value := Rat.coe_int_num_of_den_eq_one whole
          constructor
          · intro isNumerator
            rw [← Option.some.inj isNumerator, same]
          · intro isValue
            rw [Option.some.inj isValue, Rat.num_intCast]
      · next fractional =>
          refine iff_of_false (by simp) fun isValue => fractional ?_
          rw [Option.some.inj isValue, Rat.den_intCast]

end Double

/-! ## Amounts -/

namespace Amount

variable {amount bound : Amount}

/-- The amount is kept as a whole number, not as a double. -/
def IsInt (amount : Amount) : Prop :=
  ∃ i, amount = .int i

/-- The amount is no greater than the bound, where both are numbers. -/
def IsAtMost (amount bound : Amount) : Prop :=
  ∀ exact limit, amount.toRat? = some exact → bound.toRat? = some limit → exact ≤ limit

theorem place?_toScalar {exact : Rat} (isExact : amount.toRat? = some exact) :
    amount.toScalar.place? = some (0, exact) := by
  cases amount with
  | int i =>
      obtain rfl := Option.some.inj isExact
      rfl
  | float x =>
      change x.toRat? = some exact at isExact
      cases x with
      | finite negative significand exponent =>
          change (Double.toRat? (.finite negative significand exponent)).map _ = _
          rw [isExact]
          rfl
      | infinite negative => cases isExact
      | undefined mark => cases isExact

theorem isAtMost_of_exceeds (within : amount.exceeds bound = false) : amount.IsAtMost bound := by
  intro exact limit isExact isLimit
  unfold exceeds Scalar.isLess at within
  rw [place?_toScalar isExact, place?_toScalar isLimit] at within
  simpa using within

/-- An amount is written with digits alone if it is kept as a whole number. -/
theorem isCountText_written_iff
    (positive : amount.isNonPositive = false) (shown : Limit.requireText amount = .ok ()) :
    IsCountText amount.written ↔ amount.IsInt := by
  cases amount with
  | int i =>
      have above : 0 < i := not_le.1 (of_decide_eq_false positive)
      refine iff_of_true ?_ ⟨i, rfl⟩
      change IsCountText (wholeText i)
      rw [isCountText_wholeText_iff above, ← isWritten_iff above.le]
      exact Limit.isWritten_of_requireText shown
  | float x =>
      refine iff_of_false (Double.not_isCountText_written x) ?_
      rintro ⟨_, ⟨⟩⟩

/-- The text without a fraction has digits alone if the amount is whole. -/
theorem isCountText_text_iff (positive : amount.isNonPositive = false) :
    IsCountText amount.text ↔
      ∃ i : Int, amount.toRat? = some (i : Rat) ∧ i < 10 ^ maxWrittenDigits := by
  have whole (i : Int) (isWhole : amount.toRat? = some (i : Rat)) :
      IsCountText (wholeText i) ↔
        ∃ j : Int, amount.toRat? = some (j : Rat) ∧ j < 10 ^ maxWrittenDigits := by
    have above : 0 < i := by exact_mod_cast Limit.pos_of_toRat? positive isWhole
    rw [isCountText_wholeText_iff above]
    constructor
    · exact fun small => ⟨i, isWhole, small⟩
    · rintro ⟨j, isSame, small⟩
      have same : (i : Rat) = j := Option.some.inj (isWhole.symm.trans isSame)
      obtain rfl : i = j := by exact_mod_cast same
      exact small
  cases amount with
  | int i => exact whole i rfl
  | float x =>
      change IsCountText (Value.amountText (.float x)) ↔ _
      simp only [Value.amountText]
      cases isWhole : x.toInt? with
      | some i => exact whole i (Double.toInt?_eq_some.1 isWhole)
      | none =>
          refine iff_of_false (Double.not_isCountText_written x) ?_
          rintro ⟨i, same, -⟩
          rw [Double.toInt?_eq_some.2 same] at isWhole
          cases isWhole

end Amount

namespace Limit

/-! ## Options -/

/-- The check asks for the amounts, and for whole numbers where the list cannot hold the count or
the limit has the amounts as whole numbers. -/
structure AsksFor (limit : Limit) (maxCount hits seconds : Amount) (check : Fragment) : Prop where
  token : check.tokens.getLast? = some (limit.checkText hits seconds)
  hits : IsCountText hits.written ↔ limit.count.exceeds maxCount = true ∨ limit.count.IsInt
  seconds : IsCountText seconds.written ↔
    limit.count.exceeds maxCount = true ∨ limit.interval.IsInt

theorem IsPositive.pos_of_rate
    {limit : Limit} {rate : Rat} (positive : limit.IsPositive) (isRate : limit.rate = .ok rate) :
    0 < rate := by
  unfold Limit.rate at isRate
  split at isRate
  · next isCount isInterval =>
      obtain rfl := Except.ok.inj isRate
      exact positive.rate_pos isCount isInterval
  · cases isRate

/-- What a list is asked for is within its bound, and computed if the count is not. -/
theorem amounts_of_recentAmounts
    {limit : Limit} {maxCount hits seconds : Amount} (positive : limit.IsPositive)
    (read : limit.recentAmounts maxCount = .ok (some (hits, seconds))) :
    hits.exceeds maxCount = false ∧
      (hits.isNonPositive = false ∧ seconds.isNonPositive = false) ∧
      (hits.IsInt ↔ limit.count.exceeds maxCount = true ∨ limit.count.IsInt) ∧
      (seconds.IsInt ↔ limit.count.exceeds maxCount = true ∨ limit.interval.IsInt) := by
  obtain ⟨within, ⟨holds, rfl, rfl⟩ | ⟨exceeds, rfl, rate, isRate, rfl⟩⟩ :=
    recentAmounts_eq_ok read
  · exact ⟨within, positive, by simp [holds], by simp [holds]⟩
  · have above : 0 < rate.ceil := by
      have atLeast : rate ≤ rate.ceil := Rat.le_ceil
      exact_mod_cast lt_of_lt_of_le (positive.pos_of_rate isRate) atLeast
    refine ⟨within, ⟨decide_eq_false (not_le.2 above), rfl⟩, ?_, ?_⟩
    · exact iff_of_true ⟨_, rfl⟩ (Or.inl exceeds)
    · exact iff_of_true ⟨_, rfl⟩ (Or.inl exceeds)

theorem burst_mem_of_hashFragment
    {limit : Limit} {name family : String} {above : Bool} {fragment : Fragment}
    (read : limit.hashFragment name above family = .ok fragment) :
    "--hashlimit-burst " ++ limit.count.text ∈ fragment.tokens := by
  simp only [hashFragment, except_bind_eq_ok] at read
  obtain ⟨rate, _, _, _, mask, _, made⟩ := read
  obtain rfl := Except.ok.inj made
  refine List.mem_filter.2 ⟨by simp, ?_⟩
  simp

/-- In the fragments of a declared limit, hits and seconds are written with digits alone exactly
where the list cannot hold the count or the limit has them as whole numbers; the hits are always
within the bound of the list.  The burst of a counting filter is written with digits alone
exactly where the count is whole. -/
theorem asksFor_of_declare
    {kind : ObjectKind} {location : String} {source : Entry} {limit : Limit}
    {before after : Context} (declares : declare kind location source before = (.ok limit, after)) :
    (∀ (settings : Settings) (name : String) (checks records : List Fragment),
      limit.recentFragments settings name = .ok (some (checks, records)) →
        ∃ maxCount hits seconds, settings.recentMaxCount = some maxCount ∧
          limit.recentAmounts maxCount = .ok (some (hits, seconds)) ∧ hits.IsAtMost maxCount ∧
          ∀ check ∈ checks, limit.AsksFor maxCount hits seconds check) ∧
    ∀ (families : List String) (name : String) (above : Bool) (fragments : List Fragment),
      limit.hashFragments families name above = .ok fragments →
        ∀ fragment ∈ fragments, "--hashlimit-burst " ++ limit.count.text ∈ fragment.tokens ∧
          (IsCountText limit.count.text ↔
            ∃ i : Int, limit.count.toRat? = some (i : Rat) ∧ i < 10 ^ maxWrittenDigits) := by
  have positive := isPositive_of_declare declares
  constructor
  · intro settings name checks records read
    obtain ⟨maxCount, hits, seconds, isMax, amountsRead, pairsRead⟩ := recentFragments_eq_ok read
    obtain ⟨within, ⟨hitsPositive, secondsPositive⟩, hitsInt, secondsInt⟩ :=
      amounts_of_recentAmounts positive amountsRead
    obtain ⟨-, tokens⟩ := checks_of_recentPairs pairsRead
    refine ⟨maxCount, hits, seconds, isMax, amountsRead, Amount.isAtMost_of_exceeds within,
      fun check member => ?_⟩
    obtain ⟨hitsText, secondsText, token⟩ := tokens check member
    exact ⟨token, (Amount.isCountText_written_iff hitsPositive hitsText).trans hitsInt,
      (Amount.isCountText_written_iff secondsPositive secondsText).trans secondsInt⟩
  · intro families name above fragments read fragment member
    obtain ⟨family, -, made⟩ := exists_of_mem_mapM read member
    exact ⟨burst_mem_of_hashFragment made, Amount.isCountText_text_iff positive.1⟩

/-- A double with one decimal. -/
def tenths (digits : Nat) : Double :=
  Double.ofDecimal false digits (-1)

/-- Thirty events in six seconds, both as doubles. -/
def doublesSource : Entry :=
  .raw (.map [(.text "count", .float (tenths 300)), (.text "interval", .float (tenths 60))])

/-- A list cannot hold thirty events, so it is asked for five in a second; a counting filter is
given the thirty. -/
theorem asksFor_doublesSource :
    ∃ limit after, declare .filterLimit "limit" doublesSource {} = (.ok limit, after) ∧
      (∃ checks records hits seconds,
        limit.recentFragments {} "limit-0" = .ok (some (checks, records)) ∧
          checks.map (·.family) = [some "inet", some "inet6"] ∧
          ∀ check ∈ checks, check.tokens.getLast? = some (limit.checkText hits seconds) ∧
            IsCountText hits.written ∧ IsCountText seconds.written) ∧
      ∃ fragments, limit.hashFragments ["inet"] "limit-0" false = .ok fragments ∧
        fragments.length = 1 ∧
        ∀ fragment ∈ fragments, "--hashlimit-burst " ++ limit.count.text ∈ fragment.tokens ∧
          IsCountText limit.count.text := by
  obtain ⟨limit, declares, exceeds, whole, _, read, ⟨checks, records⟩, rfl, families, fragments,
      hashed, one⟩ :
      ∃ limit ∈ (declare .filterLimit "limit" doublesSource {}).1.toOption,
        limit.count.exceeds (.int 20) = true ∧ limit.count.toRat? = some ((30 : Int) : Rat) ∧
        ∃ pair ∈ (limit.recentFragments {} "limit-0").toOption,
        ∃ found ∈ pair, found.1.map (·.family) = [some "inet", some "inet6"] ∧
        ∃ fragments ∈ (limit.hashFragments ["inet"] "limit-0" false).toOption,
          fragments.length = 1 := by
    decide +kernel
  have declared := eq_of_mem_toOption declares
  have checked := eq_ok_of_mem_toOption read
  have counted := eq_ok_of_mem_toOption hashed
  obtain ⟨ofRecent, ofHash⟩ := asksFor_of_declare declared
  obtain ⟨maxCount, hits, seconds, isMax, -, -, asks⟩ := ofRecent _ _ _ _ checked
  obtain rfl := Option.some.inj isMax
  refine ⟨limit, _, declared, ⟨checks, records, hits, seconds, checked, families, ?_⟩,
    fragments, counted, one, ?_⟩
  · intro check member
    have asked := asks check member
    exact ⟨asked.token, asked.hits.2 (Or.inl exceeds), asked.seconds.2 (Or.inl exceeds)⟩
  · intro fragment member
    obtain ⟨isBurst, isCount⟩ := ofHash _ _ _ _ counted fragment member
    have small : (30 : Int) < 10 ^ maxWrittenDigits := by
      calc (30 : Int) < 10 ^ 2 := by norm_num
        _ ≤ 10 ^ maxWrittenDigits := pow_le_pow_right₀ (by norm_num) (by decide)
    exact ⟨isBurst, isCount.2 ⟨30, whole, small⟩⟩

/-- Five events, as a double. -/
def fiveSource : Entry :=
  .raw (.map [(.text "count", .float (tenths 50))])

/-- A list that can hold five events is asked for them with a fraction. -/
theorem exists_check_of_fiveSource :
    ∃ limit after checks records,
      declare .filterLimit "limit" fiveSource {} = (.ok limit, after) ∧
        limit.recentFragments {} "limit-0" = .ok (some (checks, records)) ∧
        (∃ check ∈ checks, check.tokens.getLast? = some "--update --hitcount 5.0 --seconds 1") ∧
        ¬ IsCountText "5.0" := by
  obtain ⟨limit, declares, _, read, ⟨checks, records⟩, rfl, asks⟩ :
      ∃ limit ∈ (declare .filterLimit "limit" fiveSource {}).1.toOption,
        ∃ pair ∈ (limit.recentFragments {} "limit-0").toOption, ∃ found ∈ pair,
          ∃ check ∈ found.1,
            check.tokens.getLast? = some "--update --hitcount 5.0 --seconds 1" := by
    decide +kernel
  refine ⟨limit, _, checks, records, eq_of_mem_toOption declares, eq_ok_of_mem_toOption read, asks,
    fun isCount => ?_⟩
  exact absurd (isCount.isDigit '.' (by decide)) (by decide)

end Limit

end FirewallPolicy
