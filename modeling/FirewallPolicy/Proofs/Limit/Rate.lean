import FirewallPolicy.Model.Limit
import FirewallPolicy.Proofs.Run.Contract
import Mathlib.Algebra.Order.Field.Rat
import Mathlib.Tactic.FieldSimp
import Mathlib.Tactic.Linarith

/-!
# Rates of counting filters

The rate of a limit is its count over its interval, in events per second.  A counting filter is
given it as a whole number of events in a unit.  Only the longest unit rounds, and by less than
one event: the filter never allows fewer events than the limit does, and hardly more.
-/

namespace FirewallPolicy

open Stateful Run

/-! ## Texts of numbers -/

theorem isWritten_iff {i : Int} (notNegative : 0 ≤ i) :
    isWritten i = true ↔ i < 10 ^ maxWrittenDigits := by
  obtain ⟨n, rfl⟩ := Int.eq_ofNat_of_zero_le notNegative
  have short : (Nat.toDigits 10 n).length ≤ maxWrittenDigits ↔ n < 10 ^ maxWrittenDigits :=
    Nat.length_toDigits_le_iff (by decide) (by decide)
  rw [isWritten, Int.natAbs_natCast, decide_eq_true_iff, short]
  exact_mod_cast Iff.rfl

namespace Limit

/-! ## Amounts -/

theorem pos_of_toRat?
    {amount : Amount} {exact : Rat} (positive : amount.isNonPositive = false)
    (isExact : amount.toRat? = some exact) :
    0 < exact := by
  cases amount with
  | int i =>
      obtain rfl : (i : Rat) = exact := Option.some.inj isExact
      have above : ¬ i ≤ 0 := of_decide_eq_false positive
      exact_mod_cast not_le.1 above
  | float x =>
      change x.toRat? = some exact at isExact
      cases x with
      | finite negative significand exponent =>
          rw [Amount.isNonPositive, isExact, Option.any_some] at positive
          · exact not_le.1 (of_decide_eq_false positive)
          · rintro _ ⟨⟩
      | infinite negative => cases isExact
      | undefined mark => cases isExact

theorem gives_readAmount {location name : String} {attributes : Record} :
    Gives (fun amount => amount.isNonPositive = false)
      (readAmount location name attributes) := by
  unfold readAmount
  extract_lets value invalid
  split
  · next amount _ =>
      split
      · exact gives_error
      · next positive => exact gives_ok (Bool.eq_false_of_not_eq_true positive)
  · exact gives_error

/-- The amounts of a limit are positive. -/
def IsPositive (limit : Limit) : Prop :=
  limit.count.isNonPositive = false ∧ limit.interval.isNonPositive = false

theorem gives_isPositive {location : String} {attributes : Record} :
    Gives IsPositive (settle location attributes) := by
  unfold settle
  extract_lets counted timed sided updated
  refine gives_readAmount.bind fun count countPositive =>
    gives_readAmount.bind fun interval intervalPositive => ?_
  dsimp only
  split
  · exact gives_throw_bind
  · split
    · exact gives_throw_bind
    · exact gives_bind fun given => gives_bind fun maskInet => gives_bind fun maskInet6 =>
        gives_ok ⟨countPositive, intervalPositive⟩

theorem isPositive_of_declare
    {kind : ObjectKind} {location : String} {source : Entry} {limit : Limit}
    {before after : Context}
    (declares : declare kind location source before = (.ok limit, after)) :
    limit.IsPositive := by
  obtain ⟨attributes, middle, _, settles⟩ := bind_eq_ok.1 declares
  exact gives_isPositive limit (recording_eq_ok.1 settles).1

theorem rate_eq
    {limit : Limit} {count interval : Rat} (isCount : limit.count.toRat? = some count)
    (isInterval : limit.interval.toRat? = some interval) :
    limit.rate = .ok (count / interval) := by
  rw [rate, isCount, isInterval]

theorem IsPositive.rate_pos
    {limit : Limit} {count interval : Rat} (positive : limit.IsPositive)
    (isCount : limit.count.toRat? = some count)
    (isInterval : limit.interval.toRat? = some interval) :
    0 < count / interval :=
  div_pos (pos_of_toRat? positive.1 isCount) (pos_of_toRat? positive.2 isInterval)

/-! ## Units -/

/-- The rate is a positive whole number of events in that many seconds. -/
def IsWholeIn (rate : Rat) (seconds : Nat) : Prop :=
  ∃ events : Int, 0 < events ∧ rate * seconds = events

theorem fitsUnit_iff {rate : Rat} {seconds : Nat} :
    fitsUnit rate seconds = true ↔ IsWholeIn rate seconds := by
  rw [fitsUnit, Bool.and_eq_true, decide_eq_true_iff, beq_iff_eq]
  constructor
  · rintro ⟨atLeast, whole⟩
    have same : ((rate * seconds).num : Rat) = rate * seconds :=
      Rat.coe_int_num_of_den_eq_one whole
    refine ⟨(rate * seconds).num, ?_, same.symm⟩
    rw [← same] at atLeast
    exact_mod_cast atLeast
  · rintro ⟨events, positive, same⟩
    rw [same]
    exact ⟨by exact_mod_cast positive, Rat.den_intCast events⟩

theorem seconds_pos : ∀ unit ∈ rateUnits, 0 < unit.2 := by
  decide

/-- The unit of a rate: the shortest in which it is a positive whole number, or else a day. -/
inductive IsUnitOf (rate : Rat) : String × Nat → Prop where
  | shortest {unit : String × Nat} :
      unit ∈ rateUnits → IsWholeIn rate unit.2 →
      (∀ other ∈ rateUnits, other.2 < unit.2 → ¬ IsWholeIn rate other.2) → IsUnitOf rate unit
  | day : (∀ other ∈ rateUnits, ¬ IsWholeIn rate other.2) → IsUnitOf rate ("day", 86400)

/-- The rate is written as that many events in a unit: it is never below the rate of the limit and
less than one event per day above it. -/
structure IsWrittenAs (rate : Rat) (events : Int) (unit : String × Nat) : Prop where
  isUnit : IsUnitOf rate unit
  positive : 1 ≤ events
  atLeast : rate ≤ events / unit.2
  below : events / unit.2 < rate + 1 / 86400
  exact : (∃ daily : Int, 86400 * rate = daily) → events / unit.2 = rate

/-- The units stand in ascending order, so the first that fits is the shortest. -/
theorem not_fits_of_find?
    {units : List (String × Nat)} {fits : String × Nat → Bool} {unit : String × Nat}
    (ascending : units.Pairwise fun first second => first.2 ≤ second.2)
    (found : units.find? fits = some unit) :
    ∀ other ∈ units, other.2 < unit.2 → fits other = false := by
  obtain ⟨_, early, late, rfl, unfit⟩ := List.find?_eq_some_iff_append.1 found
  intro other listed shorter
  rcases List.mem_append.1 listed with isEarly | isLate
  · simpa using unfit other isEarly
  · obtain ⟨_, afterUnit, _⟩ := List.pairwise_append.1 ascending
    have notShorter : unit.2 ≤ other.2 := by
      rcases List.mem_cons.1 isLate with rfl | later
      · exact le_rfl
      · exact (List.pairwise_cons.1 afterUnit).1 other later
    exact absurd shorter (not_lt.2 notShorter)

theorem isWrittenAs_of_whole
    {rate : Rat} {events : Int} {unit : String × Nat} (isUnit : IsUnitOf rate unit)
    (seconds : 0 < unit.2) (positive : 0 < events) (whole : rate * unit.2 = events) :
    IsWrittenAs rate events unit := by
  have same : (events : Rat) / unit.2 = rate := by
    rw [← whole]
    exact mul_div_cancel_right₀ rate (by exact_mod_cast seconds.ne')
  exact
    { isUnit
      positive
      atLeast := same.ge
      below := by
        rw [same]
        linarith
      exact := fun _ => same }

theorem isWrittenAs_day
    {rate : Rat} (positive : 0 < rate) (isUnit : IsUnitOf rate ("day", 86400)) :
    IsWrittenAs rate (rate * 86400).ceil ("day", 86400) := by
  have atLeast : rate * 86400 ≤ (rate * 86400).ceil := Rat.le_ceil
  have below : ((rate * 86400).ceil : Rat) < rate * 86400 + 1 := Rat.ceil_lt
  refine
    { isUnit
      positive := ?_
      atLeast := ?_
      below := ?_
      exact := ?_ }
  · have above : (0 : Rat) < (rate * 86400).ceil := by linarith
    exact_mod_cast above
  · rw [le_div_iff₀ (by norm_num)]
    exact_mod_cast atLeast
  · rw [div_lt_iff₀ (by norm_num)]
    push_cast
    linarith
  · rintro ⟨daily, isDaily⟩
    have whole : rate * 86400 = daily := by linarith
    rw [whole, Rat.ceil_intCast, ← whole]
    push_cast
    field_simp

theorem exists_rateIn {rate : Rat} (positive : 0 < rate) :
    ∃ events unit, rateIn rate = (events, unit.1) ∧ IsWrittenAs rate events unit := by
  cases found : rateUnits.find? fun unit => fitsUnit rate unit.2 with
  | some unit =>
      have listed := List.mem_of_find?_eq_some found
      have fits := List.find?_some found
      obtain ⟨events, eventsPositive, whole⟩ := fitsUnit_iff.1 fits
      refine ⟨events, unit, ?_, isWrittenAs_of_whole (.shortest listed (fitsUnit_iff.1 fits) ?_)
        ?_ eventsPositive whole⟩
      · rw [rateIn, found]
        dsimp only
        rw [whole, Rat.num_intCast]
      · intro other isOther shorter isWhole
        have unfit := not_fits_of_find? (by decide) found other isOther shorter
        exact Bool.false_ne_true (unfit.symm.trans (fitsUnit_iff.2 isWhole))
      · exact seconds_pos unit listed
  | none =>
      have noUnit : ∀ other ∈ rateUnits, ¬ IsWholeIn rate other.2 := by
        intro other isOther isWhole
        exact List.find?_eq_none.1 found other isOther (fitsUnit_iff.2 isWhole)
      refine ⟨(rate * 86400).ceil, ("day", 86400), ?_, isWrittenAs_day positive (.day noUnit)⟩
      rw [rateIn, found]

/-! ## The written rate -/

theorem hashRate_eq
    {limit : Limit} {rate : Rat} {events : Int} {unit : String} (isRate : limit.rate = .ok rate)
    (isWhole : rateIn rate = (events, unit)) (positive : 1 ≤ events) :
    limit.hashRate =
      if events < 10 ^ maxWrittenDigits then .ok (toString events ++ "/" ++ unit)
      else .error .unusable := by
  have opened : limit.hashRate =
      (requireText (.int events) >>= fun _ => .ok (wholeText events ++ "/" ++ unit)) := by
    rw [hashRate, isRate]
    change (requireText (.int (rateIn rate).1) >>= fun _ =>
      .ok (wholeText (rateIn rate).1 ++ "/" ++ (rateIn rate).2)) = _
    rw [isWhole]
  have shows : isWritten events = true ↔ events < 10 ^ maxWrittenDigits :=
    isWritten_iff (by omega)
  rw [opened, requireText, wholeText]
  change ((if isWritten events = true then Except.ok () else Except.error Failure.unusable) >>= _) = _
  by_cases written : isWritten events = true
  · rw [if_pos written, if_pos written, if_pos (shows.1 written)]
    rfl
  · rw [if_neg written, if_neg (fun small => written (shows.2 small))]
    rfl

/-- A limit with exact amounts is given to a counting filter as a whole number of events in the
shortest unit that fits, less than one event per day above the rate of the limit.  It is written
wherever the number of events can be. -/
theorem hashRate_of_declare
    {kind : ObjectKind} {location : String} {source : Entry} {limit : Limit}
    {before after : Context} {count interval : Rat}
    (declares : declare kind location source before = (.ok limit, after))
    (isCount : limit.count.toRat? = some count)
    (isInterval : limit.interval.toRat? = some interval) :
    ∃ events unit, IsWrittenAs (count / interval) events unit ∧
      limit.hashRate =
        if events < 10 ^ maxWrittenDigits then .ok (toString events ++ "/" ++ unit.1)
        else .error .unusable := by
  have positive := (isPositive_of_declare declares).rate_pos isCount isInterval
  obtain ⟨events, unit, isWhole, isWrittenAs⟩ := exists_rateIn positive
  exact ⟨events, unit, isWrittenAs,
    hashRate_eq (rate_eq isCount isInterval) isWhole isWrittenAs.positive⟩

/-- Seven events in three days. -/
def slowSource : Entry :=
  .raw (.map [(.text "count", .int 7), (.text "interval", .int 259200)])

/-- Seven events in three days are no whole number of them in any unit: they are rounded up to
three per day. -/
theorem hashRate_of_slowSource :
    ∃ limit after, declare .limit "limit" slowSource {} = (.ok limit, after) ∧
      limit.count.toRat? = some 7 ∧ limit.interval.toRat? = some 259200 ∧
      limit.hashRate.toOption = some "3/day" ∧
      ∃ events unit, IsWrittenAs (7 / 259200) events unit ∧
        limit.hashRate =
          if events < 10 ^ maxWrittenDigits then .ok (toString events ++ "/" ++ unit.1)
          else .error .unusable := by
  obtain ⟨limit, declares, isCount, isInterval, shown⟩ :
      ∃ limit ∈ (declare .limit "limit" slowSource {}).1.toOption,
        limit.count.toRat? = some 7 ∧ limit.interval.toRat? = some 259200 ∧
          limit.hashRate.toOption = some "3/day" := by
    decide +kernel
  have declared := eq_of_mem_toOption declares
  exact ⟨limit, _, declared, isCount, isInterval, shown,
    hashRate_of_declare declared isCount isInterval⟩

/-! ## Rates that cannot be written -/

/-- In whatever unit, a rate takes at least as many events as it has per second. -/
theorem IsWrittenAs.events_ge
    {rate : Rat} {events : Int} {unit : String × Nat} (written : IsWrittenAs rate events unit)
    (positive : 0 < rate) : rate ≤ events := by
  have seconds : 1 ≤ unit.2 := by
    cases written.isUnit with
    | shortest listed => exact seconds_pos unit listed
    | day => decide
  have long : (1 : Rat) ≤ unit.2 := by exact_mod_cast seconds
  calc rate ≤ rate * unit.2 := le_mul_of_one_le_right positive.le long
    _ ≤ events := (le_div_iff₀ (by linarith)).1 written.atLeast

theorem hashRate_eq_error
    {limit : Limit} {count interval : Rat} (positive : limit.IsPositive)
    (isCount : limit.count.toRat? = some count)
    (isInterval : limit.interval.toRat? = some interval)
    (large : 10 ^ maxWrittenDigits ≤ count / interval) :
    limit.hashRate = .error .unusable := by
  have ratePositive := positive.rate_pos isCount isInterval
  obtain ⟨events, unit, isWhole, written⟩ := exists_rateIn ratePositive
  have many : ((10 ^ maxWrittenDigits : Int) : Rat) ≤ events := by
    rw [Int.cast_pow]
    exact large.trans (written.events_ge ratePositive)
  rw [hashRate_eq (rate_eq isCount isInterval) isWhole written.positive]
  exact if_neg (not_lt.2 (by exact_mod_cast many))

/-- The least number of events with one more digit than that. -/
def powerOfTen (digits : Nat) : Nat := Nat.pow 10 digits

theorem toRat?_powerOfTen (digits : Nat) :
    (Amount.int (powerOfTen digits)).toRat? = some (10 ^ digits) :=
  congrArg some (Nat.cast_pow 10 digits)

/-- As many events as a number with the most digits counts, in a sixteenth of a second. -/
def vastSource : Entry :=
  .raw (.map [(.text "count", .int (powerOfTen 4299)),
    (.text "interval", .float (Double.ofDecimal false 625 (-4)))])

/-- A limit is accepted though its rate, in whole numbers, has one digit too many. -/
theorem hashRate_ne_of_vastSource :
    ∃ limit after count interval, declare .limit "limit" vastSource {} = (.ok limit, after) ∧
      limit.count.toRat? = some count ∧ limit.interval.toRat? = some interval ∧
      ∀ text, limit.hashRate ≠ .ok text := by
  obtain ⟨limit, declares, isCount, isInterval⟩ :
      ∃ limit ∈ (declare .limit "limit" vastSource {}).1.toOption,
        limit.count = .int (powerOfTen 4299) ∧ limit.interval.toRat? = some (1 / 16) := by
    decide +kernel
  have declared := eq_of_mem_toOption declares
  have exactCount := (congrArg Amount.toRat? isCount).trans (toRat?_powerOfTen 4299)
  refine ⟨limit, _, _, _, declared, exactCount, isInterval, fun text shown => ?_⟩
  have large : (10 : Rat) ^ maxWrittenDigits ≤ 10 ^ 4299 / (1 / 16) := by
    rw [show maxWrittenDigits = 4299 + 1 from rfl, pow_succ]
    have positive : (0 : Rat) < 10 ^ 4299 := pow_pos (by decide) _
    generalize (10 : Rat) ^ 4299 = whole at positive ⊢
    linarith
  rw [hashRate_eq_error (isPositive_of_declare declared) exactCount isInterval large] at shown
  cases shown

end Limit

end FirewallPolicy
