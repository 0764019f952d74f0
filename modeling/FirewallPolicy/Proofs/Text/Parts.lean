import FirewallPolicy.Address.Literal
import Mathlib.Data.List.Basic
import Mathlib.Data.List.Induction
import Mathlib.Data.Nat.Digits.Defs
import Mathlib.Tactic.IntervalCases
import Mathlib.Tactic.Ring

/-!
# Parts and numerals

What addresses are made of.  Cutting a text at a separator and joining parts with the separator undo
each other, as long as no part holds it.  A number has one numeral in each base, and what is read as
the number is this numeral, with zeros before it or not.
-/

namespace FirewallPolicy

namespace Text

variable {separator : Char}

/-! ## Cutting at every separator -/

theorem splitAt_ne_nil (separator : Char) (cs : List Char) : splitAt separator cs ≠ [] := by
  cases cs with
  | nil => exact List.cons_ne_nil _ _
  | cons c rest =>
      unfold splitAt
      split
      · exact List.cons_ne_nil _ _
      · split <;> exact List.cons_ne_nil _ _

theorem splitAt_eq_splitOn (separator : Char) (cs : List Char) :
    splitAt separator cs = cs.splitOn separator := by
  induction cs with
  | nil => rfl
  | cons c rest inductionHypothesis =>
      rw [List.splitOn_cons_eq_if_modifyHead, ← inductionHypothesis, splitAt]
      by_cases same : c = separator
      · simp [same]
      · obtain ⟨part, parts, split⟩ := List.exists_cons_of_ne_nil (splitAt_ne_nil separator rest)
        simp [same, split]

theorem joinWith_eq_intercalate (separator : Char) (parts : List (List Char)) :
    joinWith separator parts = [separator].intercalate parts := by
  fun_induction joinWith separator parts with
  | case1 => rfl
  | case2 part => simp
  | case3 part parts several inductionHypothesis =>
      rw [List.intercalate_cons_of_ne_nil several, inductionHypothesis]
      simp

theorem joinWith_splitAt (separator : Char) (cs : List Char) :
    joinWith separator (splitAt separator cs) = cs := by
  rw [joinWith_eq_intercalate, splitAt_eq_splitOn, List.intercalate_splitOn]

theorem splitAt_joinWith {parts : List (List Char)}
    (absent : ∀ part ∈ parts, separator ∉ part) (nonempty : parts ≠ []) :
    splitAt separator (joinWith separator parts) = parts := by
  rw [joinWith_eq_intercalate, splitAt_eq_splitOn, List.splitOn_intercalate separator absent nonempty]

theorem splitAt_append_cons (separator : Char) (first rest : List Char) :
    splitAt separator (first ++ separator :: rest) =
      splitAt separator first ++ splitAt separator rest := by
  simp only [splitAt_eq_splitOn]
  exact List.splitOn_append_cons_self first rest

theorem splitAt_of_notMem {cs : List Char} (absent : separator ∉ cs) :
    splitAt separator cs = [cs] := by
  rw [splitAt_eq_splitOn, List.splitOn_eq_singleton absent]

theorem joinWith_cons (separator : Char) (part : List Char) {parts : List (List Char)}
    (several : parts ≠ []) :
    joinWith separator (part :: parts) = part ++ separator :: joinWith separator parts := by
  cases parts with
  | nil => exact absurd rfl several
  | cons next rest => rfl

theorem joinWith_append (separator : Char) {front back : List (List Char)}
    (isFront : front ≠ []) (isBack : back ≠ []) :
    joinWith separator (front ++ back) =
      joinWith separator front ++ separator :: joinWith separator back := by
  induction front with
  | nil => exact absurd rfl isFront
  | cons part rest inductionHypothesis =>
      by_cases single : rest = []
      · subst single
        exact joinWith_cons separator part isBack
      · rw [List.cons_append, joinWith_cons separator part (List.append_ne_nil_of_left_ne_nil single _),
          joinWith_cons separator part single, inductionHypothesis single]
        simp

theorem mem_joinWith {parts : List (List Char)} {c : Char}
    (member : c ∈ joinWith separator parts) : c = separator ∨ ∃ part ∈ parts, c ∈ part := by
  fun_induction joinWith separator parts with
  | case1 => exact absurd member List.not_mem_nil
  | case2 part => exact .inr ⟨part, List.mem_singleton_self part, member⟩
  | case3 part parts several inductionHypothesis =>
      rcases List.mem_append.1 member with isFirst | later
      · exact .inr ⟨part, List.mem_cons_self .., isFirst⟩
      · rcases List.mem_cons.1 later with isSeparator | later
        · exact .inl isSeparator
        · exact (inductionHypothesis later).imp_right fun ⟨part, isPart, isIn⟩ =>
            ⟨part, List.mem_cons_of_mem _ isPart, isIn⟩

/-! ## Cutting at the first separator -/

theorem cutAt?_append {first : List Char} (absent : separator ∉ first)
    (rest : List Char) : cutAt? separator (first ++ separator :: rest) = some (first, rest) := by
  have different : ∀ c ∈ first, (c != separator) = true := by
    intro c member
    simpa using fun same : c = separator => absent (same ▸ member)
  rw [cutAt?, List.dropWhile_append_of_pos different, List.takeWhile_append_of_pos different]
  simp

theorem cutAt?_of_notMem {cs : List Char} (absent : separator ∉ cs) :
    cutAt? separator cs = none := by
  have different : ∀ c ∈ cs, (c != separator) = true := by
    intro c member
    simpa using fun same : c = separator => absent (same ▸ member)
  rw [cutAt?, ← List.append_nil cs, List.dropWhile_append_of_pos different]
  rfl

theorem eq_append_of_cutAt? {cs first rest : List Char}
    (cut : cutAt? separator cs = some (first, rest)) : cs = first ++ separator :: rest := by
  by_cases member : separator ∈ cs
  · obtain ⟨before, after, rfl, absent⟩ := List.eq_append_cons_of_mem member
    rw [cutAt?_append absent] at cut
    obtain ⟨rfl, rfl⟩ := Prod.mk.inj (Option.some.inj cut)
    rfl
  · rw [cutAt?_of_notMem member] at cut
    cases cut

end Text

namespace Numeral

open Text

/-- The text is the numeral of the number, with any zeros before it. -/
def IsNumeral (base : Nat) (cs : List Char) (number : Nat) : Prop :=
  ∃ zeros, cs = List.replicate zeros '0' ++ Nat.toDigits base number

variable {base number : Nat} {cs : List Char} {c : Char}

theorem isNumeral_toDigits (base number : Nat) : IsNumeral base (Nat.toDigits base number) number :=
  ⟨0, rfl⟩

theorem IsNumeral.ne_nil (isNumeral : IsNumeral base cs number) : cs ≠ [] := by
  obtain ⟨zeros, rfl⟩ := isNumeral
  exact List.append_ne_nil_of_right_ne_nil _ Nat.toDigits_ne_nil

/-! ## Digits and their values -/

theorem ofDigitValues_concat (base : Nat) (values : List Nat) (value : Nat) :
    ofDigitValues base (values ++ [value]) = ofDigitValues base values * base + value := by
  simp [ofDigitValues]

theorem ofDigitValues_zeros (base zeros : Nat) (values : List Nat) :
    ofDigitValues base (List.replicate zeros 0 ++ values) = ofDigitValues base values := by
  induction zeros with
  | zero => rfl
  | succ zeros inductionHypothesis =>
      rw [List.replicate_succ, List.cons_append, ← inductionHypothesis]
      simp [ofDigitValues]

theorem ofDigitValues_cons (base value : Nat) (values : List Nat) :
    ofDigitValues base (value :: values) =
      value * base ^ values.length + ofDigitValues base values := by
  induction values using List.reverseRecOn with
  | nil => simp [ofDigitValues]
  | append_singleton front last inductionHypothesis =>
      rw [← List.cons_append, ofDigitValues_concat, inductionHypothesis, ofDigitValues_concat,
        List.length_append, List.length_singleton, pow_succ]
      ring

/-- A number is written by its digits, as many of them as there are places. -/
theorem ofDigitValues_places (width places number : Nat) :
    ofDigitValues (2 ^ width)
        ((List.range places).reverse.map fun place => number / 2 ^ (width * place) % 2 ^ width) =
      number % 2 ^ (width * places) := by
  induction places with
  | zero => simp [ofDigitValues, Nat.mod_one]
  | succ places inductionHypothesis =>
      rw [List.range_succ, List.reverse_append, List.reverse_singleton, List.singleton_append,
        List.map_cons, ofDigitValues_cons, inductionHypothesis, List.length_map, List.length_reverse,
        List.length_range, ← pow_mul, Nat.mul_succ, pow_add, Nat.mod_mul, Nat.mul_comm,
        Nat.add_comm]

theorem ofDigitValues_lt {values : List Nat} (areDigits : ∀ value ∈ values, value < base) :
    ofDigitValues base values < base ^ values.length := by
  induction values using List.reverseRecOn with
  | nil => simp [ofDigitValues]
  | append_singleton front value inductionHypothesis =>
      have isDigit : value < base := areDigits value (by simp)
      have isBelow : ofDigitValues base front + 1 ≤ base ^ front.length :=
        inductionHypothesis fun value member => areDigits value (List.mem_append_left _ member)
      rw [ofDigitValues_concat, List.length_append, List.length_singleton, pow_succ]
      calc ofDigitValues base front * base + value
          < (ofDigitValues base front + 1) * base := by rw [Nat.succ_mul]; omega
        _ ≤ base ^ front.length * base := Nat.mul_le_mul_right base isBelow

/-- The values of digits write the number that they have together. -/
theorem isNumeral_map_digitChar
    {values : List Nat} (large : 1 < base) (nonempty : values ≠ [])
    (areDigits : ∀ value ∈ values, value < base) :
    IsNumeral base (values.map Nat.digitChar) (ofDigitValues base values) := by
  induction values using List.reverseRecOn with
  | nil => exact absurd rfl nonempty
  | append_singleton front value inductionHypothesis =>
      have isDigit : value < base := areDigits value (by simp)
      rw [ofDigitValues_concat, List.map_append, List.map_singleton]
      by_cases single : front = []
      · subst single
        refine ⟨0, ?_⟩
        simp [ofDigitValues, Nat.toDigits_of_lt_base isDigit]
      · obtain ⟨zeros, written⟩ := inductionHypothesis single fun value member =>
          areDigits value (List.mem_append_left _ member)
        rw [written]
        by_cases zero : ofDigitValues base front = 0
        · refine ⟨zeros + 1, ?_⟩
          simp [zero, Nat.toDigits_of_lt_base isDigit, List.replicate_succ']
        · refine ⟨zeros, ?_⟩
          rw [List.append_assoc, ← Nat.toDigits_of_lt_base isDigit,
            Nat.toDigits_append_toDigits large (Nat.pos_of_ne_zero zero) isDigit, Nat.mul_comm]

/-- The numeral of a number is made of digits that have this number together. -/
theorem exists_values_toDigits (large : 1 < base) (number : Nat) :
    ∃ values, (∀ value ∈ values, value < base) ∧
      Nat.toDigits base number = values.map Nat.digitChar ∧ ofDigitValues base values = number := by
  induction number using Nat.strongRecOn with
  | ind number inductionHypothesis =>
      by_cases isDigit : number < base
      · refine ⟨[number], by simpa using isDigit, ?_, by simp [ofDigitValues]⟩
        rw [Nat.toDigits_of_lt_base isDigit, List.map_singleton]
      · have smaller : number / base < number := Nat.div_lt_self (by omega) large
        obtain ⟨values, areDigits, written, value⟩ := inductionHypothesis _ smaller
        have lastDigit : number % base < base := Nat.mod_lt _ (by omega)
        refine ⟨values ++ [number % base], ?_, ?_, ?_⟩
        · simpa [or_imp, forall_and, lastDigit] using areDigits
        · rw [Nat.toDigits_of_base_le large (by omega), written, List.map_append,
            List.map_singleton]
        · rw [ofDigitValues_concat, value, Nat.div_add_mod']

theorem IsNumeral.exists_values (large : 1 < base) (isNumeral : IsNumeral base cs number) :
    ∃ values, (∀ value ∈ values, value < base) ∧
      cs = values.map Nat.digitChar ∧ ofDigitValues base values = number := by
  obtain ⟨zeros, rfl⟩ := isNumeral
  obtain ⟨values, areDigits, written, value⟩ := exists_values_toDigits large number
  refine ⟨List.replicate zeros 0 ++ values, ?_, ?_, ?_⟩
  · intro value member
    rcases List.mem_append.1 member with isZero | isValue
    · rw [List.eq_of_mem_replicate isZero]
      omega
    · exact areDigits value isValue
  · rw [written, List.map_append, List.map_replicate]
    rfl
  · rw [ofDigitValues_zeros, value]

theorem IsNumeral.lt_pow (large : 1 < base) (isNumeral : IsNumeral base cs number) :
    number < base ^ cs.length := by
  obtain ⟨zeros, rfl⟩ := isNumeral
  have digits : number < base ^ (Nat.toDigits base number).length :=
    (Nat.length_toDigits_le_iff large Nat.length_toDigits_pos).1 le_rfl
  apply digits.trans_le
  apply Nat.pow_le_pow_right (by omega)
  simp

/-- The first digit of a number other than zero is not a zero. -/
theorem head?_toDigits_ne (large : 1 < base) (positive : 0 < number) :
    (Nat.toDigits base number).head? ≠ some '0' := by
  induction number using Nat.strongRecOn with
  | ind number inductionHypothesis =>
      by_cases isDigit : number < base
      · rw [Nat.toDigits_of_lt_base isDigit]
        simpa using positive.ne'
      · have smaller : number / base < number := Nat.div_lt_self positive large
        have rest := inductionHypothesis _ smaller (Nat.div_pos (by omega) (by omega))
        rw [Nat.toDigits_of_base_le large (by omega),
          List.head?_append_of_ne_nil _ Nat.toDigits_ne_nil]
        exact rest

/-! ## Decimal numerals -/

theorem isDecimal_iff : isDecimal c = true ↔ 48 ≤ c.toNat ∧ c.toNat ≤ 57 := by
  rw [isDecimal, Bool.and_eq_true, decide_eq_true_eq, decide_eq_true_eq]
  exact Iff.rfl

theorem isDecimal_digitChar {value : Nat} (isDigit : value < 10) :
    isDecimal value.digitChar = true := by
  rw [isDecimal_iff, Nat.toNat_digitChar_of_lt_ten isDigit]
  omega

theorem digitChar_of_isDecimal (decimal : isDecimal c = true) :
    (c.toNat - 48).digitChar = c := by
  rw [isDecimal_iff] at decimal
  apply Char.toNat_inj.1
  rw [Nat.toNat_digitChar_of_lt_ten (by omega)]
  omega

theorem ofDecimals_eq (digits : List Char) :
    ofDecimals digits = ofDigitValues 10 (digits.map fun digit => digit.toNat - 48) := by
  rw [ofDecimals, ofDigitValues, List.foldl_map]

theorem decimal?_eq_some_iff : decimal? cs = some number ↔ IsNumeral 10 cs number := by
  have unfolded : decimal? cs = some number ↔
      cs ≠ [] ∧ (∀ c ∈ cs, isDecimal c = true) ∧ ofDecimals cs = number := by
    simp [decimal?, and_assoc]
  rw [unfolded, ofDecimals_eq]
  constructor
  · rintro ⟨nonempty, areDecimal, rfl⟩
    have written : (cs.map fun digit => digit.toNat - 48).map Nat.digitChar = cs := by
      rw [List.map_map, List.map_congr_left fun c member => ?_, List.map_id]
      exact digitChar_of_isDecimal (areDecimal c member)
    nth_rewrite 1 [← written]
    refine isNumeral_map_digitChar (by decide) (by simpa using nonempty) fun value member => ?_
    obtain ⟨c, isIn, rfl⟩ := List.mem_map.1 member
    have decimal := isDecimal_iff.1 (areDecimal c isIn)
    omega
  · intro isNumeral
    refine ⟨isNumeral.ne_nil, ?_⟩
    obtain ⟨values, areDigits, rfl, value⟩ := isNumeral.exists_values (by decide)
    constructor
    · intro c member
      obtain ⟨value, isValue, rfl⟩ := List.mem_map.1 member
      exact isDecimal_digitChar (areDigits value isValue)
    · rw [List.map_map, List.map_congr_left fun value member => ?_, List.map_id, value]
      exact Nat.toNat_digitChar_sub_48_of_lt_ten (areDigits value member)

theorem upTo?_eq_some_iff {most : Nat} :
    upTo? most cs = some number ↔
      cs.length ≤ maxNumeralLength ∧ IsNumeral 10 cs number ∧ number ≤ most := by
  rw [← decimal?_eq_some_iff, upTo?]
  by_cases long : maxNumeralLength < cs.length
  · simp [long]
  · simp [long, Nat.le_of_not_lt long, Option.filter_eq_some_iff]

/-! ## Hexadecimal numerals -/

theorem toNat_toLower (c : Char) :
    c.toLower.toNat = if 65 ≤ c.toNat ∧ c.toNat ≤ 90 then c.toNat + 32 else c.toNat := by
  unfold Char.toLower
  by_cases upper : 65 ≤ c.toNat ∧ c.toNat ≤ 90
  · rw [dif_pos (show c.val ≥ 'A'.val ∧ c.val ≤ 'Z'.val from upper), if_pos upper]
    change (c.val + 32).toNat = c.val.toNat + 32
    have isUpper : c.val.toNat ≤ 90 := upper.2
    rw [UInt32.toNat_add]
    exact Nat.mod_eq_of_lt (by simp; omega)
  · rw [dif_neg (show ¬(c.val ≥ 'A'.val ∧ c.val ≤ 'Z'.val) from upper), if_neg upper]

theorem toNat_digitChar {value : Nat} (isDigit : value < 16) :
    value.digitChar.toNat = if value < 10 then 48 + value else 87 + value := by
  interval_cases value <;> rfl

/-- A hexadecimal digit stands in lower or upper case. -/
theorem hexValue?_eq_some_iff {value : Nat} :
    hexValue? c = some value ↔ value < 16 ∧ c.toLower = value.digitChar := by
  have unfolded : hexValue? c =
      if 48 ≤ c.toNat ∧ c.toNat ≤ 57 then some (c.toNat - 48)
      else if 97 ≤ c.toNat ∧ c.toNat ≤ 102 then some (c.toNat - 87)
      else if 65 ≤ c.toNat ∧ c.toNat ≤ 70 then some (c.toNat - 55)
      else none := by
    simp only [hexValue?, Bool.and_eq_true, decide_eq_true_eq]
    rfl
  rw [unfolded, ← Char.toNat_inj, toNat_toLower]
  constructor
  · intro read
    have isDigit : value < 16 := by grind
    rw [toNat_digitChar isDigit]
    grind
  · rintro ⟨isDigit, written⟩
    rw [toNat_digitChar isDigit] at written
    grind

/-- The digits of a hexadecimal numeral are read one by one, and upper case counts as lower case. -/
theorem mapM_hexValue?_eq_some_iff {values : List Nat} :
    cs.mapM hexValue? = some values ↔
      (∀ value ∈ values, value < 16) ∧ cs.map Char.toLower = values.map Nat.digitChar := by
  induction cs generalizing values with
  | nil => cases values <;> simp
  | cons c rest inductionHypothesis =>
      cases values with
      | nil => simp [List.mapM_cons, Option.bind_eq_some_iff]
      | cons value values =>
          simp only [List.mapM_cons, Option.pure_def, Option.bind_eq_bind, Option.bind_eq_some_iff,
            hexValue?_eq_some_iff, inductionHypothesis, Option.some.injEq, List.cons.injEq,
            List.forall_mem_cons, List.map_cons]
          grind

theorem map_toLower_toDigits (number : Nat) :
    (Nat.toDigits 16 number).map Char.toLower = Nat.toDigits 16 number := by
  obtain ⟨values, areDigits, written, -⟩ :=
    exists_values_toDigits (show 1 < 16 by decide) number
  rw [written, List.map_map, List.map_congr_left fun value member => ?_]
  have isDigit := areDigits value member
  change value.digitChar.toLower = value.digitChar
  interval_cases value <;> rfl

end Numeral

end FirewallPolicy
