import FirewallPolicy.Text.Blank
import FirewallPolicy.Text.LowerCase
import FirewallPolicy.Text.Quoted
import Mathlib.Data.List.Basic
import Mathlib.Tactic.SplitIfs

/-!
# Texts on one line

Texts without line breaks, and what keeps texts on one line.  Digits have no line break, in quotes a
line break is written as an escape, and no letter becomes a line break in lower case.  A text in lower
case is its own lower-case form.
-/

namespace FirewallPolicy.Text

/-- The text has no line break. -/
def IsUnbroken (text : String) : Prop :=
  '\n' ∉ text.toList

instance (text : String) : Decidable (IsUnbroken text) :=
  inferInstanceAs (Decidable ('\n' ∉ text.toList))

@[simp]
theorem isUnbroken_append {first second : String} :
    IsUnbroken (first ++ second) ↔ IsUnbroken first ∧ IsUnbroken second := by
  simp [IsUnbroken]

@[simp]
theorem isUnbroken_ofList {cs : List Char} : IsUnbroken (String.ofList cs) ↔ '\n' ∉ cs := by
  simp [IsUnbroken]

theorem isUnbroken_intercalate {separator : String} {parts : List String}
    (glue : IsUnbroken separator) (each : ∀ part ∈ parts, IsUnbroken part) :
    IsUnbroken (separator.intercalate parts) := by
  induction parts with
  | nil => simp [IsUnbroken]
  | cons part rest inductionHypothesis =>
      rw [List.forall_mem_cons] at each
      cases rest with
      | nil => simpa using each.1
      | cons next others =>
          rw [String.intercalate_cons_cons, isUnbroken_append, isUnbroken_append]
          exact ⟨⟨each.1, glue⟩, inductionHypothesis each.2⟩

theorem dropBlanksRight_subset (cs : List Char) : dropBlanksRight cs ⊆ cs := by
  intro c member
  rw [dropBlanksRight, List.mem_reverse] at member
  exact List.mem_reverse.1 ((List.dropWhile_sublist _).subset member)

theorem isUnbroken_trimRight {text : String} (unbroken : IsUnbroken text) :
    IsUnbroken (trimRight text) := by
  rw [trimRight, isUnbroken_ofList]
  exact fun member => unbroken (dropBlanksRight_subset _ member)

/-! ## Digits -/

theorem digitChar_ne_newline (digit : Nat) : Nat.digitChar digit ≠ '\n' := by
  by_cases isSmall : digit < 16
  · have small : ∀ digit < 16, Nat.digitChar digit ≠ '\n' := by decide
    exact small digit isSmall
  · have differs : ∀ n < 16, digit ≠ n := by omega
    have isStar : Nat.digitChar digit = '*' := by
      unfold Nat.digitChar
      simp only [differs, Nat.reduceLT, if_false]
    rw [isStar]
    decide

theorem newline_notMem_toDigits (base number : Nat) : '\n' ∉ Nat.toDigits base number := by
  have core (fuel number : Nat) (digits : List Char) (unbroken : '\n' ∉ digits) :
      '\n' ∉ Nat.toDigitsCore base fuel number digits := by
    induction fuel generalizing number digits with
    | zero => exact unbroken
    | succ fuel inductionHypothesis =>
        have next : '\n' ∉ Nat.digitChar (number % base) :: digits := by
          simp [(digitChar_ne_newline _).symm, unbroken]
        unfold Nat.toDigitsCore
        dsimp only
        split
        · exact next
        · exact inductionHypothesis _ _ next
  exact core _ _ _ List.not_mem_nil

@[simp]
theorem isUnbroken_natRepr (n : Nat) : IsUnbroken n.repr := by
  rw [IsUnbroken, Nat.toList_repr]
  exact newline_notMem_toDigits 10 n

@[simp]
theorem isUnbroken_intRepr (i : Int) : IsUnbroken i.repr := by
  cases i with
  | ofNat n => exact isUnbroken_natRepr n
  | negSucc n => exact isUnbroken_append.2 ⟨by decide, isUnbroken_natRepr (n + 1)⟩

/-! ## Quotes -/

theorem newline_notMem_hexadecimal (width value : Nat) : '\n' ∉ hexadecimal width value := by
  simp [hexadecimal, newline_notMem_toDigits]

theorem quoteFor_ne_newline (cs : List Char) : quoteFor cs ≠ '\n' := by
  unfold quoteFor
  split <;> decide

theorem newline_notMem_escaped {c quote : Char} (isQuote : quote ≠ '\n')
    (isMarked : (decide (c = quote) || decide (c = '\\')) = true) : '\n' ∉ ['\\', c] := by
  rw [Bool.or_eq_true, decide_eq_true_eq, decide_eq_true_eq] at isMarked
  rcases isMarked with rfl | rfl
  · simpa using isQuote.symm
  · decide

theorem newline_notMem_quotedCode {quote : Char} (isQuote : quote ≠ '\n') (code : Nat) :
    '\n' ∉ quotedCode quote code := by
  have coded (letter : Char) (width : Nat) (isLetter : letter ≠ '\n') :
      '\n' ∉ '\\' :: letter :: hexadecimal width code := by
    simp [isLetter.symm, newline_notMem_hexadecimal]
  unfold quotedCode
  extract_lets c
  split_ifs with isHalf isMarked isBreak isReturn isTab isShown isByte isShort
  · exact coded 'u' 4 (by decide)
  · exact newline_notMem_escaped isQuote (by simpa using isMarked)
  · decide
  · decide
  · decide
  · unfold ofChar
    split
    · decide
    · simpa using Ne.symm isBreak
  · exact coded 'x' 2 (by decide)
  · exact coded 'u' 4 (by decide)
  · exact coded 'U' 8 (by decide)

theorem isUnbroken_quoted (s : String) : IsUnbroken (quoted s) := by
  have isQuote := quoteFor_ne_newline s.toList
  rw [quoted, isUnbroken_ofList]
  simp [isQuote.symm, newline_notMem_quotedCode isQuote]

theorem newline_notMem_quotedByte {quote : Char} (isQuote : quote ≠ '\n') (byte : UInt8) :
    '\n' ∉ quotedByte quote byte := by
  unfold quotedByte
  extract_lets c
  split_ifs with isMarked isBreak isReturn isTab isShown
  · exact newline_notMem_escaped isQuote (by simpa using isMarked)
  · decide
  · decide
  · decide
  · simpa using Ne.symm isBreak
  · simp [newline_notMem_hexadecimal]

theorem isUnbroken_quotedBytes (bytes : List UInt8) : IsUnbroken (quotedBytes bytes) := by
  have isQuote := quoteFor_ne_newline (bytes.map fun byte => Char.ofNat byte.toNat)
  rw [quotedBytes, isUnbroken_ofList]
  simp [isQuote.symm, newline_notMem_quotedByte isQuote]

/-! ## Characters of a text -/

theorem eq_newline_of_ofNat {code : Nat} (same : Char.ofNat code = '\n') : code = 10 := by
  by_cases valid : code.isValidChar
  · have sameCode := congrArg Char.toNat same
    rwa [toNat_ofNat_of_isValidChar code valid] at sameCode
  · rw [Char.ofNat, dif_neg valid] at same
    exact absurd same (by decide)

/-- What holds the codes of a text without line breaks has none. -/
theorem newline_notMem_ofCode {code : Nat} (notBreak : code ≠ 10) : '\n' ∉ ofCode code := by
  have held (other : Nat) (differs : other ≠ 10) : Char.ofNat other ≠ '\n' :=
    fun same => differs (eq_newline_of_ofNat same)
  unfold ofCode ofChar
  split
  · next isHalf =>
      have carried : carrierShift + code ≠ 10 := by
        unfold carrierShift
        omega
      simp only [List.mem_cons, List.not_mem_nil, or_false, not_or]
      exact ⟨by decide, (held _ carried).symm⟩
  · split
    · decide
    · simpa using (held code notBreak).symm

theorem newline_notMem_codesIn {cs : List Char} (unbroken : '\n' ∉ cs) : 10 ∉ codesIn cs := by
  have isCode {c : Char} (differs : '\n' ≠ c) : 10 ≠ c.toNat := by
    intro same
    exact differs (Char.toNat_inj.1 same)
  fun_induction codesIn cs with
  | case1 => exact List.not_mem_nil
  | case2 c => simpa using isCode (by simpa using unbroken)
  | case3 c d rest code paired inductionHypothesis =>
      simp only [List.mem_cons, not_or] at unbroken ⊢
      refine ⟨?_, inductionHypothesis unbroken.2.2⟩
      rintro rfl
      split at paired
      · unfold paired? at paired
        split_ifs at paired <;> simp_all [isHalfCode, mark, gapCode]
      · simp at paired
  | case4 c d rest notPaired inductionHypothesis =>
      simp only [List.mem_cons, not_or] at unbroken inductionHypothesis ⊢
      exact ⟨isCode unbroken.1, inductionHypothesis unbroken.2⟩

/-! ## Lower case -/

/-- No capital of a run becomes a line break. -/
theorem caseRuns_above : caseRuns.all (fun run => decide (10 < run.first + run.offset)) = true := by
  decide +kernel

theorem lowerChar_ne_newline {c : Char} (notBreak : c ≠ '\n') : lowerChar c ≠ '\n' := by
  unfold lowerChar
  split
  · next isAscii =>
      have ascii : ∀ code < 0x80, (Char.ofNat code).toLower = '\n' → Char.ofNat code = '\n' := by
        decide
      intro same
      rw [← Char.ofNat_toNat c] at same
      exact notBreak (Char.ofNat_toNat c ▸ ascii c.toNat isAscii same)
  · split
    · next run found =>
        intro same
        have code := eq_newline_of_ofNat same
        have above := List.all_eq_true.1 caseRuns_above run (List.mem_of_find?_eq_some found)
        have covers := List.find?_some found
        simp only [CaseRun.covers, Bool.and_eq_true, decide_eq_true_eq] at covers above
        omega
    · exact notBreak

theorem isUnbroken_lower {s : String} (unbroken : IsUnbroken s) : IsUnbroken (lower s) := by
  have lowered (before rest : List Char) (unbroken : '\n' ∉ rest) :
      '\n' ∉ lowerFrom before rest := by
    induction rest generalizing before with
    | nil => exact List.not_mem_nil
    | cons c rest inductionHypothesis =>
        rw [List.mem_cons, not_or] at unbroken
        unfold lowerFrom
        extract_lets image
        rw [List.mem_append, not_or]
        refine ⟨?_, inductionHypothesis _ unbroken.2⟩
        unfold image
        split_ifs
        · decide
        · decide
        · decide
        · simpa using (lowerChar_ne_newline (Ne.symm unbroken.1)).symm
  rw [lower, isUnbroken_ofList]
  exact lowered [] _ unbroken

/-! ## Letters in lower case -/

/-- The character is its own lower-case form, wherever it stands. -/
def IsLowered (c : Char) : Prop :=
  c.toNat ≠ 0x3a3 ∧ c.toNat ≠ 0x130 ∧ lowerChar c = c

/-- The lower-case letter of the first capital. -/
def CaseRun.lowest (run : CaseRun) : Nat := (run.first + run.offset).toNat

/-- The lower-case letter of the last capital. -/
def CaseRun.highest (run : CaseRun) : Nat := (run.last + run.offset).toNat

/-- No code from `low` to `high`, or every second one where `even`, is a capital of the run: the codes
lie outside, or between two capitals. -/
def CaseRun.misses (low high : Nat) (even : Bool) (run : CaseRun) : Bool :=
  -- Every two runs are compared, and `Nat.blt` is computed faster than `<` is decided.
  Nat.blt high run.first || Nat.blt run.last low ||
    (even && run.step == 2 && (low - run.first) % 2 == 1)

/-- No lower-case letter of the run is a capital of another one. -/
def CaseRun.isMissed (run : CaseRun) : Bool :=
  caseRuns.all (CaseRun.misses run.lowest run.highest (run.step == 2 || run.first == run.last))

/-- The lower-case letters of the run are characters, none of them a dotted capital I, and in ASCII
they are lower-case letters as well. -/
def CaseRun.isSound (run : CaseRun) : Bool :=
  let low := run.first + run.offset
  let high := run.last + run.offset
  (0x80 ≤ low || (run.first == run.last && (Char.ofNat low.toNat).toLower == Char.ofNat low.toNat)) &&
    (high < 0x130 || 0x130 < low) && 0 ≤ low &&
    (high < 0xd800 || (0xdfff < low && high < 0x110000))

theorem caseRuns_sound : caseRuns.all CaseRun.isSound = true := by
  decide +kernel

theorem caseRuns_missed : caseRuns.all CaseRun.isMissed = true := by
  decide +kernel

theorem CaseRun.not_covers_of_isMissed
    {run other : CaseRun} (missed : run.isMissed = true) (isOther : other ∈ caseRuns)
    {code image : Nat} (covers : run.covers code = true)
    (isImage : (image : Int) = code + run.offset) :
    other.covers image = false := by
  have misses := List.all_eq_true.1 missed other isOther
  rw [Bool.eq_false_iff]
  intro again
  simp only [CaseRun.covers, Bool.and_eq_true, decide_eq_true_eq, beq_iff_eq] at covers again
  simp only [CaseRun.misses, CaseRun.lowest, CaseRun.highest, Bool.or_eq_true, Bool.and_eq_true,
    Nat.blt_eq, beq_iff_eq] at misses
  rcases misses with (below | above) | ⟨⟨steps, even⟩, odd⟩
  · omega
  · omega
  · rw [even] at again
    rcases steps with isTwo | single
    · rw [isTwo] at covers
      omega
    · omega

/-- A letter that a run puts in lower case is in lower case. -/
theorem isLowered_of_covers
    {run : CaseRun} (isRun : run ∈ caseRuns) {code : Nat} (covers : run.covers code = true) :
    IsLowered (Char.ofNat (code + run.offset).toNat) := by
  have within := covers
  simp only [CaseRun.covers, Bool.and_eq_true, decide_eq_true_eq] at within
  have sound := List.all_eq_true.1 caseRuns_sound run isRun
  simp only [CaseRun.isSound, Bool.and_eq_true, Bool.or_eq_true, decide_eq_true_eq,
    beq_iff_eq] at sound
  obtain ⟨⟨⟨ascii, dotted⟩, positive⟩, valid⟩ := sound
  obtain ⟨image, isImage⟩ : ∃ image : Nat, (image : Int) = code + run.offset :=
    ⟨(code + run.offset).toNat, by omega⟩
  have isNat : (code + run.offset).toNat = image := by omega
  have isValid : image.isValidChar := by
    unfold Nat.isValidChar
    omega
  have toNat : (Char.ofNat image).toNat = image := toNat_ofNat_of_isValidChar image isValid
  have uncovered : ∀ other ∈ caseRuns, other.covers image = false := by
    intro other isOther
    have missed := List.all_eq_true.1 caseRuns_missed run isRun
    exact CaseRun.not_covers_of_isMissed missed isOther covers isImage
  rw [isNat]
  refine ⟨?_, ?_, ?_⟩
  · rw [toNat]
    rintro rfl
    have covered : caseRuns.any (·.covers 0x3a3) = true := by decide +kernel
    obtain ⟨other, isOther, again⟩ := List.any_eq_true.1 covered
    cases again.symm.trans (uncovered other isOther)
  · rw [toNat]
    omega
  · unfold lowerChar
    rw [toNat]
    split
    · next isAscii =>
        obtain ⟨single, isLower⟩ := ascii.resolve_left (by omega)
        have same : (run.first + run.offset : Int).toNat = image := by omega
        rwa [same] at isLower
    · have none : caseRuns.find? (·.covers image) = none :=
        List.find?_eq_none.2 fun other isOther => by simp [uncovered other isOther]
      rw [none]

theorem isLowered_lowerChar
    {c : Char} (notSigma : c.toNat ≠ 0x3a3) (notDotted : c.toNat ≠ 0x130) :
    IsLowered (lowerChar c) := by
  unfold lowerChar
  split
  · next isAscii =>
      have ascii : ∀ code < 0x80, (Char.ofNat code).toLower.toNat < 0x80 ∧
          (Char.ofNat code).toLower.toLower = (Char.ofNat code).toLower := by
        decide
      obtain ⟨small, settled⟩ := ascii c.toNat isAscii
      rw [Char.ofNat_toNat] at small settled
      refine ⟨by omega, by omega, ?_⟩
      rw [lowerChar, if_pos small, settled]
  · next notAscii =>
      split
      · next run found =>
          have covers : run.covers c.toNat = true := by simpa using List.find?_some found
          exact isLowered_of_covers (List.mem_of_find?_eq_some found) covers
      · next none =>
          refine ⟨notSigma, notDotted, ?_⟩
          rw [lowerChar, if_neg notAscii, none]

theorem isLowered_of_mem_lowerFrom
    {before rest : List Char} {c : Char} (member : c ∈ lowerFrom before rest) : IsLowered c := by
  induction rest generalizing before with
  | nil => cases member
  | cons first rest inductionHypothesis =>
      unfold lowerFrom at member
      extract_lets image at member
      rcases List.mem_append.1 member with isImage | later
      · unfold image at isImage
        split_ifs at isImage with isSigma isFinal isDotted
        · obtain rfl := List.mem_singleton.1 isImage
          unfold IsLowered
          decide +kernel
        · obtain rfl := List.mem_singleton.1 isImage
          unfold IsLowered
          decide +kernel
        · simp only [List.mem_cons, List.not_mem_nil, or_false] at isImage
          rcases isImage with rfl | rfl
          · unfold IsLowered
            decide +kernel
          · unfold IsLowered
            decide +kernel
        · obtain rfl := List.mem_singleton.1 isImage
          exact isLowered_lowerChar isSigma isDotted
      · exact inductionHypothesis later

theorem lowerFrom_eq_self
    {before rest : List Char} (lowered : ∀ c ∈ rest, IsLowered c) : lowerFrom before rest = rest := by
  induction rest generalizing before with
  | nil => rfl
  | cons c rest inductionHypothesis =>
      rw [List.forall_mem_cons] at lowered
      obtain ⟨⟨notSigma, notDotted, same⟩, others⟩ := lowered
      rw [lowerFrom, if_neg notSigma, if_neg notDotted, same, inductionHypothesis others]
      rfl

/-- A text in lower case is its own lower-case form. -/
theorem lower_lower (s : String) : lower (lower s) = lower s := by
  unfold lower
  rw [String.toList_ofList, lowerFrom_eq_self fun c => isLowered_of_mem_lowerFrom]

end FirewallPolicy.Text
