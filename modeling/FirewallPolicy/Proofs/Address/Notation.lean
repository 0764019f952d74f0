import FirewallPolicy.Proofs.Text.Parts
import Mathlib.Data.List.Forall2

/-!
# How addresses are written

The notation of IPv4 and IPv6 addresses, said apart from how they are read.  A text is read exactly
when it is written in this notation, and as what it is written for.
-/

namespace FirewallPolicy

open Text Numeral

theorem notMem_toDigits {c : Char} (other : c.isDigit = false) (number : Nat) :
    c ∉ Nat.toDigits 10 number := by
  intro member
  rw [Nat.isDigit_of_mem_toDigits (by decide) (by decide) member] at other
  cases other

/-! ## IPv4 -/

namespace IPv4

variable {cs : List Char} {number value : Nat}

/-- The text is four octets with points between them, none of them with zeros before it. -/
def IsWritten (cs : List Char) (number : Nat) : Prop :=
  ∃ octets : List Nat, octets.length = 4 ∧ (∀ octet ∈ octets, octet < 256) ∧
    cs = joinWith '.' (octets.map (Nat.toDigits 10)) ∧ number = ofDigitValues 256 octets

theorem octet?_eq_some_iff :
    octet? cs = some value ↔ value < 256 ∧ cs = Nat.toDigits 10 value := by
  have unfolded : octet? cs = some value ↔ IsNumeral 10 cs value ∧
      cs.length ≤ 3 ∧ (cs.head? = some '0' → cs = ['0']) ∧ value < 256 := by
    rw [← decimal?_eq_some_iff, octet?]
    cases decimal? cs with
    | none => simp
    | some read => simp; grind
  rw [unfolded]
  constructor
  · rintro ⟨⟨zeros, rfl⟩, -, unpadded, small⟩
    refine ⟨small, ?_⟩
    cases zeros with
    | zero => rfl
    | succ zeros =>
        have single := congrArg List.length (unpadded (by simp [List.replicate_succ]))
        have digits : 0 < (Nat.toDigits 10 value).length := Nat.length_toDigits_pos
        simp at single
        omega
  · rintro ⟨small, rfl⟩
    refine ⟨isNumeral_toDigits 10 value, ?_, ?_, small⟩
    · rw [Nat.length_toDigits_le_iff (by decide) (by decide)]
      omega
    · intro isZero
      have zero : value = 0 := by
        by_contra positive
        exact head?_toDigits_ne (by decide) (Nat.pos_of_ne_zero positive) isZero
      rw [zero]
      rfl

theorem number?_eq_some_iff : number? cs = some number ↔ IsWritten cs number := by
  constructor
  · intro read
    unfold number? at read
    split at read
    · next a b c d isSplit =>
        simp only [Option.bind_eq_bind, Option.bind_eq_some_iff, octet?_eq_some_iff,
          Option.pure_def, Option.some.injEq] at read
        obtain ⟨first, ⟨isFirst, rfl⟩, second, ⟨isSecond, rfl⟩, third, ⟨isThird, rfl⟩,
          fourth, ⟨isFourth, rfl⟩, rfl⟩ := read
        refine ⟨[first, second, third, fourth], rfl, ?_, ?_, ?_⟩
        · simp [isFirst, isSecond, isThird, isFourth]
        · rw [← joinWith_splitAt '.' cs, isSplit]
          rfl
        · simp [ofDigitValues]
    · cases read
  · rintro ⟨octets, four, small, rfl, rfl⟩
    obtain ⟨a, b, c, d, rfl⟩ := List.length_eq_four.1 four
    have isSplit : splitAt '.' (joinWith '.' ([a, b, c, d].map (Nat.toDigits 10))) =
        [a, b, c, d].map (Nat.toDigits 10) :=
      splitAt_joinWith (by simp [notMem_toDigits]) (by simp)
    have octet {value : Nat} (member : value ∈ [a, b, c, d]) :
        octet? (Nat.toDigits 10 value) = some value :=
      octet?_eq_some_iff.2 ⟨small value member, rfl⟩
    rw [number?, isSplit]
    simp [octet, ofDigitValues]

theorem IsWritten.mem_point (written : IsWritten cs number) : '.' ∈ cs := by
  obtain ⟨octets, four, -, rfl, -⟩ := written
  obtain ⟨a, b, c, d, rfl⟩ := List.length_eq_four.1 four
  simp [joinWith]

theorem IsWritten.notMem (written : IsWritten cs number) {c : Char} (other : c.isDigit = false)
    (isNoPoint : c ≠ '.') : c ∉ cs := by
  obtain ⟨octets, -, -, rfl, -⟩ := written
  intro member
  rcases mem_joinWith member with isPoint | ⟨part, isPart, isIn⟩
  · exact isNoPoint isPoint
  · obtain ⟨octet, -, rfl⟩ := List.mem_map.1 isPart
    exact notMem_toDigits other octet isIn

theorem IsWritten.lt (written : IsWritten cs number) : number < 2 ^ 32 := by
  obtain ⟨octets, four, small, -, rfl⟩ := written
  have bound := ofDigitValues_lt small
  rw [four] at bound
  exact bound.trans_eq (by norm_num)

end IPv4

/-! ## IPv6 -/

namespace IPv6

variable {cs : List Char} {number group : Nat} {parts expanded : List (List Char)}
  {groups : List Nat}

/-- One to four hexadecimal digits in lower or upper case. -/
def IsGroup (cs : List Char) (group : Nat) : Prop :=
  cs.length ≤ 4 ∧ IsNumeral 16 (cs.map Char.toLower) group

/-- The parts write the groups; an IPv4 address at the end writes two of them. -/
inductive AreGroups : List (List Char) → List Nat → Prop where
  | plain {parts : List (List Char)} {groups : List Nat} :
      List.Forall₂ IsGroup parts groups → AreGroups parts groups
  | mixed {parts : List (List Char)} {groups : List Nat} {tail : List Char} {number : Nat} :
      List.Forall₂ IsGroup parts groups → IPv4.IsWritten tail number →
      AreGroups (parts ++ [tail]) (groups ++ [number / groupSize, number % groupSize])

/-- The text is eight groups with colons between them, or fewer with a double colon in the place of
the zeros that are left out. -/
inductive IsWritten : List Char → Nat → Prop where
  | full {parts : List (List Char)} {groups : List Nat} :
      AreGroups parts groups → groups.length = 8 →
      IsWritten (joinWith ':' parts) (ofDigitValues groupSize groups)
  | gapped {highParts lowParts : List (List Char)} {high low : List Nat} :
      List.Forall₂ IsGroup highParts high → AreGroups lowParts low →
      high.length + low.length < 8 →
      IsWritten (joinWith ':' highParts ++ ':' :: ':' :: joinWith ':' lowParts)
        (ofDigitValues groupSize
          (high ++ List.replicate (8 - (high.length + low.length)) 0 ++ low))

/-! ### Groups -/

theorem exists_of_forall₂_append {α β : Type} {related : α → β → Prop} {front back : List α}
    {list : List β} (each : List.Forall₂ related (front ++ back) list) :
    ∃ first second, List.Forall₂ related front first ∧ List.Forall₂ related back second ∧
      list = first ++ second := by
  induction front generalizing list with
  | nil => exact ⟨[], list, .nil, each, rfl⟩
  | cons a rest inductionHypothesis =>
      obtain ⟨b, others, isRelated, areRelated, rfl⟩ := List.forall₂_cons_left_iff.1 each
      obtain ⟨first, second, isFirst, isSecond, rfl⟩ := inductionHypothesis areRelated
      exact ⟨b :: first, second, .cons isRelated isFirst, isSecond, rfl⟩

theorem group?_eq_some_iff : group? cs = some group ↔ IsGroup cs group := by
  have unfolded : group? cs = some group ↔ cs ≠ [] ∧ cs.length ≤ 4 ∧
      ∃ values, cs.mapM hexValue? = some values ∧ ofDigitValues 16 values = group := by
    rw [group?]
    by_cases bad : cs.isEmpty || 4 < cs.length
    · rw [if_pos bad]
      simp at bad
      grind
    · rw [if_neg bad, Option.map_eq_some_iff]
      simp at bad
      simp [bad, ofDigitValues]
  rw [unfolded]
  constructor
  · rintro ⟨nonempty, short, values, read, rfl⟩
    obtain ⟨areDigits, written⟩ := mapM_hexValue?_eq_some_iff.1 read
    refine ⟨short, ?_⟩
    rw [written]
    refine isNumeral_map_digitChar (by decide) ?_ areDigits
    rintro rfl
    exact nonempty (by simpa using written)
  · rintro ⟨short, isNumeral⟩
    obtain ⟨values, areDigits, written, value⟩ := isNumeral.exists_values (by decide)
    exact ⟨by simpa using isNumeral.ne_nil, short, values,
      mapM_hexValue?_eq_some_iff.2 ⟨areDigits, written⟩, value⟩

theorem IsGroup.unique {other : Nat} (isGroup : IsGroup cs group) (isOther : IsGroup cs other) :
    group = other := by
  have read := group?_eq_some_iff.2 isGroup
  rw [group?_eq_some_iff.2 isOther] at read
  exact (Option.some.inj read).symm

theorem IsGroup.ne_nil (isGroup : IsGroup cs group) : cs ≠ [] := by
  simpa using isGroup.2.ne_nil

theorem IsGroup.lt (isGroup : IsGroup cs group) : group < groupSize := by
  have bound := isGroup.2.lt_pow (by decide)
  rw [List.length_map] at bound
  exact bound.trans_le (Nat.pow_le_pow_right (by decide) isGroup.1)

/-- A character that is no hexadecimal digit in either case stands in no group. -/
theorem IsGroup.notMem (isGroup : IsGroup cs group) {c : Char}
    (other : ∀ value < 16, c.toLower ≠ value.digitChar) : c ∉ cs := by
  intro member
  obtain ⟨values, areDigits, written, -⟩ := isGroup.2.exists_values (by decide)
  have isLower : c.toLower ∈ cs.map Char.toLower := List.mem_map_of_mem member
  rw [written, List.mem_map] at isLower
  obtain ⟨value, isValue, same⟩ := isLower
  exact other value (areDigits value isValue) same.symm

theorem isGroup_toDigits (small : group < groupSize) : IsGroup (Nat.toDigits 16 group) group := by
  constructor
  · rw [Nat.length_toDigits_le_iff (by decide) (by decide)]
    exact small
  · rw [map_toLower_toDigits]
    exact isNumeral_toDigits 16 group

theorem mapM_group?_eq_some_iff :
    parts.mapM group? = some groups ↔ List.Forall₂ IsGroup parts groups := by
  induction parts generalizing groups with
  | nil => cases groups <;> simp
  | cons part rest inductionHypothesis =>
      cases groups with
      | nil => simp [List.mapM_cons, Option.bind_eq_some_iff]
      | cons group groups =>
          simp [List.mapM_cons, Option.bind_eq_some_iff, group?_eq_some_iff, inductionHypothesis]

theorem forall_part_of_areGroups {holds : List Char → Prop}
    (areGroups : List.Forall₂ IsGroup parts groups)
    (each : ∀ part group, IsGroup part group → holds part) : ∀ part ∈ parts, holds part := by
  induction areGroups with
  | nil => simp
  | cons isGroup _ inductionHypothesis =>
      exact List.forall_mem_cons.2 ⟨each _ _ isGroup, inductionHypothesis⟩

theorem lt_of_areGroups (areGroups : List.Forall₂ IsGroup parts groups) :
    ∀ group ∈ groups, group < groupSize := by
  induction areGroups with
  | nil => simp
  | cons isGroup _ inductionHypothesis =>
      exact List.forall_mem_cons.2 ⟨isGroup.lt, inductionHypothesis⟩

/-! ### An IPv4 address at the end -/

/-- The parts with an IPv4 address at the end taken apart into two groups. -/
inductive Spreads : List (List Char) → List (List Char) → Prop where
  | plain {parts : List (List Char)} {last : List Char} :
      '.' ∉ last → Spreads (parts ++ [last]) (parts ++ [last])
  | mixed {parts : List (List Char)} {tail : List Char} {number : Nat} :
      IPv4.IsWritten tail number →
      Spreads (parts ++ [tail])
        (parts ++ [Nat.toDigits 16 (number / groupSize), Nat.toDigits 16 (number % groupSize)])

theorem parts?_eq_some_iff :
    parts? cs = some expanded ↔
      3 ≤ (splitAt ':' cs).length ∧ Spreads (splitAt ':' cs) expanded := by
  have nonempty := splitAt_ne_nil ':' cs
  unfold parts?
  generalize splitAt ':' cs = parts at nonempty
  constructor
  · intro read
    obtain ⟨front, last, rfl⟩ := (List.eq_nil_or_concat' parts).resolve_left nonempty
    simp only [List.getLast?_concat] at read
    split at read
    · cases read
    · next long =>
        refine ⟨Nat.le_of_not_lt long, ?_⟩
        split at read
        · obtain ⟨number, isNumber, rfl⟩ := Option.map_eq_some_iff.1 read
          rw [List.dropLast_concat]
          exact .mixed (IPv4.number?_eq_some_iff.1 isNumber)
        · next plain =>
            obtain rfl := Option.some.inj read
            exact .plain (by simpa using plain)
  · rintro ⟨long, spreads⟩
    cases spreads with
    | plain plain =>
        simp only [List.getLast?_concat, if_neg (Nat.not_lt.2 long)]
        simp [plain]
    | mixed written =>
        simp only [List.getLast?_concat, if_neg (Nat.not_lt.2 long)]
        simp [written.mem_point, IPv4.number?_eq_some_iff.2 written]

theorem Spreads.append {parts expanded : List (List Char)} (spreads : Spreads parts expanded)
    (front : List (List Char)) : Spreads (front ++ parts) (front ++ expanded) := by
  cases spreads with
  | plain plain =>
      rw [← List.append_assoc]
      exact .plain plain
  | mixed written =>
      rw [← List.append_assoc, ← List.append_assoc]
      exact .mixed written

/-- An IPv4 address leaves no gap, so it stands behind each of them. -/
theorem Spreads.exists_behind {front back : List (List Char)}
    (spreads : Spreads parts (front ++ [] :: back)) (nonempty : back ≠ []) :
    ∃ low, parts = front ++ [] :: low ∧ Spreads low back := by
  obtain ⟨back, last, rfl⟩ := (List.eq_nil_or_concat' back).resolve_left nonempty
  generalize whole : front ++ [] :: (back ++ [last]) = expanded at spreads
  rw [← List.cons_append, ← List.append_assoc] at whole
  cases spreads with
  | plain plain =>
      obtain ⟨rfl, same⟩ := List.append_inj' whole rfl
      obtain rfl := List.singleton_inj.1 same
      exact ⟨back ++ [last], by simp, .plain plain⟩
  | @mixed before tail number written =>
      rw [List.append_cons before] at whole
      obtain ⟨front_eq, same⟩ := List.append_inj' whole rfl
      obtain rfl := List.singleton_inj.1 same
      rcases List.eq_nil_or_concat' back with rfl | ⟨back, high, rfl⟩
      · obtain ⟨-, isHigh⟩ := List.append_inj' front_eq rfl
        exact absurd (List.singleton_inj.1 isHigh).symm Nat.toDigits_ne_nil
      · rw [← List.cons_append, ← List.append_assoc] at front_eq
        obtain ⟨rfl, isHigh⟩ := List.append_inj' front_eq rfl
        obtain rfl := List.singleton_inj.1 isHigh
        refine ⟨back ++ [tail], by simp, ?_⟩
        rw [List.append_assoc]
        exact .mixed written

theorem isGroup_high (written : IPv4.IsWritten cs number) :
    IsGroup (Nat.toDigits 16 (number / groupSize)) (number / groupSize) :=
  isGroup_toDigits (Nat.div_lt_of_lt_mul written.lt)

theorem isGroup_low (number : Nat) :
    IsGroup (Nat.toDigits 16 (number % groupSize)) (number % groupSize) :=
  isGroup_toDigits (Nat.mod_lt _ (by decide))

theorem AreGroups.of_spreads (spreads : Spreads parts expanded)
    (areGroups : List.Forall₂ IsGroup expanded groups) : AreGroups parts groups := by
  cases spreads with
  | plain plain => exact .plain areGroups
  | @mixed front tail number written =>
      obtain ⟨others, last, areOthers, isLast, rfl⟩ := exists_of_forall₂_append areGroups
      obtain ⟨high, _, isHigh, isBehind, rfl⟩ := List.forall₂_cons_left_iff.1 isLast
      obtain ⟨low, _, isLow, isEnd, rfl⟩ := List.forall₂_cons_left_iff.1 isBehind
      obtain rfl := List.forall₂_nil_left_iff.1 isEnd
      rw [isHigh.unique (isGroup_high written), isLow.unique (isGroup_low number)]
      exact .mixed areOthers written

theorem AreGroups.exists_spreads (areGroups : AreGroups parts groups) (nonempty : parts ≠ []) :
    ∃ expanded, Spreads parts expanded ∧ List.Forall₂ IsGroup expanded groups := by
  cases areGroups with
  | plain areGroups =>
      refine ⟨parts, ?_, areGroups⟩
      obtain ⟨front, last, rfl⟩ := (List.eq_nil_or_concat' parts).resolve_left nonempty
      obtain ⟨_, rest, -, isLast, rfl⟩ := exists_of_forall₂_append areGroups
      obtain ⟨group, -, isGroup, -, rfl⟩ := List.forall₂_cons_left_iff.1 isLast
      exact .plain (isGroup.notMem (by decide))
  | mixed areGroups written =>
      refine ⟨_, .mixed written, List.rel_append areGroups ?_⟩
      exact .cons (isGroup_high written) (.cons (isGroup_low _) .nil)

/-! ### Gaps -/

/-- The parts of one side of a double colon: a side without groups is one empty part. -/
def sideParts (parts : List (List Char)) : List (List Char) :=
  if parts = [] then [[]] else parts

/-- The parts have eight groups, or fewer with an empty part in the place of zeros. -/
inductive Fills : List (List Char) → List Nat → Prop where
  | full {parts : List (List Char)} {groups : List Nat} :
      List.Forall₂ IsGroup parts groups → groups.length = 8 → Fills parts groups
  | gapped {highParts lowParts : List (List Char)} {high low : List Nat} :
      List.Forall₂ IsGroup highParts high → List.Forall₂ IsGroup lowParts low →
      high.length + low.length < 8 →
      Fills (sideParts highParts ++ [] :: sideParts lowParts)
        (high ++ List.replicate (8 - (high.length + low.length)) 0 ++ low)

theorem sideParts_ne_nil (parts : List (List Char)) : sideParts parts ≠ [] := by
  unfold sideParts
  split
  · exact List.cons_ne_nil _ _
  · assumption

theorem joinWith_sideParts (parts : List (List Char)) :
    joinWith ':' (sideParts parts) = joinWith ':' parts := by
  by_cases none : parts = []
  · subst none
    rfl
  · rw [sideParts, if_neg none]

theorem joinWith_gap (highParts lowParts : List (List Char)) :
    joinWith ':' (sideParts highParts ++ [] :: sideParts lowParts) =
      joinWith ':' highParts ++ ':' :: ':' :: joinWith ':' lowParts := by
  rw [joinWith_append ':' (sideParts_ne_nil highParts) (List.cons_ne_nil _ _),
    joinWith_cons ':' [] (sideParts_ne_nil lowParts), joinWith_sideParts, joinWith_sideParts,
    List.nil_append]

theorem side?_eq_some_iff (nonempty : parts ≠ []) :
    side? parts = some groups ↔
      ∃ given, parts = sideParts given ∧ List.Forall₂ IsGroup given groups := by
  unfold side?
  constructor
  · intro read
    split at read
    · next blank =>
        obtain rfl := Option.some.inj read
        exact ⟨[], by simpa [sideParts] using blank, .nil⟩
    · refine ⟨parts, ?_, mapM_group?_eq_some_iff.1 read⟩
      rw [sideParts, if_neg nonempty]
  · rintro ⟨given, rfl, areGroups⟩
    cases areGroups with
    | nil => rfl
    | @cons part group rest groups isGroup areRest =>
        have written : sideParts (part :: rest) ≠ [[]] := by
          simp [sideParts, isGroup.ne_nil]
        rw [if_neg (by simpa using written), sideParts, if_neg (List.cons_ne_nil _ _)]
        exact mapM_group?_eq_some_iff.2 (.cons isGroup areRest)

theorem length_sideParts (parts : List (List Char)) :
    (sideParts parts).length = max 1 parts.length := by
  unfold sideParts
  split
  · simp [*]
  · have nonempty : 0 < parts.length := List.length_pos_iff.2 (by assumption)
    omega

theorem getElem?_sideParts_ne {i : Nat} (filled : ∀ part ∈ parts, part ≠ [])
    (isOther : 0 < i ∨ i + 1 < (sideParts parts).length) : (sideParts parts)[i]? ≠ some [] := by
  intro isBlank
  by_cases none : parts = []
  · subst none
    have isFirst : i < 1 := (List.getElem?_eq_some_iff.1 isBlank).1
    simp [sideParts] at isOther
    omega
  · rw [sideParts, if_neg none] at isBlank
    exact filled [] (List.mem_of_getElem? isBlank) rfl

theorem mem_innerGaps {gap : Nat} :
    gap ∈ innerGaps parts ↔ 0 < gap ∧ gap + 1 < parts.length ∧ parts[gap]? = some [] := by
  have blank : (parts[gap]?).any (·.isEmpty) = true ↔ parts[gap]? = some [] := by
    cases parts[gap]? <;> simp
  simp only [innerGaps, List.mem_filter, List.mem_range, Bool.and_eq_true, decide_eq_true_eq, blank]
  constructor
  · rintro ⟨-, ⟨isBehind, isBefore⟩, isBlank⟩
    exact ⟨isBehind, isBefore, isBlank⟩
  · rintro ⟨isBehind, isBefore, isBlank⟩
    exact ⟨by omega, ⟨isBehind, isBefore⟩, isBlank⟩

theorem innerGaps_of_filled (filled : ∀ part ∈ parts, part ≠ []) : innerGaps parts = [] := by
  apply List.eq_nil_iff_forall_not_mem.2
  intro gap isGap
  exact filled [] (List.mem_of_getElem? (mem_innerGaps.1 isGap).2.2) rfl

/-- A double colon is the only gap behind the first part and before the last one. -/
theorem innerGaps_gap {highParts lowParts : List (List Char)}
    (highFilled : ∀ part ∈ highParts, part ≠ []) (lowFilled : ∀ part ∈ lowParts, part ≠ []) :
    innerGaps (sideParts highParts ++ [] :: sideParts lowParts) =
      [(sideParts highParts).length] := by
  have highPart := length_sideParts highParts
  have lowPart := length_sideParts lowParts
  have only : ∀ gap, gap ∈ innerGaps (sideParts highParts ++ [] :: sideParts lowParts) ↔
      gap = (sideParts highParts).length := by
    intro gap
    rw [mem_innerGaps]
    constructor
    · rintro ⟨isBehind, isBefore, isBlank⟩
      rw [List.length_append, List.length_cons] at isBefore
      rcases Nat.lt_trichotomy gap (sideParts highParts).length with isHigh | same | isLow
      · rw [List.getElem?_append_left isHigh] at isBlank
        exact absurd isBlank (getElem?_sideParts_ne highFilled (.inl isBehind))
      · exact same
      · obtain ⟨place, rfl⟩ := Nat.exists_eq_add_of_lt isLow
        rw [List.getElem?_append_right (by omega), Nat.add_assoc, Nat.add_sub_cancel_left,
          List.getElem?_cons_succ] at isBlank
        exact absurd isBlank (getElem?_sideParts_ne lowFilled (.inr (by omega)))
    · rintro rfl
      refine ⟨by omega, ?_, by simp⟩
      rw [List.length_append, List.length_cons]
      omega
  have nodup : (innerGaps (sideParts highParts ++ [] :: sideParts lowParts)).Nodup :=
    List.nodup_range.filter _
  exact List.perm_singleton.1 ((List.perm_ext_iff_of_nodup nodup (by simp)).2
    fun gap => by rw [only, List.mem_singleton])

theorem filled_of_areGroups (areGroups : List.Forall₂ IsGroup parts groups) :
    ∀ part ∈ parts, part ≠ [] :=
  forall_part_of_areGroups areGroups fun _ _ isGroup => isGroup.ne_nil

theorem fills_of_groups? (read : groups? parts = some groups) : Fills parts groups := by
  unfold groups? at read
  split at read
  · cases read
  · split at read
    · split at read
      · next eight =>
          have areGroups := mapM_group?_eq_some_iff.1 read
          exact .full areGroups (areGroups.length_eq.symm.trans eight)
      · cases read
    · next gap isGap =>
        obtain ⟨isBehind, isBefore, isBlank⟩ :=
          mem_innerGaps.1 (isGap ▸ List.mem_singleton_self gap)
        obtain ⟨isPart, isBlank⟩ := List.getElem?_eq_some_iff.1 isBlank
        simp only [Option.bind_eq_bind, Option.bind_eq_some_iff] at read
        obtain ⟨high, isHigh, low, isLow, read⟩ := read
        split at read
        · next few =>
            obtain rfl := Option.some.inj read
            have highPart : parts.take gap ≠ [] := by
              apply List.ne_nil_of_length_pos
              rw [List.length_take]
              omega
            have lowPart : parts.drop (gap + 1) ≠ [] := by
              apply List.ne_nil_of_length_pos
              rw [List.length_drop]
              omega
            obtain ⟨highParts, highEq, highGroups⟩ := (side?_eq_some_iff highPart).1 isHigh
            obtain ⟨lowParts, lowEq, lowGroups⟩ := (side?_eq_some_iff lowPart).1 isLow
            rw [← List.take_append_drop gap parts, List.drop_eq_getElem_cons isPart, isBlank,
              highEq, lowEq]
            exact .gapped highGroups lowGroups few
        · cases read
    · cases read

theorem groups?_of_fills (fills : Fills parts groups) : groups? parts = some groups := by
  cases fills with
  | full areGroups eight =>
      have length : parts.length = 8 := areGroups.length_eq.trans eight
      simp [groups?, length, innerGaps_of_filled (filled_of_areGroups areGroups),
        mapM_group?_eq_some_iff.2 areGroups]
  | @gapped highParts lowParts high low highGroups lowGroups few =>
      have highLength := highGroups.length_eq
      have lowLength := lowGroups.length_eq
      have highPart := length_sideParts highParts
      have lowPart := length_sideParts lowParts
      have short : ¬9 < (sideParts highParts ++ [] :: sideParts lowParts).length := by
        rw [List.length_append, List.length_cons]
        omega
      have isHigh : side? (sideParts highParts) = some high :=
        (side?_eq_some_iff (sideParts_ne_nil highParts)).2 ⟨highParts, rfl, highGroups⟩
      have isLow : side? (sideParts lowParts) = some low :=
        (side?_eq_some_iff (sideParts_ne_nil lowParts)).2 ⟨lowParts, rfl, lowGroups⟩
      rw [groups?, if_neg short,
        innerGaps_gap (filled_of_areGroups highGroups) (filled_of_areGroups lowGroups)]
      simp [isHigh, isLow, few]

theorem groups?_eq_some_iff : groups? parts = some groups ↔ Fills parts groups :=
  ⟨fills_of_groups?, groups?_of_fills⟩

/-! ### Reading -/

theorem Spreads.ne_nil (spreads : Spreads parts expanded) : parts ≠ [] ∧ expanded ≠ [] := by
  cases spreads <;> simp

theorem spreads_blank_iff : Spreads parts [[]] ↔ parts = [[]] := by
  constructor
  · generalize blank : [[]] = expanded
    intro spreads
    cases spreads with
    | plain _ => rfl
    | mixed _ =>
        have length := congrArg List.length blank
        simp at length
  · rintro rfl
    exact show Spreads ([] ++ [[]]) ([] ++ [[]]) from .plain List.not_mem_nil

/-- The sides of a double colon are read apart. -/
theorem spreads_sideParts_iff :
    (∃ expanded, Spreads parts (sideParts expanded) ∧ List.Forall₂ IsGroup expanded groups) ↔
      ∃ given, parts = sideParts given ∧ AreGroups given groups := by
  constructor
  · rintro ⟨expanded, spreads, areGroups⟩
    by_cases none : expanded = []
    · subst none
      exact ⟨[], spreads_blank_iff.1 spreads, .plain areGroups⟩
    · rw [sideParts, if_neg none] at spreads
      refine ⟨parts, ?_, .of_spreads spreads areGroups⟩
      rw [sideParts, if_neg spreads.ne_nil.1]
  · rintro ⟨given, rfl, areGroups⟩
    by_cases none : given = []
    · subst none
      refine ⟨[], spreads_blank_iff.2 rfl, ?_⟩
      generalize blank : [] = given at areGroups
      cases areGroups with
      | plain areGroups => exact areGroups
      | mixed _ _ => simp at blank
    · obtain ⟨expanded, spreads, expandedGroups⟩ := areGroups.exists_spreads none
      refine ⟨expanded, ?_, expandedGroups⟩
      rwa [sideParts, sideParts, if_neg none, if_neg spreads.ne_nil.2]

/-- A character that is neither a digit nor a point stands in no part. -/
theorem AreGroups.notMem (areGroups : AreGroups parts groups) {c : Char}
    (other : ∀ value < 16, c.toLower ≠ value.digitChar) (isNoDigit : c.isDigit = false)
    (isNoPoint : c ≠ '.') : ∀ part ∈ parts, c ∉ part := by
  have plain {parts : List (List Char)} {groups : List Nat}
      (areGroups : List.Forall₂ IsGroup parts groups) : ∀ part ∈ parts, c ∉ part :=
    forall_part_of_areGroups areGroups fun _ _ isGroup => isGroup.notMem other
  cases areGroups with
  | plain areGroups => exact plain areGroups
  | mixed areGroups written =>
      intro part member
      rcases List.mem_append.1 member with isGroup | isTail
      · exact plain areGroups part isGroup
      · obtain rfl := List.mem_singleton.1 isTail
        exact written.notMem isNoDigit isNoPoint

theorem AreGroups.length_le (areGroups : AreGroups parts groups) :
    groups.length ≤ parts.length + 1 := by
  cases areGroups with
  | plain areGroups => exact areGroups.length_eq ▸ Nat.le_succ _
  | mixed areGroups _ => simp [areGroups.length_eq]

theorem AreGroups.lt (areGroups : AreGroups parts groups) : ∀ group ∈ groups, group < groupSize := by
  cases areGroups with
  | plain areGroups => exact lt_of_areGroups areGroups
  | mixed areGroups written =>
      intro group member
      rcases List.mem_append.1 member with isGroup | isTail
      · exact lt_of_areGroups areGroups group isGroup
      · rcases List.mem_pair.1 isTail with rfl | rfl
        · exact (isGroup_high written).lt
        · exact (isGroup_low _).lt

theorem splitAt_gap {highParts lowParts : List (List Char)}
    (high : ∀ part ∈ highParts, ':' ∉ part) (low : ∀ part ∈ lowParts, ':' ∉ part) :
    splitAt ':' (joinWith ':' highParts ++ ':' :: ':' :: joinWith ':' lowParts) =
      sideParts highParts ++ [] :: sideParts lowParts := by
  have side {parts : List (List Char)} (absent : ∀ part ∈ parts, ':' ∉ part) :
      splitAt ':' (joinWith ':' parts) = sideParts parts := by
    by_cases none : parts = []
    · subst none
      rfl
    · rw [sideParts, if_neg none, splitAt_joinWith absent none]
  rw [splitAt_append_cons, ← List.nil_append (':' :: joinWith ':' lowParts), splitAt_append_cons,
    side high, side low]
  rfl

theorem number?_eq_some_iff : number? cs = some number ↔ IsWritten cs number := by
  have unfolded : number? cs = some number ↔ ∃ expanded, 3 ≤ (splitAt ':' cs).length ∧
      Spreads (splitAt ':' cs) expanded ∧
      ∃ groups, Fills expanded groups ∧ ofDigitValues groupSize groups = number := by
    simp only [number?, Option.bind_eq_bind, Option.bind_eq_some_iff, parts?_eq_some_iff,
      groups?_eq_some_iff, Option.pure_def, Option.some.injEq, ofDigitValues, and_assoc]
  rw [unfolded]
  constructor
  · rintro ⟨expanded, long, spreads, groups, fills, rfl⟩
    rw [← joinWith_splitAt ':' cs]
    cases fills with
    | full areGroups eight => exact .full (.of_spreads spreads areGroups) eight
    | gapped highGroups lowGroups few =>
        obtain ⟨low, isSplit, lowSpreads⟩ := spreads.exists_behind (sideParts_ne_nil _)
        obtain ⟨lowParts, rfl, areGroups⟩ := spreads_sideParts_iff.1 ⟨_, lowSpreads, lowGroups⟩
        rw [isSplit, joinWith_gap]
        exact .gapped highGroups areGroups few
  · intro written
    cases written with
    | @full parts groups areGroups eight =>
        have length := areGroups.length_le
        have nonempty : parts ≠ [] := List.ne_nil_of_length_pos (by omega)
        obtain ⟨expanded, spreads, expandedGroups⟩ := areGroups.exists_spreads nonempty
        rw [splitAt_joinWith (areGroups.notMem (by decide) (by decide) (by decide)) nonempty]
        exact ⟨expanded, by omega, spreads, groups, .full expandedGroups eight, rfl⟩
    | @gapped highParts lowParts high low highGroups lowGroups few =>
        obtain ⟨expanded, spreads, expandedGroups⟩ :=
          spreads_sideParts_iff.2 ⟨lowParts, rfl, lowGroups⟩
        have highPart := length_sideParts highParts
        have lowPart := length_sideParts lowParts
        rw [splitAt_gap ((AreGroups.plain highGroups).notMem (by decide) (by decide) (by decide))
          (lowGroups.notMem (by decide) (by decide) (by decide))]
        refine ⟨sideParts highParts ++ [] :: sideParts expanded, ?_,
          (spreads.append [[]]).append _, _, .gapped highGroups expandedGroups few, rfl⟩
        rw [List.length_append, List.length_cons]
        omega

theorem IsWritten.mem_colon (written : IsWritten cs number) : ':' ∈ cs := by
  cases written with
  | @full parts groups areGroups eight =>
      have length := areGroups.length_le
      obtain ⟨part, rest, rfl⟩ :=
        List.exists_cons_of_ne_nil (List.ne_nil_of_length_pos (show 0 < parts.length by omega))
      have several : rest ≠ [] := by
        apply List.ne_nil_of_length_pos
        rw [List.length_cons] at length
        omega
      simp [joinWith_cons ':' part several]
  | gapped _ _ _ => simp

theorem IsWritten.notMem (written : IsWritten cs number) {c : Char}
    (other : ∀ value < 16, c.toLower ≠ value.digitChar) (isNoDigit : c.isDigit = false)
    (isNoPoint : c ≠ '.') (isNoColon : c ≠ ':') : c ∉ cs := by
  have joined {parts : List (List Char)} {groups : List Nat} (areGroups : AreGroups parts groups) :
      c ∉ joinWith ':' parts := by
    intro member
    rcases mem_joinWith member with isColon | ⟨part, isPart, isIn⟩
    · exact isNoColon isColon
    · exact areGroups.notMem other isNoDigit isNoPoint part isPart isIn
  cases written with
  | full areGroups _ => exact joined areGroups
  | gapped highGroups lowGroups _ =>
      simp [joined (.plain highGroups), joined lowGroups, isNoColon]

theorem IsWritten.lt (written : IsWritten cs number) : number < 2 ^ 128 := by
  have eightGroups {groups : List Nat} (small : ∀ group ∈ groups, group < groupSize)
      (eight : groups.length = 8) : ofDigitValues groupSize groups < 2 ^ 128 := by
    have bound := ofDigitValues_lt small
    rw [eight] at bound
    exact bound.trans_eq (by norm_num [groupSize])
  cases written with
  | full areGroups eight => exact eightGroups areGroups.lt eight
  | gapped highGroups lowGroups few =>
      apply eightGroups
      · intro group member
        simp only [List.mem_append, List.mem_replicate] at member
        rcases member with (isHigh | ⟨-, rfl⟩) | isLow
        · exact (AreGroups.plain highGroups).lt group isHigh
        · decide
        · exact lowGroups.lt group isLow
      · simp only [List.length_append, List.length_replicate]
        omega

end IPv6

end FirewallPolicy
