import FirewallPolicy.Value.Written
import Mathlib.Data.List.Basic
import Mathlib.Data.Nat.Digits.Defs

/-!
# Words that only texts spell

Scalars that are no texts are written as one of a few words, or with digits, points or quotes.  So
where the name of a section is written, it is the text that is meant.
-/

namespace FirewallPolicy

/-- A character that stands in numbers, moments and runs of bytes. -/
def isForeign (c : Char) : Bool :=
  c.isDigit || c == '.' || c == Text.singleQuote || c == Text.doubleQuote

/-- The words for scalars that are written without such a character. -/
def scalarWords : List String :=
  ["None", "True", "False", "inf", "-inf", "nan"]

/-- The name is neither one of those words nor holds one of those characters. -/
def IsPlainName (name : String) : Prop :=
  name ∉ scalarWords ∧ name.toList.all (fun c => !isForeign c) = true

instance (name : String) : Decidable (IsPlainName name) :=
  inferInstanceAs (Decidable (_ ∧ _))

/-- The text holds a character that no plain name holds. -/
def HoldsForeign (text : List Char) : Prop :=
  ∃ c ∈ text, isForeign c = true

theorem HoldsForeign.mono {text longer : List Char} (holds : HoldsForeign text)
    (within : text ⊆ longer) : HoldsForeign longer := by
  obtain ⟨c, member, isForeign⟩ := holds
  exact ⟨c, within member, isForeign⟩

theorem holdsForeign_toDigits (number : Nat) : HoldsForeign (Nat.toDigits 10 number) := by
  obtain ⟨c, rest, shape⟩ := List.exists_cons_of_ne_nil (@Nat.toDigits_ne_nil number 10)
  have isDigit : c.isDigit = true :=
    Nat.isDigit_of_mem_toDigits (by decide) (by decide) (shape ▸ List.mem_cons_self ..)
  exact ⟨c, shape ▸ List.mem_cons_self .., by simp [isForeign, isDigit]⟩

theorem holdsForeign_toString (number : Nat) : HoldsForeign (toString number).toList := by
  rw [Nat.toString_eq_repr, Nat.toList_repr]
  exact holdsForeign_toDigits number

namespace Double

theorem holdsForeign_decimal (decimal : Decimal) : HoldsForeign decimal.written := by
  have point : isForeign '.' = true := by decide
  have zero : isForeign '0' = true := by decide
  unfold Decimal.written
  extract_lets digits place whole fraction
  split
  · split
    · exact ⟨'0', by simp, zero⟩
    · split
      · exact ⟨'.', by simp, point⟩
      · exact ⟨'.', by simp, point⟩
  · refine (holdsForeign_toDigits (place - 1).natAbs).mono fun c member => ?_
    simp [exponentText, member]

theorem holdsForeign_finite (negative : Bool) (significand : Nat) (exponent : Int) :
    HoldsForeign (written (.finite negative significand exponent)).toList := by
  have size : HoldsForeign
      (if significand = 0 then ['0', '.', '0'] else (shortest significand exponent).written) := by
    split
    · exact ⟨'.', by simp, by decide⟩
    · exact holdsForeign_decimal _
  simp only [written, String.toList_ofList]
  split
  · exact size.mono (List.subset_cons_self ..)
  · exact size

end Double

theorem Moment.holdsForeign_written (moment : Moment) : HoldsForeign moment.written.toList := by
  have year : HoldsForeign (padded 4 moment.year).toList := by
    refine (holdsForeign_toDigits moment.year).mono fun c member => ?_
    simp [padded, member]
  refine year.mono fun c member => ?_
  unfold written
  split <;> simp [member]

theorem Text.holdsForeign_quotedBytes (bytes : List UInt8) :
    HoldsForeign (quotedBytes bytes).toList := by
  have quotes (cs : List Char) : isForeign (quoteFor cs) = true := by
    unfold quoteFor
    split <;> decide
  refine ⟨quoteFor (bytes.map fun byte => Char.ofNat byte.toNat), ?_, quotes _⟩
  simp [quotedBytes]

namespace Scalar

/-- What a scalar that is no text is written as. -/
theorem written_cases {key : Scalar} (showable : key.isShowable = true) :
    (∃ name, key = .text name) ∨ key.written ∈ scalarWords ∨ HoldsForeign key.written.toList := by
  cases key with
  | null => exact .inr (.inl (by decide))
  | bool b => cases b <;> exact .inr (.inl (by decide))
  | int i =>
      refine .inr (.inr ?_)
      have shown : isWritten i = true := showable
      change HoldsForeign (wholeText i).toList
      rw [wholeText, if_pos shown]
      cases i with
      | ofNat number => exact holdsForeign_toString number
      | negSucc number =>
          refine (holdsForeign_toString (number + 1)).mono fun c member => ?_
          change c ∈ ("-" ++ toString (number + 1)).toList
          rw [String.toList_append]
          exact List.mem_append_right _ member
  | float x =>
      cases x with
      | finite negative significand exponent =>
          refine .inr (.inr (Double.holdsForeign_finite negative significand exponent))
      | infinite negative => cases negative <;> exact .inr (.inl (by decide))
      | undefined mark => exact .inr (.inl (by simp [written, Double.written, scalarWords]))
  | text name => exact .inl ⟨name, rfl⟩
  | moment m => exact .inr (.inr (Moment.holdsForeign_written m))
  | bytes bs => exact .inr (.inr (Text.holdsForeign_quotedBytes bs))

/-- Only a text is written as a plain name. -/
theorem eq_text_of_written
    {key : Scalar} {name : String} (showable : key.isShowable = true) (plain : IsPlainName name)
    (same : key.written = name) :
    key = .text name := by
  subst same
  rcases written_cases showable with ⟨name, rfl⟩ | isWord | ⟨c, member, isForeign⟩
  · rfl
  · exact absurd isWord plain.1
  · have notForeign := List.all_eq_true.1 plain.2 c member
    rw [isForeign] at notForeign
    exact absurd notForeign (by decide)

end Scalar

end FirewallPolicy
