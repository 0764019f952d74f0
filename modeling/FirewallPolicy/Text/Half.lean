/-!
## Half characters

Some escapes name one half of a character that takes two code units.  Such a half stands for
nothing by itself, yet a text may hold it, while a `String` may not.  In this library a text
holds a half as two characters, a mark and one that carries the code of the half.  The mark
itself, which is no character of any script, is held twice, so that every sequence of codes has
one text of its own.  One more pair is a gap: it stands where something could not be written.
-/

namespace FirewallPolicy.Text

/-- The codes of halves. -/
def isHalfCode (code : Nat) : Bool :=
  0xd800 ≤ code && code < 0xe000

/-- The first character of a pair. -/
def mark : Char := Char.ofNat 0x10ffff

/-- The distance from the code of a half to the character that carries it. -/
def carrierShift : Nat := 0x100000

/-- The code of a gap, behind those of all characters. -/
def gapCode : Nat := 0x110000

/-- The text that is nothing but a gap. -/
def gap : String := String.ofList [mark, ' ']

/-- The code that the second character of a pair stands for. -/
def paired? (c : Char) : Option Nat :=
  if c = mark then some mark.toNat
  else if c = ' ' then some gapCode
  else if carrierShift ≤ c.toNat && isHalfCode (c.toNat - carrierShift) then
    some (c.toNat - carrierShift)
  else none

/-- How a character is held. -/
def ofChar (c : Char) : List Char :=
  if c = mark then [mark, mark] else [c]

/-- How the half or the character of that code is held. -/
def ofCode (code : Nat) : List Char :=
  if isHalfCode code then [mark, Char.ofNat (carrierShift + code)] else ofChar (Char.ofNat code)

/-- The text of these characters. -/
def ofChars (cs : List Char) : String :=
  String.ofList (cs.flatMap ofChar)

/-- The codes that characters hold; a mark that starts no pair stands for itself. -/
def codesIn : List Char → List Nat
  | [] => []
  | [c] => [c.toNat]
  | c :: d :: rest =>
    match if c = mark then paired? d else none with
    | some code => code :: codesIn rest
    | none => c.toNat :: codesIn (d :: rest)

/-- The codes of the characters and halves of a text. -/
def codes (s : String) : List Nat :=
  codesIn s.toList

/-- The characters of a text, unless it holds a half or a gap. -/
def chars? (s : String) : Option (List Char) :=
  if (codes s).any fun code => isHalfCode code || code = gapCode then none
  else some ((codes s).map Char.ofNat)

/-- Is there no gap in the text? -/
def isWhole (s : String) : Bool :=
  !(codes s).contains gapCode

/-! ### Laws -/

theorem codesIn_mark (c : Char) (code : Nat) (rest : List Char) (known : paired? c = some code) :
    codesIn (mark :: c :: rest) = code :: codesIn rest := by
  simp [codesIn, known]

theorem codesIn_cons (c : Char) (rest : List Char) (unmarked : c ≠ mark) :
    codesIn (c :: rest) = c.toNat :: codesIn rest := by
  cases rest with
  | nil => rfl
  | cons d rest => simp [codesIn, unmarked]

/-- A character is read back as its code, whatever follows. -/
theorem codesIn_ofChar (c : Char) (rest : List Char) :
    codesIn (ofChar c ++ rest) = c.toNat :: codesIn rest := by
  by_cases marked : c = mark
  · subst marked
    exact codesIn_mark mark mark.toNat rest rfl
  · simpa [ofChar, marked] using codesIn_cons c rest marked

theorem toNat_ofNat_of_isValidChar (code : Nat) (valid : code.isValidChar) :
    (Char.ofNat code).toNat = code := by
  have held : Char.ofNat code = Char.ofNatAux code valid := dif_pos valid
  rw [held]
  rfl

theorem paired?_carrier (code : Nat) (half : isHalfCode code) :
    paired? (Char.ofNat (carrierShift + code)) = some code := by
  have bounds : 0xd800 ≤ code ∧ code < 0xe000 := by simpa [isHalfCode] using half
  have held : (Char.ofNat (carrierShift + code)).toNat = carrierShift + code :=
    toNat_ofNat_of_isValidChar _ (Or.inr (by unfold carrierShift; omega))
  have unmarked : Char.ofNat (carrierShift + code) ≠ mark := by
    intro same
    have sameCode := congrArg Char.toNat same
    rw [held] at sameCode
    have reached : carrierShift + code = 0x10ffff := sameCode
    unfold carrierShift at reached
    omega
  have notBlank : Char.ofNat (carrierShift + code) ≠ ' ' := by
    intro same
    have sameCode := congrArg Char.toNat same
    rw [held] at sameCode
    have reached : carrierShift + code = 0x20 := sameCode
    unfold carrierShift at reached
    omega
  simp [paired?, unmarked, notBlank, held, half]

/-- A half or a character is read back as its code, whatever follows. -/
theorem codesIn_ofCode (code : Nat) (rest : List Char) (inRange : code < 0x110000) :
    codesIn (ofCode code ++ rest) = code :: codesIn rest := by
  by_cases half : isHalfCode code
  · simpa [ofCode, half] using codesIn_mark _ code rest (paired?_carrier code half)
  · have valid : code.isValidChar := by
      simp only [isHalfCode, Bool.and_eq_true, decide_eq_true_eq, not_and, Nat.not_lt] at half
      exact (Nat.lt_or_ge code 0xd800).imp id fun above => ⟨by have := half above; omega, inRange⟩
    rw [ofCode, if_neg half, codesIn_ofChar, toNat_ofNat_of_isValidChar code valid]

/-- A text of characters holds the codes of these. -/
theorem codes_ofChars (cs : List Char) : codes (ofChars cs) = cs.map Char.toNat := by
  rw [codes, ofChars, String.toList_ofList]
  induction cs with
  | nil => rfl
  | cons c cs tail => rw [List.flatMap_cons, codesIn_ofChar, tail, List.map_cons]

/-! ### Storing -/

/-- Can the text be stored in a file?  Halves and gaps cannot. -/
def isStorable (s : String) : Bool :=
  (chars? s).isSome

/-- Does the half stand for a byte of a name?  Bytes that are no characters are shown that way. -/
def isByteCode (code : Nat) : Bool :=
  0xdc80 ≤ code && code < 0xdd00

/-- Can the text be a name of the file system? -/
def isNameable (s : String) : Bool :=
  (codes s).all fun code =>
    code != 0 && code != gapCode && (!isHalfCode code || isByteCode code)

/-- The number of bytes of a name of the file system. -/
def nameSize (s : String) : Nat :=
  ((codes s).map fun code => if isHalfCode code then 1 else (Char.ofNat code).utf8Size).foldl
    (· + ·) 0

/-! ### Order -/

/-- Does the first text come before the second?  Halves and characters are ordered by code. -/
def precedes (s t : String) : Bool :=
  decide (codes s < codes t)

/-- Texts in ascending order of their codes. -/
def sorted (texts : List String) : List String :=
  texts.mergeSort fun s t => !precedes t s

end FirewallPolicy.Text
