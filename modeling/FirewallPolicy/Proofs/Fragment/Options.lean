import FirewallPolicy.Fragment

/-!
# Options of match tokens

A match token is an option followed by its value.  Tokens of different options are told apart by
the texts before their values.
-/

namespace FirewallPolicy

/-- A mark that differs from the start of a text does not start the text. -/
theorem isPrefixOf_append_eq_false
    {mark start : List Char} (rest : List Char)
    (differs : (mark.zip start).any (fun pair => pair.1 != pair.2) = true) :
    mark.isPrefixOf (start ++ rest) = false := by
  -- The induction is on the mark: the texts differ at the first character or later.
  induction mark generalizing start with
  | nil => simp at differs
  | cons first mark inductionHypothesis =>
      cases start with
      | nil => simp at differs
      | cons other start =>
          simp only [List.zip_cons_cons, List.any_cons, Bool.or_eq_true, bne_iff_ne] at differs
          rw [List.cons_append, List.isPrefixOf_cons_cons, Bool.and_eq_false_iff]
          rcases differs with different | later
          · exact Or.inl (beq_eq_false_iff_ne.2 different)
          · exact Or.inr (inductionHypothesis later)

/-- Is it the option of the token? -/
def isOption (option token : String) : Bool :=
  (option ++ " ").toList.isPrefixOf token.toList

theorem isOption_self (option value : String) : isOption option (option ++ " " ++ value) = true := by
  have split : (option ++ " " ++ value).toList = (option ++ " ").toList ++ value.toList :=
    String.toList_append
  rw [isOption, split]
  exact List.isPrefixOf_iff_prefix.2 (List.prefix_append _ _)

/-- Neither of two options starts with the other one. -/
def areDistinct (option other : String) : Bool :=
  ((option ++ " ").toList.zip (other ++ " ").toList).any fun pair => pair.1 != pair.2

theorem isOption_of_distinct
    {option other : String} (distinct : areDistinct option other = true) (value : String) :
    isOption option (other ++ " " ++ value) = false := by
  have split : (other ++ " " ++ value).toList = (other ++ " ").toList ++ value.toList :=
    String.toList_append
  rw [isOption, split]
  exact isPrefixOf_append_eq_false value.toList distinct

theorem isEmpty_option (option value : String) : (option ++ " " ++ value).isEmpty = false := by
  simp [String.isEmpty_eq_false_iff, String.append_eq_empty_iff]

/-- A fragment with a single option and its value. -/
theorem Fragment.matching_pair (option value : String) :
    matching [option ++ " " ++ value] = { tokens := [option ++ " " ++ value] } := by
  simp [matching, isEmpty_option]

/-- The token has one of the options. -/
def HasOption (options : List String) (token : String) : Prop :=
  ∃ option ∈ options, ∃ value, token = option ++ " " ++ value

theorem hasOption_of_mem {options : List String} {option : String} (member : option ∈ options)
    (value : String) : HasOption options (option ++ " " ++ value) :=
  ⟨option, member, value, rfl⟩

theorem HasOption.mono {options others : List String} {token : String}
    (has : HasOption options token) (among : options ⊆ others) : HasOption others token := by
  obtain ⟨option, member, value, rfl⟩ := has
  exact hasOption_of_mem (among member) value

/-- A token with one of some options does not have another one. -/
theorem HasOption.isOption_eq_false
    {options : List String} {other token : String} (has : HasOption options token)
    (distinct : ∀ option ∈ options, areDistinct other option = true) :
    isOption other token = false := by
  obtain ⟨option, member, value, rfl⟩ := has
  exact isOption_of_distinct (distinct option member) value

theorem HasOption.false_of_isOption
    {options : List String} {other token : String} (has : HasOption options token)
    (isOther : isOption other token = true)
    (distinct : ∀ option ∈ options, areDistinct other option = true) : False := by
  rw [has.isOption_eq_false distinct] at isOther
  cases isOther

end FirewallPolicy
