import FirewallPolicy.Value.Basic
import Mathlib.Data.List.Nodup

/-!
# Reading what was set

A thing that is set under a name is read back under that name, and nothing else changes.  The keys of
mappings are scalars; two of them name the same entry when they have the same identity: the same kind
and content, where all numbers that stand for an exact value are of one kind.
-/

namespace FirewallPolicy

namespace Named

variable {α : Type}

@[simp]
theorem get?_nil (name : String) :
    get? ([] : Named α) name = none :=
  rfl

theorem get?_cons
    (known : String) (value : α) (rest : Named α) (name : String) :
    get? ((known, value) :: rest) name =
      if name = known then some value else get? rest name := by
  unfold get?
  by_cases same : name = known
  · simp [same]
  · simp [List.lookup_cons, beq_false_of_ne same, same]

@[simp]
theorem get?_set_self
    (entries : Named α) (name : String) (value : α) :
    (entries.set name value).get? name = some value := by
  induction entries with
  | nil => simp [set, get?_cons]
  | cons entry rest inductionHypothesis =>
      obtain ⟨known, old⟩ := entry
      unfold set
      split
      · next same => simp [get?_cons, same]
      · next different =>
          rw [get?_cons, if_neg (Ne.symm different)]
          exact inductionHypothesis

theorem get?_set_of_ne
    {name other : String} (different : other ≠ name)
    (entries : Named α) (value : α) :
    (entries.set name value).get? other = entries.get? other := by
  induction entries with
  | nil => simp [set, get?_cons, different]
  | cons entry rest inductionHypothesis =>
      obtain ⟨known, old⟩ := entry
      unfold set
      split
      · next same =>
          subst same
          rw [get?_cons, get?_cons, if_neg different, if_neg different]
      · rw [get?_cons, get?_cons, inductionHypothesis]

/-- Setting a thing to what it is changes nothing. -/
theorem set_of_get?
    {entries : Named α} {name : String} {value : α}
    (found : entries.get? name = some value) :
    entries.set name value = entries := by
  induction entries with
  | nil => cases found
  | cons entry rest inductionHypothesis =>
      obtain ⟨known, old⟩ := entry
      rw [get?_cons] at found
      unfold set
      split
      · next same =>
          obtain rfl := Option.some.inj ((if_pos same.symm).symm.trans found)
          rfl
      · next different =>
          rw [if_neg (Ne.symm different)] at found
          rw [inductionHypothesis found]

theorem mem_of_get?
    {entries : Named α} {name : String} {value : α}
    (found : entries.get? name = some value) :
    (name, value) ∈ entries := by
  obtain ⟨before, after, rfl, _⟩ := List.lookup_eq_some_iff.1 found
  simp

/-- An entry after a change was there before or is the new one. -/
theorem mem_set
    {entries : Named α} {name : String} {value : α} {entry : String × α}
    (member : entry ∈ entries.set name value) :
    entry ∈ entries ∨ entry = (name, value) := by
  induction entries with
  | nil => exact Or.inr (List.mem_singleton.1 member)
  | cons first rest inductionHypothesis =>
      obtain ⟨known, old⟩ := first
      unfold set at member
      split at member
      · next same =>
          subst same
          rcases List.mem_cons.1 member with rfl | later
          · exact Or.inr rfl
          · exact Or.inl (List.mem_cons_of_mem _ later)
      · rcases List.mem_cons.1 member with rfl | later
        · exact Or.inl (List.mem_cons_self ..)
        · exact (inductionHypothesis later).imp_left (List.mem_cons_of_mem _)

/-- An entry after several changes was there before or is one of them. -/
theorem mem_setAll
    {entries changes : Named α} {entry : String × α}
    (member : entry ∈ entries.setAll changes) :
    entry ∈ entries ∨ entry ∈ changes := by
  induction changes generalizing entries with
  | nil => exact Or.inl member
  | cons change rest inductionHypothesis =>
      rcases inductionHypothesis member with early | late
      · rcases mem_set early with old | rfl
        · exact Or.inl old
        · exact Or.inr (List.mem_cons_self ..)
      · exact Or.inr (List.mem_cons_of_mem _ late)

theorem get?_setAll_of_ne
    {entries changes : Named α} {name : String} (unchanged : ∀ change ∈ changes, change.1 ≠ name) :
    (entries.setAll changes).get? name = entries.get? name := by
  induction changes generalizing entries with
  | nil => rfl
  | cons change rest inductionHypothesis =>
      rw [List.forall_mem_cons] at unchanged
      exact (inductionHypothesis unchanged.2).trans (get?_set_of_ne unchanged.1.symm ..)

/-- A name that stands for one thing only is found as that thing. -/
theorem get?_eq_some_of_mem
    {entries : Named α} {name : String} {value : α}
    (only : ∀ other, (name, other) ∈ entries → other = value) (member : (name, value) ∈ entries) :
    entries.get? name = some value := by
  cases found : entries.get? name with
  | some other => rw [only other (mem_of_get? found)]
  | none =>
      have absent := List.lookup_eq_none_iff.1 found _ member
      simp at absent

/-- A name that is changed to one thing only is found as that thing. -/
theorem get?_setAll_of_mem
    {entries changes : Named α} {name : String} {value : α}
    (only : ∀ other, (name, other) ∈ changes → other = value) (member : (name, value) ∈ changes) :
    (entries.setAll changes).get? name = some value := by
  -- The induction is on the changes: the last one of the name counts.
  induction changes generalizing entries with
  | nil => exact absurd member List.not_mem_nil
  | cons change rest inductionHypothesis =>
      have onlyLater : ∀ other, (name, other) ∈ rest → other = value := fun other isLater =>
        only other (List.mem_cons_of_mem _ isLater)
      by_cases again : (name, value) ∈ rest
      · exact inductionHypothesis onlyLater again
      · obtain rfl := (List.mem_cons.1 member).resolve_right again
        have unchanged : ∀ change ∈ rest, change.1 ≠ name := by
          rintro ⟨_, other⟩ isLater rfl
          exact again (onlyLater other isLater ▸ isLater)
        exact (get?_setAll_of_ne unchanged).trans (get?_set_self ..)

/-! ## Names -/

theorem get?_eq_none_iff {entries : Named α} {name : String} :
    entries.get? name = none ↔ name ∉ entries.names := by
  rw [get?, names, List.lookup_eq_none_iff, List.mem_map]
  simp only [bne_iff_ne, not_exists, not_and]
  exact forall₂_congr fun entry _ => ne_comm

theorem set_of_notMem
    {entries : Named α} {name : String} (fresh : name ∉ entries.names) (value : α) :
    entries.set name value = entries ++ [(name, value)] := by
  induction entries with
  | nil => rfl
  | cons entry rest inductionHypothesis =>
      obtain ⟨known, old⟩ := entry
      simp only [names, List.map_cons, List.mem_cons, not_or] at fresh
      rw [set, if_neg (Ne.symm fresh.1), inductionHypothesis fresh.2, List.cons_append]

theorem names_set_of_mem
    {entries : Named α} {name : String} (isKnown : name ∈ entries.names) (value : α) :
    (entries.set name value).names = entries.names := by
  induction entries with
  | nil => cases isKnown
  | cons entry rest inductionHypothesis =>
      obtain ⟨known, old⟩ := entry
      unfold set
      split
      · rfl
      · next different =>
          have inRest : name ∈ names rest :=
            (List.mem_cons.1 isKnown).resolve_left (Ne.symm different)
          exact congrArg (known :: ·) (inductionHypothesis inRest)

theorem mem_names_set
    {entries : Named α} {name other : String} {value : α} :
    other ∈ (entries.set name value).names ↔ other = name ∨ other ∈ entries.names := by
  by_cases isKnown : name ∈ entries.names
  · rw [names_set_of_mem isKnown]
    exact ⟨.inr, fun cases => cases.elim (fun same => same ▸ isKnown) id⟩
  · rw [set_of_notMem isKnown, names, List.map_append, List.mem_append, or_comm]
    simp [names]

/-- Setting a thing keeps the names distinct. -/
theorem nodup_names_set
    {entries : Named α} (distinct : entries.names.Nodup) (name : String) (value : α) :
    (entries.set name value).names.Nodup := by
  by_cases isKnown : name ∈ entries.names
  · rwa [names_set_of_mem isKnown]
  · rw [set_of_notMem isKnown, names, List.map_append, List.nodup_append]
    refine ⟨distinct, List.nodup_singleton _, fun known member other isAdded same => isKnown ?_⟩
    obtain rfl : other = name := List.mem_singleton.1 isAdded
    rwa [← same]

end Named

/-! ## Keys -/

namespace Scalar

/-- What a scalar names an entry by. -/
inductive Identity where
  | null
  | number (value : Rat)
  | infinite (negative : Bool)
  | undefined (mark : Nat)
  | text (s : String)
  | moment (kind : Moment.Kind) (instant : Int)
  | bytes (bytes : List UInt8)

/-- The identity of a scalar. -/
def identity : Scalar → Identity
  | .null => .null
  | .bool b => .number (if b then 1 else 0)
  | .int i => .number i
  | .float (.infinite negative) => .infinite negative
  | .float (.undefined mark) => .undefined mark
  | .float x => .number (x.toRat?.getD 0)
  | .text s => .text s
  | .moment m => .moment m.kind m.instant
  | .bytes bs => .bytes bs

theorem sameKey_iff {first second : Scalar} :
    first.sameKey second = true ↔ first.identity = second.identity := by
  rcases first with _ | b | i | (⟨negative, significand, exponent⟩ | infinite | mark) | s | m | bs <;>
    rcases second with
      _ | b' | i' | (⟨negative', significand', exponent'⟩ | infinite' | mark') | s' | m' | bs' <;>
    simp [sameKey, identity, toRat?, Double.toRat?, Moment.same]

/-- Only a text names the same entry as a text. -/
theorem sameKey_text_iff {key : Scalar} {name : String} :
    key.sameKey (.text name) = true ↔ key = .text name := by
  rw [sameKey_iff]
  cases key with
  | float number => cases number <;> simp [identity]
  | _ => simp [identity]

end Scalar

/-! ## Mappings -/

namespace Entries

variable {α : Type}

/-- Keys that name the same entry find the same value. -/
theorem get?_congr
    (entries : List (Scalar × α)) {first second : Scalar}
    (same : first.sameKey second = true) :
    get? entries first = get? entries second := by
  have identities := Scalar.sameKey_iff.1 same
  have tests (key : Scalar) : key.sameKey first = key.sameKey second := by
    rw [Bool.eq_iff_iff, Scalar.sameKey_iff, Scalar.sameKey_iff, identities]
  simp only [get?, tests]

/-- The new value stands where the old one did. -/
theorem exists_insert
    {entries : List (Scalar × α)} {key : Scalar} {value : α}
    (found : get? entries key = some value) (new : α) :
    ∃ early known late, entries = early ++ (known, value) :: late ∧
      insert entries key new = early ++ (known, new) :: late := by
  induction entries with
  | nil => cases found
  | cons entry rest inductionHypothesis =>
      obtain ⟨known, old⟩ := entry
      unfold insert
      split
      · next same =>
          obtain rfl : old = value := by simpa [get?, same] using found
          exact ⟨[], known, rest, rfl, rfl⟩
      · next different =>
          have inRest : get? rest key = some value := by
            simpa [get?, different] using found
          obtain ⟨early, other, late, isRest, isInserted⟩ := inductionHypothesis inRest
          refine ⟨(known, old) :: early, other, late, ?_, ?_⟩
          · rw [isRest, List.cons_append]
          · rw [isInserted, List.cons_append]

/-- Replacing a value keeps the keys. -/
theorem keys_insert_of_get?
    {entries : List (Scalar × α)} {key : Scalar} {value : α}
    (found : get? entries key = some value) (new : α) :
    (insert entries key new).map (·.1) = entries.map (·.1) := by
  obtain ⟨early, known, late, rfl, inserted⟩ := exists_insert found new
  rw [inserted, List.map_append, List.map_append]
  rfl

theorem get?_insert
    (entries : List (Scalar × α)) (key other : Scalar) (value : α) :
    get? (insert entries key value) other =
      if key.sameKey other then some value else get? entries other := by
  induction entries with
  | nil => cases known : key.sameKey other <;> simp [insert, get?, known]
  | cons entry rest inductionHypothesis =>
      obtain ⟨first, old⟩ := entry
      unfold insert
      split
      · next same =>
          have tests : first.sameKey other = key.sameKey other := by
            rw [Bool.eq_iff_iff, Scalar.sameKey_iff, Scalar.sameKey_iff, Scalar.sameKey_iff.1 same]
          cases known : key.sameKey other <;> simp [get?, tests, known]
      · next different =>
          simp only [get?, List.find?_cons]
          cases isFirst : first.sameKey other with
          | false => exact inductionHypothesis
          | true =>
              have notKey : key.sameKey other = false := by
                rw [Bool.eq_false_iff, Ne, Scalar.sameKey_iff]
                intro same
                rw [Scalar.sameKey_iff] at isFirst different
                exact different (isFirst.trans same.symm)
              simp [notKey]

/-- An entry of a mapping after an insertion was there before or holds the new value. -/
theorem mem_insert
    {entries : List (Scalar × α)} {key : Scalar} {value : α} {entry : Scalar × α}
    (member : entry ∈ insert entries key value) :
    entry ∈ entries ∨ entry.2 = value := by
  induction entries with
  | nil =>
      obtain rfl := List.mem_singleton.1 member
      exact Or.inr rfl
  | cons first rest inductionHypothesis =>
      obtain ⟨known, old⟩ := first
      unfold insert at member
      split at member
      · rcases List.mem_cons.1 member with rfl | later
        · exact Or.inr rfl
        · exact Or.inl (List.mem_cons_of_mem _ later)
      · rcases List.mem_cons.1 member with rfl | later
        · exact Or.inl (List.mem_cons_self ..)
        · exact (inductionHypothesis later).imp_left (List.mem_cons_of_mem _)

/-- The value of an entry after several insertions was there before or is one of the new ones. -/
theorem exists_of_mem_insertAll
    {entries added : List (Scalar × α)} {entry : Scalar × α}
    (member : entry ∈ insertAll entries added) :
    ∃ known ∈ entries ++ added, known.2 = entry.2 := by
  unfold insertAll at member
  induction added generalizing entries with
  | nil => exact ⟨entry, by simpa using member, rfl⟩
  | cons first rest inductionHypothesis =>
      obtain ⟨known, isKnown, same⟩ := inductionHypothesis member
      rcases List.mem_append.1 isKnown with early | late
      · rcases mem_insert early with old | new
        · exact ⟨known, List.mem_append_left _ old, same⟩
        · exact ⟨first, by simp, new.symm.trans same⟩
      · exact ⟨known, by simp [late], same⟩

theorem get?_insert_text
    (entries : List (Scalar × α)) (name : String) (value : α) :
    get? (insert entries (.text name) value) (.text name) = some value := by
  rw [get?_insert, if_pos (Scalar.sameKey_text_iff.2 rfl)]

/-- Storing the value that stands under a key changes nothing. -/
theorem insert_of_get?
    {entries : List (Scalar × α)} {key : Scalar} {value : α}
    (found : get? entries key = some value) :
    insert entries key value = entries := by
  obtain ⟨early, known, late, stated, inserted⟩ := exists_insert found value
  rw [inserted, stated]

end Entries

/-! ## Attributes -/

theorem Value.eq_null_of_isNull {value : Value} (isNull : value.isNull = true) : value = .null := by
  unfold Value.isNull at isNull
  split at isNull
  · rfl
  · cases isNull

namespace Record

theorem get_set_self (record : Record) (name : String) (value : Value) :
    (record.set name value).get name = value := by
  unfold get
  rw [show (record.set name value).lookup name = some value from Named.get?_set_self ..,
    Option.getD_some]

theorem get_set_of_ne
    {name other : String} (different : other ≠ name) (record : Record) (value : Value) :
    (record.set name value).get other = record.get other := by
  unfold get
  rw [show (record.set name value).lookup other = record.lookup other from
    Named.get?_set_of_ne different ..]

theorem set_of_lookup
    {record : Record} {name : String} {value : Value} (found : record.lookup name = some value) :
    record.set name value = record :=
  Named.set_of_get? found

theorem get_of_lookup
    {record : Record} {name : String} {value : Value} (found : record.lookup name = some value) :
    record.get name = value := by
  rw [get, found]
  rfl

/-- An attribute that is set to something is listed with it. -/
theorem lookup_of_has
    {record : Record} {name : String} (has : record.has name = true) :
    record.lookup name = some (record.get name) := by
  unfold Record.has Record.get at *
  cases found : record.lookup name with
  | some value => rfl
  | none =>
      rw [found] at has
      cases has

theorem mem_names_iff {record : Record} {name : String} :
    name ∈ record.names ↔ (record.lookup name).isSome = true := by
  rw [← not_iff_not, ← Named.get?_eq_none_iff, Named.get?, Bool.not_eq_true,
    Option.isSome_eq_false_iff, Option.isNone_iff_eq_none]

theorem setDefault_of_mem
    {record : Record} {name : String} (listed : name ∈ record.names) (value : Value) :
    record.setDefault name value = record := by
  rw [setDefault, if_pos (mem_names_iff.1 listed)]

theorem mem_names_setDefault
    {record : Record} {name other : String} {value : Value} :
    other ∈ (record.setDefault name value).names ↔ other = name ∨ other ∈ record.names := by
  unfold setDefault
  split
  · next known =>
      exact ⟨.inr, fun cases => cases.elim (fun same => same ▸ mem_names_iff.2 known) id⟩
  · exact Named.mem_names_set

/-- An attribute that has one value only, or is left out where that is null, has the value. -/
theorem get_eq_of_mem
    {record : Record} {name : String} {value : Value}
    (only : ∀ other, (name, other) ∈ record → other = value)
    (stated : value.isNull = false → (name, value) ∈ record) :
    record.get name = value := by
  unfold get
  cases found : record.lookup name with
  | some other => exact only other (Named.mem_of_get? found)
  | none =>
      cases isNull : value.isNull with
      | true => exact (Value.eq_null_of_isNull isNull).symm
      | false =>
          rw [show record.lookup name = some value from
            Named.get?_eq_some_of_mem only (stated isNull)] at found
          cases found

end Record

end FirewallPolicy
