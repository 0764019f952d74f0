import FirewallPolicy.Proofs.Record
import FirewallPolicy.Proofs.Text.Unbroken
import FirewallPolicy.Proofs.Value.Written
import FirewallPolicy.Value.Amount

/-!
# Values on one line

A value of a document is written on one line when no text in it has a line break.  Whatever is
taken out of such a value is another one.
-/

namespace FirewallPolicy

open Text

/-- Has the scalar no line break? -/
def Scalar.isUnbroken : Scalar → Bool
  | .text s => decide (IsUnbroken s)
  | _ => true

namespace Value

mutual

/-- Does a document write the value, and has no text in it a line break?  Documents write no log
classes. -/
def isUnbroken : Value → Bool
  | .scalar s => s.isUnbroken
  | .list items => itemsUnbroken items
  | .map entries => entriesUnbroken entries
  | .set members => members.all Scalar.isUnbroken
  | .pair first second => first.isUnbroken && second.isUnbroken
  | .loop _ body => body.isUnbroken
  | .again _ => true
  | .log .. => false

/-- Have the items no line break? -/
def itemsUnbroken : List Value → Bool
  | [] => true
  | item :: rest => item.isUnbroken && itemsUnbroken rest

/-- Have the keys and values of the entries no line break? -/
def entriesUnbroken : List (Scalar × Value) → Bool
  | [] => true
  | (key, value) :: rest => key.isUnbroken && value.isUnbroken && entriesUnbroken rest

end

end Value

/-- No key and no value of the mapping has a line break. -/
def Entries.IsUnbroken (entries : Entries) : Prop :=
  ∀ entry ∈ entries, entry.1.isUnbroken = true ∧ entry.2.isUnbroken = true

instance (entries : Entries) : Decidable entries.IsUnbroken :=
  inferInstanceAs (Decidable (∀ entry ∈ entries,
    entry.1.isUnbroken = true ∧ entry.2.isUnbroken = true))

/-- No attribute of the record has a line break. -/
def Record.IsUnbroken (record : Record) : Prop :=
  ∀ field ∈ record, field.2.isUnbroken = true

namespace Value

@[simp]
theorem isUnbroken_text {s : String} : (Value.text s).isUnbroken = true ↔ Text.IsUnbroken s := by
  simp [isUnbroken, Scalar.isUnbroken]

@[simp]
theorem isUnbroken_list {items : List Value} :
    (Value.list items).isUnbroken = true ↔ ∀ item ∈ items, item.isUnbroken = true := by
  rw [isUnbroken]
  induction items with
  | nil => simp [itemsUnbroken]
  | cons item rest inductionHypothesis => simp [itemsUnbroken, inductionHypothesis]

@[simp]
theorem isUnbroken_map {entries : Entries} :
    (Value.map entries).isUnbroken = true ↔ entries.IsUnbroken := by
  rw [isUnbroken]
  induction entries with
  | nil => simp [entriesUnbroken, Entries.IsUnbroken]
  | cons entry rest inductionHypothesis =>
      obtain ⟨key, value⟩ := entry
      unfold Entries.IsUnbroken at inductionHypothesis ⊢
      rw [List.forall_mem_cons, entriesUnbroken, Bool.and_eq_true, Bool.and_eq_true,
        inductionHypothesis]

@[simp]
theorem isUnbroken_set {members : List Scalar} :
    (Value.set members).isUnbroken = true ↔ ∀ member ∈ members, member.isUnbroken = true := by
  simp [isUnbroken]

@[simp]
theorem isUnbroken_pair {first second : Value} :
    (Value.pair first second).isUnbroken = true ↔
      first.isUnbroken = true ∧ second.isUnbroken = true := by
  simp [isUnbroken]

/-! ## Unfolding -/

mutual

theorem isUnbroken_substitute
    {mark : Nat} {whole : Value} (wholeUnbroken : whole.isUnbroken = true)
    (value : Value) (unbroken : value.isUnbroken = true) :
    (substitute mark whole value).isUnbroken = true := by
  match value with
  | .list items =>
      rw [isUnbroken] at unbroken
      rw [substitute, isUnbroken]
      exact itemsUnbroken_substitute wholeUnbroken items unbroken
  | .map entries =>
      rw [isUnbroken] at unbroken
      rw [substitute, isUnbroken]
      exact entriesUnbroken_substitute wholeUnbroken entries unbroken
  | .pair first second =>
      rw [isUnbroken_pair] at unbroken
      rw [substitute, isUnbroken_pair]
      exact ⟨isUnbroken_substitute wholeUnbroken first unbroken.1,
        isUnbroken_substitute wholeUnbroken second unbroken.2⟩
  | .loop other body =>
      rw [isUnbroken] at unbroken
      rw [substitute, isUnbroken]
      exact isUnbroken_substitute wholeUnbroken body unbroken
  | .again other =>
      rw [substitute]
      split
      · exact wholeUnbroken
      · rfl
  | .scalar s => simpa [substitute] using unbroken
  | .set members => simpa [substitute] using unbroken
  | .log .. => simp [isUnbroken] at unbroken

theorem itemsUnbroken_substitute
    {mark : Nat} {whole : Value} (wholeUnbroken : whole.isUnbroken = true)
    (items : List Value) (unbroken : itemsUnbroken items = true) :
    itemsUnbroken (substituteItems mark whole items) = true := by
  match items with
  | [] => rfl
  | item :: rest =>
      rw [itemsUnbroken, Bool.and_eq_true] at unbroken
      rw [substituteItems, itemsUnbroken, Bool.and_eq_true]
      exact ⟨isUnbroken_substitute wholeUnbroken item unbroken.1,
        itemsUnbroken_substitute wholeUnbroken rest unbroken.2⟩

theorem entriesUnbroken_substitute
    {mark : Nat} {whole : Value} (wholeUnbroken : whole.isUnbroken = true)
    (entries : List (Scalar × Value)) (unbroken : entriesUnbroken entries = true) :
    entriesUnbroken (substituteEntries mark whole entries) = true := by
  match entries with
  | [] => rfl
  | (key, value) :: rest =>
      rw [entriesUnbroken, Bool.and_eq_true, Bool.and_eq_true] at unbroken
      rw [substituteEntries, entriesUnbroken, Bool.and_eq_true, Bool.and_eq_true]
      exact ⟨⟨unbroken.1.1, isUnbroken_substitute wholeUnbroken value unbroken.1.2⟩,
        entriesUnbroken_substitute wholeUnbroken rest unbroken.2⟩

end

theorem isUnbroken_opened
    {value : Value} (unbroken : value.isUnbroken = true) :
    value.opened.isUnbroken = true := by
  cases value with
  | loop mark body =>
      have bodyUnbroken : body.isUnbroken = true := by simpa [isUnbroken] using unbroken
      exact isUnbroken_substitute (by simpa [isUnbroken] using unbroken) body bodyUnbroken
  | _ => exact unbroken

/-! ## Parts -/

theorem isUnbroken_of_entries?
    {value : Value} {entries : Entries}
    (unbroken : value.isUnbroken = true) (isMap : value.entries? = some entries) :
    entries.IsUnbroken := by
  have openedUnbroken := isUnbroken_opened unbroken
  unfold entries? at isMap
  split at isMap
  · next same =>
      obtain rfl := Option.some.inj isMap
      rw [same, isUnbroken_map] at openedUnbroken
      exact openedUnbroken
  · simp at isMap

theorem isUnbroken_of_mem_toItems
    {value item : Value} (unbroken : value.isUnbroken = true) (member : item ∈ value.toItems) :
    item.isUnbroken = true := by
  have openedUnbroken := isUnbroken_opened unbroken
  unfold toItems at member
  split at member
  · simp at member
  · next same =>
      rw [same, isUnbroken_list] at openedUnbroken
      exact openedUnbroken item member
  · next same =>
      rw [same, isUnbroken_pair] at openedUnbroken
      simp only [List.mem_cons, List.not_mem_nil, or_false] at member
      rcases member with rfl | rfl
      · exact openedUnbroken.1
      · exact openedUnbroken.2
  · obtain rfl := List.mem_singleton.1 member
    exact unbroken

end Value

namespace Entries

theorem isUnbroken_get?
    {entries : Entries} (unbroken : entries.IsUnbroken) (key : Scalar) :
    ((get? entries key).getD .null).isUnbroken = true := by
  cases found : get? entries key with
  | none => rfl
  | some value =>
      obtain ⟨entry, member, rfl⟩ := mem_of_get? found
      exact (unbroken entry member).2

theorem isUnbroken_of_get?
    {entries : Entries} {key : Scalar} {value : Value}
    (unbroken : entries.IsUnbroken) (found : get? entries key = some value) :
    value.isUnbroken = true := by
  have isUnbroken := isUnbroken_get? unbroken key
  rwa [found] at isUnbroken

/-- Keys and values of a mapping after an insertion are known or new. -/
theorem forall_mem_insert
    {α : Type} (keys : Scalar → Prop) (values : α → Prop) {entries : List (Scalar × α)}
    {key : Scalar} {value : α}
    (each : ∀ entry ∈ entries, keys entry.1 ∧ values entry.2)
    (isKey : keys key) (isValue : values value) :
    ∀ entry ∈ insert entries key value, keys entry.1 ∧ values entry.2 := by
  induction entries with
  | nil => simpa [insert] using ⟨isKey, isValue⟩
  | cons first rest inductionHypothesis =>
      obtain ⟨known, old⟩ := first
      rw [List.forall_mem_cons] at each
      unfold insert
      split
      · exact List.forall_mem_cons.2 ⟨⟨each.1.1, isValue⟩, each.2⟩
      · exact List.forall_mem_cons.2 ⟨each.1, inductionHypothesis each.2⟩

theorem IsUnbroken.insert
    {entries : Entries} {key : Scalar} {value : Value} (unbroken : entries.IsUnbroken)
    (isKey : key.isUnbroken = true) (isValue : value.isUnbroken = true) :
    IsUnbroken (Entries.insert entries key value) :=
  forall_mem_insert (Scalar.isUnbroken · = true) (Value.isUnbroken · = true) unbroken isKey isValue

theorem IsUnbroken.insertAll
    {entries added : Entries} (unbroken : entries.IsUnbroken) (further : added.IsUnbroken) :
    IsUnbroken (Entries.insertAll entries added) := by
  unfold Entries.insertAll
  induction added generalizing entries with
  | nil => exact unbroken
  | cons first rest inductionHypothesis =>
      obtain ⟨isFirst, isRest⟩ := List.forall_mem_cons.1 further
      exact inductionHypothesis (unbroken.insert isFirst.1 isFirst.2) isRest

end Entries

namespace Record

theorem IsUnbroken.get
    {record : Record} (unbroken : record.IsUnbroken) (name : String) :
    (record.get name).isUnbroken = true := by
  unfold Record.get
  cases found : record.lookup name with
  | none => rfl
  | some value => exact unbroken (name, value) (Named.mem_of_get? found)

theorem IsUnbroken.set
    {record : Record} {name : String} {value : Value} (unbroken : record.IsUnbroken)
    (isValue : value.isUnbroken = true) : (record.set name value).IsUnbroken := by
  intro field member
  rcases Named.mem_set member with old | rfl
  · exact unbroken field old
  · exact isValue

theorem IsUnbroken.setDefault
    {record : Record} {name : String} {value : Value} (unbroken : record.IsUnbroken)
    (isValue : value.isUnbroken = true) : (record.setDefault name value).IsUnbroken := by
  unfold Record.setDefault
  split
  · exact unbroken
  · exact unbroken.set isValue

end Record

/-! ## Writing -/

namespace Double

theorem newline_notMem_shortest (significand : Nat) (exponent : Int) :
    '\n' ∉ (shortest significand exponent).digits := by
  have found (interval : RoundingInterval) (value unit : Nat × Nat) (order : Int)
      (remaining length : Nat) :
      '\n' ∉ (shortestFrom interval value unit order remaining length).digits := by
    induction remaining generalizing length with
    | zero => simp [shortestFrom]
    | succ remaining inductionHypothesis =>
        unfold shortestFrom
        extract_lets exponent
        split
        · exact newline_notMem_toDigits 10 _
        · exact inductionHypothesis _
  unfold shortest
  dsimp only
  intro member
  rw [List.mem_reverse] at member
  exact found _ _ _ _ _ _ (List.mem_reverse.1 ((List.dropWhile_sublist _).subset member))

theorem newline_notMem_decimal {decimal : Decimal} (unbroken : '\n' ∉ decimal.digits) :
    '\n' ∉ decimal.written := by
  have taken (count : Nat) : '\n' ∉ decimal.digits.take count :=
    fun member => unbroken (List.mem_of_mem_take member)
  have dropped (count : Nat) : '\n' ∉ decimal.digits.drop count :=
    fun member => unbroken (List.mem_of_mem_drop member)
  have exponent (exponent : Int) : '\n' ∉ exponentText exponent := by
    unfold exponentText
    extract_lets digits
    have noBreak : '\n' ∉ digits := newline_notMem_toDigits 10 _
    split <;> simp [noBreak]
  unfold Decimal.written
  extract_lets digits point whole fraction
  have isUnbroken : '\n' ∉ digits := unbroken
  split
  · split
    · simp [isUnbroken]
    · split
      · simp [isUnbroken]
      · simp [digits, taken, dropped]
  · have noBreak : '\n' ∉ fraction := dropped 1
    split <;> simp [digits, taken, noBreak, exponent]

theorem isUnbroken_written (x : Double) : Text.IsUnbroken x.written := by
  cases x with
  | finite negative significand exponent =>
      have size : '\n' ∉
          if significand = 0 then ['0', '.', '0'] else (shortest significand exponent).written := by
        split
        · decide
        · exact newline_notMem_decimal (newline_notMem_shortest _ _)
      simp only [written, Text.isUnbroken_ofList]
      split
      · simpa using size
      · exact size
  | infinite negative => cases negative <;> decide
  | undefined negative => exact (by decide : Text.IsUnbroken "nan")

end Double

namespace Moment

theorem isUnbroken_padded (width n : Nat) : Text.IsUnbroken (padded width n) := by
  simp [padded, newline_notMem_toDigits]

theorem isUnbroken_written (moment : Moment) : Text.IsUnbroken moment.written := by
  have offset (minutes : Int) : Text.IsUnbroken (offsetText minutes) := by
    unfold offsetText
    split <;> simpa [isUnbroken_padded] using by decide
  have zone : Text.IsUnbroken ((moment.offset.map offsetText).getD "") := by
    cases moment.offset with
    | none => decide
    | some minutes => exact offset minutes
  unfold written
  extract_lets date
  have isDate : Text.IsUnbroken date := by
    simpa [date, isUnbroken_padded] using by decide
  split
  · exact isDate
  · split <;> simpa [isDate, isUnbroken_padded, zone] using by decide

theorem isUnbroken_listing (moment : Moment) : Text.IsUnbroken moment.listing := by
  have offset (minutes : Int) : Text.IsUnbroken (offsetListing minutes) := by
    unfold offsetListing
    split_ifs
    · decide
    · simpa using by decide
    · simpa using by decide
  unfold listing
  extract_lets date numbers
  have listed (list : List Nat) : Text.IsUnbroken (numbers list) := by
    refine isUnbroken_intercalate (by decide) fun part member => ?_
    obtain ⟨n, _, rfl⟩ := List.mem_map.1 member
    exact isUnbroken_natRepr n
  clear_value numbers
  split
  · simpa [listed] using by decide
  · extract_lets time
    cases moment.offset with
    | none => simpa [listed] using by decide
    | some minutes => simpa [listed, offset] using by decide

end Moment

theorem isUnbroken_wholeText (i : Int) : Text.IsUnbroken (wholeText i) := by
  unfold wholeText
  split
  · exact isUnbroken_intRepr i
  · decide

theorem Scalar.isUnbroken_written
    {s : Scalar} (unbroken : s.isUnbroken = true) : Text.IsUnbroken s.written := by
  cases s with
  | null => decide
  | bool b => cases b <;> decide
  | int i => exact isUnbroken_wholeText i
  | float x => exact x.isUnbroken_written
  | text s => exact of_decide_eq_true unbroken
  | moment m => exact m.isUnbroken_written
  | bytes bs => exact isUnbroken_quotedBytes bs

theorem Scalar.isUnbroken_quoted (s : Scalar) : Text.IsUnbroken s.quoted := by
  cases s with
  | text s => exact Text.isUnbroken_quoted s
  | moment m => exact m.isUnbroken_listing
  | _ => exact Scalar.isUnbroken_written rfl

namespace Value

theorem isUnbroken_ellipsis (value : Value) : Text.IsUnbroken value.ellipsis := by
  unfold ellipsis
  split <;> decide

theorem isUnbroken_quotedMembers (members : List Scalar) :
    Text.IsUnbroken (quotedMembers members) := by
  have listed : Text.IsUnbroken (", ".intercalate (members.map Scalar.quoted)) := by
    refine isUnbroken_intercalate (by decide) fun part member => ?_
    obtain ⟨s, _, rfl⟩ := List.mem_map.1 member
    exact s.isUnbroken_quoted
  unfold quotedMembers
  split
  · decide
  · simpa [listed] using by decide

theorem isUnbroken_of_lookup
    {loops : List (Nat × String)} {mark : Nat} {text : String}
    (shown : ∀ loop ∈ loops, Text.IsUnbroken loop.2) (found : loops.lookup mark = some text) :
    Text.IsUnbroken text := by
  obtain ⟨before, after, rfl, -⟩ := List.lookup_eq_some_iff.1 found
  exact shown (mark, text) (by simp)

mutual

/-- Inside a collection every text is quoted; only log classes are shown as they are named. -/
theorem isUnbroken_quotedWithin
    {loops : List (Nat × String)} (shown : ∀ loop ∈ loops, Text.IsUnbroken loop.2)
    (value : Value) (unbroken : value.isUnbroken = true) :
    Text.IsUnbroken (quotedWithin loops value) := by
  match value with
  | .scalar s =>
      rw [quotedWithin]
      exact s.isUnbroken_quoted
  | .list items =>
      rw [isUnbroken] at unbroken
      have listed := isUnbroken_intercalate (show Text.IsUnbroken ", " by decide)
        (isUnbroken_quotedItems shown items unbroken)
      rw [quotedWithin]
      simpa [listed] using by decide
  | .map entries =>
      rw [isUnbroken] at unbroken
      have listed := isUnbroken_intercalate (show Text.IsUnbroken ", " by decide)
        (isUnbroken_quotedEntries shown entries unbroken)
      rw [quotedWithin]
      simpa [listed] using by decide
  | .set members =>
      rw [quotedWithin]
      exact isUnbroken_quotedMembers members
  | .pair first second =>
      rw [isUnbroken_pair] at unbroken
      have firstShown := isUnbroken_quotedWithin shown first unbroken.1
      have secondShown := isUnbroken_quotedWithin shown second unbroken.2
      rw [quotedWithin]
      simpa [firstShown, secondShown] using by decide
  | .loop mark body =>
      rw [isUnbroken] at unbroken
      rw [quotedWithin]
      split
      · next text found => exact isUnbroken_of_lookup shown found
      · exact isUnbroken_quotedWithin
          (List.forall_mem_cons.2 ⟨body.isUnbroken_ellipsis, shown⟩) body unbroken
  | .again mark =>
      rw [quotedWithin]
      cases found : loops.lookup mark with
      | some text => exact isUnbroken_of_lookup shown found
      | none => decide
  | .log .. => simp [isUnbroken] at unbroken

theorem isUnbroken_quotedItems
    {loops : List (Nat × String)} (shown : ∀ loop ∈ loops, Text.IsUnbroken loop.2)
    (items : List Value) (unbroken : itemsUnbroken items = true) :
    ∀ part ∈ quotedItems loops items, Text.IsUnbroken part := by
  match items with
  | [] => simp [quotedItems]
  | item :: rest =>
      rw [itemsUnbroken, Bool.and_eq_true] at unbroken
      rw [quotedItems, List.forall_mem_cons]
      exact ⟨isUnbroken_quotedWithin shown item unbroken.1,
        isUnbroken_quotedItems shown rest unbroken.2⟩

theorem isUnbroken_quotedEntries
    {loops : List (Nat × String)} (shown : ∀ loop ∈ loops, Text.IsUnbroken loop.2)
    (entries : List (Scalar × Value)) (unbroken : entriesUnbroken entries = true) :
    ∀ part ∈ quotedEntries loops entries, Text.IsUnbroken part := by
  match entries with
  | [] => simp [quotedEntries]
  | (key, value) :: rest =>
      rw [entriesUnbroken, Bool.and_eq_true, Bool.and_eq_true] at unbroken
      have valueShown := isUnbroken_quotedWithin shown value unbroken.1.2
      rw [quotedEntries, List.forall_mem_cons]
      refine ⟨?_, isUnbroken_quotedEntries shown rest unbroken.2⟩
      simpa [key.isUnbroken_quoted, valueShown] using by decide

end

theorem isUnbroken_written
    {value : Value} (unbroken : value.isUnbroken = true) : Text.IsUnbroken value.written := by
  have quoted : Text.IsUnbroken value.quoted :=
    isUnbroken_quotedWithin (by simp) value unbroken
  cases value with
  | scalar s => exact Scalar.isUnbroken_written unbroken
  | _ => exact quoted

theorem isUnbroken_amountText
    {value : Value} (unbroken : value.isUnbroken = true) : Text.IsUnbroken value.amountText := by
  unfold amountText
  split
  · split
    · exact isUnbroken_wholeText _
    · exact Double.isUnbroken_written _
  · exact isUnbroken_written unbroken

end Value

theorem Amount.isUnbroken_written (amount : Amount) : Text.IsUnbroken amount.written := by
  cases amount with
  | int i => exact isUnbroken_wholeText i
  | float x => exact x.isUnbroken_written

end FirewallPolicy
