import FirewallPolicy.Model.Attributes
import FirewallPolicy.Proofs.Record

/-!
# Written values

A policy document writes scalars and collections, but no log classes: these stand in the
attributes of rules only after they were looked up.  Whatever is taken out of a written value is
written as well.
-/

namespace FirewallPolicy

namespace Value

mutual

/-- Does the value hold no log class? -/
def isWritten : Value → Bool
  | .list items => itemsWritten items
  | .map entries => entriesWritten entries
  | .pair first second => first.isWritten && second.isWritten
  | .loop _ body => body.isWritten
  | .log .. => false
  | _ => true

/-- Do the items hold no log class? -/
def itemsWritten : List Value → Bool
  | [] => true
  | item :: rest => item.isWritten && itemsWritten rest

/-- Do the values of the entries hold no log class? -/
def entriesWritten : List (Scalar × Value) → Bool
  | [] => true
  | (_, value) :: rest => value.isWritten && entriesWritten rest

end

theorem itemsWritten_iff {items : List Value} :
    itemsWritten items = true ↔ ∀ item ∈ items, item.isWritten = true := by
  induction items with
  | nil => simp [itemsWritten]
  | cons item rest inductionHypothesis => simp [itemsWritten, inductionHypothesis]

theorem entriesWritten_iff {entries : Entries} :
    entriesWritten entries = true ↔ ∀ entry ∈ entries, entry.2.isWritten = true := by
  induction entries with
  | nil => simp [entriesWritten]
  | cons entry rest inductionHypothesis =>
      obtain ⟨key, value⟩ := entry
      simp [entriesWritten, inductionHypothesis]

/-! ## Unfolding -/

mutual

theorem isWritten_substitute
    {mark : Nat} {whole : Value} (wholeWritten : whole.isWritten = true)
    (value : Value) (written : value.isWritten = true) :
    (substitute mark whole value).isWritten = true := by
  match value with
  | .list items =>
      rw [isWritten] at written
      rw [substitute, isWritten]
      exact itemsWritten_substitute wholeWritten items written
  | .map entries =>
      rw [isWritten] at written
      rw [substitute, isWritten]
      exact entriesWritten_substitute wholeWritten entries written
  | .pair first second =>
      rw [isWritten, Bool.and_eq_true] at written
      rw [substitute, isWritten, Bool.and_eq_true]
      exact ⟨isWritten_substitute wholeWritten first written.1,
        isWritten_substitute wholeWritten second written.2⟩
  | .loop other body =>
      rw [isWritten] at written
      rw [substitute, isWritten]
      exact isWritten_substitute wholeWritten body written
  | .again other =>
      rw [substitute]
      split
      · exact wholeWritten
      · rfl
  | .scalar s => simpa [substitute] using written
  | .set members => simpa [substitute] using written
  | .log .. => simp [isWritten] at written

theorem itemsWritten_substitute
    {mark : Nat} {whole : Value} (wholeWritten : whole.isWritten = true)
    (items : List Value) (written : itemsWritten items = true) :
    itemsWritten (substituteItems mark whole items) = true := by
  match items with
  | [] => rfl
  | item :: rest =>
      rw [itemsWritten, Bool.and_eq_true] at written
      rw [substituteItems, itemsWritten, Bool.and_eq_true]
      exact ⟨isWritten_substitute wholeWritten item written.1,
        itemsWritten_substitute wholeWritten rest written.2⟩

theorem entriesWritten_substitute
    {mark : Nat} {whole : Value} (wholeWritten : whole.isWritten = true)
    (entries : List (Scalar × Value)) (written : entriesWritten entries = true) :
    entriesWritten (substituteEntries mark whole entries) = true := by
  match entries with
  | [] => rfl
  | (key, value) :: rest =>
      rw [entriesWritten, Bool.and_eq_true] at written
      rw [substituteEntries, entriesWritten, Bool.and_eq_true]
      exact ⟨isWritten_substitute wholeWritten value written.1,
        entriesWritten_substitute wholeWritten rest written.2⟩

end

theorem isWritten_opened
    {value : Value} (written : value.isWritten = true) :
    value.opened.isWritten = true := by
  cases value with
  | loop mark body =>
      have bodyWritten : body.isWritten = true := by simpa [isWritten] using written
      exact isWritten_substitute (by simpa [isWritten] using written) body bodyWritten
  | _ => exact written

/-! ## Parts -/

theorem isWritten_of_entries?
    {value : Value} {entries : Entries}
    (written : value.isWritten = true) (isMap : value.entries? = some entries) :
    ∀ entry ∈ entries, entry.2.isWritten = true := by
  have openedWritten := isWritten_opened written
  unfold entries? at isMap
  split at isMap
  · next same =>
      obtain rfl := Option.some.inj isMap
      rw [same, isWritten] at openedWritten
      exact entriesWritten_iff.1 openedWritten
  · simp at isMap

end Value

theorem Entries.mem_of_get?
    {α : Type} {entries : List (Scalar × α)} {key : Scalar} {value : α}
    (found : get? entries key = some value) :
    ∃ entry ∈ entries, entry.2 = value := by
  obtain ⟨entry, isFound, rfl⟩ := Option.map_eq_some_iff.1 found
  exact ⟨entry, List.mem_of_find?_eq_some isFound, rfl⟩

theorem Entries.isWritten_get?
    {entries : Entries} (written : ∀ entry ∈ entries, entry.2.isWritten = true)
    (key : Scalar) :
    ((get? entries key).getD .null).isWritten = true := by
  cases found : get? entries key with
  | none => rfl
  | some value =>
      obtain ⟨entry, member, rfl⟩ := mem_of_get? found
      exact written entry member

namespace Record

/-- Do the attributes hold no log class? -/
def IsWritten (record : Record) : Prop :=
  ∀ field ∈ record, field.2.isWritten = true

theorem IsWritten.get
    {record : Record} (written : IsWritten record) (name : String) :
    (record.get name).isWritten = true := by
  unfold Record.get
  cases found : record.lookup name with
  | none => rfl
  | some value => exact written (name, value) (Named.mem_of_get? found)

end Record

theorem isWritten_recordOf
    {entries : Entries} (written : ∀ entry ∈ entries, entry.2.isWritten = true) :
    Record.IsWritten (recordOf entries) := by
  intro field member
  obtain ⟨entry, isEntry, taken⟩ := List.mem_filterMap.1 member
  split at taken
  · obtain rfl := Option.some.inj taken
    exact written entry isEntry
  · simp at taken

end FirewallPolicy
