import FirewallPolicy.Proofs.Policy.Merging
import FirewallPolicy.Proofs.Text.Order
import Mathlib.Data.List.Forall2
import Mathlib.Data.List.Perm.Basic

/-!
# Documents in another order

Where the top-level entries of a document are given in another order, or those of the sections of
named objects are, it is merged into the same policy, but for the order of the sections and of the
named objects.
-/

namespace FirewallPolicy

/-! ## Sections in another order -/

namespace SectionData

/-- The same items, or the same entries by key in another order. -/
inductive Reordered : SectionData → SectionData → Prop
  | list (items : List Value) : Reordered (.list items) (.list items)
  | map {entries others : Entries} (distinct : Entries.AreDistinct entries) (perm : entries.Perm others) :
      Reordered (.map entries) (.map others)

/-- The entries that a section states by key. -/
def entries : SectionData → Entries
  | .list _ => []
  | .map entries => entries

/-- No entry is stated by position. -/
def isKeyed : SectionData → Bool
  | .list items => items.isEmpty
  | .map _ => true

namespace Reordered

variable {data other : SectionData} (reordered : data.Reordered other)
include reordered

theorem symm : other.Reordered data := by
  cases reordered with
  | list items => exact .list items
  | map distinct perm => exact .map (distinct.of_perm perm) perm.symm

theorem isKeyed_eq : other.isKeyed = data.isKeyed := by
  cases reordered <;> rfl

theorem isMap_eq : other.isMap = data.isMap := by
  cases reordered <;> rfl

end Reordered

end SectionData

/-- The same value, which is no mapping, or one with the same entries in another order. -/
inductive Value.Reordered : Value → Value → Prop
  | same {value : Value} (noMap : value.entries? = none) : Reordered value value
  | map {value other : Value} {entries others : Entries} (isMap : value.entries? = some entries)
      (otherIsMap : other.entries? = some others) (distinct : Entries.AreDistinct entries)
      (perm : entries.Perm others) :
      Reordered value other

namespace Value.Reordered

variable {value other : Value} (reordered : value.Reordered other)
include reordered

theorem symm : other.Reordered value := by
  cases reordered with
  | same noMap => exact .same noMap
  | map isMap otherIsMap distinct perm =>
      exact .map otherIsMap isMap (distinct.of_perm perm) perm.symm

/-- The values state the same section in another order, or none. -/
theorem ofValue? :
    (SectionData.ofValue? value = none ∧ SectionData.ofValue? other = none) ∨
      ∃ data otherData, SectionData.ofValue? value = some data ∧
        SectionData.ofValue? other = some otherData ∧ data.Reordered otherData := by
  cases reordered with
  | same noMap =>
      unfold SectionData.ofValue?
      split
      · exact .inr ⟨_, _, rfl, rfl, .list _⟩
      · next entries isMap => simp [entries?, isMap] at noMap
      · exact .inl ⟨rfl, rfl⟩
  | @map _ entries others isMap otherIsMap distinct perm =>
      refine .inr ⟨.map entries, .map others, ?_, ?_, .map distinct perm⟩
      · simp [SectionData.ofValue?, opened_of_entries? isMap, Entries.insertAll_nil distinct]
      · simp [SectionData.ofValue?, opened_of_entries? otherIsMap,
          Entries.insertAll_nil (distinct.of_perm perm)]

theorem perm_sectionKeys : value.sectionKeys.Perm other.sectionKeys := by
  cases reordered with
  | same noMap => exact .refl _
  | map isMap otherIsMap distinct perm =>
      unfold sectionKeys
      rw [opened_of_entries? isMap, opened_of_entries? otherIsMap]
      exact perm.map _

end Value.Reordered

/-! ## Documents in another order -/

namespace Policy

/-- The sections whose entries are known by their names. -/
def namedSections : List String := ["zone", "service", "log", "custom", "ipset"]

/-- The same entry, but for the order of the objects in a section of named objects. -/
inductive EntryReordered : Scalar × Value → Scalar × Value → Prop
  | same {key : Scalar} {value : Value} (unnamed : ∀ name ∈ namedSections, key ≠ .text name) :
      EntryReordered (key, value) (key, value)
  | named {name : String} {value other : Value} (isNamed : name ∈ namedSections)
      (reordered : value.Reordered other) :
      EntryReordered (.text name, value) (.text name, other)

/-- The same document, or one with the same top-level entries in another order, in which the objects
of the sections of named objects may be in another order as well. -/
inductive DocumentReordered : Value → Value → Prop
  | same {document : Value} (noMap : document.entries? = none) : DocumentReordered document document
  | map {document other : Value} {entries middle others : Entries}
      (isMap : document.entries? = some entries) (otherIsMap : other.entries? = some others)
      (distinct : Entries.AreDistinct entries)
      (each : List.Forall₂ EntryReordered entries middle) (perm : middle.Perm others) :
      DocumentReordered document other

section Entries

variable {entry other : Scalar × Value} {entries middle others : Entries}

theorem EntryReordered.symm (reordered : EntryReordered entry other) :
    EntryReordered other entry := by
  cases reordered with
  | same unnamed => exact .same unnamed
  | named isNamed reordered => exact .named isNamed reordered.symm

theorem EntryReordered.key_eq (reordered : EntryReordered entry other) : other.1 = entry.1 := by
  cases reordered <;> rfl

theorem EntryReordered.outline_eq (reordered : EntryReordered entry other) :
    outline other = outline entry := by
  cases reordered with
  | same unnamed => rfl
  | named isNamed reordered =>
      rcases reordered.ofValue? with ⟨none, otherNone⟩ | ⟨data, otherData, isData, isOther, same⟩
      · simp [outline, none, otherNone]
      · simp [outline, isData, isOther, same.isMap_eq]

/-- What each entry keeps is kept entry by entry. -/
theorem map_eq_of_reordered
    {α : Type} {view : Scalar × Value → α}
    (keeps : ∀ entry other, EntryReordered entry other → view other = view entry)
    (each : List.Forall₂ EntryReordered entries middle) :
    middle.map view = entries.map view := by
  induction each with
  | nil => rfl
  | cons first _ inductionHypothesis =>
      rw [List.map_cons, List.map_cons, keeps _ _ first, inductionHypothesis]

theorem areDistinct_of_reordered
    (each : List.Forall₂ EntryReordered entries middle) (distinct : Entries.AreDistinct entries) :
    Entries.AreDistinct middle :=
  (Entries.areDistinct_congr
    (map_eq_of_reordered (fun _ _ reordered => reordered.key_eq) each)).2 distinct

/-- Under each key stands the same entry, or none. -/
theorem get?_of_reordered (each : List.Forall₂ EntryReordered entries middle) (key : Scalar) :
    (Entries.get? entries key = none ∧ Entries.get? middle key = none) ∨
      ∃ entry other, EntryReordered entry other ∧ entry.1.sameKey key = true ∧
        Entries.get? entries key = some entry.2 ∧ Entries.get? middle key = some other.2 := by
  induction each with
  | nil => exact .inl ⟨rfl, rfl⟩
  | @cons entry other _ _ first _ inductionHypothesis =>
      rw [Entries.get?_cons, Entries.get?_cons, first.key_eq]
      split
      · next same => exact .inr ⟨entry, other, first, same, rfl, rfl⟩
      · exact inductionHypothesis

section Lookup

variable (distinct : Entries.AreDistinct entries)
  (each : List.Forall₂ EntryReordered entries middle) (perm : middle.Perm others)
include distinct each perm

theorem get?_unnamed {name : String} (unnamed : name ∉ namedSections) :
    Entries.get? others (.text name) = Entries.get? entries (.text name) := by
  rw [Entries.get?_of_perm (areDistinct_of_reordered each distinct) perm]
  rcases get?_of_reordered each (.text name) with
    ⟨none, otherNone⟩ | ⟨entry, other, reordered, sameKey, found, otherFound⟩
  · rw [none, otherNone]
  · rw [found, otherFound]
    cases reordered with
    | same => rfl
    | named isNamed =>
        obtain rfl := Scalar.text.inj (Scalar.sameKey_text_iff.1 sameKey)
        exact absurd isNamed unnamed

theorem get?_named {name : String} (isNamed : name ∈ namedSections) :
    (Entries.get? entries (.text name) = none ∧ Entries.get? others (.text name) = none) ∨
      ∃ value other, Entries.get? entries (.text name) = some value ∧
        Entries.get? others (.text name) = some other ∧ value.Reordered other := by
  rw [Entries.get?_of_perm (areDistinct_of_reordered each distinct) perm]
  refine (get?_of_reordered each (.text name)).imp_right ?_
  rintro ⟨entry, other, reordered, sameKey, found, otherFound⟩
  refine ⟨_, _, found, otherFound, ?_⟩
  cases reordered with
  | same unnamed => exact absurd (Scalar.sameKey_text_iff.1 sameKey) (unnamed name isNamed)
  | named _ reordered => exact reordered

end Lookup

end Entries

theorem DocumentReordered.symm {document other : Value}
    (reordered : DocumentReordered document other) : DocumentReordered other document := by
  cases reordered with
  | same noMap => exact .same noMap
  | @map _ entries middle others isMap otherIsMap distinct each perm =>
      have swapped : Relation.Comp (List.Forall₂ EntryReordered) List.Perm entries others :=
        ⟨middle, each, perm⟩
      rw [List.forall₂_comp_perm_eq_perm_comp_forall₂] at swapped
      obtain ⟨moved, movedPerm, movedEach⟩ := swapped
      refine .map otherIsMap isMap ((areDistinct_of_reordered each distinct).of_perm perm)
        (movedEach.flip.imp fun _ _ reordered => ?_) movedPerm.symm
      exact reordered.symm

/-! ## Merged policies -/

/-- The same policy, but for the order of the sections and of the named objects. -/
structure Reordered (policy other : Policy) : Prop where
  names : other.objects.names.Perm policy.objects.names
  codes : policy.objects.names.Pairwise fun first second => Text.codes first ≠ Text.codes second
  named : ∀ name ∈ namedSections, (policy.dataOf name).Reordered (other.dataOf name)
  unnamed : ∀ name, IsStatedByText name → name ∉ namedSections →
    other.dataOf name = policy.dataOf name
  sources : ∀ name, IsStatedByText name → ∀ key,
    Entries.get? (other.sourcesOf name) key = Entries.get? (policy.sourcesOf name) key
  options : other.options = policy.options

theorem reordered_empty : Reordered {} {} where
  names := .refl _
  codes := List.Pairwise.nil
  named _ _ := .map List.Pairwise.nil (.refl _)
  unnamed _ _ _ := rfl
  sources _ _ _ := rfl
  options := rfl

theorem isStatedByText_of_mem : ∀ name ∈ namedSections, IsStatedByText name := by
  decide +kernel

section Merged

variable {policy other : Policy} {source : String} {entries middle others : Entries}

/-- Sections with different names are spelled differently. -/
theorem codes_addEntries
    (distinct : Entries.AreDistinct entries)
    (run : addEntries {} source entries = (.ok (), policy)) :
    policy.objects.names.Pairwise fun first second => Text.codes first ≠ Text.codes second := by
  have nodup := nodup_names_addEntries run List.nodup_nil
  refine nodup.imp_of_mem fun {first second} isFirst isSecond different => ?_
  have exists_key {name : String} (member : name ∈ policy.objects.names) :
      ∃ entry ∈ entries, entry.1.written = name := by
    obtain ⟨entry, isEntry, isSection⟩ :=
      ((mem_names_addEntries run).1 member).resolve_left List.not_mem_nil
    exact ⟨entry, isEntry, written_of_sectionName isSection⟩
  obtain ⟨entry, isEntry, rfl⟩ := exists_key isFirst
  obtain ⟨further, isFurther, rfl⟩ := exists_key isSecond
  refine (distinct.differs isEntry isFurther ?_).codes different
  rintro rfl
  exact different rfl

/-- Entries in another order are merged into the same policy, but for the order. -/
theorem reordered_of_addEntries
    (distinct : Entries.AreDistinct entries)
    (each : List.Forall₂ EntryReordered entries middle) (perm : middle.Perm others)
    (run : addEntries {} source entries = (.ok (), policy)) :
    ∃ other, addEntries {} source others = (.ok (), other) ∧ policy.Reordered other := by
  have outlines : (entries.map outline).Perm (others.map outline) := by
    rw [← map_eq_of_reordered (fun _ _ reordered => reordered.outline_eq) each]
    exact perm.map _
  have keys : (entries.map (·.1)).Perm (others.map (·.1)) := by
    rw [← map_eq_of_reordered (fun _ _ reordered => reordered.key_eq) each]
    exact perm.map _
  obtain ⟨other, otherRun⟩ := exists_addEntries_of_perm outlines run
  have otherDistinct := (areDistinct_of_reordered each distinct).of_perm perm
  refine ⟨other, otherRun, ?_, codes_addEntries distinct run, fun name isNamed => ?_,
    fun name byText unnamed => ?_, fun name byText key => ?_, ?_⟩
  · refine (List.perm_ext_iff_of_nodup (nodup_names_addEntries otherRun List.nodup_nil)
      (nodup_names_addEntries run List.nodup_nil)).2 fun name => ?_
    have byKeys (entries : Entries) : (∃ entry ∈ entries, sectionName? entry.1 = some name) ↔
        ∃ key ∈ entries.map (·.1), sectionName? key = some name := by
      simp
    rw [mem_names_addEntries otherRun, mem_names_addEntries run, byKeys, byKeys]
    simp only [keys.mem_iff]
  · have byText := isStatedByText_of_mem name isNamed
    unfold dataOf
    rw [(section_addEntries distinct run byText).1, (section_addEntries otherDistinct otherRun byText).1]
    rcases get?_named distinct each perm isNamed with
      ⟨none, otherNone⟩ | ⟨value, otherValue, found, otherFound, reordered⟩
    · rw [none, otherNone]
      exact .map List.Pairwise.nil (.refl _)
    · rw [found, otherFound, Option.bind_some, Option.bind_some]
      rcases reordered.ofValue? with ⟨none, otherNone⟩ | ⟨data, otherData, isData, isOther, same⟩
      · rw [none, otherNone]
        exact .map List.Pairwise.nil (.refl _)
      · rw [isData, isOther]
        exact same
  · unfold dataOf
    rw [(section_addEntries distinct run byText).1, (section_addEntries otherDistinct otherRun byText).1,
      get?_unnamed distinct each perm unnamed]
  · rw [(section_addEntries distinct run byText).2, (section_addEntries otherDistinct otherRun byText).2]
    by_cases isNamed : name ∈ namedSections
    · rcases get?_named distinct each perm isNamed with
        ⟨none, otherNone⟩ | ⟨value, otherValue, found, otherFound, reordered⟩
      · rw [none, otherNone]
      · rw [found, otherFound, Option.map_some, Option.map_some, Option.getD_some, Option.getD_some,
          get?_noted, get?_noted, reordered.perm_sectionKeys.any_eq]
    · rw [get?_unnamed distinct each perm isNamed]
  · rw [options_addEntries distinct run, options_addEntries otherDistinct otherRun,
      get?_unnamed distinct each perm (by decide)]

theorem add_of_entries? {document : Value} (isMap : document.entries? = some entries) :
    policy.add document source = policy.addEntries source entries := by
  unfold add
  rw [Value.opened_of_entries? isMap]

theorem ofDocuments_eq_ok {document : Value} :
    ofDocuments [(document, source)] = .ok policy ↔ add {} document source = (.ok (), policy) := by
  unfold ofDocuments
  rw [List.foldlM_cons]
  cases add {} document source with
  | mk result next =>
      cases result with
      | error failure => simp
      | ok => simp

/-- A document that is no mapping adds nothing. -/
theorem eq_empty_of_noMap
    {document : Value} (noMap : document.entries? = none)
    (run : ofDocuments [(document, source)] = .ok policy) :
    policy = {} := by
  rw [ofDocuments_eq_ok, add] at run
  unfold Value.entries? at noMap
  split at run
  · exact (Prod.mk.inj run).2.symm
  · next entries isMap => simp [isMap] at noMap
  · cases run

/-- A document in another order is merged into the same policy, but for the order. -/
theorem reordered_of_ofDocuments
    {document otherDocument : Value} (reordered : DocumentReordered document otherDocument)
    (run : ofDocuments [(document, source)] = .ok policy) :
    ∃ other, ofDocuments [(otherDocument, source)] = .ok other ∧ policy.Reordered other := by
  cases reordered with
  | same noMap =>
      refine ⟨policy, run, ?_⟩
      rw [eq_empty_of_noMap noMap run]
      exact reordered_empty
  | map isMap otherIsMap distinct each perm =>
      rw [ofDocuments_eq_ok, add_of_entries? isMap] at run
      obtain ⟨other, otherRun, same⟩ := reordered_of_addEntries distinct each perm run
      refine ⟨other, ?_, same⟩
      rw [ofDocuments_eq_ok, add_of_entries? otherIsMap]
      exact otherRun

end Merged

end Policy

end FirewallPolicy
