import FirewallPolicy.Proofs.Policy.Merging
import FirewallPolicy.Settings
import Mathlib.Data.List.Induction
import Mathlib.Data.List.Perm.Basic

/-!
# Options of several documents

The options of all documents are merged under the names that the documents spell them with, and
only then the current names are put in.  So an option has the value of the last document that sets
it under its current name, and only where no document does, that of the last one that sets it under
its hyphenated name.  The last document that sets it at all is overruled where it spells the name
with hyphens and an earlier one does not.
-/

namespace FirewallPolicy

/-! ## Merging layers of entries -/

namespace Entries

variable {α : Type} {entries added : List (Scalar × α)}

/-- No two keys name the same entry, whatever they are written like. -/
def AreApart (entries : List (Scalar × α)) : Prop :=
  entries.Pairwise fun first second => first.1.sameKey second.1 = false

theorem areApart_insert (apart : AreApart entries) (key : Scalar) (value : α) :
    AreApart (insert entries key value) := by
  cases known : get? entries key with
  | some old =>
      have byKeys (entries : List (Scalar × α)) :
          AreApart entries ↔
            (entries.map (·.1)).Pairwise fun first second => first.sameKey second = false := by
        rw [List.pairwise_map]
        rfl
      rw [byKeys, keys_insert_of_get? known, ← byKeys]
      exact apart
  | none =>
      have fresh := get?_eq_none_iff.1 known
      rw [insert_of_fresh fresh]
      refine List.pairwise_append.2 ⟨apart, List.pairwise_singleton .., fun entry member new isNew => ?_⟩
      rw [List.mem_singleton.1 isNew]
      exact fresh entry member

theorem areApart_insertAll (apart : AreApart entries) (added : List (Scalar × α)) :
    AreApart (insertAll entries added) := by
  induction added generalizing entries with
  | nil => exact apart
  | cons entry rest inductionHypothesis => exact inductionHypothesis (areApart_insert apart ..)

theorem get?_insertAll (apart : AreApart added) (key : Scalar) :
    get? (insertAll entries added) key = (get? added key).or (get? entries key) := by
  induction added generalizing entries with
  | nil => rfl
  | cons entry rest inductionHypothesis =>
      obtain ⟨first, value⟩ := entry
      obtain ⟨differs, apart⟩ := List.pairwise_cons.1 apart
      rw [insertAll, List.foldl_cons, ← insertAll, inductionHypothesis apart, get?_insert, get?_cons]
      cases same : first.sameKey key with
      | false => rfl
      | true =>
          have absent : get? rest key = none := by
            rw [← get?_congr rest same, get?_eq_none_iff]
            exact fun entry member => (Scalar.sameKey_comm ..).trans (differs entry member)
          rw [absent]
          rfl

/-- The value under the key in the last layer that has one. -/
def lastValue (layers : List (List (Scalar × α))) (key : Scalar) : Option α :=
  layers.reverse.findSome? fun layer => get? layer key

theorem lastValue_concat (layers : List (List (Scalar × α))) (layer : List (Scalar × α))
    (key : Scalar) :
    lastValue (layers ++ [layer]) key = (get? layer key).or (lastValue layers key) := by
  simp only [lastValue, List.reverse_append, List.reverse_cons, List.reverse_nil, List.nil_append,
    List.cons_append, List.findSome?_cons]
  cases get? layer key <;> rfl

/-- The layers put upon each other, later ones overriding earlier ones. -/
def overlay (layers : List (List (Scalar × α))) : List (Scalar × α) :=
  layers.foldl insertAll []

theorem overlay_concat (layers : List (List (Scalar × α))) (layer : List (Scalar × α)) :
    overlay (layers ++ [layer]) = insertAll (overlay layers) layer :=
  List.foldl_append ..

theorem areApart_overlay (layers : List (List (Scalar × α))) : AreApart (overlay layers) := by
  induction layers using List.reverseRecOn with
  | nil => exact List.Pairwise.nil
  | append_singleton layers layer inductionHypothesis =>
      rw [overlay_concat]
      exact areApart_insertAll inductionHypothesis layer

/-- Of layers put upon each other, the last one that has the key is read. -/
theorem get?_overlay {layers : List (List (Scalar × α))}
    (apart : ∀ layer ∈ layers, AreApart layer) (key : Scalar) :
    get? (overlay layers) key = lastValue layers key := by
  induction layers using List.reverseRecOn with
  | nil => rfl
  | append_singleton layers layer inductionHypothesis =>
      rw [overlay_concat, lastValue_concat, get?_insertAll (apart layer (by simp)),
        inductionHypothesis fun layer member => apart layer (List.mem_append_left _ member)]

/-! ### Keys that are texts -/

/-- All keys are texts. -/
def HasTextKeys (entries : List (Scalar × α)) : Prop :=
  ∀ entry ∈ entries, ∃ name, entry.1 = .text name

theorem hasTextKeys_insert (textual : HasTextKeys entries) (name : String) (value : α) :
    HasTextKeys (insert entries (.text name) value) := by
  induction entries with
  | nil =>
      intro entry member
      exact ⟨name, congrArg Prod.fst (List.mem_singleton.1 member)⟩
  | cons entry rest inductionHypothesis =>
      obtain ⟨known, old⟩ := entry
      obtain ⟨isText, textual⟩ := List.forall_mem_cons.1 textual
      unfold insert
      split
      · exact List.forall_mem_cons.2 ⟨isText, textual⟩
      · exact List.forall_mem_cons.2 ⟨isText, inductionHypothesis textual⟩

theorem hasTextKeys_insertAll (textual : HasTextKeys entries) (named : HasTextKeys added) :
    HasTextKeys (insertAll entries added) := by
  induction added generalizing entries with
  | nil => exact textual
  | cons entry rest inductionHypothesis =>
      obtain ⟨key, value⟩ := entry
      obtain ⟨⟨name, rfl⟩, namedRest⟩ := List.forall_mem_cons.1 named
      exact inductionHypothesis (hasTextKeys_insert textual name value) namedRest

theorem hasTextKeys_overlay {layers : List (List (Scalar × α))}
    (textual : ∀ layer ∈ layers, HasTextKeys layer) : HasTextKeys (overlay layers) := by
  induction layers using List.reverseRecOn with
  | nil => exact nofun
  | append_singleton layers layer inductionHypothesis =>
      rw [overlay_concat]
      exact hasTextKeys_insertAll
        (inductionHypothesis fun layer member => textual layer (List.mem_append_left _ member))
        (textual layer (by simp))

/-- Only texts are found among keys that are texts. -/
theorem HasTextKeys.get?_eq_none (textual : HasTextKeys entries) {key : Scalar}
    (notText : ∀ name, key ≠ .text name) : get? entries key = none := by
  refine get?_eq_none_iff.2 fun entry member => ?_
  obtain ⟨name, isText⟩ := textual entry member
  rw [isText, Scalar.sameKey_comm, Bool.eq_false_iff]
  exact fun same => notText name (Scalar.sameKey_text_iff.1 same)

end Entries

/-! ## Current names -/

namespace Settings

/-- The hyphenated name of an option that has one. -/
def legacyName? (name : String) : Option String :=
  (legacyNames.find? fun names => names.2 = name).map (·.1)

theorem canonicalName_cases (name : String) :
    canonicalName name = name ∨ (name, canonicalName name) ∈ legacyNames := by
  unfold canonicalName
  cases found : legacyNames.lookup name with
  | none => exact .inl rfl
  | some current =>
      obtain ⟨before, after, names, -⟩ := List.lookup_eq_some_iff.1 found
      exact .inr (names ▸ by simp)

theorem canonicalName_idem (name : String) :
    canonicalName (canonicalName name) = canonicalName name := by
  have current : ∀ names ∈ legacyNames, canonicalName names.2 = names.2 := by decide
  rcases canonicalName_cases name with same | member
  · rw [same, same]
  · exact current _ member

theorem legacyName?_eq_some_iff {name old : String} :
    legacyName? name = some old ↔ canonicalName old = name ∧ old ≠ name := by
  have paired : ∀ names ∈ legacyNames, canonicalName names.1 = names.2 ∧ names.1 ≠ names.2 ∧
      legacyName? names.2 = some names.1 := by
    decide
  constructor
  · intro found
    obtain ⟨names, isFirst, rfl⟩ := Option.map_eq_some_iff.1 found
    have isCurrent : names.2 = name := by simpa using List.find?_some isFirst
    obtain ⟨current, different, -⟩ := paired names (List.mem_of_find?_eq_some isFirst)
    exact isCurrent ▸ ⟨current, different⟩
  · rintro ⟨rfl, different⟩
    rcases canonicalName_cases old with same | member
    · exact absurd same.symm different
    · exact (paired _ member).2.2

/-- A current name is no hyphenated one. -/
theorem canonicalName_ne_of_legacyName? {name old : String} (isOld : legacyName? name = some old) :
    canonicalName old ≠ old := by
  obtain ⟨rfl, different⟩ := legacyName?_eq_some_iff.1 isOld
  exact fun same => different same.symm

/-! ## Taking options over -/

open Entries

/-- Options whose names are different texts. -/
structure AreNamed (options : Entries) : Prop where
  textual : HasTextKeys options
  apart : AreApart options

theorem hasTextKeys_migrateOne {result : Entries} (textual : HasTextKeys result)
    (option : Scalar × Value) : HasTextKeys (migrateOne result option) := by
  unfold migrateOne
  dsimp only
  split
  · exact textual
  · exact hasTextKeys_insert textual (canonicalKey option.1).written option.2

theorem areApart_migrateOne {result : Entries} (apart : AreApart result)
    (option : Scalar × Value) : AreApart (migrateOne result option) := by
  unfold migrateOne
  dsimp only
  split
  · exact apart
  · exact areApart_insert apart ..

theorem migrate_concat (options : Entries) (option : Scalar × Value) :
    migrate (options ++ [option]) = migrateOne (migrate options) option :=
  List.foldl_append ..

theorem areNamed_migrate (options : Entries) : AreNamed (migrate options) := by
  induction options using List.reverseRecOn with
  | nil => exact ⟨nofun, List.Pairwise.nil⟩
  | append_singleton options option inductionHypothesis =>
      rw [migrate_concat]
      exact ⟨hasTextKeys_migrateOne inductionHypothesis.textual option,
        areApart_migrateOne inductionHypothesis.apart option⟩

theorem get?_migrateOne_current (result : Entries) {known : String}
    (current : canonicalName known = known) (value : Value) (name : String) :
    get? (migrateOne result (.text known, value)) (.text name) =
      if known = name then some value else get? result (.text name) := by
  simp only [migrateOne, canonicalKey, current, bne_self_eq_false, Bool.false_and,
    Bool.false_eq_true, if_false, Scalar.written, get?_insert, Scalar.sameKey_text_iff,
    Scalar.text.injEq]

theorem get?_migrateOne_legacy (result : Entries) {known : String}
    (legacy : canonicalName known ≠ known) (value : Value) (name : String) :
    get? (migrateOne result (.text known, value)) (.text name) =
      if canonicalName known = name then (get? result (.text name)).or (some value)
      else get? result (.text name) := by
  have different : (canonicalKey (.text known) != .text known) = true := by
    simpa [canonicalKey] using legacy
  simp only [migrateOne, different, Bool.true_and]
  cases found : get? result (canonicalKey (.text known)) with
  | some old =>
      rw [Option.isSome_some, if_pos rfl]
      split
      · next same =>
          subst same
          rw [show get? result (.text (canonicalName known)) = some old from found]
          rfl
      · rfl
  | none =>
      rw [Option.isSome_none, if_neg Bool.false_ne_true, get?_insert]
      simp only [canonicalKey, Scalar.written, Scalar.sameKey_text_iff, Scalar.text.injEq]
      split
      · next same =>
          subst same
          rw [show get? result (.text (canonicalName known)) = none from found]
          rfl
      · rfl

/-- The value that entries have for the hyphenated name of an option. -/
def legacyValue? (value? : Scalar → Option Value) (name : String) : Option Value :=
  (legacyName? name).bind fun old => value? (.text old)

/-- The last one of options that have different names is split off. -/
theorem AreNamed.of_concat
    {options : Entries} {option : Scalar × Value} (named : AreNamed (options ++ [option])) :
    AreNamed options ∧ ∃ known value, option = (.text known, value) ∧
      ∀ entry ∈ options, entry.1.sameKey (.text known) = false := by
  obtain ⟨key, value⟩ := option
  obtain ⟨known, rfl⟩ : ∃ known, key = .text known :=
    named.textual (key, value) (List.mem_append_right _ (List.mem_singleton_self _))
  obtain ⟨apart, -, fresh⟩ := List.pairwise_append.1 named.apart
  exact ⟨⟨fun entry member => named.textual entry (List.mem_append_left _ member), apart⟩,
    known, value, rfl, fun entry member => fresh entry member _ (List.mem_singleton_self _)⟩

theorem get?_concat_text (options : Entries) (known name : String) (value : Value) :
    get? (options ++ [(.text known, value)]) (.text name) =
      (get? options (.text name)).or (if known = name then some value else none) := by
  rw [get?_append, get?_cons]
  simp only [Scalar.sameKey_text_iff, Scalar.text.injEq]
  rfl

theorem legacyValue?_concat (options : Entries) (known name : String) (value : Value) :
    legacyValue? (get? (options ++ [(.text known, value)])) name =
      (legacyValue? (get? options) name).or
        (if legacyName? name = some known then some value else none) := by
  unfold legacyValue?
  cases legacyName? name with
  | none => rfl
  | some old =>
      rw [Option.bind_some, Option.bind_some, get?_concat_text]
      simp only [Option.some.injEq, eq_comm]

/-- An option that is taken over has the value under its current name, and without one that under
its hyphenated name. -/
theorem get?_migrate {options : Entries} (named : AreNamed options) {name : String}
    (current : canonicalName name = name) :
    get? (migrate options) (.text name) =
      (get? options (.text name)).or (legacyValue? (get? options) name) := by
  induction options using List.reverseRecOn with
  | nil => unfold legacyValue?; cases legacyName? name <;> rfl
  | append_singleton options option inductionHypothesis =>
      obtain ⟨earlier, known, value, rfl, fresh⟩ := named.of_concat
      rw [migrate_concat, get?_concat_text, legacyValue?_concat]
      by_cases isCurrent : canonicalName known = known
      · have notLegacy : legacyName? name ≠ some known := fun isOld =>
          canonicalName_ne_of_legacyName? isOld isCurrent
        rw [get?_migrateOne_current _ isCurrent, inductionHypothesis earlier, if_neg notLegacy,
          Option.or_none]
        split
        · next same =>
            subst same
            rw [get?_eq_none_iff.2 fresh]
            rfl
        · rw [Option.or_none]
      · have different : known ≠ name := by
          rintro rfl
          exact isCurrent current
        have isLegacy : legacyName? name = some known ↔ canonicalName known = name :=
          legacyName?_eq_some_iff.trans (and_iff_left different)
        rw [get?_migrateOne_legacy _ isCurrent, inductionHypothesis earlier, if_neg different,
          Option.or_none]
        simp only [isLegacy]
        split
        · rw [Option.or_assoc]
        · rw [Option.or_none]

/-- No option is left under a hyphenated name. -/
theorem get?_migrate_of_legacy {options : Entries} (named : AreNamed options) {name : String}
    (legacy : canonicalName name ≠ name) : get? (migrate options) (.text name) = none := by
  induction options using List.reverseRecOn with
  | nil => rfl
  | append_singleton options option inductionHypothesis =>
      obtain ⟨earlier, known, value, rfl, -⟩ := named.of_concat
      have notCurrent : canonicalName known ≠ name := by
        rintro rfl
        exact legacy (canonicalName_idem known)
      rw [migrate_concat]
      by_cases isCurrent : canonicalName known = known
      · rw [get?_migrateOne_current _ isCurrent, inductionHypothesis earlier,
          if_neg fun same => notCurrent (isCurrent.trans same)]
      · rw [get?_migrateOne_legacy _ isCurrent, inductionHypothesis earlier, if_neg notCurrent]

/-! ## Options in layers -/

/-- The layer that sets the option last spells it with hyphens only, and an earlier layer sets it
under its current name. -/
def IsOverruled (layers : List Entries) (name : String) : Prop :=
  ∃ before layer after old, layers = before ++ layer :: after ∧ legacyName? name = some old ∧
    (∃ earlier ∈ before, (get? earlier (.text name)).isSome) ∧
    (get? layer (.text old)).isSome ∧ get? layer (.text name) = none ∧
    ∀ later ∈ after, get? later (.text name) = none ∧ get? later (.text old) = none

/-- The value of an option that the last layer has that sets it under any of its names. -/
theorem lastValue_migrate {layers : List Entries} (named : ∀ layer ∈ layers, AreNamed layer)
    {name : String} (current : canonicalName name = name)
    (standing : ¬ IsOverruled layers name) :
    lastValue (layers.map migrate) (.text name) =
      (lastValue layers (.text name)).or (legacyValue? (lastValue layers) name) := by
  -- The last layer decides where it sets the option under one of its names, and otherwise the
  -- layers before it do.
  induction layers using List.reverseRecOn with
  | nil => unfold legacyValue?; cases legacyName? name <;> rfl
  | append_singleton layers layer inductionHypothesis =>
      rw [List.map_append, List.map_singleton, lastValue_concat, lastValue_concat,
        get?_migrate (named layer (by simp)) current]
      have namedBefore : ∀ layer ∈ layers, AreNamed layer := fun layer member =>
        named layer (List.mem_append_left _ member)
      unfold legacyValue? at inductionHypothesis ⊢
      cases isOld : legacyName? name with
      | none =>
          have noLayer : ¬ IsOverruled layers name := by
            rintro ⟨-, -, -, old, -, isSome, -⟩
            rw [isOld] at isSome
            cases isSome
          rw [inductionHypothesis namedBefore noLayer, isOld]
          simp only [Option.bind_none, Option.or_none]
      | some old =>
          rw [isOld] at inductionHypothesis
          simp only [Option.bind_some, lastValue_concat] at inductionHypothesis ⊢
          cases inLayer : get? layer (.text name) with
          | some value => rfl
          | none =>
              rw [Option.none_or, Option.none_or]
              cases inOld : get? layer (.text old) with
              | some value =>
                  have absent : lastValue layers (.text name) = none := by
                    rw [lastValue, List.findSome?_eq_none_iff]
                    intro earlier member
                    by_contra isSet
                    exact standing ⟨layers, layer, [], old, rfl, isOld,
                      ⟨earlier, List.mem_reverse.1 member, Option.isSome_iff_ne_none.2 isSet⟩,
                      by simp [inOld], inLayer, nofun⟩
                  rw [absent]
                  rfl
              | none =>
                  rw [Option.none_or, Option.none_or]
                  refine inductionHypothesis namedBefore fun overruled => standing ?_
                  obtain ⟨before, last, after, known, rfl, isKnown, earlier, isSet, unset, later⟩ :=
                    overruled
                  obtain rfl := Option.some.inj (isOld.symm.trans isKnown)
                  refine ⟨before, last, after ++ [layer], old, by simp, isOld, earlier, isSet, unset,
                    fun other member => ?_⟩
                  rcases List.mem_append.1 member with inAfter | isLayer
                  · exact later other inAfter
                  · rw [List.mem_singleton.1 isLayer]
                    exact ⟨inLayer, inOld⟩

/-- What becomes of the options that several layers set. -/
structure Override (layers : List Entries) (options : Entries) : Prop where
  merged : options = overlay layers
  current : ∀ name, canonicalName name = name →
    get? (migrate options) (.text name) =
      (lastValue layers (.text name)).or (legacyValue? (lastValue layers) name)
  legacy : ∀ name, canonicalName name ≠ name → get? (migrate options) (.text name) = none
  standing : ∀ key, (∀ name, key = .text name → ¬ IsOverruled layers name) →
    get? (migrate options) key = get? (overlay (layers.map migrate)) key

theorem override_overlay {layers : List Entries} (named : ∀ layer ∈ layers, AreNamed layer) :
    Override layers (overlay layers) := by
  have namedOverlay : AreNamed (overlay layers) :=
    ⟨hasTextKeys_overlay fun layer member => (named layer member).textual, areApart_overlay layers⟩
  have read := get?_overlay fun layer member => (named layer member).apart
  have current (name : String) (isCurrent : canonicalName name = name) :
      get? (migrate (overlay layers)) (.text name) =
        (lastValue layers (.text name)).or (legacyValue? (lastValue layers) name) := by
    rw [get?_migrate namedOverlay isCurrent, read, show get? (overlay layers) = lastValue layers from
      funext read]
  have taken : ∀ layer ∈ layers.map migrate, AreNamed layer := by
    intro layer member
    obtain ⟨options, -, rfl⟩ := List.mem_map.1 member
    exact areNamed_migrate options
  refine ⟨rfl, current, fun name => get?_migrate_of_legacy namedOverlay, fun key standing => ?_⟩
  by_cases isText : ∃ name, key = .text name
  · obtain ⟨name, rfl⟩ := isText
    rw [get?_overlay fun layer member => (taken layer member).apart]
    by_cases isCurrent : canonicalName name = name
    · rw [current name isCurrent, lastValue_migrate named isCurrent (standing name rfl)]
    · rw [get?_migrate_of_legacy namedOverlay isCurrent, lastValue, eq_comm,
        List.findSome?_eq_none_iff]
      intro layer member
      obtain ⟨options, isLayer, rfl⟩ := List.mem_map.1 (List.mem_reverse.1 member)
      exact get?_migrate_of_legacy (named options isLayer) isCurrent
  · have notText : ∀ name, key ≠ .text name := not_exists.1 isText
    rw [(areNamed_migrate _).textual.get?_eq_none notText,
      (hasTextKeys_overlay fun layer member => (taken layer member).textual).get?_eq_none notText]

end Settings

/-! ## Options of documents -/

namespace Policy

open Entries Settings

/-- The options that a top-level entry of a document sets. -/
def optionsIn? : Scalar × Value → Option Entries
  | (.text "options", value) => value.entries?
  | _ => none

/-- The options that documents set, those of each document for themselves. -/
def optionLayers (documents : List (Value × String)) : List Entries :=
  documents.flatMap fun document => (document.1.entries?.getD []).filterMap optionsIn?

section Run

variable {policy next : Policy} {source : String}

theorem options_of_addEntry {key : Scalar} {value : Value}
    (run : policy.addEntry source key value = (.ok (), next)) :
    next.options = (optionsIn? (key, value)).toList.foldl insertAll policy.options := by
  rcases key_cases key with rfl | rfl | ⟨name, isSection⟩
  · obtain rfl := (Prod.mk.inj run).2
    rfl
  · obtain ⟨options, isMap, rfl⟩ := addEntry_options_eq_ok.1 run
    simp [optionsIn?, isMap]
  · have noOptions : optionsIn? (key, value) = none := by
      unfold optionsIn?
      split
      · next same =>
          obtain rfl := (Prod.mk.inj same).1
          cases isSection
      · rfl
    rw [noOptions, (merges_of_addEntry isSection run).2.options]
    rfl

theorem options_of_addEntries {entries : Entries}
    (run : policy.addEntries source entries = (.ok (), next)) :
    next.options = (entries.filterMap optionsIn?).foldl insertAll policy.options := by
  induction entries generalizing policy with
  | nil =>
      obtain rfl := (Prod.mk.inj run).2
      rfl
  | cons entry rest inductionHypothesis =>
      obtain ⟨key, value⟩ := entry
      obtain ⟨middle, first, others⟩ := addEntries_cons_eq_ok.1 run
      rw [inductionHypothesis others, options_of_addEntry first, List.filterMap_cons]
      cases optionsIn? (key, value) <;> rfl

theorem options_of_add {document : Value} (run : policy.add document source = (.ok (), next)) :
    next.options =
      ((document.entries?.getD []).filterMap optionsIn?).foldl insertAll policy.options := by
  unfold add at run
  unfold Value.entries?
  split at run
  · next isNull =>
      obtain rfl := (Prod.mk.inj run).2
      rw [isNull]
      rfl
  · next entries isMap =>
      rw [isMap]
      exact options_of_addEntries run
  · cases run

end Run

/-- The options of merged documents are those of the documents put upon each other. -/
theorem options_of_addAll {policy last : Policy} {documents : List (Value × String)}
    (run : policy.addAll documents = .ok last) :
    last.options = (optionLayers documents).foldl insertAll policy.options := by
  induction documents generalizing policy with
  | nil =>
      obtain rfl := Except.ok.inj run
      rfl
  | cons document rest inductionHypothesis =>
      obtain ⟨next, first, others⟩ := addAll_cons_eq_ok.1 run
      rw [inductionHypothesis others, options_of_add first, ← List.foldl_append]
      rfl

/-- What becomes of the options of merged documents: the last document counts that sets an option
under its current name, and only without one the last that sets it under its hyphenated name. -/
theorem override_of_ofDocuments {documents : List (Value × String)} {policy : Policy}
    (run : ofDocuments documents = .ok policy)
    (named : ∀ layer ∈ optionLayers documents, AreNamed layer) :
    Override (optionLayers documents) policy.options := by
  rw [ofDocuments_eq_addAll] at run
  rw [options_of_addAll run]
  exact override_overlay named

/-- Two documents set one option under its two names. -/
def spelledTwice (first second : String) : List (Value × String) :=
  [(.map [(.text "options", .map [(.text first, .text "DROP")])], "one.yaml"),
    (.map [(.text "options", .map [(.text second, .text "ACCEPT")])], "two.yaml")]

theorem override_of_spelledTwice :
    ∃ policy, ofDocuments (spelledTwice "filter-chain-policy" "filter_chain_policy") = .ok policy ∧
      Override (optionLayers (spelledTwice "filter-chain-policy" "filter_chain_policy"))
        policy.options := by
  refine ⟨_, rfl, override_of_ofDocuments rfl fun layer member => ?_⟩
  have isLayer : layer ∈ [[(.text "filter-chain-policy", .text "DROP")],
      [(.text "filter_chain_policy", .text "ACCEPT")]] := member
  rcases List.mem_pair.1 isLayer with rfl | rfl
  all_goals
    exact ⟨fun entry isEntry => ⟨_, congrArg Prod.fst (List.mem_singleton.1 isEntry)⟩,
      List.pairwise_singleton ..⟩

/-- A document that spells a name with hyphens does not override one before it that does not. -/
theorem not_overridden_of_spelledTwice :
    ∃ policy, ofDocuments (spelledTwice "filter_chain_policy" "filter-chain-policy") = .ok policy ∧
      get? (migrate policy.options) (.text "filter_chain_policy") = some (.text "DROP") ∧
      get? (overlay ((optionLayers (spelledTwice "filter_chain_policy" "filter-chain-policy")).map
        migrate)) (.text "filter_chain_policy") = some (.text "ACCEPT") :=
  ⟨_, rfl, rfl, rfl⟩

end Policy

/-! ## Options under their current names

Which value an option has once the hyphenated names are replaced depends on the values that stand
under its two names, and not on the order in which they are met.  What is under current names is left
as it is. -/

namespace Entries

variable {α : Type} {entries others : List (Scalar × α)}

/-- Of different keys, each finds the value that it stands with. -/
theorem get?_eq_some_iff_mem
    (textual : HasTextKeys entries) (apart : AreApart entries) {name : String} {value : α} :
    get? entries (.text name) = some value ↔ (.text name, value) ∈ entries := by
  induction entries with
  | nil => simp [get?]
  | cons entry rest inductionHypothesis =>
      obtain ⟨key, old⟩ := entry
      obtain ⟨⟨known, rfl⟩, restTextual⟩ := List.forall_mem_cons.1 textual
      obtain ⟨differs, restApart⟩ := List.pairwise_cons.1 apart
      rw [get?_cons, List.mem_cons]
      by_cases same : known = name
      · subst same
        have fresh : (.text known, value) ∉ rest := fun member => by
          have different := differs _ member
          rw [Scalar.sameKey_self] at different
          cases different
        rw [if_pos (Scalar.sameKey_text_iff.2 rfl)]
        simp [fresh, eq_comm]
      · rw [if_neg fun sameKey => same (Scalar.text.inj (Scalar.sameKey_text_iff.1 sameKey)),
          inductionHypothesis restTextual restApart]
        simp [Ne.symm same]

theorem AreApart.of_perm (apart : AreApart entries) (perm : entries.Perm others) :
    AreApart others :=
  perm.pairwise apart fun differs => (Scalar.sameKey_comm ..).trans differs

theorem AreApart.nodup (apart : AreApart entries) : entries.Nodup :=
  List.Pairwise.imp (fun differs same => by
    rw [same, Scalar.sameKey_self] at differs
    cases differs) apart

end Entries

namespace Settings

open Entries

variable {options others : Entries}

theorem AreNamed.get?_eq_some_iff_mem (named : AreNamed options) {name : String} {value : Value} :
    get? options (.text name) = some value ↔ (.text name, value) ∈ options :=
  Entries.get?_eq_some_iff_mem named.textual named.apart

theorem AreNamed.of_perm (named : AreNamed options) (perm : options.Perm others) :
    AreNamed others where
  textual entry member := named.textual entry (perm.mem_iff.2 member)
  apart := named.apart.of_perm perm

theorem AreNamed.get?_of_perm
    (named : AreNamed options) (perm : options.Perm others) (name : String) :
    get? others (.text name) = get? options (.text name) := by
  refine Option.ext fun value => ?_
  rw [named.get?_eq_some_iff_mem, (named.of_perm perm).get?_eq_some_iff_mem, perm.mem_iff]

/-- Mappings that find the same values have the same entries. -/
theorem AreNamed.perm_of_get?
    (named : AreNamed options) (otherNamed : AreNamed others)
    (same : ∀ name, get? options (.text name) = get? others (.text name)) :
    options.Perm others := by
  refine (List.perm_ext_iff_of_nodup named.apart.nodup otherNamed.apart.nodup).2 ?_
  rintro ⟨key, value⟩
  by_cases isText : ∃ name, key = .text name
  · obtain ⟨name, rfl⟩ := isText
    rw [← named.get?_eq_some_iff_mem, ← otherNamed.get?_eq_some_iff_mem, same]
  · exact iff_of_false (fun member => isText (named.textual _ member))
      fun member => isText (otherNamed.textual _ member)

/-! ## Hyphenated names -/

/-- The two names of an option differ, and its current name is no hyphenated name of another one. -/
theorem names_of_mem_legacyNames {names : String × String} (member : names ∈ legacyNames) :
    canonicalName names.1 ≠ names.1 ∧ canonicalName names.2 = names.2 ∧
      legacyName? names.2 = some names.1 := by
  revert names
  decide

theorem legacyName?_eq_none
    {name : String} (unlisted : ∀ names ∈ legacyNames, name ≠ names.2) :
    legacyName? name = none := by
  unfold legacyName?
  rw [Option.map_eq_none_iff, List.find?_eq_none]
  intro names member
  simpa using (unlisted names member).symm

theorem canonicalName_eq_self
    {name : String} (unlisted : ∀ names ∈ legacyNames, name ≠ names.1) :
    canonicalName name = name :=
  (canonicalName_cases name).resolve_right fun member => unlisted _ member rfl

/-- Options under current names are taken over as they are. -/
theorem migrate_eq_self
    (named : AreNamed options)
    (current : ∀ name, canonicalName name ≠ name → get? options (.text name) = none) :
    migrate options = options := by
  -- Each option is put behind those that were taken over before, so what stands last is split off.
  induction options using List.reverseRecOn with
  | nil => rfl
  | append_singleton options option inductionHypothesis =>
      obtain ⟨earlier, known, value, rfl, fresh⟩ := named.of_concat
      have isCurrent : canonicalName known = known := by
        by_contra isLegacy
        have absent := current known isLegacy
        have found : get? (options ++ [(.text known, value)]) (.text known) = some value :=
          named.get?_eq_some_iff_mem.2 (List.mem_append_right _ (List.mem_singleton_self _))
        rw [absent] at found
        cases found
      have sameBefore : migrate options = options := by
        refine inductionHypothesis earlier fun name isLegacy => ?_
        have absent := current name isLegacy
        rw [get?_append, Option.or_eq_none_iff] at absent
        exact absent.1
      rw [migrate_concat, sameBefore, migrateOne]
      simp only [canonicalKey, isCurrent, bne_self_eq_false, Bool.false_and, Bool.false_eq_true,
        if_false, Scalar.written]
      exact insert_of_fresh fresh value

/-! ## What replacing the names comes to -/

/-- The mapping is that of the options with the hyphenated names replaced: an option that has two
names has the value under its current one, and without one that under its hyphenated one; others are
as they were, and nothing else is there. -/
structure HasCurrentNames (options result : Entries) : Prop where
  named : AreNamed result
  hyphenated : ∀ names ∈ legacyNames, get? result (.text names.1) = none
  renamed : ∀ names ∈ legacyNames, get? result (.text names.2) =
    (get? options (.text names.2)).or (get? options (.text names.1))
  kept : ∀ name, (∀ names ∈ legacyNames, name ≠ names.1 ∧ name ≠ names.2) →
    get? result (.text name) = get? options (.text name)

theorem hasCurrentNames_migrate (named : AreNamed options) :
    HasCurrentNames options (migrate options) where
  named := areNamed_migrate options
  hyphenated names member := get?_migrate_of_legacy named (names_of_mem_legacyNames member).1
  renamed names member := by
    obtain ⟨-, current, isLegacy⟩ := names_of_mem_legacyNames member
    rw [get?_migrate named current, legacyValue?, isLegacy, Option.bind_some]
  kept name unlisted := by
    have current := canonicalName_eq_self fun names member => (unlisted names member).1
    have noLegacy := legacyName?_eq_none fun names member => (unlisted names member).2
    rw [get?_migrate named current, legacyValue?, noLegacy, Option.bind_none, Option.or_none]

theorem migrate_migrate (named : AreNamed options) : migrate (migrate options) = migrate options :=
  migrate_eq_self (areNamed_migrate options) fun _ => get?_migrate_of_legacy named

theorem migrate_perm (named : AreNamed options) (perm : options.Perm others) :
    (migrate options).Perm (migrate others) := by
  refine (areNamed_migrate options).perm_of_get? (areNamed_migrate others) fun name => ?_
  by_cases current : canonicalName name = name
  · rw [get?_migrate named current, get?_migrate (named.of_perm perm) current,
      named.get?_of_perm perm, legacyValue?, legacyValue?]
    cases legacyName? name with
    | none => rfl
    | some hyphenated => rw [Option.bind_some, Option.bind_some, named.get?_of_perm perm]
  · rw [get?_migrate_of_legacy named current,
      get?_migrate_of_legacy (named.of_perm perm) current]

/-- Options with different names are taken over under their current names, in whatever order they
stand, and taking them over once more changes nothing. -/
theorem currentNames_of_areNamed (named : AreNamed options) :
    HasCurrentNames options (migrate options) ∧ migrate (migrate options) = migrate options ∧
      ∀ others, options.Perm others → (migrate options).Perm (migrate others) :=
  ⟨hasCurrentNames_migrate named, migrate_migrate named, fun _ => migrate_perm named⟩

/-- An option under both of its names, one under its hyphenated name only, and one that has no other
name. -/
def mixedOptions : Entries :=
  [(.text "recent-max-count", .int 5), (.text "log-mode", .text "nflog"),
    (.text "recent_max_count", .int 7), (.text "ipv6", .bool false)]

theorem currentNames_of_mixedOptions :
    AreNamed mixedOptions ∧
      migrate mixedOptions = [(.text "recent_max_count", .int 7), (.text "log_mode", .text "nflog"),
        (.text "ipv6", .bool false)] ∧
      HasCurrentNames mixedOptions (migrate mixedOptions) ∧
      (migrate mixedOptions).Perm (migrate mixedOptions.reverse) := by
  have named : AreNamed mixedOptions := by
    constructor
    · simp [HasTextKeys, mixedOptions]
    · unfold AreApart
      decide
  obtain ⟨current, -, anyOrder⟩ := currentNames_of_areNamed named
  exact ⟨named, rfl, current, anyOrder _ (List.reverse_perm _).symm⟩

end Settings

end FirewallPolicy
