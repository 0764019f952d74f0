import FirewallPolicy.Policy
import FirewallPolicy.Proofs.Record
import FirewallPolicy.Proofs.Value.Reordering
import FirewallPolicy.Proofs.Value.Spelling

/-!
# Merging the entries of a document

Each top-level entry of a document states something of one section, or options, or describes the
policy.  Entries that fit can be merged in any order as long as those of one section are all lists or
all mappings, and what the policy holds afterwards is told by the entries alone.
-/

namespace FirewallPolicy

/-! ## What the value of a section states -/

namespace SectionData

/-- Does the section state its entries by key? -/
def isMap : SectionData → Bool
  | .list _ => false
  | .map _ => true

/-- The section that is stated by the value alone. -/
def ofValue? (value : Value) : Option SectionData :=
  match value.opened with
  | .list items => some (.list items)
  | .map entries => some (.map (Entries.insertAll [] entries))
  | _ => none

end SectionData

theorem Value.opened_of_entries?
    {value : Value} {entries : Entries} (isMap : value.entries? = some entries) :
    value.opened = .map entries := by
  unfold entries? at isMap
  split at isMap
  · next same =>
      obtain rfl := Option.some.inj isMap
      exact same
  · cases isMap

/-- The keys that sources are noted for where the value alone states a section. -/
def Value.sectionKeys (value : Value) : List Scalar :=
  match value.opened with
  | .list items => (List.range items.length).map fun i : Nat => .int i
  | .map entries => entries.map (·.1)
  | _ => []

namespace Policy

/-- What a section of the policy states; a section that is absent states nothing. -/
def dataOf (policy : Policy) (name : String) : SectionData :=
  (policy.objects.get? name).getD (.map [])

/-- The form of a section, if the policy has it. -/
def formOf (policy : Policy) (name : String) : Option Bool :=
  (policy.objects.get? name).map SectionData.isMap

/-- The source for each of the keys. -/
def noted (source : String) (keys : List Scalar) : List (Scalar × String) :=
  keys.foldl (fun sources key => Entries.insert sources key source) []

theorem get?_noted (source : String) (keys : List Scalar) (key : Scalar) :
    Entries.get? (noted source keys) key =
      if keys.any (·.sameKey key) then some source else none := by
  have stored (known : List (Scalar × String)) :
      Entries.get? (keys.foldl (fun sources key => Entries.insert sources key source) known) key =
        if keys.any (·.sameKey key) then some source else Entries.get? known key := by
    induction keys generalizing known with
    | nil => rfl
    | cons first rest inductionHypothesis =>
        rw [List.foldl_cons, inductionHypothesis, Entries.get?_insert, List.any_cons]
        cases first.sameKey key <;> simp
  exact stored []

/-! ## One entry -/

/-- The section that an entry with the key states something of. -/
def sectionName? : Scalar → Option String
  | .text "description" => none
  | .text "options" => none
  | key => some key.written

theorem written_of_sectionName
    {key : Scalar} {name : String} (isSection : sectionName? key = some name) :
    key.written = name := by
  unfold sectionName? at isSection
  split at isSection
  · cases isSection
  · cases isSection
  · exact Option.some.inj isSection

theorem key_cases (key : Scalar) :
    key = .text "description" ∨ key = .text "options" ∨ ∃ name, sectionName? key = some name := by
  unfold sectionName?
  split
  · exact .inl rfl
  · exact .inr (.inl rfl)
  · exact .inr (.inr ⟨_, rfl⟩)

/-- What of an entry decides whether it can be merged: its key, and whether its value is a mapping,
if it is that or a list. -/
def outline (entry : Scalar × Value) : Scalar × Option Bool :=
  (entry.1, (SectionData.ofValue? entry.2).map SectionData.isMap)

/-- The entry can be merged into an empty policy. -/
structure Fits (outline : Scalar × Option Bool) : Prop where
  options : outline.1 = .text "options" → outline.2 = some true
  isShowable : ∀ name, sectionName? outline.1 = some name → outline.1.isShowable = true
  hasForm : ∀ name, sectionName? outline.1 = some name → outline.2.isSome = true

/-- Entries of one section are both lists or both mappings. -/
def Agree (first second : Scalar × Option Bool) : Prop :=
  ∀ name, sectionName? first.1 = some name → sectionName? second.1 = some name → first.2 = second.2

/-- The section of the entry is absent or has its form. -/
def Admits (policy : Policy) (outline : Scalar × Option Bool) : Prop :=
  ∀ name, sectionName? outline.1 = some name →
    ∀ isMap, policy.formOf name = some isMap → outline.2 = some isMap

/-- The policy with what the value states of that section. -/
structure Merges (source name : String) (value : Value) (policy next : Policy) : Prop where
  objects : ∃ data, next.objects = policy.objects.set name data ∧
    (SectionData.ofValue? value).map SectionData.isMap = some data.isMap ∧
    (∀ old, policy.objects.get? name = some old → old.isMap = data.isMap) ∧
    (policy.objects.get? name = none → SectionData.ofValue? value = some data)
  sources : ∃ sources, next.sources = policy.sources.set name sources ∧
    (policy.objects.get? name = none → policy.sources.get? name = none →
      sources = noted source value.sectionKeys)
  options : next.options = policy.options

section Entry

variable {policy next : Policy} {source name : String} {key : Scalar} {value : Value}

theorem addEntry_of_sectionName (isSection : sectionName? key = some name) :
    policy.addEntry source key value =
      if !key.isShowable then (.error .unusable, policy)
      else
        match value.opened with
        | .list items => policy.addList name source items
        | .map entries => policy.addMap name source entries
        | _ =>
          (.error (.fault source (.invalidSection name)), policy.noteSources name source []) := by
  obtain rfl := written_of_sectionName isSection
  unfold addEntry
  split
  · cases isSection
  · cases isSection
  · cases isSection
  · rfl

theorem merges_addList
    {items : List Value} (isList : value.opened = .list items)
    (run : policy.addList name source items = (.ok (), next)) :
    Merges source name value policy next := by
  unfold addList at run
  dsimp only at run
  split at run
  · cases run
  · next old isOld =>
      obtain rfl := (Prod.mk.inj run).2
      refine ⟨⟨_, rfl, by simp [SectionData.ofValue?, isList, SectionData.isMap],
        fun known isKnown => ?_, fun absent => ?_⟩, ⟨_, rfl, fun absent unnoted => ?_⟩, rfl⟩
      · rw [isKnown] at isOld
        obtain rfl : known = .list old := isOld
        rfl
      all_goals
        rw [absent] at isOld
        obtain rfl := SectionData.list.inj isOld
      · simp [SectionData.ofValue?, isList]
      · simp [noted, sourcesOf, unnoted, Value.sectionKeys, isList]

theorem merges_addMap
    {entries : Entries} (isMap : value.opened = .map entries)
    (run : policy.addMap name source entries = (.ok (), next)) :
    Merges source name value policy next := by
  unfold addMap at run
  dsimp only at run
  split at run
  · cases run
  · next old isOld =>
      obtain rfl := (Prod.mk.inj run).2
      refine ⟨⟨_, rfl, by simp [SectionData.ofValue?, isMap, SectionData.isMap],
        fun known isKnown => ?_, fun absent => ?_⟩, ⟨_, rfl, fun absent unnoted => ?_⟩, rfl⟩
      · rw [isKnown] at isOld
        obtain rfl : known = .map old := isOld
        rfl
      all_goals
        rw [absent] at isOld
        obtain rfl := SectionData.map.inj isOld
      · simp [SectionData.ofValue?, isMap]
      · simp [noted, sourcesOf, unnoted, Value.sectionKeys, isMap]

/-- An entry that was merged changed only what the policy holds of its section. -/
theorem merges_of_addEntry
    (isSection : sectionName? key = some name)
    (run : policy.addEntry source key value = (.ok (), next)) :
    key.isShowable = true ∧ Merges source name value policy next := by
  rw [addEntry_of_sectionName isSection] at run
  split at run
  · cases run
  · next showable =>
      refine ⟨by simpa using showable, ?_⟩
      split at run
      · next items isList => exact merges_addList isList run
      · next entries isMap => exact merges_addMap isMap run
      · cases run

theorem addEntry_options_eq_ok :
    policy.addEntry source (.text "options") value = (.ok (), next) ↔
      ∃ options, value.entries? = some options ∧
        next = { policy with options := Entries.insertAll policy.options options } := by
  unfold addEntry Value.entries?
  cases value.opened with
  | map options => simp [eq_comm]
  | _ => simp

theorem exists_addEntry_of_section
    (isSection : sectionName? key = some name) (showable : key.isShowable = true)
    {data : SectionData} (stated : SectionData.ofValue? value = some data)
    (admitted : ∀ isMap, policy.formOf name = some isMap → data.isMap = isMap) :
    ∃ next, policy.addEntry source key value = (.ok (), next) := by
  rw [addEntry_of_sectionName isSection, showable]
  unfold SectionData.ofValue? at stated
  unfold formOf at admitted
  split at stated
  · next items isList =>
      obtain rfl := Option.some.inj stated
      simp only [addList]
      cases known : policy.objects.get? name with
      | none => exact ⟨_, rfl⟩
      | some old =>
          cases old with
          | list old => exact ⟨_, rfl⟩
          | map old => exact absurd (admitted true (by rw [known]; rfl)) Bool.false_ne_true
  · next entries isMap =>
      obtain rfl := Option.some.inj stated
      simp only [addMap]
      cases known : policy.objects.get? name with
      | none => exact ⟨_, rfl⟩
      | some old =>
          cases old with
          | list old => exact absurd (admitted false (by rw [known]; rfl)).symm Bool.false_ne_true
          | map old => exact ⟨_, rfl⟩
  · cases stated

/-- Whether an entry can be merged is told by its outline and by the form of its section. -/
theorem exists_addEntry_iff :
    (∃ next, policy.addEntry source key value = (.ok (), next)) ↔
      Fits (outline (key, value)) ∧ policy.Admits (outline (key, value)) := by
  rcases key_cases key with rfl | rfl | ⟨name, isSection⟩
  · have noSection (name : String) : sectionName? (.text "description") ≠ some name := nofun
    refine iff_of_true ⟨policy, rfl⟩ ⟨⟨by simp [outline], ?_, ?_⟩, ?_⟩
    all_goals exact fun name isSection => absurd isSection (noSection name)
  · have noSection (name : String) : sectionName? (.text "options") ≠ some name := nofun
    constructor
    · rintro ⟨next, run⟩
      obtain ⟨options, isMap, -⟩ := addEntry_options_eq_ok.1 run
      refine ⟨⟨fun _ => ?_, ?_, ?_⟩, ?_⟩
      · simp [outline, SectionData.ofValue?, Value.opened_of_entries? isMap, SectionData.isMap]
      all_goals exact fun name isSection => absurd isSection (noSection name)
    · rintro ⟨fits, -⟩
      have isMap := fits.options rfl
      unfold outline SectionData.ofValue? at isMap
      have exists_options : ∃ options, value.entries? = some options := by
        unfold Value.entries?
        cases isOptions : value.opened with
        | map options => exact ⟨options, rfl⟩
        | _ => simp [isOptions, SectionData.isMap] at isMap
      obtain ⟨options, isMap⟩ := exists_options
      exact ⟨_, addEntry_options_eq_ok.2 ⟨options, isMap, rfl⟩⟩
  · constructor
    · rintro ⟨next, run⟩
      obtain ⟨showable, merges⟩ := merges_of_addEntry isSection run
      obtain ⟨data, -, hasForm, sameForm, -⟩ := merges.objects
      refine ⟨⟨?_, fun _ _ => showable, fun _ _ => by simp [outline, hasForm]⟩, ?_⟩
      · rintro rfl
        cases isSection
      · rintro _ sameSection isMap isForm
        obtain rfl := Option.some.inj (isSection.symm.trans sameSection)
        obtain ⟨old, isOld, rfl⟩ := Option.map_eq_some_iff.1 isForm
        exact hasForm.trans (congrArg some (sameForm old isOld).symm)
    · rintro ⟨fits, admits⟩
      obtain ⟨data, stated⟩ : ∃ data, SectionData.ofValue? value = some data := by
        simpa [outline, Option.isSome_iff_exists] using fits.hasForm name isSection
      refine exists_addEntry_of_section isSection (fits.isShowable name isSection) stated
        fun isMap isForm => ?_
      simpa [outline, stated] using admits name isSection isMap isForm

/-- An entry that was merged is of no section, and keeps all of them, or is of the one it changed. -/
theorem sectionName_cases (run : policy.addEntry source key value = (.ok (), next)) :
    (sectionName? key = none ∧ next.objects = policy.objects ∧ next.sources = policy.sources) ∨
      ∃ name, sectionName? key = some name ∧ Merges source name value policy next := by
  rcases key_cases key with rfl | rfl | ⟨name, isSection⟩
  · obtain rfl := (Prod.mk.inj run).2
    exact .inl ⟨rfl, rfl, rfl⟩
  · obtain ⟨options, -, rfl⟩ := addEntry_options_eq_ok.1 run
    exact .inl ⟨rfl, rfl, rfl⟩
  · exact .inr ⟨name, isSection, (merges_of_addEntry isSection run).2⟩

/-- An entry that was merged gives its section its form. -/
theorem formOf_of_addEntry
    (run : policy.addEntry source key value = (.ok (), next)) (name : String) :
    next.formOf name =
      if sectionName? key = some name then (outline (key, value)).2 else policy.formOf name := by
  rcases sectionName_cases run with ⟨none, same, -⟩ | ⟨own, isSection, merges⟩
  · rw [none, if_neg nofun, formOf, same, formOf]
  · obtain ⟨data, objects, hasForm, -⟩ := merges.objects
    rw [isSection, formOf, objects]
    by_cases isOwn : own = name
    · subst isOwn
      rw [if_pos rfl, Named.get?_set_self]
      exact hasForm.symm
    · rw [if_neg (fun same => isOwn (Option.some.inj same)), Named.get?_set_of_ne (Ne.symm isOwn)]
      rfl

/-- What a policy admits once an entry is merged. -/
theorem admits_of_addEntry
    (run : policy.addEntry source key value = (.ok (), next)) (other : Scalar × Option Bool) :
    next.Admits other ↔ policy.Admits other ∧ Agree (outline (key, value)) other := by
  obtain ⟨fits, admits⟩ := exists_addEntry_iff.1 ⟨next, run⟩
  have evolves := formOf_of_addEntry run
  constructor
  · intro admitted
    constructor
    · intro name isSection isMap isForm
      refine admitted name isSection isMap ?_
      rw [evolves]
      split
      · next same => exact admits name same isMap isForm
      · exact isForm
    · intro name same isSection
      obtain ⟨isMap, isForm⟩ := Option.isSome_iff_exists.1 (fits.hasForm name same)
      exact isForm.trans (admitted name isSection isMap ((evolves name).trans
        ((if_pos same).trans isForm))).symm
  · rintro ⟨admitted, agree⟩ name isSection isMap isForm
    rw [evolves] at isForm
    split at isForm
    · next same => exact (agree name same isSection).symm.trans isForm
    · exact admitted name isSection isMap isForm

end Entry

/-! ## All entries -/

section Entries

variable {policy last : Policy} {source : String} {entries others : Entries}

theorem addEntries_cons_eq_ok {key : Scalar} {value : Value} {rest : Entries} :
    policy.addEntries source ((key, value) :: rest) = (.ok (), last) ↔
      ∃ next, policy.addEntry source key value = (.ok (), next) ∧
        next.addEntries source rest = (.ok (), last) := by
  rw [addEntries]
  cases policy.addEntry source key value with
  | mk result next =>
      cases result with
      | error failure => simp
      | ok => simp

/-- Entries can be merged when each one fits and those of one section agree in their form. -/
theorem exists_addEntries_iff :
    (∃ last, policy.addEntries source entries = (.ok (), last)) ↔
      (∀ summary ∈ entries.map outline, Fits summary ∧ policy.Admits summary) ∧
        (entries.map outline).Pairwise Agree := by
  induction entries generalizing policy with
  | nil => exact iff_of_true ⟨policy, rfl⟩ ⟨by simp, List.Pairwise.nil⟩
  | cons entry rest inductionHypothesis =>
      obtain ⟨key, value⟩ := entry
      rw [List.map_cons, List.forall_mem_cons, List.pairwise_cons, ← exists_addEntry_iff]
      constructor
      · rintro ⟨last, run⟩
        obtain ⟨next, first, others⟩ := addEntries_cons_eq_ok.1 run
        obtain ⟨each, pairwise⟩ := inductionHypothesis.1 ⟨last, others⟩
        exact ⟨⟨⟨next, first⟩, fun other member =>
            (each other member).imp_right fun admits => ((admits_of_addEntry first other).1 admits).1⟩,
          fun other member => ((admits_of_addEntry first other).1 (each other member).2).2, pairwise⟩
      · rintro ⟨⟨⟨next, first⟩, each⟩, agree, pairwise⟩
        obtain ⟨last, others⟩ := inductionHypothesis.2 ⟨fun other member =>
          (each other member).imp_right fun admits =>
            (admits_of_addEntry first other).2 ⟨admits, agree other member⟩, pairwise⟩
        exact ⟨last, addEntries_cons_eq_ok.2 ⟨next, first, others⟩⟩

/-- Entries with the same outlines in another order can be merged as well. -/
theorem exists_addEntries_of_perm
    (perm : (entries.map outline).Perm (others.map outline))
    (run : policy.addEntries source entries = (.ok (), last)) :
    ∃ otherLast, policy.addEntries source others = (.ok (), otherLast) := by
  obtain ⟨each, pairwise⟩ := exists_addEntries_iff.1 ⟨last, run⟩
  refine exists_addEntries_iff.2 ⟨fun other member => each other (perm.mem_iff.2 member),
    perm.pairwise pairwise fun agree name second first => ?_⟩
  exact (agree name first second).symm

/-- The sections of the policy are those that were there and those that some entry is of. -/
theorem mem_names_addEntries
    (run : policy.addEntries source entries = (.ok (), last)) {name : String} :
    name ∈ last.objects.names ↔
      name ∈ policy.objects.names ∨ ∃ entry ∈ entries, sectionName? entry.1 = some name := by
  induction entries generalizing policy with
  | nil =>
      obtain rfl := (Prod.mk.inj run).2
      simp
  | cons entry rest inductionHypothesis =>
      obtain ⟨key, value⟩ := entry
      obtain ⟨next, first, others⟩ := addEntries_cons_eq_ok.1 run
      rw [inductionHypothesis others, List.exists_mem_cons_iff, ← or_assoc]
      refine or_congr_left ?_
      rcases sectionName_cases first with ⟨none, same, -⟩ | ⟨own, isSection, merges⟩
      · simp [none, same]
      · obtain ⟨data, objects, -⟩ := merges.objects
        rw [objects, Named.mem_names_set, isSection, Option.some.injEq, or_comm, eq_comm]

theorem nodup_names_addEntries
    (run : policy.addEntries source entries = (.ok (), last))
    (distinct : policy.objects.names.Nodup) :
    last.objects.names.Nodup := by
  induction entries generalizing policy with
  | nil =>
      obtain rfl := (Prod.mk.inj run).2
      exact distinct
  | cons entry rest inductionHypothesis =>
      obtain ⟨key, value⟩ := entry
      obtain ⟨next, first, others⟩ := addEntries_cons_eq_ok.1 run
      refine inductionHypothesis others ?_
      rcases sectionName_cases first with ⟨none, same, -⟩ | ⟨own, isSection, merges⟩
      · rwa [same]
      · obtain ⟨data, objects, -⟩ := merges.objects
        rw [objects]
        exact Named.nodup_names_set distinct ..

section View

variable {α : Type} {view : Policy → α} {name : String}
  (foreign : ∀ policy next key value, key ≠ .text name →
    policy.addEntry source key value = (.ok (), next) → view next = view policy)
include foreign

/-- What the policy holds of one key stays as it is where no entry has the key. -/
theorem view_addEntries_of_absent
    (absent : ∀ entry ∈ entries, entry.1 ≠ .text name)
    (run : policy.addEntries source entries = (.ok (), last)) :
    view last = view policy := by
  induction entries generalizing policy with
  | nil =>
      obtain rfl := (Prod.mk.inj run).2
      rfl
  | cons entry rest inductionHypothesis =>
      obtain ⟨key, value⟩ := entry
      rw [List.forall_mem_cons] at absent
      obtain ⟨next, first, others⟩ := addEntries_cons_eq_ok.1 run
      exact (inductionHypothesis absent.2 others).trans (foreign _ _ _ _ absent.1 first)

/-- What the policy holds of one key is told by the value of the key, where no other key counts. -/
theorem view_addEntries
    {initial : α} {made : Value → α}
    (own : ∀ policy next value, view policy = initial →
      policy.addEntry source (.text name) value = (.ok (), next) → view next = made value)
    (distinct : Entries.AreDistinct entries) (isInitial : view policy = initial)
    (run : policy.addEntries source entries = (.ok (), last)) :
    view last = ((Entries.get? entries (.text name)).map made).getD initial := by
  induction entries generalizing policy with
  | nil =>
      obtain rfl := (Prod.mk.inj run).2
      exact isInitial
  | cons entry rest inductionHypothesis =>
      obtain ⟨key, value⟩ := entry
      obtain ⟨next, first, others⟩ := addEntries_cons_eq_ok.1 run
      rw [Entries.get?_cons]
      by_cases isOwn : key = .text name
      · subst isOwn
        have absent : ∀ entry ∈ rest, entry.1 ≠ .text name := by
          intro entry member same
          have differs := ((List.pairwise_cons.1 distinct).1 entry member).keys
          rw [same, Scalar.sameKey_self] at differs
          cases differs
        rw [Scalar.sameKey_self, if_pos rfl]
        exact (view_addEntries_of_absent foreign absent others).trans (own _ _ _ isInitial first)
      · rw [if_neg (fun same => isOwn (Scalar.sameKey_text_iff.1 same))]
        exact inductionHypothesis (List.pairwise_cons.1 distinct).2
          ((foreign _ _ _ _ isOwn first).trans isInitial) others

end View

end Entries

/-! ## One document -/

/-- Only the text of that name is the key of the section. -/
structure IsStatedByText (name : String) : Prop where
  isSection : sectionName? (.text name) = some name
  isPlain : IsPlainName name

instance (name : String) : Decidable (IsStatedByText name) :=
  decidable_of_iff (sectionName? (.text name) = some name ∧ IsPlainName name)
    ⟨fun ⟨isSection, isPlain⟩ => ⟨isSection, isPlain⟩,
      fun ⟨isSection, isPlain⟩ => ⟨isSection, isPlain⟩⟩

section Document

variable {policy : Policy} {source : String} {entries : Entries}
  (distinct : Entries.AreDistinct entries)
  (run : addEntries {} source entries = (.ok (), policy))
include distinct run

/-- What a section states is what the value under its name states, and so are the keys with sources. -/
theorem section_addEntries {name : String} (byText : IsStatedByText name) :
    policy.objects.get? name =
        (Entries.get? entries (.text name)).bind SectionData.ofValue? ∧
      policy.sourcesOf name =
        ((Entries.get? entries (.text name)).map fun value => noted source value.sectionKeys).getD
          [] := by
  let view (policy : Policy) := (policy.objects.get? name, policy.sources.get? name)
  have part := @view_addEntries {} policy source entries _ view name
    (fun policy next key value foreign run => ?_) (none, none)
    (fun value => (SectionData.ofValue? value, some (noted source value.sectionKeys)))
    (fun policy next value isInitial run => ?_) distinct rfl run
  · obtain ⟨data, known⟩ := Prod.mk.inj part
    constructor
    · rw [data]
      cases Entries.get? entries (.text name) <;> rfl
    · rw [sourcesOf, known]
      cases Entries.get? entries (.text name) <;> rfl
  · rcases sectionName_cases run with ⟨-, sameObjects, sameSources⟩ | ⟨other, isSection, merges⟩
    · simp only [view, sameObjects, sameSources]
    · obtain ⟨data, objects, -⟩ := merges.objects
      obtain ⟨known, sources, -⟩ := merges.sources
      have different : name ≠ other := by
        rintro rfl
        refine foreign (Scalar.eq_text_of_written ?_ byText.isPlain (written_of_sectionName isSection))
        exact (merges_of_addEntry isSection run).1
      simp only [view, objects, sources, Named.get?_set_of_ne different]
  · obtain ⟨absent, unnoted⟩ := Prod.mk.inj isInitial
    obtain ⟨showable, merges⟩ := merges_of_addEntry byText.isSection run
    obtain ⟨data, objects, -, -, isData⟩ := merges.objects
    obtain ⟨known, sources, isKnown⟩ := merges.sources
    simp only [view, objects, sources, Named.get?_set_self, isData absent, isKnown absent unnoted]

theorem options_addEntries :
    policy.options =
      (((Entries.get? entries (.text "options")).bind Value.entries?).map
        (Entries.insertAll [])).getD [] := by
  have options := @view_addEntries {} policy source entries _ Policy.options "options"
    (fun policy next key value foreign run => ?_) []
    (fun value => (value.entries?.map (Entries.insertAll [])).getD [])
    (fun policy next value isInitial run => ?_) distinct rfl run
  · rw [options]
    cases Entries.get? entries (.text "options") <;> rfl
  · rcases key_cases key with rfl | rfl | ⟨name, isSection⟩
    · exact congrArg Policy.options (Prod.mk.inj run).2.symm
    · exact absurd rfl foreign
    · exact (merges_of_addEntry isSection run).2.options
  · obtain ⟨options, isMap, rfl⟩ := addEntry_options_eq_ok.1 run
    simp [isInitial, isMap]

end Document

/-! ## Several documents -/

/-- Merge documents with their sources into a policy until one is refused. -/
def addAll (policy : Policy) (documents : List (Value × String)) : Except Failure Policy :=
  documents.foldlM (fun policy document =>
    match policy.add document.1 document.2 with
    | (.ok (), next) => .ok next
    | (.error failure, _) => .error failure) policy

theorem ofDocuments_eq_addAll (documents : List (Value × String)) :
    ofDocuments documents = addAll {} documents :=
  rfl

theorem addAll_cons_eq_ok
    {policy last : Policy} {document : Value × String} {rest : List (Value × String)} :
    policy.addAll (document :: rest) = .ok last ↔
      ∃ next, policy.add document.1 document.2 = (.ok (), next) ∧ next.addAll rest = .ok last := by
  rw [addAll, List.foldlM_cons]
  cases policy.add document.1 document.2 with
  | mk result next =>
      cases result with
      | error failure => simp [bind, Except.bind]
      | ok => simp [bind, Except.bind, addAll]

end Policy

end FirewallPolicy
