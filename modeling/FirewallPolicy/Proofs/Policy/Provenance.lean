import FirewallPolicy.Proofs.Policy.Merging
import FirewallPolicy.Proofs.Value.Renaming
import Mathlib.Data.List.Induction

/-!
# Where the entries of a policy come from

Documents are merged by calls that may stop at an entry which does not fit; what was merged before
stays.  Whatever the calls did, a list section holds the items of the merged lists one after the
other, a mapping section holds for each key the value that was stated last, and the policy knows for
each of them the source of the document that stated it.
-/

namespace FirewallPolicy

/-! ## Storing with sources -/

theorem Scalar.sameKey_int_iff {first second : Int} :
    (Scalar.int first).sameKey (.int second) = true ↔ first = second := by
  simp [sameKey_iff, identity]

namespace Entries

variable {α β : Type}

theorem insertAll_mapped (change : α → β) (entries added : List (Scalar × α)) :
    insertAll (mapped change entries) (mapped change added) =
      mapped change (insertAll entries added) := by
  induction added generalizing entries with
  | nil => rfl
  | cons entry rest inductionHypothesis =>
      have step := inductionHypothesis (insert entries entry.1 entry.2)
      rw [← insert_mapped] at step
      exact step

theorem insertAll_append (entries first second : List (Scalar × α)) :
    insertAll entries (first ++ second) = insertAll (insertAll entries first) second :=
  List.foldl_append ..

/-- Of all entries of a key, the one that is stored last is read. -/
theorem get?_insertAll_reverse (entries added : List (Scalar × α)) (key : Scalar) :
    get? (insertAll entries added) key = (get? added.reverse key).or (get? entries key) := by
  induction added generalizing entries with
  | nil => rfl
  | cons entry rest inductionHypothesis =>
      obtain ⟨first, value⟩ := entry
      rw [insertAll, List.foldl_cons, ← insertAll, inductionHypothesis, get?_insert,
        List.reverse_cons, get?_append, get?_cons]
      cases get? rest.reverse key <;> cases first.sameKey key <;> rfl

/-- The keys without those that name an entry of an earlier one. -/
def firstKeys : List Scalar → List Scalar
  | [] => []
  | key :: rest => key :: (firstKeys rest).filter fun other => !key.sameKey other

/-- New keys come behind the known ones, in the order in which they are first stored. -/
theorem keys_insertAll (entries added : List (Scalar × α)) :
    (insertAll entries added).map (·.1) =
      entries.map (·.1) ++ (firstKeys (added.map (·.1))).filter fun key =>
        (get? entries key).isNone := by
  induction added generalizing entries with
  | nil => simp [insertAll, firstKeys]
  | cons entry rest inductionHypothesis =>
      obtain ⟨first, value⟩ := entry
      have unknown (other : Scalar) :
          (get? (insert entries first value) other).isNone =
            ((get? entries other).isNone && !first.sameKey other) := by
        rw [get?_insert]
        cases first.sameKey other <;> simp
      rw [insertAll, List.foldl_cons, ← insertAll, inductionHypothesis]
      simp only [List.map_cons, firstKeys, List.filter_cons, List.filter_filter, unknown]
      cases known : get? entries first with
      | some old =>
          rw [keys_insert_of_get? known]
          rfl
      | none =>
          rw [insert_of_fresh (get?_eq_none_iff.1 known)]
          simp

/-- Sources by position. -/
def numbered (sources : List String) : List (Scalar × String) :=
  sources.zipIdx.map fun entry => (.int (entry.2 : Nat), entry.1)

theorem numbered_concat (sources : List String) (source : String) :
    numbered (sources ++ [source]) = numbered sources ++ [(.int (sources.length : Nat), source)] := by
  simp [numbered, List.zipIdx_append]

theorem keys_numbered (sources : List String) :
    (numbered sources).map (·.1) = (List.range sources.length).map fun i : Nat => .int i := by
  induction sources using List.reverseRecOn with
  | nil => rfl
  | append_singleton sources source inductionHypothesis =>
      rw [numbered_concat, List.map_append, inductionHypothesis, List.length_append]
      simp [List.range_succ]

/-- A position behind the others is new. -/
theorem insert_numbered (sources : List String) (source : String) :
    insert (numbered sources) (.int (sources.length : Nat)) source =
      numbered (sources ++ [source]) := by
  rw [numbered_concat]
  refine insert_of_fresh (fun entry member => ?_) source
  have isKey : entry.1 ∈ (numbered sources).map (·.1) := List.mem_map_of_mem member
  rw [keys_numbered] at isKey
  obtain ⟨position, inRange, isPosition⟩ := List.mem_map.1 isKey
  have before := List.mem_range.1 inRange
  rw [← isPosition, Bool.eq_false_iff, Ne, Scalar.sameKey_int_iff]
  omega

theorem get?_numbered (sources : List String) (position : Nat) :
    get? (numbered sources) (.int (position : Nat)) = sources[position]? := by
  induction sources using List.reverseRecOn with
  | nil => rfl
  | append_singleton sources source inductionHypothesis =>
      rw [← insert_numbered, get?_insert, inductionHypothesis]
      simp only [Scalar.sameKey_int_iff, Int.ofNat_inj]
      split
      · next isLast => simp [← isLast]
      · next notLast =>
          rcases Nat.lt_or_ge position sources.length with before | behind
          · rw [List.getElem?_append_left before]
          · rw [List.getElem?_eq_none behind, List.getElem?_eq_none]
            simp
            omega

/-- Sources for the positions behind the others. -/
theorem insertAll_numbered (sources : List String) (count : Nat) (source : String) :
    ((List.range count).map fun i => Scalar.int ((sources.length + i : Nat) : Int)).foldl
        (fun known key => insert known key source) (numbered sources) =
      numbered (sources ++ List.replicate count source) := by
  induction count with
  | zero => simp
  | succ count inductionHypothesis =>
      have reached : (sources ++ List.replicate count source).length = sources.length + count := by
        simp
      rw [List.range_succ, List.map_append, List.foldl_append, inductionHypothesis,
        List.replicate_succ', ← List.append_assoc, ← insert_numbered, reached]
      rfl

end Entries

/-! ## What documents state -/

/-- What one document states of a section. -/
structure Share where
  name : String
  source : String
  data : SectionData

namespace Share

/-- The items that the share adds to a list section, each with the source of the share. -/
def items (share : Share) (name : String) : List (Value × String) :=
  if share.name = name then
    match share.data with
    | .list items => items.map fun item => (item, share.source)
    | .map _ => []
  else []

/-- The entries that the share adds to a mapping section, each with the source of the share. -/
def definitions (share : Share) (name : String) : List (Scalar × (Value × String)) :=
  if share.name = name then
    match share.data with
    | .list _ => []
    | .map entries => Entries.mapped (fun value => (value, share.source)) entries
  else []

end Share

/-- The items of a list section, in the order of the shares. -/
def itemsOf (shares : List Share) (name : String) : List (Value × String) :=
  shares.flatMap fun share => share.items name

/-- All entries that are stated for a mapping section, in the order of the shares. -/
def definitionsOf (shares : List Share) (name : String) : List (Scalar × (Value × String)) :=
  shares.flatMap fun share => share.definitions name

namespace Policy

/-- What a top-level entry of a document states of a section. -/
def share? (source : String) (entry : Scalar × Value) : Option Share :=
  (sectionName? entry.1).bind fun name =>
    match entry.2.opened with
    | .list items => some ⟨name, source, .list items⟩
    | .map entries => some ⟨name, source, .map entries⟩
    | _ => none

/-- The entries of a document that are merged: those before the first that is refused. -/
def mergedFrom (policy : Policy) (source : String) : Entries → Entries
  | [] => []
  | (key, value) :: rest =>
    match policy.addEntry source key value with
    | (.ok (), next) => (key, value) :: next.mergedFrom source rest
    | (.error _, _) => []

/-- The policy after merging documents with their sources; what a refused one merged stays. -/
def adding (policy : Policy) (documents : List (Value × String)) : Policy :=
  documents.foldl (fun policy document => (policy.add document.1 document.2).2) policy

/-- What documents state of sections, as far as it is merged. -/
def sharesOf : Policy → List (Value × String) → List Share
  | _, [] => []
  | policy, (document, source) :: rest =>
    (policy.mergedFrom source (document.entries?.getD [])).filterMap (share? source) ++
      (policy.add document source).2.sharesOf rest

/-! ## Stored entries -/

/-- A section is absent and nothing was stated of it, or it holds what was stated, and the sources
are kept in parallel. -/
inductive Traced : Option SectionData → List (Scalar × String) → List (Value × String) →
    List (Scalar × (Value × String)) → Prop
  | absent : Traced none [] [] []
  | list (items : List (Value × String)) :
      Traced (some (.list (items.map (·.1)))) (Entries.numbered (items.map (·.2))) items []
  | map (definitions : List (Scalar × (Value × String))) :
      Traced (some (.map (Entries.mapped (·.1) (Entries.insertAll [] definitions))))
        (Entries.mapped (·.2) (Entries.insertAll [] definitions)) [] definitions

section Traced

variable {stored : Option SectionData} {sources : List (Scalar × String)}
  {items : List (Value × String)} {definitions : List (Scalar × (Value × String))}
  (traced : Traced stored sources items definitions)
include traced

theorem Traced.asList {held : List Value} (isList : stored.getD (.list []) = .list held) :
    held = items.map (·.1) ∧ sources = Entries.numbered (items.map (·.2)) ∧ definitions = [] := by
  cases traced with
  | absent =>
      obtain rfl := SectionData.list.inj isList
      exact ⟨rfl, rfl, rfl⟩
  | list items =>
      obtain rfl := SectionData.list.inj isList
      exact ⟨rfl, rfl, rfl⟩
  | map definitions => cases isList

theorem Traced.asMap {held : Entries} (isMap : stored.getD (.map []) = .map held) :
    held = Entries.mapped (·.1) (Entries.insertAll [] definitions) ∧
      sources = Entries.mapped (·.2) (Entries.insertAll [] definitions) ∧ items = [] := by
  cases traced with
  | absent =>
      obtain rfl := SectionData.map.inj isMap
      exact ⟨rfl, rfl, rfl⟩
  | list items => cases isMap
  | map definitions =>
      obtain rfl := SectionData.map.inj isMap
      exact ⟨rfl, rfl, rfl⟩

end Traced

/-- Every section holds what the shares state of it. -/
def Traces (policy : Policy) (shares : List Share) : Prop :=
  ∀ name, Traced (policy.objects.get? name) (policy.sourcesOf name) (itemsOf shares name)
    (definitionsOf shares name)

theorem sourcesOf_noteSources (policy : Policy) (name source : String) (keys : List Scalar)
    (other : String) :
    (policy.noteSources name source keys).sourcesOf other =
      if other = name then
        keys.foldl (fun sources key => Entries.insert sources key source) (policy.sourcesOf name)
      else policy.sourcesOf other := by
  unfold noteSources sourcesOf
  split
  · next same => rw [same, Named.get?_set_self, Option.getD_some]
  · next different => rw [Named.get?_set_of_ne different]

section Step

variable {policy next : Policy} {shares : List Share} {name source : String}

/-- Where only the section of a share changes, the others are traced as before. -/
theorem Traces.concat
    (traces : policy.Traces shares) {data : SectionData}
    (objects : ∀ other, other ≠ name → next.objects.get? other = policy.objects.get? other)
    (sources : ∀ other, other ≠ name → next.sourcesOf other = policy.sourcesOf other)
    (own : Traced (next.objects.get? name) (next.sourcesOf name)
      (itemsOf shares name ++ Share.items ⟨name, source, data⟩ name)
      (definitionsOf shares name ++ Share.definitions ⟨name, source, data⟩ name)) :
    next.Traces (shares ++ [⟨name, source, data⟩]) := by
  intro other
  simp only [itemsOf, definitionsOf, List.flatMap_append, List.flatMap_singleton] at own ⊢
  by_cases same : other = name
  · rw [same]
    exact own
  · have noItems : Share.items ⟨name, source, data⟩ other = [] := if_neg (Ne.symm same)
    have noDefinitions : Share.definitions ⟨name, source, data⟩ other = [] := if_neg (Ne.symm same)
    rw [objects other same, sources other same, noItems, noDefinitions, List.append_nil,
      List.append_nil]
    exact traces other

/-- A refused entry leaves at most a section without sources behind. -/
theorem Traces.noteSources (traces : policy.Traces shares) (name source : String) :
    (policy.noteSources name source []).Traces shares := by
  intro other
  have kept : (policy.noteSources name source []).sourcesOf other = policy.sourcesOf other := by
    rw [sourcesOf_noteSources, List.foldl_nil]
    split
    · next same => rw [same]
    · rfl
  rw [kept]
  exact traces other

theorem traces_addList
    {items : List Value} (traces : policy.Traces shares) :
    match policy.addList name source items with
    | (.ok (), next) => next.Traces (shares ++ [⟨name, source, .list items⟩])
    | (.error _, next) => next.Traces shares := by
  unfold addList
  dsimp only
  cases isOld : (policy.objects.get? name).getD (.list []) with
  | map old => exact traces.noteSources name source
  | list old =>
      obtain ⟨isHeld, isNoted, noDefinitions⟩ := (traces name).asList isOld
      refine traces.concat (fun other different => Named.get?_set_of_ne different ..)
        (fun other different => ?_) ?_
      · exact (sourcesOf_noteSources ..).trans (if_neg different)
      · have held : old ++ items =
            (itemsOf shares name ++ items.map fun item => (item, source)).map (·.1) := by
          simp [isHeld, Function.comp_def]
        have noted : (List.replicate items.length source) =
            (items.map fun item => (item, source)).map (·.2) := by
          simp [Function.comp_def]
        have count : old.length = ((itemsOf shares name).map (·.2)).length := by
          simp [isHeld]
        dsimp only
        rw [Named.get?_set_self, held]
        change Traced _ ((policy.noteSources name source _).sourcesOf name) _ _
        rw [sourcesOf_noteSources, if_pos rfl, isNoted, count, Entries.insertAll_numbered, noted,
          ← List.map_append, noDefinitions]
        simp only [Share.items, Share.definitions, if_true, List.append_nil]
        exact .list _

theorem traces_addMap
    {entries : Entries} (traces : policy.Traces shares) :
    match policy.addMap name source entries with
    | (.ok (), next) => next.Traces (shares ++ [⟨name, source, .map entries⟩])
    | (.error _, next) => next.Traces shares := by
  unfold addMap
  dsimp only
  cases isOld : (policy.objects.get? name).getD (.map []) with
  | list old => exact traces.noteSources name source
  | map old =>
      obtain ⟨isHeld, isNoted, noItems⟩ := (traces name).asMap isOld
      refine traces.concat (fun other different => Named.get?_set_of_ne different ..)
        (fun other different => ?_) ?_
      · exact (sourcesOf_noteSources ..).trans (if_neg different)
      · let added := Entries.mapped (fun value => (value, source)) entries
        have isAdded : entries = Entries.mapped (·.1) added := by
          simp [added, Entries.mapped, Function.comp_def]
        have areHeld := Entries.insertAll_mapped (·.1)
          (Entries.insertAll [] (definitionsOf shares name)) added
        have areNoted (known : List (Scalar × String)) :
            (entries.map (·.1)).foldl (fun sources key => Entries.insert sources key source) known =
              Entries.insertAll known (Entries.mapped (·.2) added) := by
          simp [added, Entries.mapped, Entries.insertAll, List.foldl_map]
        dsimp only
        rw [Named.get?_set_self]
        change Traced _ ((policy.noteSources name source _).sourcesOf name) _ _
        rw [sourcesOf_noteSources, if_pos rfl, isNoted, areNoted, Entries.insertAll_mapped, isHeld]
        rw [← isAdded] at areHeld
        rw [areHeld, ← Entries.insertAll_append, noItems]
        simp only [Share.items, Share.definitions, if_true, List.append_nil]
        exact .map _

/-- An entry that is merged adds its share, and one that is refused adds nothing. -/
theorem traces_addEntry
    {key : Scalar} {value : Value} (traces : policy.Traces shares) :
    match policy.addEntry source key value with
    | (.ok (), next) => next.Traces (shares ++ (share? source (key, value)).toList)
    | (.error _, next) => next.Traces shares := by
  rcases key_cases key with rfl | rfl | ⟨name, isSection⟩
  · simpa [addEntry, share?, sectionName?] using traces
  · unfold addEntry
    cases value.opened with
    | map options => exact (List.append_nil shares).symm ▸ traces
    | _ => exact traces
  · rw [addEntry_of_sectionName isSection, share?, isSection, Option.bind_some]
    cases key.isShowable with
    | false => exact traces
    | true =>
        dsimp only [Bool.not_true, Bool.false_eq_true, if_false]
        cases value.opened with
        | list items => exact traces_addList traces
        | map entries => exact traces_addMap traces
        | _ => exact traces.noteSources name source

end Step

/-! ## Calls -/

section Calls

variable {policy last : Policy} {shares : List Share} {source : String}

theorem traces_addEntries {entries : Entries} (traces : policy.Traces shares) :
    (policy.addEntries source entries).2.Traces
      (shares ++ (policy.mergedFrom source entries).filterMap (share? source)) := by
  induction entries generalizing policy shares with
  | nil => simpa [addEntries, mergedFrom] using traces
  | cons entry rest inductionHypothesis =>
      obtain ⟨key, value⟩ := entry
      have step := @traces_addEntry policy shares source key value traces
      rw [addEntries, mergedFrom]
      cases run : policy.addEntry source key value with
      | mk result next =>
          rw [run] at step
          cases result with
          | error failure => exact (List.append_nil shares).symm ▸ step
          | ok =>
              have others := inductionHypothesis step
              rw [List.append_assoc] at others
              dsimp only
              rw [List.filterMap_cons]
              cases added : share? source (key, value) <;> rw [added] at others <;> exact others

theorem traces_add {document : Value} (traces : policy.Traces shares) :
    (policy.add document source).2.Traces
      (shares ++
        (policy.mergedFrom source (document.entries?.getD [])).filterMap (share? source)) := by
  unfold add Value.entries?
  split
  · next isNull =>
      rw [isNull]
      exact (List.append_nil shares).symm ▸ traces
  · next entries isMap =>
      rw [isMap]
      exact traces_addEntries traces
  · next notNull notMap =>
      split
      · next entries isMap => exact absurd isMap (notMap entries)
      · exact (List.append_nil shares).symm ▸ traces

/-- Whatever the calls did, every section holds what they merged. -/
theorem traces_adding {documents : List (Value × String)} (traces : policy.Traces shares) :
    (policy.adding documents).Traces (shares ++ policy.sharesOf documents) := by
  induction documents generalizing policy shares with
  | nil => exact (List.append_nil shares).symm ▸ traces
  | cons document rest inductionHypothesis =>
      have step := inductionHypothesis (@traces_add policy shares document.2 document.1 traces)
      rw [List.append_assoc] at step
      exact step

/-- What a document states of sections. -/
def statedBy (document : Value × String) : List Share :=
  (document.1.entries?.getD []).filterMap (share? document.2)

theorem mergedFrom_of_addEntries {entries : Entries}
    (run : policy.addEntries source entries = (.ok (), last)) :
    policy.mergedFrom source entries = entries := by
  induction entries generalizing policy with
  | nil => rfl
  | cons entry rest inductionHypothesis =>
      obtain ⟨key, value⟩ := entry
      obtain ⟨next, first, others⟩ := addEntries_cons_eq_ok.1 run
      rw [mergedFrom, first]
      exact congrArg _ (inductionHypothesis others)

theorem mergedFrom_of_add {document : Value}
    (run : policy.add document source = (.ok (), last)) :
    policy.mergedFrom source (document.entries?.getD []) = document.entries?.getD [] := by
  unfold add at run
  unfold Value.entries?
  split at run
  · next isNull =>
      rw [isNull]
      rfl
  · next entries isMap =>
      rw [isMap]
      exact mergedFrom_of_addEntries run
  · cases run

/-- Where no call fails, all that the documents state is merged. -/
theorem sharesOf_of_addAll {documents : List (Value × String)}
    (run : policy.addAll documents = .ok last) :
    policy.adding documents = last ∧ policy.sharesOf documents = documents.flatMap statedBy := by
  induction documents generalizing policy with
  | nil => exact ⟨Except.ok.inj run, rfl⟩
  | cons document rest inductionHypothesis =>
      obtain ⟨next, first, others⟩ := addAll_cons_eq_ok.1 run
      obtain ⟨isLast, isShared⟩ := inductionHypothesis others
      constructor
      · rw [adding, List.foldl_cons, first]
        exact isLast
      · rw [sharesOf, first, mergedFrom_of_add first, List.flatMap_cons, isShared]
        rfl

end Calls

/-! ## Provenance -/

/-- The keys of a section's entries; those of a list are the positions of its items. -/
def keysOf : SectionData → List Scalar
  | .list items => (List.range items.length).map fun i : Nat => .int i
  | .map entries => entries.map (·.1)

/-- The entries of sections are those that the shares state, and the sources those of the shares that
state them. -/
structure Provenance (policy : Policy) (shares : List Share) : Prop where
  keys : ∀ name, (policy.sourcesOf name).map (·.1) = keysOf (policy.dataOf name)
  absent : ∀ name, policy.objects.get? name = none →
    itemsOf shares name = [] ∧ definitionsOf shares name = []
  items : ∀ name items, policy.objects.get? name = some (.list items) →
    definitionsOf shares name = [] ∧ items = (itemsOf shares name).map (·.1)
  itemSources : ∀ name items, policy.objects.get? name = some (.list items) →
    ∀ position : Nat, Entries.get? (policy.sourcesOf name) (.int position) =
      ((itemsOf shares name)[position]?).map (·.2)
  entryKeys : ∀ name entries, policy.objects.get? name = some (.map entries) →
    itemsOf shares name = [] ∧
      entries.map (·.1) = Entries.firstKeys ((definitionsOf shares name).map (·.1))
  entries : ∀ name entries, policy.objects.get? name = some (.map entries) →
    ∀ key, Entries.get? entries key =
      (Entries.get? (definitionsOf shares name).reverse key).map (·.1)
  entrySources : ∀ name entries, policy.objects.get? name = some (.map entries) →
    ∀ key, Entries.get? (policy.sourcesOf name) key =
      (Entries.get? (definitionsOf shares name).reverse key).map (·.2)

theorem Traced.keys_eq
    {stored : Option SectionData} {sources : List (Scalar × String)}
    {items : List (Value × String)} {definitions : List (Scalar × (Value × String))}
    (traced : Traced stored sources items definitions) :
    sources.map (·.1) = keysOf (stored.getD (.map [])) := by
  cases traced with
  | absent => rfl
  | list items => simp [keysOf, Entries.keys_numbered]
  | map definitions => simp [keysOf]

theorem Traces.provenance {policy : Policy} {shares : List Share}
    (traces : policy.Traces shares) : policy.Provenance shares where
  keys name := (traces name).keys_eq
  absent name isAbsent := by
    have traced := traces name
    rw [isAbsent] at traced
    exact ⟨(traced.asMap rfl).2.2, (traced.asList rfl).2.2⟩
  items name items isList := by
    obtain ⟨isHeld, -, noDefinitions⟩ :=
      (traces name).asList (congrArg (Option.getD · (.list [])) isList)
    exact ⟨noDefinitions, isHeld⟩
  itemSources name items isList position := by
    obtain ⟨-, isNoted, -⟩ := (traces name).asList (congrArg (Option.getD · (.list [])) isList)
    rw [isNoted, Entries.get?_numbered, List.getElem?_map]
  entryKeys name entries isMap := by
    obtain ⟨isHeld, -, noItems⟩ :=
      (traces name).asMap (congrArg (Option.getD · (.map [])) isMap)
    refine ⟨noItems, ?_⟩
    rw [isHeld, Entries.keys_mapped, Entries.keys_insertAll]
    simp [Entries.get?]
  entries name entries isMap key := by
    obtain ⟨isHeld, -, -⟩ := (traces name).asMap (congrArg (Option.getD · (.map [])) isMap)
    rw [isHeld, Entries.get?_mapped, Entries.get?_insertAll_reverse]
    exact congrArg _ (Option.or_none ..)
  entrySources name entries isMap key := by
    obtain ⟨-, isNoted, -⟩ := (traces name).asMap (congrArg (Option.getD · (.map [])) isMap)
    rw [isNoted, Entries.get?_mapped, Entries.get?_insertAll_reverse]
    exact congrArg _ (Option.or_none ..)

theorem provenance_adding (documents : List (Value × String)) :
    (adding {} documents).Provenance (sharesOf {} documents) := by
  have nothing : Traces {} [] := fun name => .absent
  exact (traces_adding nothing).provenance

/-- The second document is refused at its last section, and its item stays. -/
example :
    (adding {} [(.map [(.text "filter", .list [.map []])], "one.yaml"),
      (.map [(.text "filter", .list [.map []]), (.text "zone", .null)], "two.yaml")]).sourcesOf
        "filter" = [(.int 0, "one.yaml"), (.int 1, "two.yaml")] :=
  rfl

end Policy

end FirewallPolicy
