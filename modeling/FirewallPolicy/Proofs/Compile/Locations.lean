import FirewallPolicy.Compile.Compilation
import FirewallPolicy.Proofs.Context.Rules
import FirewallPolicy.Proofs.Policy.Provenance

/-!
# Where the entries of a policy stand

The compiler tells where an entry of a section stands by the section, the key and the source of the
entry.  Declaring objects replaces entries in their places, so it is always asked for the keys that
the policy has, and the policy knows the sources of all of them.
-/

namespace FirewallPolicy

open Context Stateful

namespace Building

/-! ## Keys of sections -/

/-- Every section has the keys that it had. -/
def KeepsKeys (before after : Context) : Prop :=
  ∀ name, (after.entriesOf name).keys = (before.entriesOf name).keys

instance : IsPreorder Context KeepsKeys where
  refl _ _ := rfl
  trans _ _ _ early late name := (late name).trans (early name)

theorem keepsKeys_of_notes {before after : Context} (notes : Notes before after) :
    KeepsKeys before after := by
  intro name
  by_cases isLog : name = "log"
  · rw [isLog]
    exact notes.advances.keys
  · rw [notes.entriesOf isLog]

/-- An entry that is there stays there. -/
theorem exists_entry_of_notes {before after : Context} (notes : Notes before after) {name : String}
    {key : Scalar} {entry : Entry} (found : (before.entriesOf name).get? key = some entry) :
    ∃ later, (after.entriesOf name).get? key = some later := by
  by_cases isLog : name = "log"
  · subst isLog
    obtain ⟨later, isLater, -⟩ := notes.advances.found key entry found
    exact ⟨later, isLater⟩
  · exact ⟨entry, (notes.entriesOf isLog).symm ▸ found⟩

variable {policy : Policy}

theorem keepsKeys_declareKey {name : String} {kind : ObjectKind} {key : Scalar} :
    Moves KeepsKeys (declareKey policy name kind key) := by
  unfold declareKey
  split
  · exact moves_throw _
  · refine moves_of_get fun before => ?_
    cases found : (before.entriesOf name).get? key with
    | none => exact refl_of KeepsKeys before
    | some entry =>
        have declares := @PolicyObject.notes_declare kind (entryLocation policy name key)
          (LogClass.keyOf key) entry
        refine Moves.bind_at (fun before => keepsKeys_of_notes (declares before))
          fun object middle run => ?_
        have notes := declares.of_eq run
        obtain ⟨later, isLater⟩ := exists_entry_of_notes notes found
        refine trans_of KeepsKeys (keepsKeys_of_notes notes) fun other => ?_
        by_cases same : other = name
        · rw [same]
          exact (congrArg _ (entriesOf_set_self middle name _)).trans
            (SectionEntries.keys_put isLater _)
        · exact congrArg _ (entriesOf_set_of_ne same middle _)

theorem keepsKeys_declareKeys {name : String} {kind : ObjectKind} {keys : List Scalar} :
    Moves KeepsKeys (declareKeys policy name kind keys) := by
  induction keys with
  | nil => exact moves_pure _
  | cons key rest inductionHypothesis =>
      exact keepsKeys_declareKey.bind fun _ => inductionHypothesis

theorem keepsKeys_declareSection {described : Section} :
    Moves KeepsKeys (declareSection policy described) := by
  unfold declareSection
  split
  · exact moves_pure _
  · exact moves_get_bind fun _ => keepsKeys_declareKeys

/-- Whichever sections are declared, and whether that fails or not, no section gets other keys. -/
theorem keepsKeys_declareSections {sections : List Section} :
    Moves KeepsKeys (declareSections policy sections) := by
  induction sections with
  | nil => exact moves_pure _
  | cons described rest inductionHypothesis =>
      exact keepsKeys_declareSection.bind fun _ => inductionHypothesis

/-! ## Locations -/

/-- The keys of a section of a merged policy, before any object is declared. -/
theorem keys_rawEntries (data : SectionData) : (rawEntries data).keys = Policy.keysOf data := by
  cases data with
  | list items => simp [rawEntries, SectionEntries.keys, Policy.keysOf]
  | map entries => simp [rawEntries, SectionEntries.keys, Policy.keysOf, Function.comp_def]

/-- The location of an entry names the document that the entry is of, so a question mark in it is
one of the name of the section, of the key or of the source. -/
structure IsLocated (policy : Policy) (name : String) (key : Scalar) (source : String) : Prop where
  isSource : Entries.get? (policy.sourcesOf name) key = some source
  location : entryLocation policy name key = name ++ " " ++ key.written ++ " (" ++ source ++ ")"
  questionMark : '?' ∈ (entryLocation policy name key).toList ↔
    '?' ∈ name.toList ∨ '?' ∈ key.written.toList ∨ '?' ∈ source.toList

theorem isLocated_of_source {name source : String} {key : Scalar}
    (isSource : Entries.get? (policy.sourcesOf name) key = some source) :
    IsLocated policy name key source := by
  have location : entryLocation policy name key =
      name ++ " " ++ key.written ++ " (" ++ source ++ ")" := by
    rw [entryLocation, isSource]
    rfl
  refine ⟨isSource, location, ?_⟩
  rw [location]
  simp [String.toList_append]

theorem exists_isLocated {name : String} {key : Scalar}
    (known : key ∈ (policy.sourcesOf name).map (·.1)) :
    ∃ source, IsLocated policy name key source := by
  obtain ⟨entry, member, rfl⟩ := List.mem_map.1 known
  have isThere : Entries.get? (policy.sourcesOf name) entry.1 ≠ none := by
    intro absent
    have differs := Entries.get?_eq_none_iff.1 absent entry member
    rw [Scalar.sameKey_self] at differs
    cases differs
  obtain ⟨source, isSource⟩ := Option.ne_none_iff_exists'.1 isThere
  exact ⟨source, isLocated_of_source isSource⟩

/-- Merging keeps track of the sources, and the compiler finds a source wherever it locates an entry:
for the keys that sections have, whichever sections were declared before. -/
structure KeepsTrack (documents : List (Value × String)) (policy : Policy) : Prop where
  provenance : policy.Provenance (Policy.sharesOf {} documents)
  complete : ∀ last, Policy.ofDocuments documents = .ok last →
    policy = last ∧ Policy.sharesOf {} documents = documents.flatMap Policy.statedBy
  located : ∀ (sections : List Section) (start : Context),
    start.objects = policy.objects.map (fun entry => (entry.1, rawEntries entry.2)) →
    ∀ name, ∀ key ∈ ((declareSections policy sections start).2.entriesOf name).keys,
      ∃ source, IsLocated policy name key source

theorem keepsTrack_adding (documents : List (Value × String)) :
    KeepsTrack documents (Policy.adding {} documents) := by
  have provenance := Policy.provenance_adding documents
  refine ⟨provenance, fun last run => Policy.sharesOf_of_addAll run, ?_⟩
  intro sections start loaded name key member
  rw [keepsKeys_declareSections start name] at member
  refine exists_isLocated ?_
  rw [provenance.keys, Policy.dataOf]
  have isHeld : start.objects.get? name =
      ((Policy.adding {} documents).objects.get? name).map rawEntries := by
    rw [loaded]
    exact Named.lookup_mapped name
  rw [Context.entriesOf, isHeld] at member
  cases held : (Policy.adding {} documents).objects.get? name with
  | none => rw [held] at member; cases member
  | some data =>
      rw [held] at member
      rw [← keys_rawEntries]
      exact member

end Building

end FirewallPolicy
