import FirewallPolicy.Proofs.Policy.Options
import FirewallPolicy.Proofs.Run.Basic
import FirewallPolicy.Rule.Declaration
import FirewallPolicy.Rule.Matches

/-!
# Matches for the helpers of services

A rule for related traffic has one match for each helper that the definitions of its services name.
Definitions of several families may name one helper, but the matches are kept under the helper, so
only the last of them counts: the match is usable in the families of that definition.
-/

namespace FirewallPolicy

open Stateful Run

/-! ## Last values -/

namespace Entries

variable {α β : Type}

/-- Where no two keys name the same entry, the values are those found under some key. -/
theorem mem_values_iff {entries : List (Scalar × α)} (apart : AreApart entries) {value : α} :
    value ∈ entries.map (·.2) ↔ ∃ key, get? entries key = some value := by
  induction entries with
  | nil => simp [get?]
  | cons entry rest inductionHypothesis =>
      obtain ⟨first, old⟩ := entry
      obtain ⟨differs, restApart⟩ := List.pairwise_cons.1 apart
      rw [List.map_cons, List.mem_cons, inductionHypothesis restApart]
      constructor
      · rintro (rfl | ⟨key, found⟩)
        · exact ⟨first, by rw [get?_cons, if_pos (Scalar.sameKey_self first)]⟩
        · refine ⟨key, ?_⟩
          rw [get?_cons, if_neg, found]
          intro same
          have absent : get? rest first = none :=
            get?_eq_none_iff.2 fun other member =>
              (Scalar.sameKey_comm ..).trans (differs other member)
          rw [get?_congr rest same, found] at absent
          cases absent
      · rintro ⟨key, found⟩
        rw [get?_cons] at found
        split at found
        · exact .inl (Option.some.inj found).symm
        · exact .inr ⟨key, found⟩

/-- A value is the last one under its key: a layer has it, and none of the later ones has the key. -/
theorem lastValue_map_eq_some_iff
    {items : List β} {layer : β → List (Scalar × α)} {key : Scalar} {value : α} :
    lastValue (items.map layer) key = some value ↔
      ∃ early item late, items = early ++ item :: late ∧ get? (layer item) key = some value ∧
        ∀ later ∈ late, get? (layer later) key = none := by
  rw [lastValue, ← List.map_reverse, List.findSome?_map, List.findSome?_eq_some_iff]
  constructor
  · rintro ⟨late, item, early, split, found, absent⟩
    refine ⟨early.reverse, item, late.reverse, ?_, found, fun later member =>
      absent later (List.mem_reverse.1 member)⟩
    have turned := congrArg List.reverse split
    simpa using turned
  · rintro ⟨early, item, late, rfl, found, absent⟩
    exact ⟨late.reverse, item, early.reverse, by simp, found, fun later member =>
      absent later (List.mem_reverse.1 member)⟩

end Entries

/-! ## Definitions that name helpers -/

namespace ServiceDefinition

/-- The definition names the helper that the key stands for. -/
def Names (definition : ServiceDefinition) (key : Scalar) : Prop :=
  ∃ named, definition.helper? = some (.scalar named) ∧ named.sameKey key = true

/-- A helper that the definition names can be a key. -/
def IsKeyed (definition : ServiceDefinition) : Prop :=
  ∀ helper, definition.helper? = some helper → ∃ key, helper = .scalar key

/-- The definition is the last one in the list that names its helper, which the key spells. -/
def IsLastNaming (definitions : List ServiceDefinition) (definition : ServiceDefinition)
    (key : Scalar) : Prop :=
  definition.helper? = some (.scalar key) ∧
    ∃ early late, definitions = early ++ definition :: late ∧ ∀ later ∈ late, ¬ later.Names key

end ServiceDefinition

namespace Rule

open ServiceDefinition

/-- What a definition adds to the matches: the one for its helper, if it names one. -/
def helperLayer (definition : ServiceDefinition) : List (Scalar × Fragment) :=
  match definition.helper? with
  | some (.scalar key) => [(key, helperFragment definition (.scalar key))]
  | _ => []

theorem get?_helperLayer_eq_some_iff
    {definition : ServiceDefinition} {key : Scalar} {fragment : Fragment} :
    Entries.get? (helperLayer definition) key = some fragment ↔
      ∃ named, definition.helper? = some (.scalar named) ∧ named.sameKey key = true ∧
        fragment = helperFragment definition (.scalar named) := by
  unfold helperLayer
  split
  · next named isHelper =>
      rw [Entries.get?_cons, isHelper]
      constructor
      · intro found
        split at found
        · next same => exact ⟨named, rfl, same, (Option.some.inj found).symm⟩
        · cases found
      · rintro ⟨_, ⟨⟩, same, rfl⟩
        exact if_pos same
  · next noKey =>
      constructor
      · intro found
        cases found
      · rintro ⟨named, isHelper, -⟩
        exact absurd isHelper (noKey named)

theorem get?_helperLayer_eq_none_iff {definition : ServiceDefinition} {key : Scalar} :
    Entries.get? (helperLayer definition) key = none ↔ ¬ definition.Names key := by
  rw [Option.eq_none_iff_forall_ne_some]
  constructor
  · rintro absent ⟨named, isHelper, same⟩
    exact absent _ (get?_helperLayer_eq_some_iff.2 ⟨named, isHelper, same, rfl⟩)
  · intro unnamed fragment found
    obtain ⟨named, isHelper, same, -⟩ := get?_helperLayer_eq_some_iff.1 found
    exact unnamed ⟨named, isHelper, same⟩

/-! ## The matches -/

/-- The definitions are put upon each other like layers.  The induction is on the definitions,
with what was found before them. -/
theorem foldlM_helpers
    {definitions : List ServiceDefinition} (keyed : ∀ definition ∈ definitions, definition.IsKeyed)
    (found : List (Scalar × Fragment)) :
    definitions.foldlM (fun (found : List (Scalar × Fragment)) definition =>
      match definition.helper? with
      | none => Except.ok found
      | some (.scalar key) =>
        .ok (Entries.insert found key (helperFragment definition (.scalar key)))
      | some _ => .error Failure.unusable) found =
      .ok ((definitions.map helperLayer).foldl Entries.insertAll found) := by
  induction definitions generalizing found with
  | nil => rfl
  | cons definition rest inductionHypothesis =>
      obtain ⟨isKeyed, restKeyed⟩ := List.forall_mem_cons.1 keyed
      rw [List.foldlM_cons, List.map_cons, List.foldl_cons]
      cases isHelper : definition.helper? with
      | none =>
          have layer : helperLayer definition = [] := by rw [helperLayer, isHelper]
          rw [layer]
          exact inductionHypothesis restKeyed found
      | some helper =>
          obtain ⟨key, rfl⟩ := isKeyed helper isHelper
          have layer : helperLayer definition =
              [(key, helperFragment definition (.scalar key))] := by
            rw [helperLayer, isHelper]
          rw [layer]
          exact inductionHypothesis restKeyed _

theorem helperFragments_eq
    {definitions : List ServiceDefinition}
    (keyed : ∀ definition ∈ definitions, definition.IsKeyed) :
    helperFragments definitions =
      .ok ((Entries.overlay (definitions.map helperLayer)).map (·.2)) := by
  exact except_bind_eq_ok.2 ⟨_, foldlM_helpers keyed [], rfl⟩

theorem areApart_helperLayer (definition : ServiceDefinition) :
    Entries.AreApart (helperLayer definition) := by
  unfold helperLayer
  split
  · exact List.pairwise_singleton ..
  · exact List.Pairwise.nil

/-- The matches are those of the definitions that name their helper last. -/
theorem mem_overlay_helperLayer_iff
    {definitions : List ServiceDefinition} {fragment : Fragment} :
    fragment ∈ (Entries.overlay (definitions.map helperLayer)).map (·.2) ↔
      ∃ definition key, IsLastNaming definitions definition key ∧
        fragment = helperFragment definition (.scalar key) := by
  have apart : ∀ layer ∈ definitions.map helperLayer, Entries.AreApart layer :=
    List.forall_mem_map.2 fun definition _ => areApart_helperLayer definition
  simp only [Entries.mem_values_iff (Entries.areApart_overlay _), Entries.get?_overlay apart,
    Entries.lastValue_map_eq_some_iff, get?_helperLayer_eq_some_iff, get?_helperLayer_eq_none_iff]
  constructor
  · rintro ⟨key, early, definition, late, split, ⟨named, isHelper, same, rfl⟩, unnamed⟩
    refine ⟨definition, named, ⟨isHelper, early, late, split, ?_⟩, rfl⟩
    rintro later member ⟨other, isOther, sameToo⟩
    refine unnamed later member ⟨other, isOther, ?_⟩
    rw [Scalar.sameKey_iff] at same sameToo ⊢
    exact sameToo.trans same
  · rintro ⟨definition, key, ⟨isHelper, early, late, split, unnamed⟩, rfl⟩
    exact ⟨key, early, definition, late, split,
      ⟨key, isHelper, Scalar.sameKey_self key, rfl⟩, unnamed⟩

/-! ## Covered families -/

/-- The match for traffic that a helper relates to a connection. -/
def relatedToken (helper : String) : String :=
  "-m conntrack --ctstate RELATED -m helper --helper " ++ helper

theorem isEmpty_relatedToken (helper : String) : (relatedToken helper).isEmpty = false := by
  unfold relatedToken
  rw [String.isEmpty_eq_false_iff]
  intro isEmpty
  rw [String.append_eq_empty_iff] at isEmpty
  exact absurd isEmpty.1 (by decide +kernel)

theorem tokens_helperFragment (definition : ServiceDefinition) (helper : Value) :
    (helperFragment definition helper).tokens = [relatedToken helper.written] := by
  change [relatedToken helper.written].filter (!·.isEmpty) = _
  rw [List.filter_cons, isEmpty_relatedToken]
  rfl

/-- One of the matches is for the helper and usable in the family. -/
def Covers (found : List Fragment) (helper family : String) : Prop :=
  ∃ fragment ∈ found, fragment.tokens = [relatedToken helper] ∧
    fragment.family.all (· == family) = true

theorem covers_overlay_iff {definitions : List ServiceDefinition} {helper family : String} :
    Covers ((Entries.overlay (definitions.map helperLayer)).map (·.2)) helper family ↔
      ∃ definition key, IsLastNaming definitions definition key ∧ key.written = helper ∧
        definition.family.all (· == family) = true := by
  unfold Covers
  simp only [mem_overlay_helperLayer_iff]
  constructor
  · rintro ⟨_, ⟨definition, key, last, rfl⟩, isHelper, applies⟩
    rw [tokens_helperFragment, List.singleton_inj] at isHelper
    exact ⟨definition, key, last, (String.append_right_inj _).1 isHelper, applies⟩
  · rintro ⟨definition, key, last, rfl, applies⟩
    exact ⟨_, ⟨definition, key, last, rfl⟩, tokens_helperFragment definition _, applies⟩

/-- The definitions of a rule are those of its services. -/
theorem definitions_eq_ok_iff {rule : Rule} {definitions : List ServiceDefinition} :
    rule.definitions = .ok definitions ↔
      ∃ services : List Service, rule.services.getD [] = services.map .service ∧
        services.flatMap (·.definitions) = definitions := by
  unfold Rule.definitions
  generalize rule.services.getD [] = selectors
  rw [except_bind_eq_ok]
  simp only [except_pure_eq_ok]
  constructor
  · rintro ⟨lists, run, rfl⟩
    have each := forall₂_of_mapM_eq_ok run
    clear run
    induction each with
    | nil => exact ⟨[], rfl, rfl⟩
    | @cons selector first _ _ read _ inductionHypothesis =>
        obtain ⟨services, rfl, flat⟩ := inductionHypothesis
        cases selector with
        | service service =>
            obtain rfl := Except.ok.inj read
            exact ⟨service :: services, rfl, by rw [List.flatMap_cons, flat, List.flatten_cons]⟩
        | definition definition => cases read
        | other => cases read
  · rintro ⟨services, rfl, rfl⟩
    refine ⟨services.map (·.definitions), ?_, rfl⟩
    induction services with
    | nil => rfl
    | cons service rest inductionHypothesis =>
        rw [List.map_cons, List.mapM_cons, inductionHypothesis]
        rfl

/-! ## Definitions that agree -/

/-- A helper that some definition names is named by a last one. -/
theorem exists_isLastNaming
    {definitions : List ServiceDefinition} {definition : ServiceDefinition} {key : Scalar}
    (member : definition ∈ definitions) (names : definition.Names key) :
    ∃ last named, IsLastNaming definitions last named ∧ named.sameKey key = true := by
  induction definitions using List.reverseRecOn with
  | nil => cases member
  | append_singleton early last inductionHypothesis =>
      by_cases isLast : last.Names key
      · obtain ⟨named, isHelper, same⟩ := isLast
        exact ⟨last, named, ⟨isHelper, early, [], rfl, by simp⟩, same⟩
      · have isEarly : definition ∈ early := by
          rcases List.mem_append.1 member with isEarly | isLater
          · exact isEarly
          · obtain rfl := List.mem_singleton.1 isLater
            exact absurd names isLast
        obtain ⟨other, named, ⟨isHelper, first, late, rfl, unnamed⟩, same⟩ :=
          inductionHypothesis isEarly
        refine ⟨other, named, ⟨isHelper, first, late ++ [last], by simp, ?_⟩, same⟩
        intro later isLater
        rcases List.mem_append.1 isLater with inLate | atEnd
        · exact unnamed later inLate
        · rw [List.mem_singleton.1 atEnd]
          rintro ⟨spelled, isSpelled, sameToo⟩
          refine isLast ⟨spelled, isSpelled, ?_⟩
          rw [Scalar.sameKey_iff] at same sameToo ⊢
          exact sameToo.trans same

/-- The definition names the helper and applies to the family. -/
def Helps (definition : ServiceDefinition) (helper family : String) : Prop :=
  ∃ key, definition.helper? = some (.scalar key) ∧ key.written = helper ∧
    definition.family.all (· == family) = true

/-- Definitions that name one helper spell it alike and are restricted to one family. -/
def AgreeOnHelpers (definitions : List ServiceDefinition) : Prop :=
  ∀ first ∈ definitions, ∀ second ∈ definitions, ∀ key, first.Names key → second.Names key →
    first.helper? = second.helper? ∧ first.family = second.family

/-- Where definitions of one helper agree on the family, every family of a helper is covered. -/
theorem covers_overlay_iff_of_agree
    {definitions : List ServiceDefinition} (agree : AgreeOnHelpers definitions)
    {helper family : String} :
    Covers ((Entries.overlay (definitions.map helperLayer)).map (·.2)) helper family ↔
      ∃ definition ∈ definitions, Helps definition helper family := by
  rw [covers_overlay_iff]
  constructor
  · rintro ⟨definition, key, ⟨isHelper, early, late, rfl, _⟩, written, applies⟩
    exact ⟨definition, by simp, key, isHelper, written, applies⟩
  · rintro ⟨definition, member, key, isHelper, written, applies⟩
    have names : definition.Names key := ⟨key, isHelper, Scalar.sameKey_self key⟩
    obtain ⟨last, named, isLast, same⟩ := exists_isLastNaming member names
    have isMember : last ∈ definitions := by
      obtain ⟨_, early, late, rfl, _⟩ := isLast
      simp
    obtain ⟨sameHelper, sameFamily⟩ :=
      agree definition member last isMember key names ⟨named, isLast.1, same⟩
    have spelled : key = named := by
      have both := isHelper.symm.trans (sameHelper.trans isLast.1)
      exact Value.scalar.inj (Option.some.inj both)
    exact ⟨last, named, isLast, spelled ▸ written, sameFamily ▸ applies⟩

/-! ## The matches of a rule -/

/-- A rule for related traffic has a match for a helper that is usable in a family exactly where
the last definition of its services that names the helper applies to the family.  Where definitions
of one helper agree, any of them will do. -/
theorem serviceFragments_of_related
    {rule : Rule} (isRelated : rule.kind = .related) {services : List Service}
    (lists : rule.services.getD [] = services.map .service)
    (keyed : ∀ definition ∈ services.flatMap (·.definitions), definition.IsKeyed)
    (before : Context) :
    ∃ found, rule.serviceFragments before = (.ok (some found), before) ∧
      (∀ helper family, Covers found helper family ↔
        ∃ definition key, IsLastNaming (services.flatMap (·.definitions)) definition key ∧
          key.written = helper ∧ definition.family.all (· == family) = true) ∧
      (AgreeOnHelpers (services.flatMap (·.definitions)) →
        ∀ helper family, Covers found helper family ↔
          ∃ definition ∈ services.flatMap (·.definitions), Helps definition helper family) := by
  have read := definitions_eq_ok_iff.2 ⟨services, lists, rfl⟩
  refine ⟨_, ?_, fun helper family => covers_overlay_iff,
    fun agree helper family => covers_overlay_iff_of_agree agree⟩
  unfold serviceFragments
  rw [isRelated]
  refine recording_eq_ok.2 ⟨?_, rfl⟩
  rw [read]
  change (helperFragments _ >>= fun found => pure (some found)) = _
  rw [helperFragments_eq keyed]
  rfl

/-! ## A helper of two families -/

/-- A definition of file transfers in one family. -/
def ftpDefinition (family : String) : Value :=
  .map [(.text "proto", .text "tcp"), (.text "port", .int 21), (.text "family", .text family),
    (.text "ct-helper", .text "ftp")]

/-- A rule for traffic related to file transfers in both families. -/
def ftpSource : Entry :=
  .raw (.map [(.text "service", .list [ftpDefinition "inet", ftpDefinition "inet6"])])

/-- What the declaration of the rule ends with. -/
def ftpDeclaration : Except Failure Rule × Context :=
  Rule.declare .related "related 1" ftpSource {}

/-- The helper of a definition, if it can be a key. -/
def helperKey? (definition : ServiceDefinition) : Option Scalar :=
  match definition.helper? with
  | some (.scalar key) => some key
  | _ => none

theorem helper?_of_helperKey?
    {definition : ServiceDefinition} {key : Scalar} (isKey : helperKey? definition = some key) :
    definition.helper? = some (.scalar key) := by
  unfold helperKey? at isKey
  split at isKey
  · next named isHelper => exact Option.some.inj isKey ▸ isHelper
  · cases isKey

/-- The rule is declared, two definitions of its services name the helper, and its matches are
found. -/
structure IsFtpRun (rule : Rule) (declared after : Context) (services : List Service)
    (found : List Fragment) : Prop where
  declares : Rule.declare .related "related 1" ftpSource {} = (.ok rule, declared)
  isRelated : rule.kind = .related
  lists : rule.services.getD [] = services.map .service
  definitions : (services.flatMap (·.definitions)).map
      (fun definition => (helperKey? definition, definition.family)) =
    [(some (.text "ftp"), some "inet"), (some (.text "ftp"), some "inet6")]
  run : rule.serviceFragments declared = (.ok (some found), after)
  families : found.map (·.family) = [some "inet6"]

theorem exists_isFtpRun :
    ∃ rule declared after services found, IsFtpRun rule declared after services found := by
  obtain ⟨rule, declares, isRelated, ⟨definitions, read, stated⟩, _, run, found, rfl, families⟩ :
      ∃ rule ∈ ftpDeclaration.1.toOption, rule.kind = .related ∧
        (∃ definitions ∈ rule.definitions.toOption, definitions.map
            (fun definition => (helperKey? definition, definition.family)) =
          [(some (.text "ftp"), some "inet"), (some (.text "ftp"), some "inet6")]) ∧
        ∃ given ∈ (rule.serviceFragments ftpDeclaration.2).1.toOption, ∃ found ∈ given,
          found.map (·.family) = [some "inet6"] := by
    decide +kernel
  obtain ⟨services, lists, rfl⟩ := definitions_eq_ok_iff.1 (eq_ok_of_mem_toOption read)
  exact ⟨rule, ftpDeclaration.2, _, services, found,
    ⟨eq_of_mem_toOption declares, isRelated, lists, stated, eq_of_mem_toOption run, families⟩⟩

/-- Of two definitions that name the helper, the second one decides: its family is covered. -/
theorem serviceFragments_of_ftpRun :
    ∃ rule declared after services found, IsFtpRun rule declared after services found ∧
      ∀ family, Covers found "ftp" family ↔
        ∃ definition key, IsLastNaming (services.flatMap (·.definitions)) definition key ∧
          key.written = "ftp" ∧ definition.family.all (· == family) = true := by
  obtain ⟨rule, declared, after, services, found, isRun⟩ := exists_isFtpRun
  have keyed : ∀ definition ∈ services.flatMap (·.definitions), definition.IsKeyed := by
    intro definition member helper isHelper
    have listed := List.mem_map_of_mem (f := fun definition =>
      (helperKey? definition, definition.family)) member
    rw [isRun.definitions] at listed
    have isKey : helperKey? definition = some (.text "ftp") := by
      simp only [List.mem_cons, Prod.mk.injEq, List.not_mem_nil, or_false] at listed
      exact listed.elim And.left And.left
    exact ⟨_, Option.some.inj (isHelper.symm.trans (helper?_of_helperKey? isKey))⟩
  obtain ⟨listed, run, covers, _⟩ :=
    serviceFragments_of_related isRun.isRelated isRun.lists keyed declared
  obtain rfl : listed = found :=
    Option.some.inj (Except.ok.inj (congrArg Prod.fst (run.symm.trans isRun.run)))
  exact ⟨rule, declared, after, services, listed, isRun, covers "ftp"⟩

/-- The first of the two definitions applies to a family that no match for the helper covers. -/
theorem not_covers_of_ftpRun :
    ∃ rule declared after services found, IsFtpRun rule declared after services found ∧
      (∃ definition ∈ services.flatMap (·.definitions), Helps definition "ftp" "inet") ∧
      ¬ Covers found "ftp" "inet" := by
  obtain ⟨rule, declared, after, services, found, isRun⟩ := exists_isFtpRun
  refine ⟨rule, declared, after, services, found, isRun, ?_, ?_⟩
  · have listed : (some (.text "ftp"), some "inet") ∈
        (services.flatMap (·.definitions)).map
          (fun definition => (helperKey? definition, definition.family)) := by
      rw [isRun.definitions]
      exact List.mem_cons_self ..
    obtain ⟨definition, member, same⟩ := List.mem_map.1 listed
    obtain ⟨isKey, isFamily⟩ := Prod.mk.inj same
    refine ⟨definition, member, .text "ftp", helper?_of_helperKey? isKey, rfl, ?_⟩
    rw [isFamily]
    decide
  · rintro ⟨fragment, member, -, usable⟩
    have listed := List.mem_map_of_mem (f := (·.family)) member
    rw [isRun.families, List.mem_singleton] at listed
    rw [listed] at usable
    exact absurd usable (by decide)

end Rule

end FirewallPolicy
