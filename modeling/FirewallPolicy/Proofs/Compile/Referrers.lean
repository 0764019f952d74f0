import FirewallPolicy.Proofs.Compile.Completeness
import FirewallPolicy.Proofs.Compile.Families
import FirewallPolicy.Proofs.Compile.Locations
import FirewallPolicy.Proofs.Compile.Places
import FirewallPolicy.Proofs.Insertion.Undefined
import FirewallPolicy.Proofs.Run.Contract

/-!
# Who refers to a chain that is not defined

A compilation that fails because one of the policy's own chains is not defined names the object
whose rules jump to the chain.  Where the jump stands in another chain of the policy's own, nobody
is named: the rules of that chain are inserted without an owner.
-/

namespace FirewallPolicy

open Assembly Context Run Stateful

/-! ## Rules that only match and translate -/

/-- Only what logs has an action, so no other rule jumps to one of the policy's own chains. -/
theorem Rule.customName?_eq_none_of_mem_fragments
    {rule : Rule} {before after : Context} {fragments : List Fragment}
    (notLogging : rule.kind.logs = false) (run : rule.fragments before = (.ok fragments, after))
    {fragment : Fragment} (member : fragment ∈ fragments) {target : String}
    (jumps : fragment.target = some target) :
    customName? target = none := by
  have notFilter : rule.kind.isFilter = false := by
    rw [Bool.eq_false_iff]
    intro isFilter
    cases notLogging.symm.trans (logs_of_isFilter isFilter)
  rw [fragments_of_not_isFilter notFilter] at run
  obtain ⟨matched, middle, finished, matches_, finishes, rfl⟩ := ownFragments_eq_ok run
  obtain ⟨position, -, matchAt⟩ := dimensions_eq_ok matches_
  have matching : ∀ part ∈ matched, part.target ≠ some target := by
    intro part isPart
    simp [(matchAt part isPart).target]
  have attached : ∃ part ∈ finished, part.target = some target := by
    obtain ⟨list, isList, part, isPart, goes⟩ :=
      Fragment.exists_target_of_mem_combine member jumps
    simp only [List.mem_cons, Option.some.injEq, List.not_mem_nil, or_false] at isList
    rcases isList with rfl | rfl | rfl
    · exact ⟨part, isPart, goes⟩
    · obtain ⟨family, -, rfl⟩ := List.mem_map.1 isPart
      cases goes
    · obtain rfl := List.mem_singleton.1 isPart
      cases goes
  obtain ⟨part, isPart, goes⟩ := attached
  cases finishing_of_finish finishes with
  | update _ updates =>
      simp only [attachUpdate, bind_eq_ok, get_eq_ok, recording_eq_ok, pure_eq_ok] at updates
      obtain ⟨limit, _, _, _, _, _, records, _, ⟨read, _⟩, rfl, _⟩ := updates
      obtain ⟨list, isList, single, isSingle, goes⟩ :=
        Fragment.exists_target_of_mem_combine isPart goes
      simp only [List.mem_cons, Option.some.injEq, List.not_mem_nil, or_false] at isList
      rcases isList with rfl | rfl
      · exact absurd goes (matching single isSingle)
      · simp [(Limit.isMatch_recordFragments read single isSingle).target] at goes
  | limited isFilter _ _ => cases notFilter.symm.trans isFilter
  | action isLogging _ _ => cases notLogging.symm.trans isLogging
  | jump read =>
      obtain ⟨list, isList, single, isSingle, goes⟩ :=
        Fragment.exists_target_of_mem_combine isPart goes
      simp only [List.mem_cons, Option.some.injEq, List.not_mem_nil, or_false] at isList
      rcases isList with rfl | rfl
      · exact absurd goes (matching single isSingle)
      · obtain rfl := List.mem_singleton.1 isSingle
        obtain rfl := Option.some.inj goes
        exact customName?_eq_none_of_target notFilter read
  | plain _ => exact absurd goes (matching part isPart)

/-! ## Where a run of batches stops -/

/-- Where a batch comes from: the section it belongs to and the rule that it is expanded from, if
there is one. -/
abbrev Origin : Type := Section × Option Rule

namespace Origin

/-- The rules that are inserted for an origin. -/
def expansion (origin : Origin) : Run (List Fragment) :=
  match origin.2 with
  | some rule => rule.fragments
  | none => origin.1.rules.rules

/-- Where faults of the rules are located. -/
def owner (origin : Origin) : String :=
  match origin.2 with
  | some rule => rule.location
  | none => ""

/-- The rules of the origin cannot be expanded, or they cannot be inserted. -/
inductive Stops (origin : Origin) (before after : Build) (failure : Failure) : Prop
  | expanding : origin.expansion before.context = (.error failure, after.context) →
      Stops origin before after failure
  | inserting {fragments : List Fragment} {expanded : Context} :
      origin.expansion before.context = (.ok fragments, expanded) →
      (insert expanded.chainSource origin.owner fragments before.assembly).1 = .error failure →
      Notes expanded after.context → Stops origin before after failure

end Origin

/-- The batches of some of the origins run, and the origin after them stops. -/
def StopsAmong (origins : List Origin) (before after : Build) (failure : Failure) : Prop :=
  ∃ batches middle origin late, origins = batches.map Batch.label ++ origin :: late ∧
    RunsAll batches before middle ∧ Origin.Stops origin middle after failure

section Stops

variable {origins more : List Origin} {before middle after : Build} {failure : Failure}

theorem StopsAmong.append (stops : StopsAmong origins before after failure) :
    StopsAmong (origins ++ more) before after failure := by
  obtain ⟨batches, middle, origin, late, rfl, runs, stops⟩ := stops
  exact ⟨batches, middle, origin, late ++ more, by simp, runs, stops⟩

theorem StopsAmong.behind
    {batches : List Batch} (runs : RunsAll batches before middle)
    (stops : StopsAmong origins middle after failure) :
    StopsAmong (batches.map Batch.label ++ origins) before after failure := by
  obtain ⟨others, last, origin, late, rfl, runsRest, stops⟩ := stops
  exact ⟨batches ++ others, last, origin, late, by simp, runs.append runsRest, stops⟩

end Stops

namespace Building

variable {before after : Build} {failure : Failure}

theorem insertRules_eq_error
    {owner : String} {fragments : List Fragment}
    (run : insertRules owner fragments before = (.error failure, after)) :
    (insert before.context.chainSource owner fragments before.assembly).1 = .error failure ∧
      Notes before.context after.context := by
  unfold insertRules at run
  dsimp only at run
  cases inserted : insert ⟨before.context.auxiliary, before.context.entriesOf "custom"⟩ owner
      fragments before.assembly with
  | mk result assembly =>
      rw [inserted] at run
      obtain ⟨recorded, -⟩ := inContext_eq.1 run
      refine ⟨?_, notes_recording.of_eq recorded⟩
      have failed : result = .error failure :=
        (fst_recording result before.context).symm.trans (congrArg Prod.fst recorded)
      exact (congrArg Prod.fst inserted).trans failed

/-- The rules of an origin are expanded and inserted in vain. -/
theorem stops_of_inserting
    {origin : Origin}
    (run : (inContext (Origin.expansion origin) >>= insertRules (Origin.owner origin)) before =
      (.error failure, after)) :
    Origin.Stops origin before after failure := by
  rcases bind_eq_error.1 run with expands | ⟨fragments, middle, expands, inserts⟩
  · exact .expanding (inContext_eq.1 expands).1
  · obtain ⟨expanded, same⟩ := inContext_eq.1 expands
    obtain ⟨stops, notes⟩ := insertRules_eq_error inserts
    exact .inserting expanded (same ▸ stops) notes

theorem insertObjects_eq_error
    {described : Section} {entries : List Entry}
    (run : insertObjects entries before = (.error failure, after)) :
    StopsAmong ((rulesAmong entries).map fun rule => (described, some rule)) before after
      failure := by
  induction entries generalizing before with
  | nil => cases run
  | cons entry rest inductionHypothesis =>
      cases entry with
      | raw value => exact inductionHypothesis run
      | object object =>
          cases object with
          | rule rule =>
              rw [insertObjects, ← bind_assoc] at run
              rcases bind_eq_error.1 run with first | ⟨_, middle, first, run⟩
              · exact ⟨[], before, (described, some rule), _, rfl, .nil, stops_of_inserting first⟩
              · have alone : insertObjects [.object (.rule rule)] before = (.ok (), middle) := by
                  rw [insertObjects, ← bind_assoc]
                  exact bind_eq_ok.2 ⟨(), middle, first, rfl⟩
                obtain ⟨batches, runs, labels⟩ := insertObjects_eq_ok alone
                have behind := (inductionHypothesis run).behind runs
                rwa [labels] at behind
          | _ => exact inductionHypothesis run

theorem insertSection_eq_error
    {described : Section} (run : insertSection described before = (.error failure, after)) :
    StopsAmong (before.context.origins described) before after failure := by
  unfold insertSection at run
  unfold Context.origins
  split at run
  · next isVirtual =>
      rw [if_pos isVirtual]
      exact ⟨[], before, (described, none), [], rfl, .nil, stops_of_inserting run⟩
  · next notVirtual =>
      rw [if_neg notVirtual]
      split at run
      · next hasKind =>
          rw [if_pos hasKind]
          exact insertObjects_eq_error run
      · cases run

/-- Inserting sections stops behind the batches of the origins up to one of them. -/
theorem insertSections_eq_error
    {sections : List Section} (noRules : before.context.rulesIn "log" = [])
    (run : insertSections sections before = (.error failure, after)) :
    StopsAmong (sections.flatMap before.context.origins) before after failure := by
  induction sections generalizing before with
  | nil => cases run
  | cons described rest inductionHypothesis =>
      rw [List.flatMap_cons]
      rcases bind_eq_error.1 run with first | ⟨_, middle, first, run⟩
      · exact (insertSection_eq_error first).append
      · obtain ⟨batches, runs, labels⟩ := insertSection_eq_ok first
        have stops := inductionHypothesis (by rw [rulesIn_eq_of_grows noRules runs.grows, noRules])
          run
        rw [origins_eq_of_grows noRules runs.grows] at stops
        exact labels ▸ stops.behind runs

/-! ## Locations of rules -/

variable {policy : Policy}

/-- Every rule in a section stands at the location of an entry of the section. -/
def LocatesRules (policy : Policy) (context : Context) : Prop :=
  ∀ name, ∀ rule ∈ context.rulesIn name, ∃ key ∈ Policy.keysOf (policy.dataOf name),
    rule.location = entryLocation policy name key

theorem LocatesRules.grows
    {before after : Context} (locates : LocatesRules policy before) (grows : Grows before after) :
    LocatesRules policy after :=
  fun name rule member => locates name rule (rulesIn_subset_of_grows grows name member)

theorem locatesRules_declareKey
    {name : String} {kind : ObjectKind} {key : Scalar}
    (isKey : key ∈ Policy.keysOf (policy.dataOf name)) :
    Meets (LocatesRules policy) (fun _ => True) (declareKey policy name kind key) := by
  unfold declareKey
  split
  · exact meets_unusable_bind
  · refine meets_get_bind fun before _ => ?_
    split
    · exact meets_unusable
    · next entry _ =>
        have declares : Meets (LocatesRules policy)
            (fun object => ∀ rule, object = .rule rule →
              rule.location = entryLocation policy name key)
            (PolicyObject.declare kind (entryLocation policy name key) (LogClass.keyOf key)
              entry) := by
          intro start stop object locates run
          refine ⟨locates.grows (PolicyObject.notes_declare.of_eq run : Notes _ _).grows, ?_⟩
          rintro rule rfl
          obtain rfl : kind = .rule rule.kind := (kind_of_declare run).symm
          obtain ⟨declared, _, declares, made⟩ := bind_eq_ok.1 run
          obtain ⟨isDeclared, -⟩ := pure_eq_ok.1 made
          obtain rfl := PolicyObject.rule.inj isDeclared
          obtain ⟨_, _, settled⟩ := Rule.settledFrom_of_declare declares
          exact settled.location
        refine declares.bind fun object isLocated => meets_modify fun context locates => ?_
        intro other rule member
        rw [mem_rulesIn] at member
        by_cases same : other = name
        · subst same
          rw [entriesOf_set_self] at member
          rcases SectionEntries.mem_put member with old | isNew
          · exact locates other rule (mem_rulesIn.2 old)
          · exact ⟨key, isKey, isLocated rule (Entry.object.inj isNew).symm⟩
        · rw [entriesOf_set_of_ne same] at member
          exact locates other rule (mem_rulesIn.2 member)

theorem locatesRules_declareKeys
    {name : String} {kind : ObjectKind} {keys : List Scalar}
    (areKeys : keys ⊆ Policy.keysOf (policy.dataOf name)) :
    Meets (LocatesRules policy) (fun _ => True) (declareKeys policy name kind keys) := by
  induction keys with
  | nil => exact meets_pure trivial
  | cons key rest inductionHypothesis =>
      obtain ⟨isKey, areRest⟩ := List.cons_subset.1 areKeys
      exact (locatesRules_declareKey isKey).bind fun _ _ => inductionHypothesis areRest

/-- Declaring the sections of a policy locates the rules at its entries. -/
theorem locatesRules_declareSections
    {sections : List Section} {before after : Context}
    (areKeys : ∀ name, (before.entriesOf name).keys = Policy.keysOf (policy.dataOf name))
    (locates : LocatesRules policy before)
    (run : declareSections policy sections before = (.ok (), after)) :
    LocatesRules policy after := by
  induction sections generalizing before with
  | nil =>
      obtain ⟨-, rfl⟩ := pure_eq_ok.1 run
      exact locates
  | cons described rest inductionHypothesis =>
      obtain ⟨_, middle, first, run⟩ := bind_eq_ok.1 run
      have keeps : KeepsKeys before middle := keepsKeys_declareSection.of_eq first
      refine inductionHypothesis (fun name => (keeps name).trans (areKeys name)) ?_ run
      unfold declareSection at first
      cases known : (if described.isVirtual then none else described.kind) with
      | none =>
          simp only [known] at first
          obtain ⟨-, rfl⟩ := pure_eq_ok.1 first
          exact locates
      | some kind =>
          simp only [known, bind_eq_ok, get_eq_ok] at first
          obtain ⟨_, _, ⟨rfl, rfl⟩, first⟩ := first
          have within : (before.entriesOf described.name).keys ⊆
              Policy.keysOf (policy.dataOf described.name) := areKeys _ ▸ List.Subset.refl _
          exact ((locatesRules_declareKeys within) _ _ _ locates first).1

/-! ## Where the batches start -/

/-- What is known of the context once the objects of a written policy are declared. -/
structure Declared (policy : Policy) (hosts : HostBook) (settings : Settings)
    (context : Context) : Prop where
  framed : Framed (checked policy hosts settings) context
  sound : Context.Sound context
  prepared : EachEntry (IsPrepared context.logBook) context
  hasKind : EachEntry HasKind context
  located : LocatesRules policy context

theorem notes_warned (policy : Policy) (hosts : HostBook) (settings : Settings) :
    Notes (checked policy hosts settings) (warned policy hosts settings) :=
  notes_warnUnknown.of_eq
    (warnUnknown_apply (Text.sorted (unknownNames policy)) (checked policy hosts settings))

theorem declared_of_declareSections
    {hosts : HostBook} {settings : Settings} {context : Context} (written : policy.IsWritten)
    (run : declareSections policy Builtin.ordered (warned policy hosts settings) =
      (.ok (), context)) :
    Declared policy hosts settings context := by
  have keeps {invariant : Context → Prop} (survives : Survives invariant)
      (initial : invariant (checked policy hosts settings)) : invariant context :=
    survives.declareSections (List.Subset.refl _)
      (survives.notes _ _ (notes_warned policy hosts settings) initial) run
  have sound := keeps survives_isPrepared
    ⟨sound_checked policy hosts settings, prepared_checked written hosts settings⟩
  have hasKind := survives_hasKind.declareSections (List.Subset.refl _)
    ⟨trivial, hasKind_warned policy hosts settings⟩ run
  refine ⟨keeps (survives_framed _) (Framed.refl _), sound.1, sound.2, hasKind.2,
    locatesRules_declareSections (fun name => ?_) (fun name rule member => ?_) run⟩
  · rw [entriesOf_warned, keys_rawEntries]
  · rw [mem_rulesIn, entriesOf_warned, values_rawEntries] at member
    simp at member

/-! ## Who is named -/

/-- The location is that of a filter rule or of a default policy, and what it was expanded to jumps to
the policy's own chain of that name. -/
def IsReferrer (policy : Policy) (context : Context) (name location : String) : Prop :=
  ∃ section_ ∈ ["filter", "policy"], ∃ key ∈ Policy.keysOf (policy.dataOf section_),
    location = entryLocation policy section_ key ∧
    ∃ rule ∈ context.rulesIn section_, rule.location = location ∧
      ∃ before after fragments, rule.fragments before = (.ok fragments, after) ∧
        Grows after context ∧
        ∃ fragment ∈ fragments, fragment.target = some (customMark ++ name)

/-- Another chain of the policy's own that is defined jumps to the chain of that name. -/
def IsReferredWithin (policy : Policy) (name : String) : Prop :=
  ∃ other, CustomChain.JumpsTo (rawEntries (policy.dataOf "custom")) other name

theorem customName?_mark (name : String) : customName? (customMark ++ name) = some name := by
  unfold customName?
  rw [String.toList_append]
  simp [show customMark.length = customMark.toList.length from rfl]

theorem records_expansion (origin : Origin) : (Origin.expansion origin).Records := by
  unfold Origin.expansion
  split
  · exact Rule.records_fragments
  · exact RuleSource.records_rules

theorem not_isOfObject_invalidCustomChain (location name : String) :
    ¬ Failure.IsOfObject (.fault location (.invalidCustomChain name)) := by
  rintro (isPlain | ⟨other, isOther⟩)
  · simp at isPlain
  · cases isOther

/-- What has actions in a section is a filter rule or a default policy. -/
theorem name_of_logs
    {described : Section} (isBuiltin : described ∈ Builtin.ordered) {kind : RuleKind}
    (isKind : described.kind = some (.rule kind)) (isLogging : kind.logs = true) :
    described.name ∈ ["filter", "policy"] := by
  have notLogging : ∀ other ∈ Builtin.ordered, other.kind ≠ some (.rule .logging) := by
    decide
  have isRule : described ∈ Builtin.ruleSections :=
    (List.mem_append.1 isBuiltin).resolve_left fun isObject =>
      absurd (kind_of_mem_objectSections isObject isKind) Bool.false_ne_true
  have isFilter : kind.isFilter = true := by
    cases kind with
    | logging => exact absurd isKind (notLogging described isBuiltin)
    | filter | policy => rfl
    | _ => cases isLogging
  exact name_of_isFilter isRule isKind isFilter

/-- What is inserted for an origin, as a batch. -/
theorem Origin.expands
    {origin : Origin} {before after : Context} {fragments : List Fragment}
    (isVirtual : origin.2 = none → origin.1.isVirtual = true)
    (run : Origin.expansion origin before = (.ok fragments, after)) :
    Batch.Expands before after ⟨origin.1, origin.2, after.chainSource, fragments⟩ := by
  obtain ⟨described, rule | rule⟩ := origin
  · exact .virtual (isVirtual rfl) run
  · exact .object run

theorem isVirtual_of_mem_origins
    {context : Context} {described : Section} {origin : Origin}
    (member : origin ∈ context.origins described) (alone : origin.2 = none) :
    described.isVirtual = true := by
  unfold Context.origins at member
  split at member
  · assumption
  · split at member
    · obtain ⟨rule, -, rfl⟩ := List.mem_map.1 member
      cases alone
    · cases member

/-- What is inserted for an origin jumps to one of the policy's own chains only where the origin is a
filter rule or a default policy. -/
theorem Declared.isReferrer
    {hosts : HostBook} {settings : Settings} {start before after last : Context} {name : String}
    {origin : Origin} {fragments : List Fragment} {fragment : Fragment}
    (declared : Declared policy hosts settings start) (isBuiltin : origin.1 ∈ Builtin.ordered)
    (isOrigin : origin ∈ start.origins origin.1)
    (run : Origin.expansion origin before = (.ok fragments, after))
    (member : fragment ∈ fragments) (jump : fragment.target = some (customMark ++ name))
    (grown : Grows start last) (grows : Grows after last) :
    IsReferrer policy last name (Origin.owner origin) := by
  have custom : customName? (customMark ++ name) ≠ none := by simp [customName?_mark]
  match origin with
  | (described, none) =>
      have builtin := Builtin.rules_of_isVirtual described isBuiltin
        (isVirtual_of_mem_origins isOrigin rfl)
      have standing := Builtin.isStanding_rules builtin run fragment member
      exact absurd (standing.notCustom _ jump) custom
  | (described, some rule) =>
      obtain ⟨hasKind, inSection⟩ := mem_rulesIn_of_mem_origins isOrigin rfl
      obtain ⟨kind, isKind⟩ := Option.isSome_iff_exists.1 hasKind
      obtain rfl : .rule rule.kind = kind :=
        declared.hasKind described isBuiltin kind isKind _ (mem_rulesIn.1 inSection) _ rfl
      have isLogging : rule.kind.logs = true := by
        by_contra notLogging
        rw [Bool.not_eq_true] at notLogging
        exact custom (Rule.customName?_eq_none_of_mem_fragments notLogging run member jump)
      obtain ⟨key, isKey, located⟩ := declared.located described.name rule inSection
      have inLast : rule ∈ last.rulesIn described.name := by
        rwa [rulesIn_eq_of_grows (rulesIn_log declared.hasKind) grown]
      exact ⟨described.name, name_of_logs isBuiltin isKind isLogging, key, isKey, located, rule,
        inLast, rfl, before, after, fragments, run, grows, fragment, member, jump⟩

/-- Where the insertion of what was declared stops at a chain that is not defined, the location is that
of the object that refers to the chain, or there is none and a defined chain refers to it. -/
theorem Declared.refers
    {hosts : HostBook} {settings : Settings} {start after : Build} {location name : String}
    (declared : Declared policy hosts settings start.context)
    (stops : StopsAmong (Builtin.ordered.flatMap start.context.origins) start after
      (.fault location (.invalidCustomChain name))) :
    CustomChain.find? (rawEntries (policy.dataOf "custom")) name = .ok none ∧
      (IsReferrer policy after.context name location ∨
        location = "" ∧ IsReferredWithin policy name) := by
  obtain ⟨batches, middle, origin, late, split, runs, stops⟩ := stops
  have known : ∀ label ∈ batches.map Batch.label ++ origin :: late,
      label.1 ∈ Builtin.ordered ∧ label ∈ start.context.origins label.1 := by
    intro label member
    obtain ⟨described, isBuiltin, isOrigin⟩ := List.mem_flatMap.1 (split ▸ member)
    obtain rfl := fst_of_mem_origins isOrigin
    exact ⟨isBuiltin, isOrigin⟩
  have ruleSound : ∀ label ∈ batches.map Batch.label ++ origin :: late,
      ∀ rule, label.2 = some rule → rule.Sound start.context.logBook := by
    intro label member rule isRule
    obtain ⟨isBuiltin, isOrigin⟩ := known label member
    obtain ⟨hasKind, inSection⟩ := mem_rulesIn_of_mem_origins isOrigin isRule
    exact sound_of_mem_rulesIn declared.prepared isBuiltin hasKind inSection
  obtain ⟨isBuiltin, isOrigin⟩ := known origin (by simp)
  have soundMiddle : Context.Sound middle.context :=
    runs.sound (fun batch member => ruleSound batch.label
      (List.mem_append_left _ (List.mem_map_of_mem member))) declared.sound
  cases stops with
  | expanding fails =>
      have isOfObject := (records_expansion origin middle.context).2 _ (congrArg Prod.fst fails)
      exact absurd isOfObject (not_isOfObject_invalidCustomChain location name)
  | @inserting fragments expanded run fails notes =>
      have expands := Origin.expands (isVirtual_of_mem_origins isOrigin) run
      have grown : Grows start.context expanded := runs.grows.trans expands.grows
      have soundExpanded : Context.Sound expanded :=
        expands.sound (fun rule isRule => (ruleSound origin (by simp) rule isRule).keeps
          declared.sound.logs runs.grows.logs) soundMiddle
      have isCustom : expanded.chainSource.custom = rawEntries (policy.dataOf "custom") := by
        rw [← entriesOf_warned policy hosts settings]
        exact (grown.entriesOf (by decide)).trans declared.framed.custom
      obtain ⟨lookups, performs⟩ := endsWith_insert expanded.chainSource (Origin.owner origin)
        fragments middle.assembly
      obtain ⟨undefined, jumps⟩ := performs.jumps fails
      refine ⟨isCustom ▸ undefined, jumps.imp ?_ ?_⟩
      · rintro ⟨rfl, rule, member, jump⟩
        obtain ⟨fragment, isFragment, rfl⟩ := List.mem_map.1 member
        exact declared.isReferrer isBuiltin isOrigin run isFragment jump (grown.trans notes.grows)
          notes.grows
      · rintro ⟨nowhere, owner, place, body, read, jump⟩
        refine ⟨nowhere, ?_⟩
        unfold IsReferredWithin
        rw [← isCustom]
        refine ChainSource.exists_jumpsTo_of_body (fun fragment member goes => ?_) read jump
        have plain := plain_of_mem_auxiliary declared.framed grown soundExpanded member
        cases (plain.2 _ goes).2.symm.trans (customName?_mark name)

/-! ## Compilations -/

/-- Where the sections that hold their entries by key are no mappings, a compilation fails like an
object does. -/
theorem isOfObject_of_not_isKeyed
    {hosts : HostBook} {settings : Settings} {failure : Failure} {build : Build}
    (notKeyed : isKeyed policy ≠ true)
    (run : compilePolicy policy Builtin.modules { context := { settings, hosts } } =
      (.error failure, build)) :
    failure.IsOfObject := by
  rw [compilePolicy_eq_checkAndProcess] at run
  rcases bind_eq_error.1 run with fails | ⟨_, checked, checks, -⟩
  · exact (records_checkKeyed _).2 _ (congrArg Prod.fst (inContext_eq.1 fails).1)
  · refine absurd (List.all_eq_true.2 fun entry isEntry => ?_) notKeyed
    have isMapping := (checkKeyed_eq_ok.1 (inContext_eq.1 checks).1).1 entry isEntry
    rw [Bool.not_eq_true']
    exact isMapping

/-- Processing a written policy fails at a chain that is not defined where it names who refers to the
chain, or where a defined chain refers to it. -/
theorem refers_of_process
    {hosts : HostBook} {settings : Settings} {location name : String} {final : Build}
    (written : policy.IsWritten)
    (run : process policy { context := warned policy hosts settings } =
      (.error (.fault location (.invalidCustomChain name)), final)) :
    CustomChain.find? (rawEntries (policy.dataOf "custom")) name = .ok none ∧
      (IsReferrer policy final.context name location ∨
        location = "" ∧ IsReferredWithin policy name) := by
  unfold process at run
  rcases bind_eq_error.1 run with fails | ⟨_, start, declares, run⟩
  · have isOfObject := (records_declareSections (warned policy hosts settings)).2 _
      (congrArg Prod.fst (inContext_eq.1 fails).1)
    exact absurd isOfObject (not_isOfObject_invalidCustomChain location name)
  · have declared := declared_of_declareSections written (inContext_eq.1 declares).1
    rcases bind_eq_error.1 run with stops | ⟨_, inserted, -, run⟩
    · exact declared.refers (insertSections_eq_error (rulesIn_log declared.hasKind) stops)
    · exfalso
      rcases bind_eq_error.1 run with gets | ⟨_, _, gets, run⟩
      · cases gets
      obtain ⟨rfl, rfl⟩ := get_eq_ok.1 gets
      cases read : setDefinitions (inserted.context.entriesOf "ipset") >>= AddressSet.readAll with
      | ok sets =>
          simp only [read] at run
          cases run
      | error failure =>
          simp only [read] at run
          obtain rfl := Except.error.inj (congrArg Prod.fst run)
          simpa using failsPlainly_sets _ read

theorem IsReferrer.ne_empty
    {context : Context} {name location : String} (refers : IsReferrer policy context name location) :
    location ≠ "" := by
  obtain ⟨section_, isSection, key, -, rfl, -⟩ := refers
  unfold entryLocation
  simp

end Building

namespace Compilation

open Building

variable {policy : Policy} {hosts : HostBook} {given : Option Settings}

/-- A compilation fails because one of the policy's own chains is not defined in one of two ways: it
gives the location of a filter rule or a default policy that jumps to the chain, or no location at
all, and then the jump stands in a chain that is defined. -/
theorem refers_of_ofPolicy
    (written : policy.IsWritten) {location name : String}
    (fails : ofPolicy policy Builtin.modules hosts given =
      .error (.fault location (.invalidCustomChain name))) :
    CustomChain.find? (rawEntries (policy.dataOf "custom")) name = .ok none ∧
      ∃ settings, settingsFor policy given = .ok settings ∧
        ((location ≠ "" ∧ IsReferrer policy
            (compilePolicy policy Builtin.modules { context := { settings, hosts } }).2.context
            name location) ∨
          (location = "" ∧ IsReferredWithin policy name)) := by
  cases isSettings : settingsFor policy given with
  | error failure =>
      have plain : FailsPlainly (settingsFor policy given) := by
        unfold settingsFor
        split
        · exact failsOnly_ok _
        · exact Settings.failsPlainly_ofOptions
      rw [ofPolicy_eq_of_error isSettings] at fails
      obtain rfl := Except.error.inj fails
      simpa using plain _ isSettings
  | ok settings =>
      rw [ofPolicy_eq_of_ok isSettings, ofRun_eq_error] at fails
      cases run : compilePolicy policy Builtin.modules { context := { settings, hosts } } with
      | mk result final =>
          rw [run] at fails
          obtain rfl : result = .error (.fault location (.invalidCustomChain name)) := fails
          have keyed : isKeyed policy = true := by
            by_contra notKeyed
            exact not_isOfObject_invalidCustomChain location name
              (isOfObject_of_not_isKeyed notKeyed run)
          obtain ⟨undefined, refers⟩ := refers_of_process written
            ((compilePolicy_of_keyed keyed hosts settings).symm.trans run)
          refine ⟨undefined, settings, rfl, refers.imp_left fun refers => ⟨refers.ne_empty, ?_⟩⟩
          rw [run]
          exact refers

/-- The location and the name of the chain where a result tells that a chain is not defined. -/
def missingChain? {α : Type} : Except Failure α → Option (String × String)
  | .error (.policy ⟨location, .invalidCustomChain name⟩) => some (location, name)
  | _ => none

/-- A policy whose sections are known fails to compile at a chain where what is left to do does. -/
theorem ofPolicy_eq_of_missingChain?
    {settings : Settings} {location name : String} (settled : isSettled policy = true)
    (missing : missingChain? (process policy { context := checked policy hosts settings }).1 =
      some (location, name)) :
    ofPolicy policy Builtin.modules hosts (some settings) =
      .error (.fault location (.invalidCustomChain name)) := by
  rw [ofPolicy_eq_of_ok rfl, ofRun_eq_error, compilePolicy_apply settled]
  unfold missingChain? at missing
  split at missing
  · next failed =>
      obtain ⟨rfl, rfl⟩ := Prod.mk.inj (Option.some.inj missing)
      exact failed
  · cases missing

/-- A filter rule that jumps to a chain that is not defined. -/
def danglingPolicy : Policy :=
  { objects := [("filter", .list [.map [(.text "action", .text "custom:x")]])] }

theorem refers_of_danglingPolicy :
    danglingPolicy.IsWritten ∧
      ofPolicy danglingPolicy Builtin.modules .none (some { ipv6 := false }) =
        .error (.fault "filter 0 (?)" (.invalidCustomChain "x")) ∧
      ∃ context, IsReferrer danglingPolicy context "x" "filter 0 (?)" := by
  have written : danglingPolicy.IsWritten := by
    unfold Policy.IsWritten
    decide +kernel
  have fails : ofPolicy danglingPolicy Builtin.modules .none (some { ipv6 := false }) =
      .error (.fault "filter 0 (?)" (.invalidCustomChain "x")) :=
    ofPolicy_eq_of_missingChain? (by decide +kernel) (by decide +kernel)
  obtain ⟨-, settings, -, ⟨-, refers⟩ | ⟨nowhere, -⟩⟩ := refers_of_ofPolicy written fails
  · exact ⟨written, fails, _, refers⟩
  · exact absurd nowhere (by decide)

/-- A chain of the policy's own that jumps to one that is not defined, and a filter rule that jumps to
the former. -/
def nestedPolicy : Policy :=
  { objects := [
      ("custom", .map [(.text "a", .list [.map [(.text "target", .text "custom:b")]])]),
      ("filter", .list [.map [(.text "action", .text "custom:a")]])] }

/-- Not every compilation that fails because a chain is not defined has a location. -/
theorem not_located_of_nestedPolicy :
    ¬∀ (policy : Policy) (settings : Settings) (location name : String),
      ofPolicy policy Builtin.modules .none (some settings) =
        .error (.fault location (.invalidCustomChain name)) → location ≠ "" := by
  intro located
  have fails : ofPolicy nestedPolicy Builtin.modules .none (some { ipv6 := false }) =
      .error (.fault "" (.invalidCustomChain "b")) :=
    ofPolicy_eq_of_missingChain? (by decide +kernel) (by decide +kernel)
  exact located _ _ _ _ fails rfl

end Compilation

end FirewallPolicy
