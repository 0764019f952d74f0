import FirewallPolicy.Compile.Compilation
import FirewallPolicy.Proofs.Context.Rules
import FirewallPolicy.Proofs.Insertion.Chain
import FirewallPolicy.Proofs.Insertion.Lookups

/-!
# Insertions in batches

A successful compilation expands and inserts one object or virtual section after the other, each
with the auxiliary chains that are known by then.  A chain that nothing is brought into holds, from
the front, what later batches put there before what earlier ones did, and at the end what the
batches append in their order.
-/

namespace FirewallPolicy

open Assembly Context Stateful

/-- The rules that are inserted for one object or one virtual section, with the auxiliary chains
that are known when they are inserted. -/
structure Batch where
  /-- The section that the object belongs to. -/
  described : Section
  /-- The rule of the policy that the batch is expanded from; virtual sections have none. -/
  origin : Option Rule
  source : ChainSource
  fragments : List Fragment

/-- The auxiliary chains that are known. -/
def Context.chainSource (context : Context) : ChainSource :=
  ⟨context.auxiliary, context.entriesOf "custom"⟩

namespace Batch

/-- The rules as they go into chains. -/
def rules (batch : Batch) : List ChainRule :=
  batch.fragments.map fun fragment => { fragment }

/-- What the batch puts to the front of a chain. -/
def prepended (place : Place) (batch : Batch) : List RuleLine :=
  prependedAt place batch.rules

/-- What the batch puts to the end of a chain. -/
def appended (place : Place) (batch : Batch) : List RuleLine :=
  appendedAt place batch.rules

/-- How a batch comes about between two contexts. -/
inductive Expands (before after : Context) : Batch → Prop
  | object {described : Section} {rule : Rule} {fragments : List Fragment} :
      rule.fragments before = (.ok fragments, after) →
      Expands before after ⟨described, some rule, after.chainSource, fragments⟩
  | virtual {described : Section} {fragments : List Fragment} :
      described.isVirtual = true →
      described.rules.rules before = (.ok fragments, after) →
      Expands before after ⟨described, none, after.chainSource, fragments⟩

/-- A batch is expanded and inserted. -/
structure Runs (batch : Batch) (before after : Build) : Prop where
  expands : batch.Expands before.context after.context
  inserts : Inserts batch.source [] batch.rules before.assembly after.assembly

theorem Expands.grows
    {batch : Batch} {before after : Context}
    (expands : batch.Expands before after) :
    Grows before after := by
  cases expands with
  | object run => exact Rule.grows_fragments.of_eq run
  | virtual _ run => exact (RuleSource.notes_rules.of_eq run).grows

theorem Expands.source_eq
    {batch : Batch} {before after : Context}
    (expands : batch.Expands before after) :
    batch.source = after.chainSource := by
  cases expands <;> rfl

end Batch

/-- Batches are expanded and inserted one after the other. -/
inductive RunsAll : List Batch → Build → Build → Prop
  | nil {build : Build} : RunsAll [] build build
  | cons {batch : Batch} {rest : List Batch} {before middle after : Build} :
      batch.Runs before middle → RunsAll rest middle after → RunsAll (batch :: rest) before after

namespace RunsAll

variable {batches early late : List Batch} {before after : Build} {place : Place}

theorem append
    {middle : Build}
    (first : RunsAll early before middle) (second : RunsAll late middle after) :
    RunsAll (early ++ late) before after := by
  induction first with
  | nil => exact second
  | cons runs _ inductionHypothesis => exact cons runs (inductionHypothesis second)

theorem grows (runs : RunsAll batches before after) :
    Grows before.context after.context := by
  induction runs with
  | nil => exact Grows.refl _
  | cons first _ inductionHypothesis => exact first.expands.grows.trans inductionHypothesis

/-- Each batch runs at some point between the start and the end. -/
theorem exists_of_mem
    (runs : RunsAll batches before after) {batch : Batch} (member : batch ∈ batches) :
    ∃ start stop, Grows before.context start.context ∧ batch.Runs start stop ∧
      Grows stop.context after.context := by
  induction runs with
  | nil => exact absurd member List.not_mem_nil
  | @cons first rest before middle after runs tail inductionHypothesis =>
      rcases List.mem_cons.1 member with rfl | later
      · exact ⟨before, middle, Grows.refl _, runs, tail.grows⟩
      · obtain ⟨start, stop, grown, runsLater, growing⟩ := inductionHypothesis later
        exact ⟨start, stop, runs.expands.grows.trans grown, runsLater, growing⟩

theorem expanded_subset
    (runs : RunsAll batches before after) :
    before.assembly.expanded ⊆ after.assembly.expanded := by
  induction runs with
  | nil => exact List.Subset.refl _
  | cons first _ inductionHypothesis =>
      exact fun _ known => inductionHypothesis (first.inserts.expanded_subset known)

theorem reaches
    (runs : RunsAll batches before after) (reaches : Reaches before.assembly) :
    Reaches after.assembly := by
  induction runs with
  | nil => exact reaches
  | cons first _ inductionHypothesis => exact inductionHypothesis (first.inserts.reaches reaches)

/-- A chain that no batch brings in holds the rules of the batches around what was there: a later
batch comes first at the front and last at the end. -/
theorem rules_eq
    (runs : RunsAll batches before after)
    (empty : ∀ batch ∈ batches, ∀ owner body,
      batch.source.body owner place = .ok body → body = []) :
    after.assembly.tree.rules place =
      batches.reverse.flatMap (Batch.prepended place) ++ before.assembly.tree.rules place ++
        batches.flatMap (Batch.appended place) := by
  induction runs with
  | nil => simp
  | @cons batch rest before middle after first _ inductionHypothesis =>
      have settled : Settled batch.source place before.assembly middle.assembly :=
        Or.inr (Or.inr (empty batch (List.mem_cons_self ..)))
      have firstRules := first.inserts.rules_eq_arranged (Nat.zero_le _) settled
      rw [inductionHypothesis fun other member => empty other (List.mem_cons_of_mem _ member),
        firstRules]
      simp [arranged, Batch.prepended, Batch.appended]

end RunsAll

/-! ## Where batches come from -/

/-- The rules among entries, in order. -/
def rulesAmong (entries : List Entry) : List Rule :=
  entries.filterMap fun entry => match entry with
    | .object (.rule rule) => some rule
    | _ => none

/-- The rules that the section of that name holds. -/
def Context.rulesIn (context : Context) (name : String) : List Rule :=
  rulesAmong (context.entriesOf name).values

theorem Context.mem_rulesIn
    {context : Context} {name : String} {rule : Rule} :
    rule ∈ context.rulesIn name ↔ .object (.rule rule) ∈ (context.entriesOf name).values := by
  unfold Context.rulesIn rulesAmong
  rw [List.mem_filterMap]
  constructor
  · rintro ⟨entry, member, isRule⟩
    split at isRule
    · obtain rfl := Option.some.inj isRule
      exact member
    · simp at isRule
  · exact fun member => ⟨_, member, rfl⟩

/-- What the batches of a section are expanded from. -/
def Context.origins (context : Context) (described : Section) : List (Section × Option Rule) :=
  if described.isVirtual then [(described, none)]
  else if described.kind.isSome then
    (context.rulesIn described.name).map fun rule => (described, some rule)
  else []

/-- Expanding rules adds no rule to a section, since it lists only log classes. -/
theorem Context.rulesIn_subset_of_grows
    {before after : Context} (grows : Grows before after) (name : String) :
    after.rulesIn name ⊆ before.rulesIn name := by
  intro rule member
  by_cases isLog : name = "log"
  · subst isLog
    rcases grows.listed _ (mem_rulesIn.1 member) with old | ⟨log, isLog⟩
    · exact mem_rulesIn.2 old
    · simp at isLog
  · unfold Context.rulesIn at member ⊢
    rwa [grows.entriesOf isLog] at member

/-- Expanding rules changes none of the sections when the log classes are no rules. -/
theorem Context.rulesIn_eq_of_grows
    {before after : Context}
    (noRules : before.rulesIn "log" = []) (grows : Grows before after) (name : String) :
    after.rulesIn name = before.rulesIn name := by
  by_cases isLog : name = "log"
  · subst isLog
    rw [noRules]
    exact List.eq_nil_of_subset_nil (noRules ▸ rulesIn_subset_of_grows grows "log")
  · unfold Context.rulesIn
    rw [grows.entriesOf isLog]

theorem Context.origins_eq_of_grows
    {before after : Context}
    (noRules : before.rulesIn "log" = []) (grows : Grows before after) :
    after.origins = before.origins := by
  funext described
  unfold Context.origins
  rw [rulesIn_eq_of_grows noRules grows]

/-- Where a batch comes from. -/
def Batch.label (batch : Batch) : Section × Option Rule :=
  (batch.described, batch.origin)

section Origins

variable {context : Context} {sections : List Section} {described : Section}

theorem fst_of_mem_origins
    {label : Section × Option Rule} (member : label ∈ context.origins described) :
    label.1 = described := by
  unfold Context.origins at member
  split at member
  · rw [List.mem_singleton.1 member]
  · split at member
    · obtain ⟨rule, _, rfl⟩ := List.mem_map.1 member
      rfl
    · exact absurd member List.not_mem_nil

/-- The rule of a batch stands in the section of the batch. -/
theorem mem_rulesIn_of_mem_origins
    {label : Section × Option Rule} (member : label ∈ context.origins described)
    {rule : Rule} (isRule : label.2 = some rule) :
    described.kind.isSome = true ∧ rule ∈ context.rulesIn described.name := by
  unfold Context.origins at member
  split at member
  · rw [List.mem_singleton.1 member] at isRule
    simp at isRule
  · split at member
    · next hasKind =>
        obtain ⟨known, isKnown, rfl⟩ := List.mem_map.1 member
        obtain rfl := Option.some.inj isRule
        exact ⟨hasKind, isKnown⟩
    · exact absurd member List.not_mem_nil

/-- Each batch comes from the section that it belongs to. -/
theorem label_mem_origins
    {batches : List Batch}
    (labels : batches.map Batch.label = sections.flatMap context.origins)
    {batch : Batch} (member : batch ∈ batches) :
    batch.described ∈ sections ∧ batch.label ∈ context.origins batch.described := by
  have isLabel : batch.label ∈ sections.flatMap context.origins :=
    labels ▸ List.mem_map_of_mem member
  obtain ⟨described, isSection, isOrigin⟩ := List.mem_flatMap.1 isLabel
  obtain rfl : batch.described = described := fst_of_mem_origins isOrigin
  exact ⟨isSection, isOrigin⟩

end Origins

namespace Building

/-- A computation in the context ends as it does there, and leaves the tree alone. -/
theorem inContext_eq
    {α : Type} {action : Run α} {result : Except Failure α} {build after : Build} :
    inContext action build = (result, after) ↔
      action build.context = (result, after.context) ∧ after.assembly = build.assembly := by
  unfold inContext
  cases action build.context with
  | mk outcome context =>
      obtain ⟨afterContext, afterAssembly⟩ := after
      change (outcome, Build.mk context build.assembly) = _ ↔ _
      constructor
      · rintro ⟨⟩
        exact ⟨rfl, rfl⟩
      · rintro ⟨⟨⟩, rfl⟩
        rfl

theorem inContext_eq_ok
    {α : Type} {action : Run α} {a : α} {build after : Build} :
    inContext action build = (.ok a, after) ↔
      action build.context = (.ok a, after.context) ∧ after.assembly = build.assembly :=
  inContext_eq

variable {build after : Build}

/-- Inserting rules changes nothing in the context. -/
theorem insertRules_eq_ok
    {owner : String} {fragments : List Fragment}
    (run : insertRules owner fragments build = (.ok (), after)) :
    after.context = build.context ∧
      Inserts build.context.chainSource [] (fragments.map fun fragment => { fragment })
        build.assembly after.assembly := by
  unfold insertRules at run
  dsimp only at run
  cases inserted : Assembly.insert ⟨build.context.auxiliary, build.context.entriesOf "custom"⟩
      owner fragments build.assembly with
  | mk result assembly =>
      rw [inserted] at run
      obtain ⟨recorded, sameAssembly⟩ := inContext_eq_ok.1 run
      obtain ⟨isOk, sameContext⟩ := Run.recording_eq_ok.1 recorded
      obtain rfl : result = .ok () := isOk
      refine ⟨sameContext.symm, ?_⟩
      rw [sameAssembly]
      exact inserts_of_insert inserted

theorem insertObjects_eq_ok
    {described : Section} {entries : List Entry}
    (run : insertObjects entries build = (.ok (), after)) :
    ∃ batches, RunsAll batches build after ∧
      batches.map Batch.label = (rulesAmong entries).map fun rule => (described, some rule) := by
  induction entries generalizing build with
  | nil =>
      obtain ⟨_, rfl⟩ := pure_eq_ok.1 run
      exact ⟨[], RunsAll.nil, rfl⟩
  | cons entry rest inductionHypothesis =>
      cases entry with
      | raw value => exact inductionHypothesis run
      | object object =>
          cases object with
          | rule rule =>
              simp only [insertObjects, bind_eq_ok] at run
              obtain ⟨fragments, expanded, expands, _, inserted, inserts, run⟩ := run
              obtain ⟨expands, sameAssembly⟩ := inContext_eq_ok.1 expands
              obtain ⟨sameContext, inserts⟩ := insertRules_eq_ok inserts
              obtain ⟨others, runsRest, labels⟩ := inductionHypothesis run
              rw [← sameContext] at expands inserts
              rw [sameAssembly] at inserts
              let batch : Batch :=
                ⟨described, some rule, inserted.context.chainSource, fragments⟩
              have first : batch.Runs build inserted := ⟨.object expands, inserts⟩
              exact ⟨batch :: others, RunsAll.cons first runsRest,
                congrArg ((described, some rule) :: ·) labels⟩
          | _ => exact inductionHypothesis run

theorem insertSection_eq_ok
    {described : Section}
    (run : insertSection described build = (.ok (), after)) :
    ∃ batches, RunsAll batches build after ∧
      batches.map Batch.label = build.context.origins described := by
  unfold insertSection at run
  unfold Context.origins
  split at run
  · next isVirtual =>
      simp only [bind_eq_ok] at run
      obtain ⟨fragments, expanded, expands, run⟩ := run
      obtain ⟨expands, sameAssembly⟩ := inContext_eq_ok.1 expands
      obtain ⟨sameContext, inserts⟩ := insertRules_eq_ok run
      rw [← sameContext] at expands inserts
      rw [sameAssembly] at inserts
      let batch : Batch := ⟨described, none, after.context.chainSource, fragments⟩
      have only : batch.Runs build after := ⟨.virtual isVirtual expands, inserts⟩
      exact ⟨[batch], RunsAll.cons only RunsAll.nil, by rw [if_pos isVirtual]; rfl⟩
  · next notVirtual =>
      rw [if_neg notVirtual]
      split at run
      · next hasKind =>
          simp only [bind_eq_ok, get_eq_ok] at run
          obtain ⟨_, _, ⟨rfl, rfl⟩, run⟩ := run
          rw [if_pos hasKind]
          exact insertObjects_eq_ok run
      · next noKind =>
          obtain ⟨_, rfl⟩ := pure_eq_ok.1 run
          rw [if_neg noKind]
          exact ⟨[], RunsAll.nil, rfl⟩

/-- Inserting sections runs the batches of the sections in order. -/
theorem insertSections_eq_ok
    {sections : List Section}
    (noRules : build.context.rulesIn "log" = [])
    (run : insertSections sections build = (.ok (), after)) :
    ∃ batches, RunsAll batches build after ∧
      batches.map Batch.label = sections.flatMap build.context.origins := by
  induction sections generalizing build with
  | nil =>
      obtain ⟨_, rfl⟩ := pure_eq_ok.1 run
      exact ⟨[], RunsAll.nil, rfl⟩
  | cons described rest inductionHypothesis =>
      obtain ⟨_, middle, first, run⟩ := bind_eq_ok.1 run
      obtain ⟨batches, runs, labels⟩ := insertSection_eq_ok first
      obtain ⟨others, runsRest, labelsRest⟩ :=
        inductionHypothesis (by rw [rulesIn_eq_of_grows noRules runs.grows, noRules]) run
      refine ⟨batches ++ others, runs.append runsRest, ?_⟩
      rw [List.map_append, labels, labelsRest, List.flatMap_cons,
        origins_eq_of_grows noRules runs.grows]

end Building

end FirewallPolicy
