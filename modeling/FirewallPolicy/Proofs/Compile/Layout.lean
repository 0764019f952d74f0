import FirewallPolicy.Proofs.Compile.Phases
import FirewallPolicy.Proofs.Compile.Virtual

/-!
# The layout of the filter chains

In a compiled policy the chains of the filter hooks hold, from the front, what flow limits put
there, the lines for established connections, the filter rules, the lines for control messages and
the default policies.  So no default policy is appended before a filter rule.
-/

namespace FirewallPolicy

open Assembly Context Stateful

/-! ## Batches of one section -/

/-- The batches of the section of that name, in order. -/
def batchesOf (name : String) (batches : List Batch) : List Batch :=
  batches.filter fun batch => batch.described.name == name

section Sections

variable {context : Context} {sections : List Section} {batches : List Batch}

/-- Batches in the order of sections are those of the first one and then those of the next. -/
theorem eq_flatMap_batchesOf
    (distinct : (sections.map (·.name)).Nodup)
    (labels : batches.map Batch.label = sections.flatMap context.origins) :
    batches = sections.flatMap (fun described => batchesOf described.name batches) ∧
      ∀ described ∈ sections,
        (batchesOf described.name batches).map Batch.label = context.origins described := by
  induction sections generalizing batches with
  | nil => simpa using labels
  | cons described rest inductionHypothesis =>
      rw [List.map_cons, List.nodup_cons] at distinct
      rw [List.flatMap_cons] at labels
      obtain ⟨first, late, rfl, firstLabels, lateLabels⟩ := List.map_eq_append_iff.1 labels
      obtain ⟨lateEq, lateEach⟩ := inductionHypothesis distinct.2 lateLabels
      have firstNames : ∀ batch ∈ first, batch.described = described := by
        intro batch member
        have label : batch.label ∈ context.origins described :=
          firstLabels ▸ List.mem_map_of_mem member
        exact fst_of_mem_origins label
      have ofFirst : batchesOf described.name (first ++ late) = first := by
        rw [batchesOf, List.filter_append, List.filter_eq_self.2, List.filter_eq_nil_iff.2,
          List.append_nil]
        · intro batch member
          have known := List.mem_map_of_mem (f := (·.name)) (label_mem_origins lateLabels member).1
          simp only [beq_iff_eq]
          exact fun same => distinct.1 (same ▸ known)
        · intro batch member
          simp [firstNames batch member]
      have ofLate : ∀ other ∈ rest, batchesOf other.name (first ++ late) =
          batchesOf other.name late := by
        intro other isOther
        rw [batchesOf, List.filter_append, List.filter_eq_nil_iff.2, List.nil_append, batchesOf]
        intro batch member
        rw [firstNames batch member, beq_iff_eq]
        exact fun same => distinct.1 (same ▸ List.mem_map_of_mem isOther)
      refine ⟨?_, ?_⟩
      · rw [List.flatMap_cons, ofFirst, List.flatMap_congr ofLate, ← lateEq]
      · rintro other (_ | ⟨_, isOther⟩)
        · rw [ofFirst, firstLabels]
        · rw [ofLate other isOther, lateEach other isOther]

end Sections

/-! ## What batches leave in a chain -/

section Leaving

variable {batch : Batch} {before after : Context} {place : Place}

theorem Batch.prepended_eq_nil
    (backs : ∀ fragment ∈ batch.fragments, fragment.position ≠ some "prepend") :
    batch.prepended place = [] := by
  refine prependedAt_eq_nil_of_back fun rule member => ?_
  obtain ⟨fragment, isFragment, rfl⟩ := List.mem_map.1 member
  simpa [isFront] using backs fragment isFragment

/-- Virtual sections put nothing to the front. -/
theorem Batch.Expands.prepended_of_virtual
    (expands : batch.Expands before after) (isBuiltin : batch.described ∈ Builtin.ordered)
    (noRule : batch.origin = none) :
    batch.prepended place = [] := by
  refine Batch.prepended_eq_nil fun fragment member => ?_
  cases expands with
  | object run => simp at noRule
  | virtual isVirtual run =>
      have standing := Builtin.isStanding_rules (Builtin.rules_of_isVirtual _ isBuiltin isVirtual) run
        fragment member
      simp [standing.position]

variable {family hook : String}

theorem Batch.Expands.exists_origin
    (expands : batch.Expands before after) (notVirtual : batch.described.isVirtual = false) :
    ∃ rule, batch.origin = some rule := by
  cases expands with
  | object run => exact ⟨_, rfl⟩
  | virtual isVirtual _ => exact absurd isVirtual (ne_true_of_eq_false notVirtual)

theorem Batch.Expands.rules_eq_ok
    (expands : batch.Expands before after) (noRule : batch.origin = none) :
    batch.described.rules.rules before = (.ok batch.fragments, after) := by
  cases expands with
  | object run => simp at noRule
  | virtual _ run => exact run

/-- The point behind the object sections leaves nothing. -/
theorem Batch.Expands.appended_fixed
    (expands : batch.Expands before after) (noRule : batch.origin = none)
    (isFixed : batch.described.rules = .fixed []) :
    batch.appended place = [] := by
  have run := expands.rules_eq_ok noRule
  rw [isFixed] at run
  obtain ⟨none, -⟩ := pure_eq_ok.1 run
  rw [Batch.appended, Batch.rules, ← none]
  rfl

end Leaving

/-! ## The layout -/

section Contributions

open Building

variable {batches : List Batch} {start after : Build} {described : Section}

theorem distinct_names :
    ((Builtin.loadedSection :: Builtin.ruleSections).map (·.name)).Nodup := by
  decide

/-- A virtual section has a single batch. -/
theorem batchesOf_virtual
    (ran : Ran batches start after)
    (isSection : described ∈ Builtin.loadedSection :: Builtin.ruleSections)
    (isVirtual : described.isVirtual = true) :
    ∃ batch before middle, batchesOf described.name batches = [batch] ∧
      batch.described = described ∧ batch.origin = none ∧ batch.Expands before middle ∧
      Grows before after.context := by
  have ofSection := (eq_flatMap_batchesOf distinct_names ran.labels).2 described isSection
  rw [Context.origins, if_pos isVirtual] at ofSection
  obtain ⟨batch, isBatch, isLabel⟩ := List.map_eq_singleton_iff.1 ofSection
  have member : batch ∈ batches :=
    List.mem_of_mem_filter (isBatch ▸ List.mem_singleton.2 rfl : batch ∈ batchesOf _ batches)
  obtain ⟨_, _, -, runs, growing⟩ := ran.runs.exists_of_mem member
  exact ⟨batch, _, _, isBatch, congrArg Prod.fst isLabel, congrArg Prod.snd isLabel, runs.expands,
    runs.expands.grows.trans growing⟩

variable {family hook : String}

theorem appended_loaded
    (ran : Ran batches start after) (place : Place) :
    (batchesOf "%modules" batches).flatMap (Batch.appended place) = [] := by
  obtain ⟨batch, _, _, isBatch, isDescribed, noRule, expands, -⟩ :=
    batchesOf_virtual ran (List.mem_cons_self ..) rfl
  rw [show batchesOf "%modules" batches = [batch] from isBatch]
  simpa using expands.appended_fixed noRule (by rw [isDescribed]; rfl)

end Contributions

namespace Compilation

variable {policy : Policy} {hosts : HostBook} {given : Option Settings}
  {compilation : Compilation} {batches : List Batch} {family hook : String}

/-- Nothing is brought into a chain that is neither the policy's own nor has the name of an auxiliary
chain. -/
theorem body_of_ordinary
    {settings : Settings} {start context : Context} {place : Place}
    (framed : Building.Framed (Building.checked policy hosts settings) start)
    (grows : Grows start context) (notCustom : customName? place.chain = none)
    (notTarpit : place.chain ≠ "tarpit") (ordinary : IsOrdinary place.chain)
    {owner : String} {body : List ChainRule}
    (read : context.chainSource.body owner place = .ok body) :
    body = [] := by
  simp only [ChainSource.body, notCustom, Except.ok.injEq] at read
  rw [← read, List.map_eq_nil_iff, List.eq_nil_iff_forall_not_mem]
  intro merged member
  obtain ⟨rule, isRule, ruleExtends⟩ :=
    Fragment.exists_extends_of_mem_combine member (List.mem_cons_self ..)
  obtain ⟨bound, isBound, boundExtends⟩ :=
    Fragment.exists_extends_of_mem_combine member
      (List.mem_cons_of_mem _ (List.mem_singleton.2 rfl))
  obtain rfl := List.mem_singleton.1 isBound
  obtain ⟨chain, stands, isAuxiliary⟩ :=
    Building.chain_of_mem_auxiliary framed grows isRule
  have same : some chain = some place.chain :=
    (ruleExtends.chain chain stands).symm.trans (boundExtends.chain place.chain rfl)
  obtain rfl := Option.some.inj same
  exact isAuxiliary.elim notTarpit ordinary.not_isLogName

end Compilation

end FirewallPolicy
