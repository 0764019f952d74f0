import FirewallPolicy.Proofs.Run.Simulation

/-!
# Computations in lockstep

Two computations whose states are related take the same steps: wherever the first one succeeds, so
does the second one, and both their results and the states that they end in are related again.
Computations that are composed of such steps are in lockstep themselves.
-/

namespace FirewallPolicy

open Stateful

namespace Stateful

variable {ε σ τ α β γ δ : Type} {states : σ → τ → Prop}

/-- From related states, where the first computation succeeds so does the second one, with related
results and in related states. -/
def Lockstep (states : σ → τ → Prop) (results : α → β → Prop)
    (action : Stateful ε σ α) (other : Stateful ε τ β) : Prop :=
  ∀ before otherBefore a after, states before otherBefore → action before = (.ok a, after) →
    ∃ b otherAfter, other otherBefore = (.ok b, otherAfter) ∧ results a b ∧
      states after otherAfter

section Steps

variable {results : α → β → Prop} {target : γ → δ → Prop}
  {action : Stateful ε σ α} {other : Stateful ε τ β}

theorem lockstep_pure {a : α} {b : β} (related : results a b) :
    Lockstep states results (pure a : Stateful ε σ α) (pure b : Stateful ε τ β) := by
  intro before otherBefore _ _ statesRelated run
  obtain ⟨rfl, rfl⟩ := pure_eq_ok.1 run
  exact ⟨b, otherBefore, rfl, related, statesRelated⟩

theorem lockstep_throw {failure : ε} :
    Lockstep states results (throw failure : Stateful ε σ α) other :=
  fun _ _ _ _ _ run => (throw_eq_ok.1 run).elim

theorem lockstep_modify
    {change : σ → σ} {otherChange : τ → τ}
    (step : ∀ before otherBefore, states before otherBefore →
      states (change before) (otherChange otherBefore)) :
    Lockstep states Eq (modify change : Stateful ε σ Unit)
      (modify otherChange : Stateful ε τ Unit) := by
  intro before otherBefore _ _ related run
  obtain rfl := modify_eq_ok.1 run
  exact ⟨(), otherChange otherBefore, rfl, rfl, step before otherBefore related⟩

theorem Lockstep.bind
    {rest : α → Stateful ε σ γ} {otherRest : β → Stateful ε τ δ}
    (first : Lockstep states results action other)
    (second : ∀ a b, results a b → Lockstep states target (rest a) (otherRest b)) :
    Lockstep states target (action >>= rest) (other >>= otherRest) := by
  intro before otherBefore c after related run
  obtain ⟨a, middle, firstRun, secondRun⟩ := bind_eq_ok.1 run
  obtain ⟨b, otherMiddle, otherFirst, resultsRelated, middleRelated⟩ :=
    first before otherBefore a middle related firstRun
  obtain ⟨d, otherAfter, otherSecond, targetRelated, afterRelated⟩ :=
    second a b resultsRelated middle otherMiddle c after middleRelated secondRun
  exact ⟨d, otherAfter, bind_eq_ok.2 ⟨b, otherMiddle, otherFirst, otherSecond⟩, targetRelated,
    afterRelated⟩

/-- Two computations whose first steps have the same result. -/
theorem Lockstep.bind_same
    {action : Stateful ε σ α} {other : Stateful ε τ α}
    {rest : α → Stateful ε σ γ} {otherRest : α → Stateful ε τ δ}
    (first : Lockstep states Eq action other)
    (second : ∀ a, Lockstep states target (rest a) (otherRest a)) :
    Lockstep states target (action >>= rest) (other >>= otherRest) := by
  refine first.bind ?_
  rintro a _ rfl
  exact second a

/-- Reading the states first: what follows may depend on them and on their relation. -/
theorem lockstep_get_bind
    {rest : σ → Stateful ε σ γ} {otherRest : τ → Stateful ε τ δ}
    (second : ∀ before otherBefore, states before otherBefore →
      Lockstep states target (rest before) (otherRest otherBefore)) :
    Lockstep states target (get >>= rest) (get >>= otherRest) :=
  fun before otherBefore c after related run =>
    second before otherBefore related before otherBefore c after related run

/-- What is known of every result of the first computation. -/
theorem Lockstep.and_yields
    {property : α → Prop} (lockstep : Lockstep states results action other)
    (yields : Yields property action) :
    Lockstep states (fun a b => results a b ∧ property a) action other := by
  intro before otherBefore a after related run
  obtain ⟨b, otherAfter, otherRun, resultsRelated, afterRelated⟩ :=
    lockstep before otherBefore a after related run
  exact ⟨b, otherAfter, otherRun, ⟨resultsRelated, yields before after a run⟩, afterRelated⟩

end Steps

end Stateful

/-! ## Computations in a context -/

namespace Run

variable {α β γ : Type} {states : Context → Context → Prop} {results : α → β → Prop}
  {other : Run β}

theorem lockstep_report {location : String} {cause : Cause} :
    Lockstep states results (report location cause : Run α) other :=
  fun _ _ _ _ _ run => (report_eq_ok.1 run).elim

theorem lockstep_unusable : Lockstep states results (unusable : Run α) other :=
  lockstep_throw

/-- What would follow after a fault does not matter. -/
theorem lockstep_report_bind {location : String} {cause : Cause} {rest : γ → Run α} :
    Lockstep states results (report location cause >>= rest) other := by
  intro _ _ _ _ _ run
  obtain ⟨_, _, reports, -⟩ := bind_eq_ok.1 run
  exact (report_eq_ok.1 reports).elim

theorem lockstep_unusable_bind {rest : γ → Run α} :
    Lockstep states results (unusable >>= rest) other := by
  intro _ _ _ _ _ run
  obtain ⟨_, _, stops, -⟩ := bind_eq_ok.1 run
  exact (unusable_eq_ok.1 stops).elim

theorem lockstep_recording
    {result : Except Failure α} {otherResult : Except Failure β}
    (follows : Follows results result otherResult) :
    Lockstep states results (recording result) (recording otherResult) := by
  intro before otherBefore a after related run
  obtain ⟨given, rfl⟩ := recording_eq_ok.1 run
  obtain ⟨b, otherGiven, resultsRelated⟩ := follows a given
  exact ⟨b, otherBefore, recording_eq_ok.2 ⟨otherGiven, rfl⟩, resultsRelated, related⟩

/-- Results outside the context that are the same. -/
theorem lockstep_recording_same {result otherResult : Except Failure α}
    (same : otherResult = result) :
    Lockstep states Eq (recording result) (recording otherResult) :=
  lockstep_recording fun a given => ⟨a, same.trans given, rfl⟩

theorem lockstep_lift
    {result : Except Failure α} {otherResult : Except Failure β}
    (follows : Follows results result otherResult) :
    Lockstep states results (lift result) (lift otherResult) := by
  intro before otherBefore a after related run
  obtain ⟨given, rfl⟩ := lift_eq_ok.1 run
  obtain ⟨b, otherGiven, resultsRelated⟩ := follows a given
  exact ⟨b, otherBefore, lift_eq_ok.2 ⟨otherGiven, rfl⟩, resultsRelated, related⟩

/-- What is gathered for items that correspond is the same when it is the same for each of them. -/
theorem lockstep_gather
    {found : α → Run (List γ)} {others : β → Run (List γ)} {items : List α} {further : List β}
    (each : List.Forall₂ (fun a b => Lockstep states Eq (found a) (others b)) items further) :
    Lockstep states Eq (gather found items) (gather others further) := by
  induction each with
  | nil => exact lockstep_pure rfl
  | cons first _ inductionHypothesis =>
      exact first.bind_same fun _ => inductionHypothesis.bind_same fun _ => lockstep_pure rfl

end Run

end FirewallPolicy
