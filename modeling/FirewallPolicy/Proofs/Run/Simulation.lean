import FirewallPolicy.Proofs.Fragment.Correspondence
import FirewallPolicy.Proofs.Run.Outcome

/-!
# Computations side by side

One result follows another when it is there wherever the other one is, and is related to it.  A
computation simulates another when its result follows that of the other one, given a directory of
hosts.  Steps that simulate each other make up computations that do, and so do the computations for
the items of lists that correspond.
-/

namespace FirewallPolicy

open Stateful

variable {α β γ δ : Type}

/-! ## Results -/

/-- Where the first result is there, so is the second one, and it is related to the first. -/
def Follows (relation : α → β → Prop) (result : Except Failure α) (other : Except Failure β) :
    Prop :=
  ∀ a, result = .ok a → ∃ b, other = .ok b ∧ relation a b

namespace Follows

variable {relation : α → β → Prop} {target : γ → δ → Prop}
  {result : Except Failure α} {other : Except Failure β}

theorem ok {a : α} {b : β} (related : relation a b) : Follows relation (.ok a) (.ok b) := by
  rintro _ ⟨⟩
  exact ⟨b, rfl, related⟩

theorem error {failure : Failure} : Follows relation (.error failure) other := by
  rintro _ ⟨⟩

theorem throw {failure : Failure} : Follows relation (throw failure) other :=
  error

theorem ite {p : Prop} [Decidable p] {alternative : Except Failure α}
    {otherAlternative : Except Failure β}
    (holds : p → Follows relation result other)
    (fails : ¬p → Follows relation alternative otherAlternative) :
    Follows relation (if p then result else alternative) (if p then other else otherAlternative) := by
  split
  · next isTrue => exact holds isTrue
  · next isFalse => exact fails isFalse

theorem of_self {relation : α → α → Prop} (related : ∀ a, result = .ok a → relation a a) :
    Follows relation result result :=
  fun a given => ⟨a, given, related a given⟩

theorem bind
    {rest : α → Except Failure γ} {otherRest : β → Except Failure δ}
    (first : Follows relation result other)
    (second : ∀ a b, relation a b → Follows target (rest a) (otherRest b)) :
    Follows target (result >>= rest) (other >>= otherRest) := by
  intro c given
  obtain ⟨a, isFirst, continued⟩ := except_bind_eq_ok.1 given
  obtain ⟨b, otherFirst, related⟩ := first a isFirst
  obtain ⟨d, otherContinued, resultsRelated⟩ := second a b related c continued
  exact ⟨d, except_bind_eq_ok.2 ⟨b, otherFirst, otherContinued⟩, resultsRelated⟩

/-- The results for related items of two lists follow one another. -/
theorem mapM_forall₂
    {step : γ → Except Failure α} {otherStep : δ → Except Failure β}
    {items : List γ} {others : List δ}
    (each : List.Forall₂ (fun item other => Follows relation (step item) (otherStep other))
      items others) :
    Follows (List.Forall₂ relation) (items.mapM step) (others.mapM otherStep) := by
  induction each with
  | nil => exact ok List.Forall₂.nil
  | cons first _ inductionHypothesis =>
      rw [List.mapM_cons, List.mapM_cons]
      exact first.bind fun a b related =>
        inductionHypothesis.bind fun _ _ others => ok (List.Forall₂.cons related others)

/-- The results for the items of a list follow one another. -/
theorem mapM
    {step : γ → Except Failure α} {otherStep : γ → Except Failure β} {items : List γ}
    (each : ∀ item ∈ items, Follows relation (step item) (otherStep item)) :
    Follows (List.Forall₂ relation) (items.mapM step) (items.mapM otherStep) :=
  mapM_forall₂ (List.forall₂_same.2 each)

end Follows

theorem Corresponds.flatten
    {relation : α → β → Prop} {lists : List (List α)} {others : List (List β)}
    (each : List.Forall₂ (Corresponds relation) lists others) :
    Corresponds relation lists.flatten others.flatten := by
  induction each with
  | nil => exact Corresponds.nil
  | cons first _ inductionHypothesis =>
      rw [List.flatten_cons, List.flatten_cons]
      exact first.append inductionHypothesis

/-! ## Computations -/

namespace Run

variable {directory : Directory}

/-- Where the first computation succeeds, so does the second one, with a related result. -/
def Simulates (directory : Directory) (relation : α → β → Prop) (action : Run α) (other : Run β) :
    Prop :=
  Follows relation (outcome directory action) (outcome directory other)

section Steps

variable {relation : α → β → Prop} {target : γ → δ → Prop} {action : Run α} {other : Run β}

theorem simulates_pure {a : α} {b : β} (related : relation a b) :
    Simulates directory relation (pure a) (pure b) :=
  Follows.ok related

theorem Simulates.bind
    {rest : α → Run γ} {otherRest : β → Run δ}
    (determined : Determined action) (restDetermined : ∀ a, Determined (rest a))
    (otherDetermined : Determined other) (otherRestDetermined : ∀ b, Determined (otherRest b))
    (first : Simulates directory relation action other)
    (second : ∀ a b, relation a b → Simulates directory target (rest a) (otherRest b)) :
    Simulates directory target (action >>= rest) (other >>= otherRest) := by
  unfold Simulates
  rw [determined.outcome_bind restDetermined, otherDetermined.outcome_bind otherRestDetermined]
  exact Follows.bind first second

/-- Two computations one after the other simulate two others that are made in the opposite order. -/
theorem Simulates.swap
    {one : Run α} {two : Run β} {first : Run γ} {second : Run δ} {ε ζ : Type}
    {relation : α → δ → Prop} {further : β → γ → Prop} {target : ε → ζ → Prop}
    {join : α → β → ε} {otherJoin : γ → δ → ζ}
    (oneDetermined : Determined one) (twoDetermined : Determined two)
    (firstDetermined : Determined first) (secondDetermined : Determined second)
    (isSecond : Simulates directory relation one second)
    (isFirst : Simulates directory further two first)
    (joins : ∀ a b c d, relation a d → further b c → target (join a b) (otherJoin c d)) :
    Simulates directory target (one >>= fun a => two >>= fun b => pure (join a b))
      (first >>= fun c => second >>= fun d => pure (otherJoin c d)) := by
  intro result run
  rw [oneDetermined.outcome_bind fun _ => twoDetermined.bind fun _ => determined_pure _] at run
  obtain ⟨a, oneRun, run⟩ := except_bind_eq_ok.1 run
  rw [twoDetermined.outcome_bind fun _ => determined_pure _] at run
  obtain ⟨b, twoRun, joined⟩ := except_bind_eq_ok.1 run
  obtain rfl := Except.ok.inj joined
  obtain ⟨d, secondRun, related⟩ := isSecond a oneRun
  obtain ⟨c, firstRun, relatedToo⟩ := isFirst b twoRun
  refine ⟨otherJoin c d, ?_, joins a b c d related relatedToo⟩
  rw [firstDetermined.outcome_bind fun _ => secondDetermined.bind fun _ => determined_pure _,
    firstRun]
  change outcome directory (second >>= _) = _
  rw [secondDetermined.outcome_bind fun _ => determined_pure _, secondRun]
  rfl

end Steps

/-! ## Lists of items -/

section Gather

variable {relation : γ → δ → Prop} {results : α → Run (List γ)} {others : β → Run (List δ)}
  {items : List α} {further : List β}

/-- What is gathered for corresponding items corresponds. -/
theorem simulates_gather
    (determined : ∀ a, Determined (results a)) (otherDetermined : ∀ b, Determined (others b))
    (each : Corresponds
      (fun a b => Simulates directory (Corresponds relation) (results a) (others b))
      items further) :
    Simulates directory (Corresponds relation) (gather results items) (gather others further) := by
  intro found run
  obtain ⟨given, mem_found⟩ := outcome_gather_eq_ok determined run
  have otherGiven : ∀ b ∈ further, ∃ part, outcome directory (others b) = .ok part := by
    intro b isFurther
    obtain ⟨a, isItem, simulates⟩ := each.back b isFurther
    obtain ⟨part, partRun⟩ := given a isItem
    obtain ⟨otherPart, otherRun, -⟩ := simulates part partRun
    exact ⟨otherPart, otherRun⟩
  obtain ⟨collected, otherRun⟩ := exists_outcome_gather otherDetermined otherGiven
  have mem_collected := (outcome_gather_eq_ok otherDetermined otherRun).2
  refine ⟨collected, otherRun, ?_, ?_⟩
  · intro c isFound
    obtain ⟨a, isItem, part, partRun, inPart⟩ := (mem_found c).1 isFound
    obtain ⟨b, isFurther, simulates⟩ := each.forth a isItem
    obtain ⟨otherPart, otherPartRun, corresponds⟩ := simulates part partRun
    obtain ⟨d, inOther, related⟩ := corresponds.forth c inPart
    exact ⟨d, (mem_collected d).2 ⟨b, isFurther, otherPart, otherPartRun, inOther⟩, related⟩
  · intro d isCollected
    obtain ⟨b, isFurther, otherPart, otherPartRun, inOther⟩ := (mem_collected d).1 isCollected
    obtain ⟨a, isItem, simulates⟩ := each.back b isFurther
    obtain ⟨part, partRun⟩ := given a isItem
    obtain ⟨again, againRun, corresponds⟩ := simulates part partRun
    obtain rfl := Except.ok.inj (againRun.symm.trans otherPartRun)
    obtain ⟨c, inPart, related⟩ := corresponds.back d inOther
    exact ⟨c, (mem_found c).2 ⟨a, isItem, part, partRun, inPart⟩, related⟩

end Gather

end Run

end FirewallPolicy
