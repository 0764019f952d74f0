import FirewallPolicy.Proofs.Run.Basic

/-!
# What a success keeps and gives

A computation in a context meets a contract when, wherever an invariant holds before, a success
keeps it and gives a result with a property.  The contract of a computation is put together from
those of its steps.
-/

namespace FirewallPolicy

variable {α β : Type}

/-- What is given, if anything is, has the property. -/
def IfGiven (property : α → Prop) (given : Option α) : Prop :=
  ∀ a, given = some a → property a

@[simp]
theorem ifGiven_none {property : α → Prop} : IfGiven property none := by
  rintro _ ⟨⟩

@[simp]
theorem ifGiven_some {property : α → Prop} {a : α} : IfGiven property (some a) ↔ property a :=
  ⟨fun holds => holds a rfl, fun holds _ same => Option.some.inj same ▸ holds⟩

/-! ## Results -/

/-- A result, if there is one, has the property. -/
def Gives (property : α → Prop) (result : Except Failure α) : Prop :=
  ∀ a, result = .ok a → property a

section Gives

variable {property : α → Prop} {other : β → Prop}

theorem gives_ok {a : α} (holds : property a) : Gives property (.ok a) := by
  rintro _ ⟨⟩
  exact holds

theorem gives_error {failure : Failure} : Gives property (.error failure) := by
  rintro _ ⟨⟩

theorem Gives.bind
    {first : Except Failure α} {rest : α → Except Failure β}
    (gives : Gives property first) (further : ∀ a, property a → Gives other (rest a)) :
    Gives other (first >>= rest) := by
  intro b run
  obtain ⟨a, isFirst, isRest⟩ := except_bind_eq_ok.1 run
  exact further a (gives a isFirst) b isRest

/-- Where it does not matter what the first step gives. -/
theorem gives_bind
    {first : Except Failure α} {rest : α → Except Failure β}
    (further : ∀ a, Gives other (rest a)) : Gives other (first >>= rest) := by
  intro b run
  obtain ⟨a, -, isRest⟩ := except_bind_eq_ok.1 run
  exact further a b isRest

theorem gives_throw_bind {failure : Failure} {rest : α → Except Failure β} :
    Gives other ((throw failure : Except Failure α) >>= rest) :=
  gives_error

theorem gives_mapM
    {step : α → Except Failure β} {items : List α}
    (each : ∀ item ∈ items, Gives other (step item)) :
    Gives (fun found => ∀ b ∈ found, other b) (items.mapM step) := by
  intro found run b member
  obtain ⟨item, isItem, isResult⟩ := exists_of_mem_mapM run member
  exact each item isItem b isResult

theorem gives_foldlM
    {step : β → α → Except Failure β} {items : List α} {start : β} (holds : other start)
    (each : ∀ item ∈ items, ∀ found, other found → Gives other (step found item)) :
    Gives other (items.foldlM step start) := by
  induction items generalizing start with
  | nil => exact gives_ok holds
  | cons item rest inductionHypothesis =>
      obtain ⟨isFirst, isRest⟩ := List.forall_mem_cons.1 each
      rw [List.foldlM_cons]
      exact (isFirst start holds).bind fun found isFound => inductionHypothesis isFound isRest

end Gives

theorem exists_of_mem_mapM?
    {step : α → Option β} {items : List α} {results : List β}
    (run : items.mapM step = some results) {result : β} (member : result ∈ results) :
    ∃ item ∈ items, step item = some result := by
  induction items generalizing results with
  | nil =>
      obtain rfl := Option.some.inj run
      exact absurd member List.not_mem_nil
  | cons item rest inductionHypothesis =>
      simp only [List.mapM_cons, Option.bind_eq_bind, Option.bind_eq_some_iff, Option.pure_def,
        Option.some.injEq] at run
      obtain ⟨first, isFirst, others, areOthers, rfl⟩ := run
      rcases List.mem_cons.1 member with rfl | later
      · exact ⟨item, List.mem_cons_self .., isFirst⟩
      · obtain ⟨other, isOther, isResult⟩ := inductionHypothesis areOthers later
        exact ⟨other, List.mem_cons_of_mem _ isOther, isResult⟩

/-! ## Computations -/

namespace Stateful

variable {σ : Type}

/-- Where the invariant holds before, a success keeps it and its result has the property. -/
def Meets (invariant : σ → Prop) (property : α → Prop) (action : Stateful Failure σ α) : Prop :=
  ∀ before after a, invariant before → action before = (.ok a, after) →
    invariant after ∧ property a

section Meets

variable {invariant : σ → Prop} {property : α → Prop} {other : β → Prop}
  {action : Stateful Failure σ α} {rest : α → Stateful Failure σ β}

theorem meets_pure {a : α} (holds : property a) :
    Meets invariant property (pure a : Stateful Failure σ α) := by
  intro before after b kept run
  obtain ⟨rfl, rfl⟩ := pure_eq_ok.1 run
  exact ⟨kept, holds⟩

theorem meets_throw {failure : Failure} :
    Meets invariant property (throw failure : Stateful Failure σ α) :=
  fun _ _ _ _ run => (throw_eq_ok.1 run).elim

theorem meets_modify
    {change : σ → σ} (keeps : ∀ before, invariant before → invariant (change before)) :
    Meets invariant (fun _ => True) (modify change : Stateful Failure σ Unit) := by
  intro before after u kept run
  obtain rfl := modify_eq_ok.1 run
  exact ⟨keeps before kept, trivial⟩

theorem Meets.bind
    (first : Meets invariant property action)
    (further : ∀ a, property a → Meets invariant other (rest a)) :
    Meets invariant other (action >>= rest) := by
  intro before after b kept run
  obtain ⟨a, middle, head, tail⟩ := bind_eq_ok.1 run
  obtain ⟨keptMiddle, holds⟩ := first before middle a kept head
  exact further a holds middle after b keptMiddle tail

/-- Reading the state first: what follows may rely on the invariant of the state that was read. -/
theorem meets_get_bind
    {rest : σ → Stateful Failure σ β}
    (further : ∀ state, invariant state → Meets invariant other (rest state)) :
    Meets invariant other (get >>= rest) :=
  fun before after b kept run => further before kept before after b kept run

theorem Meets.imp
    {weaker : α → Prop} (meets : Meets invariant property action)
    (implies : ∀ a, property a → weaker a) : Meets invariant weaker action :=
  fun before after a kept run => (meets before after a kept run).imp_right (implies a)

end Meets

end Stateful

namespace Run

open Stateful

variable {invariant : Context → Prop} {property : α → Prop} {other : β → Prop}

theorem meets_unusable : Meets invariant property (unusable : Run α) :=
  meets_throw

theorem meets_unusable_bind {rest : α → Run β} :
    Meets invariant other ((unusable : Run α) >>= rest) := by
  have stops : Meets invariant (fun _ => False) (unusable : Run α) := meets_unusable
  exact stops.bind fun _ => False.elim

theorem meets_report {location : String} {cause : Cause} :
    Meets invariant property (report location cause : Run α) :=
  fun _ _ _ _ run => (report_eq_ok.1 run).elim

theorem meets_report_bind {location : String} {cause : Cause} {rest : α → Run β} :
    Meets invariant other ((report location cause : Run α) >>= rest) := by
  have stops : Meets invariant (fun _ => False) (report location cause : Run α) := meets_report
  exact stops.bind fun _ => False.elim

theorem meets_recording {result : Except Failure α} (gives : Gives property result) :
    Meets invariant property (recording result) := by
  intro before after a kept run
  obtain ⟨isResult, rfl⟩ := recording_eq_ok.1 run
  exact ⟨kept, gives a isResult⟩

theorem meets_lift {result : Except Failure α} (gives : Gives property result) :
    Meets invariant property (lift result) := by
  intro before after a kept run
  obtain ⟨isResult, rfl⟩ := lift_eq_ok.1 run
  exact ⟨kept, gives a isResult⟩

theorem meets_gather
    {results : α → Run (List β)} {items : List α}
    (each : ∀ item ∈ items, Meets invariant (fun found => ∀ b ∈ found, other b) (results item)) :
    Meets invariant (fun found => ∀ b ∈ found, other b) (gather results items) := by
  induction items with
  | nil => exact meets_pure (by simp)
  | cons item rest inductionHypothesis =>
      obtain ⟨isFirst, isRest⟩ := List.forall_mem_cons.1 each
      refine isFirst.bind fun first holdsFirst => (inductionHypothesis isRest).bind
        fun rest holdsRest => meets_pure fun b member => ?_
      exact (List.mem_append.1 member).elim (holdsFirst b) (holdsRest b)

end Run

end FirewallPolicy
