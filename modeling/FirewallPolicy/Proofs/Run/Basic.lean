import FirewallPolicy.Context
import Mathlib.Data.List.Forall2
import Mathlib.Order.Defs.Unbundled

/-!
# Runs step by step

A computation with a state that may fail is opened at its first step: it succeeds exactly when the
step succeeds and the rest succeeds from where the step ends.  Separately, a relation between
states that composes holds from start to end of a computation when it holds of each of its steps,
whether the computation succeeds or not.
-/

namespace FirewallPolicy

/-- A computation with a state, which may fail and keeps the state when it does. -/
abbrev Stateful (ε σ α : Type) : Type := ExceptT ε (StateM σ) α

namespace Stateful

variable {ε σ α β : Type}

/-! ## Success -/

theorem eq_ok_of_mem_toOption
    {result : Except ε α} {a : α} (given : a ∈ result.toOption) : result = .ok a := by
  cases result with
  | ok b =>
      obtain rfl := Option.some.inj given
      rfl
  | error failure => cases given

theorem eq_of_mem_toOption
    {run : Except ε α × σ} {a : α} (given : a ∈ run.1.toOption) : run = (.ok a, run.2) :=
  Prod.ext (eq_ok_of_mem_toOption given) rfl

theorem bind_apply
    (action : Stateful ε σ α) (rest : α → Stateful ε σ β) (before : σ) :
    (action >>= rest) before =
      match action before with
      | (.ok a, middle) => rest a middle
      | (.error failure, middle) => (.error failure, middle) := by
  change StateT.bind action (ExceptT.bindCont rest) before = _
  unfold StateT.bind
  cases action before with
  | mk result middle => cases result <;> rfl

theorem bind_eq_ok
    {action : Stateful ε σ α} {rest : α → Stateful ε σ β}
    {before after : σ} {b : β} :
    (action >>= rest) before = (.ok b, after) ↔
      ∃ a middle, action before = (.ok a, middle) ∧
        rest a middle = (.ok b, after) := by
  rw [bind_apply]
  cases action before with
  | mk result middle =>
      cases result with
      | ok a =>
          constructor
          · intro run
            exact ⟨a, middle, rfl, run⟩
          · rintro ⟨_, _, ⟨⟩, run⟩
            exact run
      | error failure =>
          constructor
          · rintro ⟨⟩
          · rintro ⟨_, _, ⟨⟩, _⟩

/-- A sequence fails where its first part does, or behind it. -/
theorem bind_eq_error
    {action : Stateful ε σ α} {rest : α → Stateful ε σ β}
    {before after : σ} {failure : ε} :
    (action >>= rest) before = (.error failure, after) ↔
      action before = (.error failure, after) ∨
        ∃ a middle, action before = (.ok a, middle) ∧
          rest a middle = (.error failure, after) := by
  rw [bind_apply]
  cases action before with
  | mk result middle =>
      cases result with
      | ok a =>
          constructor
          · intro run
            exact Or.inr ⟨a, middle, rfl, run⟩
          · rintro (⟨⟨⟩⟩ | ⟨_, _, ⟨⟩, run⟩)
            exact run
      | error other =>
          constructor
          · rintro ⟨⟩
            exact Or.inl rfl
          · rintro (⟨⟨⟩⟩ | ⟨_, _, ⟨⟩, _⟩)
            rfl

theorem pure_eq_ok {a b : α} {before after : σ} :
    (pure a : Stateful ε σ α) before = (.ok b, after) ↔
      a = b ∧ before = after := by
  change ((Except.ok a : Except ε α), before) = _ ↔ _
  simp

theorem get_eq_ok {before after state : σ} :
    (get : Stateful ε σ σ) before = (.ok state, after) ↔
      before = state ∧ before = after := by
  change ((Except.ok before : Except ε σ), before) = _ ↔ _
  simp

theorem modify_eq_ok {change : σ → σ} {before after : σ} {u : Unit} :
    (modify change : Stateful ε σ Unit) before = (.ok u, after) ↔
      change before = after := by
  change ((Except.ok () : Except ε Unit), change before) = _ ↔ _
  simp

theorem throw_eq_ok {failure : ε} {a : α} {before after : σ} :
    (throw failure : Stateful ε σ α) before = (.ok a, after) ↔ False := by
  change ((Except.error failure : Except ε α), before) = _ ↔ _
  simp

/-- A computation succeeds in one way only. -/
theorem eq_of_eq_ok
    {action : Stateful ε σ α} {before after finish : σ} {a b : α}
    (run : action before = (.ok a, after)) (again : action before = (.ok b, finish)) :
    a = b ∧ after = finish := by
  have same : ((Except.ok a : Except ε α), after) = (.ok b, finish) := run.symm.trans again
  simpa using same

/-! ## Relations from start to end -/

/-- The relation holds between the state before and the state after, whatever the outcome. -/
def Moves (relation : σ → σ → Prop) (action : Stateful ε σ α) : Prop :=
  ∀ before, relation before (action before).2

section Moves

variable {relation : σ → σ → Prop}

theorem Moves.of_eq
    {action : Stateful ε σ α} {before after : σ} {result : Except ε α}
    (moves : Moves relation action)
    (run : action before = (result, after)) :
    relation before after := by
  have moved := moves before
  rwa [run] at moved

theorem moves_modify
    {change : σ → σ}
    (step : ∀ before, relation before (change before)) :
    Moves relation (modify change : Stateful ε σ Unit) :=
  step

variable [IsPreorder σ relation]

theorem moves_pure (a : α) :
    Moves relation (pure a : Stateful ε σ α) :=
  fun before => refl_of relation before

theorem moves_throw (failure : ε) :
    Moves relation (throw failure : Stateful ε σ α) :=
  fun before => refl_of relation before

theorem moves_get :
    Moves relation (get : Stateful ε σ σ) :=
  fun before => refl_of relation before

theorem Moves.bind
    {action : Stateful ε σ α} {rest : α → Stateful ε σ β}
    (first : Moves relation action)
    (second : ∀ a, Moves relation (rest a)) :
    Moves relation (action >>= rest) := by
  intro before
  have step := first before
  rw [bind_apply]
  cases run : action before with
  | mk result middle =>
      rw [run] at step
      cases result with
      | ok a => exact trans_of relation step (second a middle)
      | error failure => exact step

omit [IsPreorder σ relation] in
/-- The relation holds over a step and what follows it when it holds wherever the step succeeds. -/
theorem Moves.bind_at
    {action : Stateful ε σ α} {rest : α → Stateful ε σ β} {before : σ}
    (first : Moves relation action)
    (second : ∀ a middle, action before = (.ok a, middle) → relation before (rest a middle).2) :
    relation before ((action >>= rest) before).2 := by
  have step := first before
  rw [bind_apply]
  cases run : action before with
  | mk result middle =>
      rw [run] at step
      cases result with
      | ok a => exact second a middle run
      | error failure => exact step

/-- Reading the state first: what follows may depend on it. -/
theorem moves_get_bind
    {rest : σ → Stateful ε σ β}
    (second : ∀ state, Moves relation (rest state)) :
    Moves relation (get >>= rest) :=
  moves_get.bind second

omit [IsPreorder σ relation] in
/-- Reading the state first: what follows starts from the state that was read. -/
theorem moves_of_get
    {rest : σ → Stateful ε σ β}
    (second : ∀ state, relation state (rest state state).2) :
    Moves relation (get >>= rest) :=
  second

end Moves

/-! ## Results -/

/-- Every result of a successful computation has the property. -/
def Yields (property : α → Prop) (action : Stateful ε σ α) : Prop :=
  ∀ before after a, action before = (.ok a, after) → property a

theorem Yields.of_eq
    {property : α → Prop} {action : Stateful ε σ α}
    {before after : σ} {a : α}
    (yields : Yields property action)
    (run : action before = (.ok a, after)) :
    property a :=
  yields before after a run

theorem yields_pure
    {property : α → Prop} {a : α} (holds : property a) :
    Yields property (pure a : Stateful ε σ α) := by
  intro before after b run
  obtain ⟨rfl, -⟩ := pure_eq_ok.1 run
  exact holds

theorem yields_throw {property : α → Prop} {failure : ε} :
    Yields property (throw failure : Stateful ε σ α) :=
  fun _ _ _ run => (throw_eq_ok.1 run).elim

theorem yields_bind
    {property : β → Prop} {action : Stateful ε σ α} {rest : α → Stateful ε σ β}
    (second : ∀ a, Yields property (rest a)) :
    Yields property (action >>= rest) := by
  intro before after b run
  obtain ⟨a, middle, _, tail⟩ := bind_eq_ok.1 run
  exact (second a).of_eq tail

theorem Yields.bind
    {known : α → Prop} {property : β → Prop}
    {action : Stateful ε σ α} {rest : α → Stateful ε σ β}
    (first : Yields known action)
    (second : ∀ a, known a → Yields property (rest a)) :
    Yields property (action >>= rest) := by
  intro before after b run
  obtain ⟨a, middle, head, tail⟩ := bind_eq_ok.1 run
  exact (second a (first.of_eq head)).of_eq tail

end Stateful

/-! ## Lists of results -/

section Lists

variable {ε α β : Type}

theorem except_bind_eq_ok
    {first : Except ε α} {rest : α → Except ε β} {b : β} :
    (first >>= rest) = .ok b ↔ ∃ a, first = .ok a ∧ rest a = .ok b := by
  cases first with
  | ok a =>
      constructor
      · intro run
        exact ⟨a, rfl, run⟩
      · rintro ⟨_, ⟨⟩, run⟩
        exact run
  | error failure =>
      constructor
      · rintro ⟨⟩
      · rintro ⟨_, ⟨⟩, _⟩

theorem except_pure_eq_ok {a b : α} :
    (pure a : Except ε α) = .ok b ↔ a = b :=
  Except.ok.injEq a b ▸ Iff.rfl

theorem except_throw_eq_ok {failure : ε} {a : α} :
    (throw failure : Except ε α) = .ok a ↔ False :=
  ⟨fun run => (nomatch run), False.elim⟩

/-- The results for the items of a list stand in the order of the items. -/
theorem forall₂_of_mapM_eq_ok
    {step : α → Except ε β} {items : List α} {results : List β}
    (run : items.mapM step = .ok results) :
    List.Forall₂ (fun item result => step item = .ok result) items results := by
  induction items generalizing results with
  | nil =>
      rw [List.mapM_nil, except_pure_eq_ok] at run
      subst run
      exact List.Forall₂.nil
  | cons item rest inductionHypothesis =>
      simp only [List.mapM_cons, except_bind_eq_ok, except_pure_eq_ok] at run
      obtain ⟨first, firstRun, others, othersRun, rfl⟩ := run
      exact List.Forall₂.cons firstRun (inductionHypothesis othersRun)

theorem exists_of_mem_forall₂
    {relation : α → β → Prop} {items : List α} {results : List β}
    (related : List.Forall₂ relation items results)
    {result : β} (member : result ∈ results) :
    ∃ item ∈ items, relation item result := by
  induction related with
  | nil => simp at member
  | cons first _ inductionHypothesis =>
      rcases List.mem_cons.1 member with rfl | restMember
      · exact ⟨_, List.mem_cons_self .., first⟩
      · obtain ⟨item, itemMember, holds⟩ := inductionHypothesis restMember
        exact ⟨item, List.mem_cons_of_mem _ itemMember, holds⟩

theorem exists_of_mem_mapM
    {step : α → Except ε β} {items : List α} {results : List β}
    (run : items.mapM step = .ok results)
    {result : β} (member : result ∈ results) :
    ∃ item ∈ items, step item = .ok result :=
  exists_of_mem_forall₂ (forall₂_of_mapM_eq_ok run) member

/-- What each result comes to for its item, all results come to for all items. -/
theorem flatMap_eq_of_mapM
    {γ : Type} {step : α → Except ε β} {items : List α} {results : List β} {ofResult : β → List γ}
    {ofItem : α → List γ}
    (each : ∀ item result, step item = .ok result → ofResult result = ofItem item)
    (run : items.mapM step = .ok results) :
    results.flatMap ofResult = items.flatMap ofItem := by
  have related := forall₂_of_mapM_eq_ok run
  clear run
  induction related with
  | nil => rfl
  | cons first _ inductionHypothesis =>
      rw [List.flatMap_cons, List.flatMap_cons, each _ _ first, inductionHypothesis]

/-- The items of a list have the same results in any order. -/
theorem exists_mapM_of_perm
    {step : α → Except ε β} {items others : List α} (perm : items.Perm others) {results : List β}
    (run : items.mapM step = .ok results) :
    ∃ otherResults, others.mapM step = .ok otherResults ∧ results.Perm otherResults := by
  induction perm generalizing results with
  | nil => exact ⟨results, run, List.Perm.refl _⟩
  | cons item _ inductionHypothesis =>
      simp only [List.mapM_cons, except_bind_eq_ok, except_pure_eq_ok] at run ⊢
      obtain ⟨first, firstRun, rest, restRun, rfl⟩ := run
      obtain ⟨otherRest, otherRun, same⟩ := inductionHypothesis restRun
      exact ⟨first :: otherRest, ⟨first, firstRun, otherRest, otherRun, rfl⟩, same.cons first⟩
  | swap first second rest =>
      simp only [List.mapM_cons, except_bind_eq_ok, except_pure_eq_ok] at run ⊢
      obtain ⟨b, secondRun, _, ⟨a, firstRun, others, restRun, rfl⟩, rfl⟩ := run
      exact ⟨a :: b :: others,
        ⟨a, firstRun, b :: others, ⟨b, secondRun, others, restRun, rfl⟩, rfl⟩,
        List.Perm.swap a b others⟩
  | trans _ _ first second =>
      obtain ⟨middle, middleRun, same⟩ := first run
      obtain ⟨results, resultsRun, sameToo⟩ := second middleRun
      exact ⟨results, resultsRun, same.trans sameToo⟩

/-- What is found for a list of items is found for one of them. -/
theorem exists_of_mem_flatten_mapM
    {step : α → Except ε (List β)} {items : List α} {results : List (List β)}
    (run : items.mapM step = .ok results)
    {part : β} (member : part ∈ results.flatten) :
    ∃ item ∈ items, ∃ result, step item = .ok result ∧ part ∈ result := by
  obtain ⟨result, isResult, inResult⟩ := List.mem_flatten.1 member
  obtain ⟨item, isItem, found⟩ := exists_of_mem_mapM run isResult
  exact ⟨item, isItem, result, found, inResult⟩

end Lists

/-! ## Computations in a context -/

namespace Run

open Stateful

variable {α β : Type}

theorem recording_eq_ok
    {result : Except Failure α} {a : α} {before after : Context} :
    recording result before = (.ok a, after) ↔
      result = .ok a ∧ before = after := by
  match result with
  | .ok b =>
      simp only [recording, pure_eq_ok, Except.ok.injEq]
  | .error (.policy fault) =>
      change (report fault.location fault.cause : Run α) before = _ ↔ _
      simp only [report, bind_eq_ok, modify_eq_ok, throw_eq_ok]
      simp
  | .error (.cycle names) =>
      change (throw _ : Run α) before = _ ↔ _
      simp [throw_eq_ok]
  | .error .unusable =>
      change (throw _ : Run α) before = _ ↔ _
      simp [throw_eq_ok]

/-- Recording the fault of a result leaves the result as it is. -/
theorem fst_recording (result : Except Failure α) (before : Context) :
    (recording result before).1 = result := by
  match result with
  | .ok a => rfl
  | .error (.policy fault) => rfl
  | .error (.cycle names) => rfl
  | .error .unusable => rfl

theorem lift_eq_ok
    {result : Except Failure α} {before after : Context} {a : α} :
    lift result before = (.ok a, after) ↔ result = .ok a ∧ before = after := by
  cases result with
  | ok b =>
      change (pure b : Run α) before = _ ↔ _
      rw [pure_eq_ok, Except.ok.injEq]
  | error failure =>
      constructor
      · intro run
        exact (throw_eq_ok.1 run).elim
      · rintro ⟨⟨⟩, _⟩

theorem report_eq_ok
    {location : String} {cause : Cause} {a : α} {before after : Context} :
    (report location cause : Run α) before = (.ok a, after) ↔ False := by
  simp [report, bind_eq_ok, throw_eq_ok]

theorem unusable_eq_ok {a : α} {before after : Context} :
    (unusable : Run α) before = (.ok a, after) ↔ False :=
  throw_eq_ok

theorem freshSerial_eq_ok {before after : Context} {serial : Nat} :
    freshSerial before = (.ok serial, after) ↔
      serial = before.nextSerial ∧
        after = { before with nextSerial := before.nextSerial + 1 } := by
  simp only [freshSerial, bind_eq_ok, get_eq_ok, modify_eq_ok, pure_eq_ok]
  constructor
  · rintro ⟨_, _, ⟨rfl, rfl⟩, _, _, rfl, rfl, rfl⟩
    exact ⟨rfl, rfl⟩
  · rintro ⟨rfl, rfl⟩
    exact ⟨_, _, ⟨rfl, rfl⟩, (), _, rfl, rfl, rfl⟩

/-! ## Results in a context -/

theorem yields_unusable {property : α → Prop} :
    Yields property (unusable : Run α) :=
  yields_throw

theorem yields_recording
    {property : α → Prop} {result : Except Failure α}
    (holds : ∀ a, result = .ok a → property a) :
    Yields property (recording result) := by
  intro before after a run
  exact holds a (recording_eq_ok.1 run).1

theorem yields_gather
    {property : β → Prop} {results : α → Run (List β)} {items : List α}
    (each : ∀ item ∈ items, Yields (fun found => ∀ b ∈ found, property b) (results item)) :
    Yields (fun found => ∀ b ∈ found, property b) (gather results items) := by
  induction items with
  | nil => exact yields_pure fun b member => absurd member List.not_mem_nil
  | cons item rest inductionHypothesis =>
      have others := inductionHypothesis fun other member =>
        each other (List.mem_cons_of_mem _ member)
      refine (each item (List.mem_cons_self ..)).bind fun first holdsFirst =>
        others.bind fun rest holdsRest => yields_pure fun b member => ?_
      exact (List.mem_append.1 member).elim (holdsFirst b) (holdsRest b)

end Run

end FirewallPolicy
