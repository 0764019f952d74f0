import FirewallPolicy.Proofs.Run.Basic

/-!
# Results that hosts determine

What a rule matches depends on the context only through the directory of hosts.  The result of such
a computation is the one that it has in a context with that directory and nothing else, and the
results of its steps make up the result of the whole.
-/

namespace FirewallPolicy

open Stateful

/-- What the names of hosts stand for. -/
abbrev Directory : Type := String → Option (List FamilyAddress)

namespace Run

variable {α β : Type}

/-- The result of a computation that knows a directory of hosts and nothing else. -/
def outcome (directory : Directory) (action : Run α) : Except Failure α :=
  (action { hosts := { directory } }).1

/-- The result depends on the directory of hosts alone, and the directory stays as it is. -/
def Determined (action : Run α) : Prop :=
  ∀ before, (action before).1 = outcome before.hosts.directory action ∧
    (action before).2.hosts.directory = before.hosts.directory

variable {action : Run α} {rest : α → Run β} {before after : Context} {directory : Directory}

theorem Determined.outcome_eq
    (determined : Determined action) {result : Except Failure α}
    (run : action before = (result, after)) :
    outcome before.hosts.directory action = result := by
  rw [← (determined before).1, run]

theorem Determined.exists_eq
    (determined : Determined action) {result : Except Failure α}
    (given : outcome before.hosts.directory action = result) :
    ∃ after, action before = (result, after) :=
  ⟨(action before).2, Prod.ext ((determined before).1.trans given) rfl⟩

/-! ## Steps -/

theorem Determined.outcome_bind
    (first : Determined action) (second : ∀ a, Determined (rest a)) (directory : Directory) :
    outcome directory (action >>= rest) =
      outcome directory action >>= fun a => outcome directory (rest a) := by
  have step := first { hosts := { directory } }
  unfold outcome at step ⊢
  rw [bind_apply]
  cases run : action { hosts := { directory } } with
  | mk result middle =>
      rw [run] at step
      cases result with
      | ok a =>
          have sameDirectory : middle.hosts.directory = directory := step.2
          have continued := (second a middle).1
          rw [sameDirectory] at continued
          exact continued
      | error failure => rfl

theorem Determined.bind
    (first : Determined action) (second : ∀ a, Determined (rest a)) :
    Determined (action >>= rest) := by
  intro before
  have step := first before
  rw [first.outcome_bind second, bind_apply]
  cases run : action before with
  | mk result middle =>
      rw [run] at step
      rw [← step.1]
      cases result with
      | ok a =>
          have sameDirectory : middle.hosts.directory = before.hosts.directory := step.2
          have continued := second a middle
          rw [sameDirectory] at continued
          exact continued
      | error failure => exact ⟨rfl, step.2⟩

theorem determined_pure (a : α) : Determined (pure a : Run α) :=
  fun _ => ⟨rfl, rfl⟩

@[simp]
theorem outcome_pure (a : α) : outcome directory (pure a : Run α) = .ok a :=
  rfl

theorem determined_unusable : Determined (unusable : Run α) :=
  fun _ => ⟨rfl, rfl⟩

theorem determined_report (location : String) (cause : Cause) :
    Determined (report location cause : Run α) :=
  fun _ => ⟨rfl, rfl⟩

theorem determined_recording (result : Except Failure α) : Determined (recording result) := by
  intro before
  match result with
  | .ok a => exact ⟨rfl, rfl⟩
  | .error (.policy fault) => exact ⟨rfl, rfl⟩
  | .error (.cycle names) => exact ⟨rfl, rfl⟩
  | .error .unusable => exact ⟨rfl, rfl⟩

@[simp]
theorem outcome_recording (result : Except Failure α) :
    outcome directory (recording result) = result := by
  match result with
  | .ok a => rfl
  | .error (.policy fault) => rfl
  | .error (.cycle names) => rfl
  | .error .unusable => rfl

theorem determined_gather
    {results : α → Run (List β)} {items : List α}
    (each : ∀ item ∈ items, Determined (results item)) :
    Determined (gather results items) := by
  induction items with
  | nil => exact determined_pure []
  | cons item rest inductionHypothesis =>
      have others := inductionHypothesis fun other member =>
        each other (List.mem_cons_of_mem _ member)
      exact (each item (List.mem_cons_self ..)).bind fun _ => others.bind fun _ =>
        determined_pure _

/-- The results for a list of items are those for its members, all of which there are. -/
theorem outcome_gather_eq_ok
    {results : α → Run (List β)} {items : List α} {found : List β}
    (each : ∀ item, Determined (results item))
    (given : outcome directory (gather results items) = .ok found) :
    (∀ item ∈ items, ∃ part, outcome directory (results item) = .ok part) ∧
      ∀ b, b ∈ found ↔
        ∃ item ∈ items, ∃ part, outcome directory (results item) = .ok part ∧ b ∈ part := by
  induction items generalizing found with
  | nil =>
      obtain rfl : [] = found := Except.ok.inj given
      simp
  | cons item rest inductionHypothesis =>
      have others : Determined (gather results rest) := determined_gather fun other _ => each other
      rw [gather, (each item).outcome_bind fun _ => others.bind fun _ => determined_pure _] at given
      simp only [except_bind_eq_ok, others.outcome_bind fun _ => determined_pure _,
        outcome_pure] at given
      obtain ⟨first, isFirst, later, isLater, same⟩ := given
      obtain rfl := Except.ok.inj same
      obtain ⟨restGiven, mem_later⟩ := inductionHypothesis isLater
      refine ⟨List.forall_mem_cons.2 ⟨⟨first, isFirst⟩, restGiven⟩, fun b => ?_⟩
      simp [mem_later, isFirst]

theorem exists_outcome_gather
    {results : α → Run (List β)} {items : List α}
    (each : ∀ item, Determined (results item))
    (given : ∀ item ∈ items, ∃ part, outcome directory (results item) = .ok part) :
    ∃ found, outcome directory (gather results items) = .ok found := by
  induction items with
  | nil => exact ⟨[], rfl⟩
  | cons item rest inductionHypothesis =>
      have others : Determined (gather results rest) := determined_gather fun other _ => each other
      obtain ⟨first, isFirst⟩ := given item (List.mem_cons_self ..)
      obtain ⟨later, isLater⟩ := inductionHypothesis fun other member =>
        given other (List.mem_cons_of_mem _ member)
      refine ⟨first ++ later, ?_⟩
      rw [gather, (each item).outcome_bind fun _ => others.bind fun _ => determined_pure _, isFirst]
      change outcome directory (gather results rest >>= _) = _
      rw [others.outcome_bind fun _ => determined_pure _, isLater]
      rfl


/-! ## Hosts -/

/-- The text stands for the addresses. -/
def Resolves (directory : Directory) (text : String) (addresses : List FamilyAddress) : Prop :=
  HostBook.answer { directory } text = .addresses addresses

/-- What the answer to a request at a location ends with. -/
def answered (location : String) : HostBook.Answer → Except Failure (List FamilyAddress)
  | .addresses list => .ok list
  | .refused cause => .error (.fault location cause)
  | .unordered => .error .unusable

/-- How a call that resolves a text goes on with the answer. -/
def answering (location : String) : HostBook.Answer → Run (List FamilyAddress)
  | .addresses list => pure list
  | .refused cause => report location cause
  | .unordered => unusable

theorem resolveHost_apply (location text : String) (before : Context) :
    resolveHost location text before = answering location (before.hosts.answer text)
      { before with hosts := before.hosts.noting text } :=
  rfl

theorem resolveHost_fst (location text : String) (before : Context) :
    (resolveHost location text before).1 = answered location (before.hosts.answer text) := by
  rw [resolveHost_apply]
  cases before.hosts.answer text <;> rfl

theorem resolveHost_directory (location text : String) (before : Context) :
    (resolveHost location text before).2.hosts.directory = before.hosts.directory := by
  have noted : (before.hosts.noting text).directory = before.hosts.directory := by
    unfold HostBook.noting
    split <;> rfl
  rw [resolveHost_apply]
  cases before.hosts.answer text <;> exact noted

theorem determined_resolveHost (location text : String) :
    Determined (resolveHost location text) := by
  intro before
  refine ⟨?_, resolveHost_directory location text before⟩
  rw [outcome, resolveHost_fst, resolveHost_fst]
  rfl

theorem outcome_resolveHost_eq_ok
    {location text : String} {addresses : List FamilyAddress} :
    outcome directory (resolveHost location text) = .ok addresses ↔
      Resolves directory text addresses := by
  rw [outcome, resolveHost_fst, Resolves]
  cases HostBook.answer { directory } text <;> simp [answered]

theorem determined_hostFragments (location option : String) (hosts : List Value) :
    Determined (hostFragments location option hosts) :=
  determined_gather fun _ _ => (determined_resolveHost _ _).bind fun _ => determined_pure _

/-- The fragments for hosts are there when all hosts are known, and are those of their addresses. -/
theorem outcome_hostFragments_eq_ok
    {location option : String} {hosts : List Value} {found : List Fragment}
    (given : outcome directory (hostFragments location option hosts) = .ok found) :
    (∀ host ∈ hosts, ∃ addresses, Resolves directory host.written addresses) ∧
      ∀ fragment, fragment ∈ found ↔
        ∃ host ∈ hosts, ∃ addresses, Resolves directory host.written addresses ∧
          ∃ entry ∈ addresses, hostFragment option entry = fragment := by
  have each (host : Value) (part : List Fragment) :
      outcome directory (do
        return (← resolveHost location host.written).map (hostFragment option)) = .ok part ↔
        ∃ addresses, Resolves directory host.written addresses ∧
          addresses.map (hostFragment option) = part := by
    rw [(determined_resolveHost _ _).outcome_bind fun _ => determined_pure _, except_bind_eq_ok]
    simp only [outcome_resolveHost_eq_ok, outcome_pure, Except.ok.injEq]
  obtain ⟨known, members⟩ := outcome_gather_eq_ok
    (fun _ => (determined_resolveHost _ _).bind fun _ => determined_pure _) given
  constructor
  · intro host isHost
    obtain ⟨part, partRun⟩ := known host isHost
    obtain ⟨addresses, resolves, -⟩ := (each host part).1 partRun
    exact ⟨addresses, resolves⟩
  · intro fragment
    rw [members fragment]
    simp only [each]
    constructor
    · rintro ⟨host, isHost, _, ⟨addresses, resolves, rfl⟩, member⟩
      exact ⟨host, isHost, addresses, resolves, List.mem_map.1 member⟩
    · rintro ⟨host, isHost, addresses, resolves, isEntry⟩
      exact ⟨host, isHost, _, ⟨addresses, resolves, rfl⟩, List.mem_map.2 isEntry⟩

/-! ## Computations with one result -/

/-- The computation has the same result in all contexts, and the directory stays as it is. -/
def Computes (action : Run α) (result : Except Failure α) : Prop :=
  ∀ before, (action before).1 = result ∧
    (action before).2.hosts.directory = before.hosts.directory

theorem Computes.outcome_eq
    {action : Run α} {result : Except Failure α} (computes : Computes action result) :
    outcome directory action = result :=
  (computes _).1

theorem Computes.determined
    {action : Run α} {result : Except Failure α} (computes : Computes action result) :
    Determined action :=
  fun before => ⟨(computes before).1.trans computes.outcome_eq.symm, (computes before).2⟩

theorem computes_pure (a : α) : Computes (pure a) (.ok a) :=
  fun _ => ⟨rfl, rfl⟩

theorem computes_recording (result : Except Failure α) : Computes (recording result) result := by
  intro before
  obtain ⟨same, sameDirectory⟩ := determined_recording result before
  exact ⟨same.trans (outcome_recording result), sameDirectory⟩

theorem Computes.bind
    {action : Run α} {rest : α → Run β} {result : Except Failure α}
    {results : α → Except Failure β}
    (first : Computes action result) (second : ∀ a, Computes (rest a) (results a)) :
    Computes (action >>= rest) (result >>= results) := by
  intro before
  obtain ⟨isResult, sameDirectory⟩ := first before
  rw [bind_apply]
  cases run : action before with
  | mk found middle =>
      rw [run] at isResult sameDirectory
      subst isResult
      cases found with
      | ok a =>
          obtain ⟨isLast, directoryKept⟩ := second a middle
          exact ⟨isLast, directoryKept.trans sameDirectory⟩
      | error failure => exact ⟨rfl, sameDirectory⟩

theorem computes_gather
    {action : α → Run (List β)} {results : α → Except Failure (List β)} {items : List α}
    (each : ∀ item, Computes (action item) (results item)) :
    Computes (gather action items) (items.mapM results >>= fun parts => .ok parts.flatten) := by
  induction items with
  | nil => exact computes_pure []
  | cons item rest inductionHypothesis =>
      have both := (each item).bind fun part => inductionHypothesis.bind fun parts =>
        computes_pure (part ++ parts)
      have same : (item :: rest).mapM results >>= (fun parts => .ok parts.flatten) =
          results item >>= fun part =>
            (rest.mapM results >>= fun parts => .ok parts.flatten) >>= fun parts =>
              .ok (part ++ parts) := by
        rw [List.mapM_cons]
        cases results item with
        | error failure => rfl
        | ok part => cases List.mapM results rest <;> rfl
      rw [same]
      exact both

end Run

end FirewallPolicy
