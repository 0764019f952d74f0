import FirewallPolicy.Proofs.Context.Sound

/-!
# Attaching actions

Logging and a target are attached to matches in one of four ways: there is nothing to attach, a
single action is merged into the matches, or both actions go to a chain, which is shared by the
rules with a log class of that name or belongs to the rule.
-/

namespace FirewallPolicy

open Context Stateful

/-! ## Log classes -/

/-- The targets that log, with their options. -/
def IsLogTarget (target : String) : Prop :=
  ∃ mode ∈ ["LOG", "NFLOG", "ULOG"], ∃ options, target = mode ++ options

theorem IsLogTarget.isOrdinary
    {target : String} (isLog : IsLogTarget target) :
    IsOrdinary target := by
  obtain ⟨mode, member, options, rfl⟩ := isLog
  rw [IsOrdinary, String.toList_append, List.head?_append_of_ne_nil]
  · revert mode
    decide
  · revert mode
    decide

private theorem foldl_append_eq
    (text : String × String → String) (options : List (String × String)) (start : String) :
    ∃ tail, options.foldl (fun known option => known ++ text option) start = start ++ tail := by
  induction options generalizing start with
  | nil => exact ⟨"", by simp⟩
  | cons option rest inductionHypothesis =>
      obtain ⟨tail, same⟩ := inductionHypothesis (start ++ text option)
      exact ⟨text option ++ tail, by rw [List.foldl_cons, same, String.append_assoc]⟩

private theorem logMode_target
    {name : String} {target : String} {options : List (String × String)}
    (known : logMode? name = some ⟨some target, options⟩) :
    target ∈ ["LOG", "NFLOG", "ULOG"] := by
  unfold logMode? at known
  split at known <;> simp_all

/-- A log class logs by at most one rule, which only matches and jumps to a target that logs. -/
theorem LogClass.fragments_cases (log : LogClass) :
    log.fragments = [] ∨
      ∃ tokens target, IsLogTarget target ∧
        log.fragments = [{ tokens, target := some target }] := by
  unfold fragments
  extract_lets mode
  cases isMode : mode with
  | none => exact Or.inl rfl
  | some known =>
      obtain ⟨target, options⟩ := known
      cases target with
      | none => exact Or.inl rfl
      | some target =>
          obtain ⟨tail, same⟩ := foldl_append_eq log.optionText options target
          have isTarget : target ∈ ["LOG", "NFLOG", "ULOG"] := by
            unfold mode at isMode
            split at isMode
            · exact logMode_target isMode
            · simp at isMode
          refine Or.inr ⟨(Fragment.matching log.conditions).tokens, target ++ tail,
            ⟨target, isTarget, tail, rfl⟩, ?_⟩
          dsimp only
          rw [same]
          rfl

namespace Rule

/-! ## Own chains -/

/-- Jumps to a chain of the rule's own, with the body of the chain. -/
def ownChain (chain : String) (matched actions : List Fragment) : List Fragment :=
  matched.map (jumpTo chain) ++
    chainBody (matched.map (jumpTo chain)) (actions.map (placeIn chain))

theorem attach_own_eq_ok
    {rule : Rule} {matched actions attached : List Fragment} {key : String}
    {log : Option LogClass} {before after : Context}
    (run : rule.attach matched actions key log true before = (.ok attached, after)) :
    ∃ chain, Run.chainNameOf rule.serial key before = (.ok chain, after) ∧
      attached = ownChain chain matched actions := by
  simp only [attach, Bool.not_true, Bool.false_and, Bool.false_eq_true, if_false, if_true,
    bind_eq_ok, get_eq_ok, pure_eq_ok] at run
  obtain ⟨_, _, ⟨rfl, rfl⟩, chain, middle, named, rfl, rfl⟩ := run
  exact ⟨chain, named, rfl⟩

/-! ## Logging and a target -/

/-- The ways in which logging and a target are attached to matches. -/
inductive LogAttachment (rule : Rule) (matched : List Fragment) (log : Option LogClass)
    (action : String) (target : Option String) (before : Context) :
    List Fragment → Context → Prop
  | nothing :
      actionFragments log target = [] →
      LogAttachment rule matched log action target before matched before
  | merged {single : Fragment} :
      actionFragments log target = [single] →
      LogAttachment rule matched log action target before
        (Fragment.combine [some matched, some [single]]) before
  | shared {known : LogClass} {goal : String} {name : Scalar} {isNew : Bool}
      {after : Context} :
      log = some known → target = some goal →
      known.nameIn before = some name →
      Run.declareChain (sharedName ("log" ++ action) name)
        (actionFragments (some known) (some goal)) before = (.ok isNew, after) →
      LogAttachment rule matched log action target before
        (Fragment.combine
          [some matched, some [.ofTarget (sharedName ("log" ++ action) name)]]) after
  | own {known : LogClass} {goal chain : String} {after : Context} :
      log = some known → target = some goal →
      Run.chainNameOf rule.serial ("log" ++ action) before = (.ok chain, after) →
      LogAttachment rule matched log action target before
        (ownChain chain matched (actionFragments (some known) (some goal))) after

/-- Two actions are there only where a log class and a target are. -/
theorem both_of_actionFragments
    {log : Option LogClass} {target : Option String}
    (several : (actionFragments log target).length ≠ 1)
    (nonempty : actionFragments log target ≠ []) :
    ∃ known goal, log = some known ∧ target = some goal := by
  cases log with
  | none => cases target <;> simp [actionFragments] at several nonempty
  | some known =>
      cases target with
      | none =>
          rcases known.fragments_cases with none | ⟨_, _, _, one⟩ <;>
            simp_all [actionFragments]
      | some goal => exact ⟨known, goal, rfl, rfl⟩

theorem logAttachment_of_attachLog
    {rule : Rule} {matched attached : List Fragment} {log : Option LogClass} {action : String}
    {target : Option String} {before after : Context}
    (run : rule.attachLog matched log action target before = (.ok attached, after)) :
    LogAttachment rule matched log action target before attached after := by
  by_cases nonempty : actionFragments log target = []
  · simp only [attachLog, nonempty, pure_eq_ok] at run
    obtain ⟨rfl, rfl⟩ := run
    exact LogAttachment.nothing nonempty
  · have attaching : rule.attach matched (actionFragments log target) ("log" ++ action) log false
        before = (.ok attached, after) := by
      obtain ⟨first, rest, shape⟩ := List.exists_cons_of_ne_nil nonempty
      rw [shape]
      simpa only [attachLog, shape] using run
    by_cases several : (actionFragments log target).length = 1
    · obtain ⟨single, isSingle⟩ := List.length_eq_one_iff.1 several
      simp only [attach, isSingle, List.length_singleton, decide_true, Bool.not_false,
        Bool.and_self, if_true, pure_eq_ok] at attaching
      obtain ⟨rfl, rfl⟩ := attaching
      exact LogAttachment.merged isSingle
    · obtain ⟨known, goal, rfl, rfl⟩ := both_of_actionFragments several nonempty
      simp only [attach, several, decide_false, Bool.and_false, Bool.false_eq_true, if_false,
        bind_eq_ok, get_eq_ok, Option.bind_some] at attaching
      obtain ⟨_, _, ⟨rfl, rfl⟩, attaching⟩ := attaching
      cases named : known.nameIn before with
      | some name =>
          simp only [named, bind_eq_ok, pure_eq_ok] at attaching
          obtain ⟨isNew, middle, declares, rfl, rfl⟩ := attaching
          exact LogAttachment.shared rfl rfl named declares
      | none =>
          simp only [named, bind_eq_ok, pure_eq_ok] at attaching
          obtain ⟨chain, middle, names, rfl, rfl⟩ := attaching
          exact LogAttachment.own rfl rfl names

end Rule

end FirewallPolicy
