import FirewallPolicy.Proofs.Rule.Derived

/-!
# What an expansion is composed of

A rule with all that it brings with it is expanded piece by piece: the rule by itself, and the rules
that are derived from it on the way, each from where the one before ends.  What holds of each piece
and of pieces one behind the other holds of the whole.
-/

namespace FirewallPolicy

open Context Run Stateful

namespace Rule

/-- A rule that is expanded by itself between two contexts. -/
structure Piece where
  rule : Rule
  before : Context
  own : List Fragment
  after : Context

/-- Between two contexts the fragments come about by expanding the pieces, which are the rule by
itself or rules that are derived from it. -/
inductive Composed : Rule → List Piece → Context → List Fragment → Context → Prop
  | own {rule : Rule} {before after : Context} {own : List Fragment} :
      rule.ownFragments before = (.ok own, after) →
      Composed rule [⟨rule, before, own, after⟩] before own after
  | noting {rule : Rule} {before after : Context} :
      Notes before after → Composed rule [] before [] after
  | append {rule : Rule} {before middle after : Context} {first second : List Piece}
      {early late : List Fragment} :
      Composed rule first before early middle → Composed rule second middle late after →
      Composed rule (first ++ second) before (early ++ late) after
  | derived {rule other : Rule} {kind : RuleKind} {source : Record} {derivation : Derivation}
      {before middle after : Context} {pieces : List Piece} {fragments : List Fragment} :
      derivation.kind = .rule kind →
      Rule.declare kind (rule.location ++ " " ++ derivation.label)
          (.raw (.map (Record.toEntries (derivedAttributes source derivation)))) before =
        (.ok other, middle) →
      Composed other pieces middle fragments after →
      Composed rule pieces before fragments after

/-- All that the computation yields is composed of the rule and of rules derived from it. -/
def Composes (rule : Rule) (action : Run (List Fragment)) : Prop :=
  ∀ before after fragments, action before = (.ok fragments, after) →
    ∃ pieces, Composed rule pieces before fragments after

variable {rule : Rule} {before after : Context} {pieces : List Piece} {fragments : List Fragment}

theorem Composed.grows (composed : Composed rule pieces before fragments after) :
    Grows before after := by
  induction composed with
  | own run => exact grows_ownFragments.of_eq run
  | noting notes => exact notes.grows
  | append _ _ early late => exact early.trans late
  | derived _ declares _ inductionHypothesis =>
      have notes : Notes _ _ := notes_declare.of_eq declares
      exact notes.grows.trans inductionHypothesis

/-- Every fragment is one of a piece, which is expanded by itself on the way. -/
theorem Composed.exists_piece
    (composed : Composed rule pieces before fragments after) {fragment : Fragment}
    (member : fragment ∈ fragments) :
    ∃ piece ∈ pieces, fragment ∈ piece.own ∧ piece.own ⊆ fragments ∧
      piece.rule.ownFragments piece.before = (.ok piece.own, piece.after) ∧
      Grows before piece.before ∧ Grows piece.after after := by
  induction composed with
  | own run =>
      exact ⟨_, List.mem_singleton_self _, member, List.Subset.refl _, run, Grows.refl _,
        Grows.refl _⟩
  | noting _ => exact absurd member List.not_mem_nil
  | append first second early late =>
      rcases List.mem_append.1 member with isEarly | isLate
      · obtain ⟨piece, isPiece, inOwn, within, run, grown, growing⟩ := early isEarly
        exact ⟨piece, List.mem_append_left _ isPiece, inOwn,
          fun _ inPiece => List.mem_append_left _ (within inPiece), run, grown,
          growing.trans second.grows⟩
      · obtain ⟨piece, isPiece, inOwn, within, run, grown, growing⟩ := late isLate
        exact ⟨piece, List.mem_append_right _ isPiece, inOwn,
          fun _ inPiece => List.mem_append_right _ (within inPiece), run,
          first.grows.trans grown, growing⟩
  | derived _ declares _ inductionHypothesis =>
      obtain ⟨piece, isPiece, inOwn, within, run, grown, growing⟩ := inductionHypothesis member
      have notes : Notes _ _ := notes_declare.of_eq declares
      exact ⟨piece, isPiece, inOwn, within, run, notes.grows.trans grown, growing⟩

/-! ## Steps -/

section Steps

variable {expand : Rule → Run (List Fragment)}

theorem composes_nil : Composes rule (pure []) := by
  intro before after fragments run
  obtain ⟨rfl, rfl⟩ := pure_eq_ok.1 run
  exact ⟨[], Composed.noting (Notes.refl _)⟩

theorem composes_report {location : String} {cause : Cause} :
    Composes rule (report location cause) :=
  fun _ _ _ run => (report_eq_ok.1 run).elim

theorem Composes.onward
    {α : Type} {step : Run α} {rest : α → Run (List Fragment)}
    (notes : Moves Notes step) (composes : ∀ a, Composes rule (rest a)) :
    Composes rule (step >>= rest) := by
  intro before after fragments run
  obtain ⟨a, middle, stepRun, run⟩ := bind_eq_ok.1 run
  obtain ⟨pieces, composed⟩ := composes a _ _ _ run
  exact ⟨[] ++ pieces, Composed.append (Composed.noting (notes.of_eq stepRun)) composed⟩

theorem Composes.append
    {first second : Run (List Fragment)}
    (composes : Composes rule first) (others : Composes rule second) :
    Composes rule (do return (← first) ++ (← second)) := by
  intro before after fragments run
  simp only [bind_eq_ok, pure_eq_ok] at run
  obtain ⟨early, middle, firstRun, late, _, secondRun, rfl, rfl⟩ := run
  obtain ⟨earlyPieces, isEarly⟩ := composes _ _ _ firstRun
  obtain ⟨latePieces, isLate⟩ := others _ _ _ secondRun
  exact ⟨_, Composed.append isEarly isLate⟩

theorem composes_derive
    (expanding : ∀ rule, Composes rule (expand rule)) {source : Record} {derivation : Derivation} :
    Composes rule (derive expand rule source derivation) := by
  intro before after fragments run
  obtain ⟨kind, other, middle, isKind, declares, expands⟩ := derive_eq_ok run
  obtain ⟨pieces, composed⟩ := expanding other _ _ _ expands
  exact ⟨pieces, Composed.derived isKind declares composed⟩

/-! ## What filter rules derive -/

theorem composes_updateFragments (expanding : ∀ rule, Composes rule (expand rule)) :
    Composes rule (updateFragments expand rule) := by
  unfold updateFragments
  extract_lets given mapping
  split
  · exact composes_nil
  · split
    · exact composes_report
    · exact composes_derive expanding

theorem composes_dnatFragments (expanding : ∀ rule, Composes rule (expand rule)) :
    Composes rule (dnatFragments expand rule) := by
  unfold dnatFragments
  extract_lets derived unset tracked
  have derivedComposes : ∀ u, Composes rule (derived u) := fun u =>
    Composes.onward notes_dnatAddress fun _ => Composes.onward notes_recording fun _ =>
      Composes.onward notes_sectionKind fun _ => composes_derive expanding
  have unsetComposes : ∀ u, Composes rule (unset u) := by
    intro u
    unfold unset
    split
    · exact Composes.onward notes_report derivedComposes
    · exact derivedComposes ()
  have trackedComposes : ∀ u, Composes rule (tracked u) := by
    intro u
    unfold tracked
    split
    · exact Composes.onward notes_report unsetComposes
    · exact unsetComposes ()
  split
  · exact composes_nil
  · split
    · exact Composes.onward notes_report trackedComposes
    · exact trackedComposes ()

theorem composes_untrackedFragments (expanding : ∀ rule, Composes rule (expand rule)) :
    Composes rule (untrackedFragments expand rule) := by
  unfold untrackedFragments
  split
  · exact Composes.onward notes_sectionKind fun _ => composes_derive expanding
  · exact composes_nil

theorem composes_finalFragments (expanding : ∀ rule, Composes rule (expand rule)) :
    Composes rule (finalFragments expand rule) := by
  refine Composes.onward notes_recording fun limitName => ?_
  split
  · exact composes_derive expanding
  · exact composes_nil

theorem composes_listedRelated
    (expanding : ∀ rule, Composes rule (expand rule)) {index : Nat} {items : List Value} :
    Composes rule (listedRelated expand rule index items) := by
  induction items generalizing index with
  | nil => exact composes_nil
  | cons item rest inductionHypothesis =>
      have derived : ∀ source, Composes rule (do
          let first ← derive expand rule source
            { label := "related " ++ toString index, kind := .rule .related,
              changes := [("service", rule.attributes.get "service")] }
          return first ++ (← listedRelated expand rule (index + 1) rest)) := fun source =>
        (composes_derive expanding).append inductionHypothesis
      unfold listedRelated
      split
      · exact Composes.onward (moves_pure _) derived
      · exact Composes.onward notes_lift derived

theorem composes_relatedFragments (expanding : ∀ rule, Composes rule (expand rule)) :
    Composes rule (relatedFragments expand rule) := by
  unfold relatedFragments
  extract_lets listed
  split
  · exact (composes_derive expanding).append (composes_derive expanding)
  · exact composes_listedRelated expanding

theorem composes_replyFragments
    (expanding : ∀ rule, Composes rule (expand rule)) {related : List Fragment} :
    Composes rule (replyFragments expand rule related) := by
  unfold replyFragments
  extract_lets derived
  have reversed : ∀ label name, Composes rule (do
      derive expand rule rule.attributes
        { label, kind := ← rule.sectionKind name, changes := [("reverse", .bool true)] }) :=
    fun _ _ => Composes.onward notes_sectionKind fun _ => composes_derive expanding
  have derivedComposes : ∀ u, Composes rule (derived u) := by
    intro u before after fragments run
    simp only [derived, bind_eq_ok, pure_eq_ok] at run
    obtain ⟨untrackedKind, c₁, knows, untracked, c₂, untracks, kind, c₃, knowsKind, reply, c₄,
      replies, rfl, rfl⟩ := run
    obtain ⟨_, early⟩ := reversed _ _ _ _ _ (bind_eq_ok.2 ⟨_, _, knows, untracks⟩)
    obtain ⟨_, late⟩ := reversed _ _ _ _ _ (bind_eq_ok.2 ⟨_, _, knowsKind, replies⟩)
    exact ⟨_, early.append late⟩
  split
  · exact composes_nil
  · split
    · exact Composes.onward notes_report derivedComposes
    · exact derivedComposes ()

theorem composes_followingFragments (expanding : ∀ rule, Composes rule (expand rule)) :
    Composes rule (followingFragments expand rule) := by
  intro before after fragments run
  obtain ⟨redirected, c₁, redirects, run⟩ := bind_eq_ok.1 run
  obtain ⟨untracked, c₂, untracks, run⟩ := bind_eq_ok.1 run
  obtain ⟨_, isRedirected⟩ := composes_dnatFragments expanding _ _ _ redirects
  obtain ⟨_, isUntracked⟩ := composes_untrackedFragments expanding _ _ _ untracks
  have early := isRedirected.append isUntracked
  split at run
  · simp only [bind_eq_ok, pure_eq_ok] at run
    obtain ⟨final, c₃, finals, related, c₄, relates, reply, c₅, replies, rfl, rfl⟩ := run
    obtain ⟨_, isFinal⟩ := composes_finalFragments expanding _ _ _ finals
    obtain ⟨_, isRelated⟩ := composes_relatedFragments expanding _ _ _ relates
    obtain ⟨_, isReply⟩ := composes_replyFragments expanding _ _ _ replies
    exact ⟨_, ((early.append isFinal).append isRelated).append isReply⟩
  · obtain ⟨rfl, rfl⟩ := pure_eq_ok.1 run
    exact ⟨_, early⟩

end Steps

/-! ## Expansions -/

/-- The induction is on how deep derived rules are nested. -/
theorem composes_expandTo (depth : Nat) (rule : Rule) : Composes rule (expandTo depth rule) := by
  induction depth generalizing rule with
  | zero => exact fun _ _ _ run => (unusable_eq_ok.1 run).elim
  | succ depth inductionHypothesis =>
      intro before after fragments run
      change fragmentsWith (expandTo depth) rule before = _ at run
      unfold fragmentsWith at run
      split at run
      · simp only [bind_eq_ok, pure_eq_ok] at run
        obtain ⟨update, c₁, updates, own, c₂, owns, following, c₃, follows, rfl, rfl⟩ := run
        obtain ⟨_, first⟩ := composes_updateFragments inductionHypothesis _ _ _ updates
        obtain ⟨_, last⟩ := composes_followingFragments inductionHypothesis _ _ _ follows
        exact ⟨_, (first.append (Composed.own owns)).append last⟩
      · exact ⟨_, Composed.own run⟩

/-- The fragments of a rule with all that it brings with it are composed of pieces. -/
theorem exists_composed (run : rule.fragments before = (.ok fragments, after)) :
    ∃ pieces, Composed rule pieces before fragments after :=
  composes_expandTo 4 rule _ _ _ run

/-! ## Raw packets -/

theorem eq_noTrack_of_table
    {kind : RuleKind} (inRaw : kind.table = "raw") : kind = .noTrack := by
  cases kind <;> first | rfl | simp [RuleKind.table] at inRaw

/-- What a rule leaves in the table of raw packets exempts them from connection tracking, and does not
go to the front. -/
theorem exempts_of_raw
    (run : rule.fragments before = (.ok fragments, after)) {fragment : Fragment}
    (member : fragment ∈ fragments) (inRaw : fragment.table = some "raw") :
    fragment.target = some "CT --notrack" ∧ fragment.position ≠ some "prepend" := by
  obtain ⟨pieces, composed⟩ := exists_composed run
  obtain ⟨piece, -, inOwn, -, owns, -, -⟩ := composed.exists_piece member
  have isKind : piece.rule.kind = .noTrack := by
    have inTable := table_of_mem_ownFragments owns inOwn
    rw [inRaw] at inTable
    exact eq_noTrack_of_table (Option.some.inj inTable).symm
  have placed : AllPlaced piece.after (fun _ => True) (piece.rule.position = .ok "prepend")
      piece.own :=
    allPlaced_ownFragments (fun _ => trivial) owns
  constructor
  · obtain ⟨matched, middle, finished, -, finishes, isOwn⟩ := ownFragments_eq_ok owns
    rw [isOwn] at inOwn
    obtain ⟨part, isPart, extends_⟩ :=
      Fragment.exists_extends_of_mem_combine inOwn (List.mem_cons_self ..)
    refine extends_.target _ ?_
    have isTarget : piece.rule.target = .ok (some "CT --notrack") := by
      unfold target
      rw [isKind]
    simp only [finish, isKind, attachTarget, bind_eq_ok, recording_eq_ok, isTarget] at finishes
    obtain ⟨_, _, ⟨⟨⟩, rfl⟩, finishes⟩ := finishes
    obtain ⟨rfl, -⟩ := pure_eq_ok.1 finishes
    obtain ⟨goal, isGoal, bounds⟩ := Fragment.exists_extends_of_mem_combine isPart
      (List.mem_cons_of_mem _ (List.mem_cons_self ..))
    rw [List.mem_singleton.1 isGoal] at bounds
    exact bounds.target _ rfl
  · intro stated
    have isFront := (placed fragment inOwn).position stated
    have isFilter := (position_eq_prepend_iff.1 isFront).1
    rw [isKind] at isFilter
    cases isFilter

end Rule

end FirewallPolicy
