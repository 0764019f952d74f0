import FirewallPolicy.Proofs.Fragment.Narrowing
import FirewallPolicy.Proofs.Insertion.Lookups

/-!
# Insertions for some families

A rule goes into a chain of its own family, and what it jumps to is looked up in that family.  So
the chains of the kept families come out the same when the rules of the other families are left out.
-/

namespace FirewallPolicy

variable {keep : String → Bool}

/-! ## Trees of some families -/

/-- Is the place in a kept family? -/
def Place.isKept (keep : String → Bool) (place : Place) : Bool :=
  keep place.family

namespace RuleTree

/-- The chains of the kept families. -/
def narrow (keep : String → Bool) (tree : RuleTree) : RuleTree :=
  ⟨tree.chains.filter fun chain => chain.1.isKept keep⟩

theorem narrow_all (tree : RuleTree) : tree.narrow (fun _ => true) = tree :=
  congrArg RuleTree.mk (List.filter_true _)

theorem isOpen_narrow {place : Place} (kept : place.isKept keep = true) (tree : RuleTree) :
    (tree.narrow keep).isOpen place = tree.isOpen place := by
  rw [Bool.eq_iff_iff]
  simp only [isOpen, narrow, List.any_eq_true, List.mem_filter, beq_iff_eq]
  constructor
  · rintro ⟨chain, ⟨member, -⟩, same⟩
    exact ⟨chain, member, same⟩
  · rintro ⟨chain, member, rfl⟩
    exact ⟨chain, ⟨member, kept⟩, rfl⟩

theorem narrow_openChain (tree : RuleTree) (place : Place) :
    (tree.openChain place).narrow keep =
      if place.isKept keep then (tree.narrow keep).openChain place else tree.narrow keep := by
  have appended : narrow keep ⟨tree.chains ++ [(place, [])]⟩ =
      if place.isKept keep then ⟨(tree.narrow keep).chains ++ [(place, [])]⟩
      else tree.narrow keep := by
    unfold narrow
    rw [List.filter_append]
    cases kept : place.isKept keep <;> simp [kept]
  cases kept : place.isKept keep with
  | true =>
      unfold openChain
      rw [isOpen_narrow kept]
      split
      · rfl
      · rw [appended, kept]
  | false =>
      unfold openChain
      split
      · rfl
      · rw [appended, kept]
        rfl

theorem narrow_update (tree : RuleTree) (place : Place) (change : List RuleLine → List RuleLine) :
    (tree.update place change).narrow keep =
      if place.isKept keep then (tree.narrow keep).update place change else tree.narrow keep := by
  have commutes : (tree.update place change).narrow keep = (tree.narrow keep).update place change := by
    simp only [narrow, update, List.filter_map]
    refine congrArg (fun chains => RuleTree.mk (List.map _ chains)) (List.filter_congr fun chain _ => ?_)
    simp only [Function.comp_apply]
    split <;> rfl
  rw [commutes]
  split
  · rfl
  · next strange =>
      -- No chain of the other families is left that could change.
      simp only [narrow, update, RuleTree.mk.injEq]
      refine (List.map_congr_left fun chain member => ?_).trans (List.map_id _)
      refine if_neg ?_
      rintro rfl
      exact strange (List.mem_filter.1 member).2

end RuleTree

namespace Assembly

/-! ## Assemblies of some families -/

/-- The second assembly holds what the first one holds for the kept families. -/
structure Narrows (keep : String → Bool) (whole part : Assembly) : Prop where
  tree : part.tree = whole.tree.narrow keep
  expanded : part.expanded = whole.expanded.filter (Place.isKept keep)

variable {whole part : Assembly}

section Steps

variable {place : Place}

namespace Narrows

theorem reach (narrows : Narrows keep whole part) (kept : place.isKept keep = true)
    (rule : ChainRule) : Narrows keep (whole.reach rule place) (part.reach rule place) where
  tree := by
    unfold Assembly.reach
    rw [RuleTree.narrow_openChain, if_pos kept, narrows.tree]
  expanded := narrows.expanded

theorem reach_strange (narrows : Narrows keep whole part) (strange : place.isKept keep = false)
    (rule : ChainRule) : Narrows keep (whole.reach rule place) part where
  tree := by
    unfold Assembly.reach
    rw [RuleTree.narrow_openChain, strange, narrows.tree]
    rfl
  expanded := narrows.expanded

theorem noteTarget (narrows : Narrows keep whole part) (kept : place.isKept keep = true) :
    Narrows keep (whole.noteTarget place) (part.noteTarget place) where
  tree := by
    unfold Assembly.noteTarget
    dsimp only
    split
    · rw [RuleTree.narrow_openChain, if_pos kept, narrows.tree]
    · exact narrows.tree
  expanded := by
    unfold Assembly.noteTarget
    rw [List.filter_cons, if_pos kept, narrows.expanded]

theorem noteTarget_strange
    (narrows : Narrows keep whole part) (strange : place.isKept keep = false) :
    Narrows keep (whole.noteTarget place) part where
  tree := by
    unfold Assembly.noteTarget
    dsimp only
    split
    · rw [RuleTree.narrow_openChain, strange, narrows.tree]
      rfl
    · exact narrows.tree
  expanded := by
    unfold Assembly.noteTarget
    rw [List.filter_cons, strange, narrows.expanded]
    rfl

theorem placed (narrows : Narrows keep whole part) (kept : place.isKept keep = true)
    (rule : ChainRule) (front : Nat) :
    Narrows keep (whole.place rule place front) (part.place rule place front) where
  tree := by
    unfold Assembly.place
    dsimp only
    split
    · unfold RuleTree.insertAt
      rw [RuleTree.narrow_update, if_pos kept, narrows.tree]
    · unfold RuleTree.append
      rw [RuleTree.narrow_update, if_pos kept, narrows.tree]
  expanded := narrows.expanded

theorem placed_strange
    (narrows : Narrows keep whole part) (strange : place.isKept keep = false)
    (rule : ChainRule) (front : Nat) :
    Narrows keep (whole.place rule place front) part where
  tree := by
    unfold Assembly.place
    dsimp only
    split
    · unfold RuleTree.insertAt
      rw [RuleTree.narrow_update, strange, narrows.tree]
      rfl
    · unfold RuleTree.append
      rw [RuleTree.narrow_update, strange, narrows.tree]
      rfl
  expanded := narrows.expanded

/-- What was looked up in a kept family is known to both assemblies. -/
theorem newTarget? (narrows : Narrows keep whole part) (kept : place.isKept keep = true)
    (rule : Fragment) : part.newTarget? rule place = whole.newTarget? rule place := by
  have known (target : String) : part.expanded.contains { place with chain := target } =
      whole.expanded.contains { place with chain := target } := by
    rw [narrows.expanded, Bool.eq_iff_iff, List.contains_iff_mem, List.contains_iff_mem,
      List.mem_filter]
    exact and_iff_left kept
  unfold Assembly.newTarget?
  simp only [known]

end Narrows

end Steps

/-! ## Tasks for some families -/

/-- The task leaves assemblies that narrow one another, with the rules and jumps of the other
families left out in the second one. -/
def Task.NarrowsTo (keep : String → Bool) (other : ChainSource) (part whole : Assembly) :
    Task → Prop
  | .insert owner front rules =>
    ∃ lookups after,
      Performs other
        (.insert owner (front.filter (Place.isKept keep))
          (rules.filter fun rule => rule.fragment.isKept keep)) part lookups (.ok ()) after ∧
        Narrows keep whole after
  | .jump owner rule place =>
    if place.isKept keep then
      ∃ lookups after, Performs other (.jump owner rule place) part lookups (.ok ()) after ∧
        Narrows keep whole after
    else Narrows keep whole part

theorem isKept_of_place?
    {rule : ChainRule} {place : Place} (located : rule.fragment.place? = some place) :
    rule.fragment.isKept keep = place.isKept keep := by
  rw [Fragment.isKept, (Fragment.place?_eq_some_iff.1 located).1]
  rfl

theorem filter_nextFront
    {place : Place} (kept : place.isKept keep = true) (front : List Place) (rule : ChainRule) :
    (nextFront front rule place).filter (Place.isKept keep) =
      nextFront (front.filter (Place.isKept keep)) rule place := by
  unfold nextFront
  split
  · rw [List.filter_cons, if_pos kept]
  · rfl

theorem filter_nextFront_strange
    {place : Place} (strange : place.isKept keep = false) (front : List Place) (rule : ChainRule) :
    (nextFront front rule place).filter (Place.isKept keep) =
      front.filter (Place.isKept keep) := by
  unfold nextFront
  split
  · rw [List.filter_cons, strange, if_neg Bool.false_ne_true]
  · rfl

/-- The rules of a chain are all kept or all left out. -/
theorem filter_isKept_of_place
    {place : Place} {rules : List ChainRule}
    (inChain : ∀ rule ∈ rules, rule.fragment.place? = some place) :
    (rules.filter fun rule => rule.fragment.isKept keep) =
      if place.isKept keep then rules else [] := by
  have sameKept : ∀ rule ∈ rules, rule.fragment.isKept keep = place.isKept keep :=
    fun rule member => isKept_of_place? (inChain rule member)
  rw [List.filter_congr sameKept]
  cases place.isKept keep <;> simp

/-- Chains are found with the same rules wherever they are looked up. -/
def SameBodies (source other : ChainSource) : Prop :=
  ∀ owner place, other.body owner place = source.body owner place

/-- A task that succeeds does for the kept families what it does when the other ones are left out. -/
theorem Performs.narrowsTo
    {source other : ChainSource} (same : SameBodies source other) {task : Task}
    {before after : Assembly} {lookups : List Lookup}
    (performs : Performs source task before lookups (.ok ()) after)
    {part : Assembly} (narrows : Narrows keep before part) :
    task.NarrowsTo keep other part after := by
  generalize success : (Except.ok () : Except Failure Unit) = result at performs
  -- The steps are followed one by one: what a step does in a family that is left out leaves no
  -- trace in the second assembly.
  induction performs generalizing part with
  | done => exact ⟨[], part, .done, narrows⟩
  | unplaced _ => cases success
  | stopped _ _ _ => cases success
  | refused _ _ _ _ => cases success
  | missing _ _ => cases success
  | @placed owner front rule rest assembly filled after place lookups more result located _ usable _
      jumpHypothesis restHypothesis =>
      have sameKept : rule.fragment.isKept keep = place.isKept keep := isKept_of_place? located
      cases kept : place.isKept keep with
      | true =>
          have jumps := jumpHypothesis (narrows.reach kept rule) rfl
          simp only [Task.NarrowsTo, kept, if_true] at jumps
          obtain ⟨jumpLookups, partFilled, jump, filledNarrows⟩ := jumps
          obtain ⟨restLookups, partAfter, tail, afterNarrows⟩ :=
            restHypothesis (filledNarrows.placed kept rule (front.count place)) success
          refine ⟨jumpLookups ++ restLookups, partAfter, ?_, afterNarrows⟩
          rw [List.filter_cons, if_pos (sameKept.trans kept)]
          refine Performs.placed located jump usable ?_
          rw [List.count_filter kept]
          rwa [filter_nextFront kept] at tail
      | false =>
          have jumps := jumpHypothesis (narrows.reach_strange kept rule) rfl
          simp only [Task.NarrowsTo, kept, Bool.false_eq_true, if_false] at jumps
          obtain ⟨restLookups, partAfter, tail, afterNarrows⟩ :=
            restHypothesis (jumps.placed_strange kept rule (front.count place)) success
          refine ⟨restLookups, partAfter, ?_, afterNarrows⟩
          rw [List.filter_cons, sameKept, kept, if_neg Bool.false_ne_true]
          rwa [filter_nextFront_strange kept] at tail
  | @known owner rule place assembly old =>
      simp only [Task.NarrowsTo]
      split
      · next kept =>
          exact ⟨[], part, .known ((narrows.newTarget? kept _).trans old), narrows⟩
      · exact narrows
  | @brought owner target rule place assembly filled body lookups result fresh read _
      inductionHypothesis =>
      have keptBody : (body.filter fun inside => inside.fragment.isKept keep) =
          if (place.withChain target).isKept keep then body else [] :=
        filter_isKept_of_place (ChainSource.bodyAt_of_body_eq_ok read).place
      simp only [Task.NarrowsTo] at inductionHypothesis ⊢
      split
      · next kept =>
          have noted : Narrows keep (assembly.noteTarget (place.withChain target))
              (part.noteTarget (place.withChain target)) := narrows.noteTarget kept
          obtain ⟨inner, partFilled, inserts, filledNarrows⟩ :=
            inductionHypothesis noted success
          rw [keptBody, if_pos (show (place.withChain target).isKept keep = true from kept)]
            at inserts
          exact ⟨_, partFilled, .brought ((narrows.newTarget? kept _).trans fresh)
            ((same owner _).trans read) inserts, filledNarrows⟩
      · next strange =>
          rw [Bool.not_eq_true] at strange
          have noted : Narrows keep (assembly.noteTarget (place.withChain target)) part :=
            narrows.noteTarget_strange strange
          obtain ⟨inner, partFilled, inserts, filledNarrows⟩ := inductionHypothesis noted success
          rw [keptBody, show (place.withChain target).isKept keep = false from strange,
            if_neg Bool.false_ne_true] at inserts
          cases inserts
          exact filledNarrows

/-- Where fragments are inserted successfully, so are those of the kept families among them, and the
chains of these families come out the same. -/
theorem insert_narrow
    {source other : ChainSource} (same : SameBodies source other) {owner : String}
    {fragments : List Fragment} {before after : Assembly} (narrows : Narrows keep before part)
    (run : insert source owner fragments before = (.ok (), after)) :
    ∃ partAfter, insert other owner (Fragment.narrow keep fragments) part = (.ok (), partAfter) ∧
      Narrows keep after partAfter := by
  obtain ⟨lookups, performs⟩ := endsWith_insert source owner fragments before
  rw [run] at performs
  obtain ⟨partLookups, partAfter, partPerforms, afterNarrows⟩ := performs.narrowsTo same narrows
  obtain ⟨others, ends⟩ := endsWith_insert other owner (Fragment.narrow keep fragments) part
  have sameRules : ((Fragment.narrow keep fragments).map fun fragment =>
      ({ fragment } : ChainRule)) =
      (fragments.map fun fragment => ({ fragment } : ChainRule)).filter fun rule =>
        rule.fragment.isKept keep := by
    rw [List.filter_map]
    rfl
  rw [sameRules] at ends
  obtain ⟨-, isOk, isAfter⟩ := partPerforms.unique ends
  exact ⟨partAfter, Prod.ext isOk isAfter, afterNarrows⟩

end Assembly

end FirewallPolicy
