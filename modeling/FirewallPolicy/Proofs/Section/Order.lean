import FirewallPolicy.Proofs.Text.Order
import FirewallPolicy.Section.Order
import Mathlib.Data.List.Chain
import Mathlib.Data.List.Nodup
import Mathlib.Data.List.Pairwise
import Mathlib.Data.List.Sort
import Mathlib.Logic.Relation

/-!
# Orders and contradictions

Names are visited depth first.  The names that are done always form an order of their own: each one
comes after all that it requires.  The names whose visit is open form a path on which each one
requires the next, so a name that is met again while its visit is open closes a cycle.
Ordering sections therefore ends with an order that agrees with all directives or with a cycle of
requirements, and with a cycle exactly when the directives are contradictory.
-/

namespace FirewallPolicy

namespace Order

/-! ## What directives ask for -/

/-- The names of the known sections. -/
def knownNames (directives : List Directive) : List String :=
  directives.map (·.name)

/-- A directive between known sections asks that `later` comes after `earlier`. -/
def Follows (directives : List Directive) (later earlier : String) : Prop :=
  later ∈ knownNames directives ∧ earlier ∈ knownNames directives ∧
    ∃ directive ∈ directives,
      (directive.name = later ∧ earlier ∈ directive.after) ∨
        (directive.name = earlier ∧ later ∈ directive.before)

/-- The directives between known sections ask that a section comes after itself. -/
def Contradictory (directives : List Directive) : Prop :=
  ∃ name, Relation.TransGen (Follows directives) name name

/-- One name stands before another one in a list. -/
def StandsBefore (order : List String) (first second : String) : Prop :=
  ∃ early late, order = early ++ second :: late ∧ first ∈ early

/-- The list holds every known section once and agrees with all directives between known
sections. -/
structure IsOrder (directives : List Directive) (order : List String) : Prop where
  distinct : order.Nodup
  complete : ∀ name, name ∈ order ↔ name ∈ knownNames directives
  before : ∀ directive ∈ directives, ∀ other ∈ directive.before,
    other ∈ knownNames directives → StandsBefore order directive.name other
  after : ∀ directive ∈ directives, ∀ other ∈ directive.after,
    other ∈ knownNames directives → StandsBefore order other directive.name

/-- The list leads from a name back to the same name, has no other repetition, and relates each
name to the next one. -/
structure IsCycle (relation : String → String → Prop) (cycle : List String) : Prop where
  closes : ∃ name inner, cycle = name :: inner ++ [name] ∧ (name :: inner).Nodup
  chain : cycle.IsChain relation

/-! ## Visits -/

section Visits

variable (predecessors : String → List String)

/-- A known name requires another one. -/
def Requires (known : List String) (later earlier : String) : Prop :=
  later ∈ known ∧ earlier ∈ predecessors later

/-- Each name of the list comes after all that it requires. -/
def Settled (order : List String) : Prop :=
  ∀ early name late, order = early ++ name :: late → predecessors name ⊆ early

/-- The state of a visit: open names are neither free nor done and lead from one to the next, and
done names are settled. -/
structure Visiting (known free path order : List String) : Prop where
  freeDistinct : free.Nodup
  pathDistinct : path.Nodup
  orderDistinct : order.Nodup
  notFree : ∀ name ∈ path, name ∉ free
  notDone : ∀ name ∈ path, name ∉ order
  covered : ∀ name ∈ known, name ∈ free ∨ name ∈ path ∨ name ∈ order
  orderKnown : order ⊆ known
  settled : Settled predecessors order
  chain : path.IsChain (Requires predecessors known)

/-- The names are known, and the last open name requires all of them. -/
structure Due (known path names : List String) : Prop where
  areKnown : names ⊆ known
  required : ∀ last ∈ path.getLast?, ∀ name ∈ names, Requires predecessors known last name

/-- The names are done as well, and no open name is. -/
structure Visited (known path order names result : List String) : Prop where
  distinct : result.Nodup
  settled : Settled predecessors result
  known : result ⊆ known
  grown : order ⊆ result
  done : names ⊆ result
  notDone : ∀ name ∈ path, name ∉ result

variable {predecessors} {known free path order names : List String} {name : String}

theorem Settled.concat
    (settled : Settled predecessors order) (required : predecessors name ⊆ order) :
    Settled predecessors (order ++ [name]) := by
  intro early other late same
  rcases late.eq_nil_or_concat' with rfl | ⟨rest, last, rfl⟩
  · obtain ⟨rfl, sameName⟩ := List.append_inj' same rfl
    obtain rfl : name = other := by simpa using sameName
    exact required
  · rw [← List.cons_append, ← List.append_assoc] at same
    exact settled early other rest (List.append_inj' same rfl).1

/-- Before the first visit all names are free. -/
theorem visiting_start (distinct : known.Nodup) :
    Visiting predecessors known known [] [] where
  freeDistinct := distinct
  pathDistinct := List.nodup_nil
  orderDistinct := List.nodup_nil
  notFree := fun _ member => absurd member List.not_mem_nil
  notDone := fun _ member => absurd member List.not_mem_nil
  covered := fun _ member => Or.inl member
  orderKnown := List.nil_subset _
  settled := fun early name late same => by simp at same
  chain := List.isChain_nil

/-- Opening the visit of a free name. -/
theorem Visiting.enter
    (visiting : Visiting predecessors known free path order)
    (required : ∀ last ∈ path.getLast?, Requires predecessors known last name)
    (undone : name ∉ order) (isFree : name ∈ free) :
    Visiting predecessors known (free.erase name) (path ++ [name]) order where
  freeDistinct := visiting.freeDistinct.erase name
  pathDistinct := by
    refine List.nodup_append.2 ⟨visiting.pathDistinct, List.nodup_singleton name, ?_⟩
    rintro other isOpen _ same rfl
    obtain rfl := List.mem_singleton.1 same
    exact visiting.notFree other isOpen isFree
  orderDistinct := visiting.orderDistinct
  notFree := by
    intro other member stillFree
    rcases List.mem_append.1 member with isOpen | isName
    · exact visiting.notFree other isOpen (List.mem_of_mem_erase stillFree)
    · obtain rfl := List.mem_singleton.1 isName
      exact visiting.freeDistinct.not_mem_erase stillFree
  notDone := by
    intro other member
    rcases List.mem_append.1 member with isOpen | isName
    · exact visiting.notDone other isOpen
    · exact List.mem_singleton.1 isName ▸ undone
  covered := by
    intro other isKnown
    by_cases same : other = name
    · exact Or.inr (Or.inl (by simp [same]))
    · rcases visiting.covered other isKnown with free | isOpen | done
      · exact Or.inl ((List.mem_erase_of_ne same).2 free)
      · exact Or.inr (Or.inl (List.mem_append_left _ isOpen))
      · exact Or.inr (Or.inr done)
  orderKnown := visiting.orderKnown
  settled := visiting.settled
  chain := by
    refine List.isChain_append.2 ⟨visiting.chain, List.isChain_singleton _, ?_⟩
    intro last isLast first isFirst
    obtain rfl : name = first := by simpa using isFirst
    exact required last isLast

/-- Closing the visit of a name whose requirements are done. -/
theorem Visiting.leave
    {inner : List String}
    (visiting : Visiting predecessors known free path order) (isFree : name ∈ free)
    (isKnown : name ∈ known)
    (visited : Visited predecessors known (path ++ [name]) order (predecessors name) inner) :
    Visiting predecessors known free path (inner ++ [name]) where
  freeDistinct := visiting.freeDistinct
  pathDistinct := visiting.pathDistinct
  orderDistinct := by
    refine List.nodup_append.2 ⟨visited.distinct, List.nodup_singleton name, ?_⟩
    rintro other done _ same rfl
    obtain rfl := List.mem_singleton.1 same
    exact visited.notDone other (by simp) done
  notFree := visiting.notFree
  notDone := by
    intro other isOpen member
    rcases List.mem_append.1 member with done | same
    · exact visited.notDone other (List.mem_append_left _ isOpen) done
    · obtain rfl := List.mem_singleton.1 same
      exact visiting.notFree other isOpen isFree
  covered other isKnown := by
    rcases visiting.covered other isKnown with free | isOpen | done
    · exact Or.inl free
    · exact Or.inr (Or.inl isOpen)
    · exact Or.inr (Or.inr (List.mem_append_left _ (visited.grown done)))
  orderKnown := by
    intro other member
    rcases List.mem_append.1 member with done | same
    · exact visited.known done
    · exact List.mem_singleton.1 same ▸ isKnown
  settled := visited.settled.concat visited.done
  chain := visiting.chain

theorem Due.tail
    {rest : List String} (due : Due predecessors known path (name :: rest)) :
    Due predecessors known path rest where
  areKnown := (List.cons_subset.1 due.areKnown).2
  required last isLast other member :=
    due.required last isLast other (List.mem_cons_of_mem _ member)

/-- What an opened name requires is due behind it. -/
theorem Due.inner
    (within : ∀ name ∈ known, predecessors name ⊆ known) (isKnown : name ∈ known) :
    Due predecessors known (path ++ [name]) (predecessors name) where
  areKnown := within name isKnown
  required := by
    intro last isLast other member
    obtain rfl : name = last := by simpa using isLast
    exact ⟨isKnown, member⟩

/-- The part of a path from a name on, closed by the same name, is a cycle. -/
theorem isCycle_cycleAt
    {relation : String → String → Prop}
    (distinct : path.Nodup) (chain : path.IsChain relation) (isOpen : name ∈ path)
    (closes : ∀ last ∈ path.getLast?, relation last name) :
    IsCycle relation (cycleAt path name) := by
  obtain ⟨early, late, rfl⟩ := List.append_of_mem isOpen
  have notEarly : name ∉ early := fun member =>
    (List.nodup_append.1 distinct).2.2 name member name (List.mem_cons_self ..) rfl
  have dropped : (early ++ name :: late).dropWhile (· != name) = name :: late := by
    have passed : ∀ other ∈ early, (other != name) = true := fun other member =>
      bne_iff_ne.2 (ne_of_mem_of_not_mem member notEarly)
    rw [List.dropWhile_append_of_pos passed, List.dropWhile_cons_of_neg (by simp)]
  have lasts : (early ++ name :: late).getLast? = (name :: late).getLast? :=
    List.getLast?_append_of_ne_nil early (List.cons_ne_nil name late)
  unfold cycleAt
  rw [dropped]
  constructor
  · exact ⟨name, late, rfl, distinct.of_append_right⟩
  · refine List.isChain_append.2 ⟨chain.right_of_append, List.isChain_singleton _, ?_⟩
    intro last isLast first isFirst
    obtain rfl : name = first := by simpa using isFirst
    exact closes last (lasts ▸ isLast)

/-- A visit ends with all names done or with a cycle.  The induction is on the visit. -/
theorem visited_or_isCycle
    (within : ∀ name ∈ known, predecessors name ⊆ known)
    (visiting : Visiting predecessors known free path order)
    (due : Due predecessors known path names) :
    match visit predecessors free path order names with
    | .ok result => Visited predecessors known path order names result
    | .error cycle => IsCycle (Requires predecessors known) cycle := by
  fun_induction visit predecessors free path order names with
  | case1 free path order =>
      exact {
        distinct := visiting.orderDistinct
        settled := visiting.settled
        known := visiting.orderKnown
        grown := List.Subset.refl _
        done := List.nil_subset _
        notDone := visiting.notDone }
  -- The name was done before.
  | case2 free path order name rest done inductionHypothesis =>
      have later := inductionHypothesis visiting due.tail
      split at later
      · exact { later with done := List.cons_subset.2 ⟨later.grown done, later.done⟩ }
      · exact later
  -- The name is opened, all that it requires gets done, and then the name is done itself.
  | case3 free path order name rest undone isFree inner innerRun innerHypothesis
      inductionHypothesis =>
      have isKnown : name ∈ known := due.areKnown (List.mem_cons_self ..)
      have entered := visiting.enter (fun last isLast =>
        due.required last isLast name (List.mem_cons_self ..)) undone isFree
      have visited := innerHypothesis entered (Due.inner within isKnown)
      rw [innerRun] at visited
      have later := inductionHypothesis (visiting.leave isFree isKnown visited) due.tail
      split at later
      · have grown : inner ++ [name] ⊆ _ := later.grown
        exact { later with
          grown := fun other member => grown (List.mem_append_left _ (visited.grown member))
          done := List.cons_subset.2 ⟨grown (by simp), later.done⟩ }
      · exact later
  | case4 free path order name rest undone isFree cycle innerRun innerHypothesis =>
      have isKnown : name ∈ known := due.areKnown (List.mem_cons_self ..)
      have entered := visiting.enter (fun last isLast =>
        due.required last isLast name (List.mem_cons_self ..)) undone isFree
      have found := innerHypothesis entered (Due.inner within isKnown)
      rwa [innerRun] at found
  -- The name is neither done nor free, so its visit is open and the path leads back to it.
  | case5 free path order name rest undone notFree =>
      have isKnown : name ∈ known := due.areKnown (List.mem_cons_self ..)
      have isOpen : name ∈ path := by
        rcases visiting.covered name isKnown with isFree | isOpen | done
        · exact absurd isFree notFree
        · exact isOpen
        · exact absurd done undone
      exact isCycle_cycleAt visiting.pathDistinct visiting.chain isOpen fun last isLast =>
        due.required last isLast name (List.mem_cons_self ..)

end Visits

/-! ## Orders of sections -/

variable {directives : List Directive} {order cycle : List String}

theorem StandsBefore.idxOf_lt
    {first second : String} (stands : StandsBefore order first second)
    (distinct : order.Nodup) :
    order.idxOf first < order.idxOf second := by
  obtain ⟨early, late, rfl, isEarly⟩ := stands
  have notEarly : second ∉ early := fun member =>
    (List.nodup_append.1 distinct).2.2 second member second (List.mem_cons_self ..) rfl
  rw [List.idxOf_append_of_mem isEarly, List.idxOf_append_of_notMem notEarly,
    List.idxOf_cons_self, Nat.add_zero]
  exact List.idxOf_lt_length_of_mem isEarly

/-- A section that follows another one stands behind it. -/
theorem IsOrder.standsBefore
    (isOrder : IsOrder directives order) {later earlier : String}
    (follows : Follows directives later earlier) :
    StandsBefore order earlier later := by
  obtain ⟨laterKnown, earlierKnown, directive, member, asked⟩ := follows
  rcases asked with ⟨rfl, isAfter⟩ | ⟨rfl, isBefore⟩
  · exact isOrder.after directive member earlier isAfter earlierKnown
  · exact isOrder.before directive member later isBefore laterKnown

/-- Directives that an order agrees with are not contradictory. -/
theorem IsOrder.not_contradictory
    (isOrder : IsOrder directives order) :
    ¬ Contradictory directives := by
  -- Along a chain of directives the positions in the order fall, so no chain is closed.
  have ascends : ∀ later earlier, Relation.TransGen (Follows directives) later earlier →
      order.idxOf earlier < order.idxOf later := by
    intro later earlier leads
    induction leads with
    | single follows => exact (isOrder.standsBefore follows).idxOf_lt isOrder.distinct
    | tail _ follows less =>
        exact Nat.lt_trans ((isOrder.standsBefore follows).idxOf_lt isOrder.distinct) less
  rintro ⟨name, leads⟩
  exact Nat.lt_irrefl _ (ascends name name leads)

/-- Directives with a cycle are contradictory. -/
theorem IsCycle.contradictory
    (isCycle : IsCycle (Follows directives) cycle) :
    Contradictory directives := by
  obtain ⟨⟨name, inner, rfl, _⟩, chain⟩ := isCycle
  have leads := (chain.imp fun _ _ => Relation.TransGen.single).pairwise
  rw [List.cons_append, List.pairwise_cons] at leads
  exact ⟨name, leads.1 name (by simp)⟩

theorem mem_required_iff
    {names : List String} {later earlier : String} :
    earlier ∈ required directives names later ↔
      earlier ∈ names ∧ ∃ directive ∈ directives,
        (directive.name = later ∧ earlier ∈ directive.after) ∨
          (directive.name = earlier ∧ later ∈ directive.before) := by
  simp [required, requires]

/-- What a known name requires are the known names that it follows. -/
theorem requires_required_iff {later earlier : String} :
    Requires (required directives (Text.sorted (knownNames directives)))
        (Text.sorted (knownNames directives)) later earlier ↔
      Follows directives later earlier := by
  simp only [Requires, Follows, mem_required_iff, Text.mem_sorted]

/-- Visited names form an order. -/
theorem isOrder_of_visited
    {predecessors : String → List String} {known : List String}
    (isKnown : ∀ name, name ∈ known ↔ name ∈ knownNames directives)
    (requires_iff : ∀ later earlier,
      Requires predecessors known later earlier ↔ Follows directives later earlier)
    (visited : Visited predecessors known [] [] known order) :
    IsOrder directives order := by
  have stands : ∀ later earlier, Follows directives later earlier →
      StandsBefore order earlier later := by
    intro later earlier follows
    obtain ⟨laterKnown, required⟩ := (requires_iff later earlier).2 follows
    obtain ⟨early, late, same⟩ := List.append_of_mem (visited.done laterKnown)
    exact ⟨early, late, same, visited.settled early later late same required⟩
  have nameKnown : ∀ directive ∈ directives, directive.name ∈ knownNames directives :=
    fun directive member => List.mem_map_of_mem member
  constructor
  · exact visited.distinct
  · exact fun name => ⟨fun member => (isKnown name).1 (visited.known member),
      fun member => visited.done ((isKnown name).2 member)⟩
  · exact fun directive member other isBefore otherKnown => stands other directive.name
      ⟨otherKnown, nameKnown directive member, directive, member, Or.inr ⟨rfl, isBefore⟩⟩
  · exact fun directive member other isAfter otherKnown => stands directive.name other
      ⟨nameKnown directive member, otherKnown, directive, member, Or.inl ⟨rfl, isAfter⟩⟩

/-- Whatever the sections, an order that is found has each of their names once and agrees with the
directives. -/
theorem isOrder_of_resolve
    (distinct : (knownNames directives).Nodup) (resolved : resolve directives = .ok order) :
    IsOrder directives order := by
  let known := Text.sorted (knownNames directives)
  have start : Visiting (required directives known) known known [] [] :=
    visiting_start ((List.mergeSort_perm ..).nodup_iff.2 distinct)
  have due : Due (required directives known) known [] known :=
    ⟨List.Subset.refl _, by simp⟩
  have within : ∀ name ∈ known, required directives known name ⊆ known :=
    fun _ _ => List.filter_subset_self _
  have visited := visited_or_isCycle within start due
  rw [show visit (required directives known) known [] [] known = .ok order from resolved] at visited
  exact isOrder_of_visited (fun _ => Text.mem_sorted) (fun _ _ => requires_required_iff) visited

/-- Sections with different names are put in an order that agrees with all directives between known
sections, or else a cycle of such directives is reported, which happens exactly when the directives
are contradictory. -/
theorem resolve_order_or_cycle
    (directives : List Directive) (distinct : (knownNames directives).Nodup) :
    match resolve directives with
    | .ok order => IsOrder directives order ∧ ¬ Contradictory directives
    | .error cycle => IsCycle (Follows directives) cycle ∧ Contradictory directives := by
  let known := Text.sorted (knownNames directives)
  have start : Visiting (required directives known) known known [] [] := {
    freeDistinct := (List.mergeSort_perm ..).nodup_iff.2 distinct
    pathDistinct := List.nodup_nil
    orderDistinct := List.nodup_nil
    notFree := fun _ member => absurd member List.not_mem_nil
    notDone := fun _ member => absurd member List.not_mem_nil
    covered := fun _ member => Or.inl member
    orderKnown := List.nil_subset _
    settled := fun early name late same => by simp at same
    chain := List.isChain_nil }
  have due : Due (required directives known) known [] known :=
    ⟨List.Subset.refl _, by simp⟩
  have within : ∀ name ∈ known, required directives known name ⊆ known :=
    fun _ _ => List.filter_subset_self _
  have ended : match resolve directives with
      | .ok order => Visited (required directives known) known [] [] known order
      | .error cycle => IsCycle (Requires (required directives known) known) cycle :=
    visited_or_isCycle within start due
  split
  · next order run =>
      rw [run] at ended
      have isOrder := isOrder_of_visited (fun _ => Text.mem_sorted)
        (fun _ _ => requires_required_iff) ended
      exact ⟨isOrder, isOrder.not_contradictory⟩
  · next cycle run =>
      rw [run] at ended
      have isCycle : IsCycle (Follows directives) cycle :=
        ⟨ended.closes, ended.chain.imp fun _ _ => requires_required_iff.1⟩
      exact ⟨isCycle, isCycle.contradictory⟩

/-- Three sections that ask to come after each other; one of them repeats itself and names a
section that is not known. -/
def circular : List Directive :=
  [⟨"b", ["x"], ["a", "a"]⟩, ⟨"a", [], ["c"]⟩, ⟨"c", ["a"], ["b"]⟩]

theorem resolve_circular :
    (knownNames circular).Nodup ∧ resolve circular = .error ["a", "c", "b", "a"] ∧
      IsCycle (Follows circular) ["a", "c", "b", "a"] ∧ Contradictory circular := by
  have distinct : (knownNames circular).Nodup := by decide
  have names : Text.sorted (circular.map (·.name)) = ["a", "b", "c"] :=
    Text.sorted_eq (by decide) (by decide)
  have forA : required circular ["a", "b", "c"] "a" = ["c"] := by decide
  have forC : required circular ["a", "b", "c"] "c" = ["b"] := by decide
  have forB : required circular ["a", "b", "c"] "b" = ["a"] := by decide
  have run : resolve circular = .error ["a", "c", "b", "a"] := by
    simp [resolve, names, visit, forA, forC, forB, cycleAt]
  have found := resolve_order_or_cycle circular distinct
  rw [run] at found
  exact ⟨distinct, run, found⟩

end Order

end FirewallPolicy
