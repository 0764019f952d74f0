import FirewallPolicy.Proofs.Rule.Parts
import FirewallPolicy.Proofs.Rule.Selected
import FirewallPolicy.Proofs.Rule.Tokens

/-!
# Lists of zones

A rule that lists zones matches what it would match with any part of the list: the fragments for a
list in two parts are those for the first part and those for the second one.  An empty list has no
such part, since it does not constrain the rule, as if no zones were named.  An empty list of
addresses or services lets a rule match nothing.
-/

namespace FirewallPolicy

open Stateful Run Context

namespace Rule

/-! ## Sides and pairs of sides -/

section Pairs

variable {rule joined one two : Rule} {pair : Option ZoneSelector × Option ZoneSelector}
  {side : Option ZoneSelector} {first second : List ZoneSelector}

theorem sides_append (firstListed : first ≠ []) (secondListed : second ≠ []) :
    sides (some (first ++ second)) = sides (some first) ++ sides (some second) := by
  obtain ⟨head, tail, rfl⟩ := List.exists_cons_of_ne_nil firstListed
  obtain ⟨next, rest, rfl⟩ := List.exists_cons_of_ne_nil secondListed
  simp [sides]

theorem mem_sidePairs_iff :
    pair ∈ rule.sidePairs ↔
      pair.1 ∈ sides (if rule.reverse then rule.zonesOut else rule.zonesIn) ∧
        pair.2 ∈ sides (if rule.reverse then rule.zonesIn else rule.zonesOut) := by
  obtain ⟨zoneIn, zoneOut⟩ := pair
  simp [sidePairs]

/-- The sides of one rule are those of two others, and the opposite sides of all three are the
same. -/
inductive Joins (joined one two : Rule) : Prop
  | entering :
      (∀ side, side ∈ sides joined.zonesIn ↔ side ∈ sides one.zonesIn ∨ side ∈ sides two.zonesIn) →
      one.zonesOut = joined.zonesOut → two.zonesOut = joined.zonesOut → Joins joined one two
  | leaving :
      (∀ side, side ∈ sides joined.zonesOut ↔
        side ∈ sides one.zonesOut ∨ side ∈ sides two.zonesOut) →
      one.zonesIn = joined.zonesIn → two.zonesIn = joined.zonesIn → Joins joined one two

theorem Joins.mem_sidePairs_iff
    (joins : Joins joined one two) (oneReverse : one.reverse = joined.reverse)
    (twoReverse : two.reverse = joined.reverse) :
    pair ∈ joined.sidePairs ↔ pair ∈ one.sidePairs ∨ pair ∈ two.sidePairs := by
  simp only [Rule.mem_sidePairs_iff, oneReverse, twoReverse]
  cases joined.reverse <;> cases joins with
  | entering members sameOne sameTwo =>
      simp [members, sameOne, sameTwo, or_and_right, and_or_left]
  | leaving members sameOne sameTwo =>
      simp [members, sameOne, sameTwo, or_and_right, and_or_left]

end Pairs

/-! ## Rules without addresses or services -/

section Unmatched

variable {rule : Rule} {directory : Directory} {given : Option (List Fragment)}
  {lists : List (Option (List Fragment))}

theorem combine_of_empty (isGiven : some [] ∈ lists) : Fragment.combine lists = [] := by
  refine List.eq_nil_iff_forall_not_mem.2 fun merged member => ?_
  obtain ⟨part, isPart, _⟩ := Fragment.exists_extends_of_mem_combine member isGiven
  exact List.not_mem_nil isPart

theorem addressFragments_of_empty
    {name : String} (isEmpty : rule.attributes.get name = .list []) (direction : Direction) :
    rule.addressFragments name direction = pure (some []) := by
  have stated : rule.attributes.has name = true := by simp [Record.has, isEmpty, Value.isNull]
  rw [addressFragments, if_pos stated, isEmpty]
  rfl

theorem namedServiceFragments_of_empty (unserved : rule.services = some []) :
    rule.namedServiceFragments = .ok (some []) := by
  unfold namedServiceFragments
  rw [unserved]
  rfl

theorem dnatServiceMatches_of_empty
    (unserved : rule.services = some []) (read : rule.dnatServiceMatches = .ok given) :
    given = some [] := by
  have named := namedServiceFragments_of_empty unserved
  cases changes : rule.attributes.flag "dnat" with
  | false =>
      rw [dnatServiceMatches_of_plain changes, named] at read
      exact (Except.ok.inj read).symm
  | true =>
      obtain ⟨_, port, isNamed, _, kept | ⟨_, protocols, shown, areProtocols, isShown, rfl⟩⟩ :=
        dnatServiceMatches_eq_ok changes read
      · obtain rfl := Except.ok.inj (named.symm.trans isNamed)
        exact kept.2
      · obtain rfl := Except.ok.inj (named.symm.trans isNamed)
        -- No service is named, so there is no protocol with a new port either.
        rw [unserved] at areProtocols
        obtain rfl : [] = protocols := Except.ok.inj areProtocols
        obtain rfl : [] = shown := Except.ok.inj isShown
        rw [combine_of_empty (List.mem_cons_self ..)]
        rfl

theorem serviceMatches_of_empty
    (unserved : rule.services = some []) (notPolicy : rule.kind ≠ .policy)
    (read : rule.serviceMatches = .ok given) :
    given = some [] := by
  unfold serviceMatches at read
  split at read
  · next isPolicy => exact absurd isPolicy notPolicy
  · have none : rule.definitions = .ok [] := by
      unfold definitions
      rw [unserved]
      rfl
    rw [none] at read
    exact (Except.ok.inj read).symm
  · obtain ⟨found, isFound, read⟩ := except_bind_eq_ok.1 read
    obtain rfl := dnatServiceMatches_of_empty unserved isFound
    split at read
    · rw [combine_of_empty (List.mem_cons_self ..)] at read
      exact (Except.ok.inj read).symm
    · exact (Except.ok.inj read).symm
  all_goals first
    | exact dnatServiceMatches_of_empty unserved read
    | exact (Except.ok.inj ((namedServiceFragments_of_empty unserved).symm.trans read)).symm

/-- A dimension without fragments leaves nothing that the rule matches. -/
theorem eq_nil_of_dimensions
    {before after : Context} {matched : List Fragment}
    (run : rule.dimensions before = (.ok matched, after))
    (empty : rule.attributes.get "src" = .list [] ∨
      (rule.attributes.get "dest" = .list [] ∧ rule.changesDestination = false) ∨
      (rule.services = some [] ∧ rule.kind ≠ .policy)) :
    matched = [] := by
  obtain ⟨parts, rfl⟩ := exists_parts rfl run
  refine combine_of_empty ?_
  rcases empty with source | ⟨destination, kept⟩ | ⟨unserved, notPolicy⟩
  · have sourcesRun := parts.sourcesRun
    rw [sourceFragments, addressFragments_of_empty source] at sourcesRun
    simp [Parts.lists, ← Except.ok.inj sourcesRun]
  · have destinationsRun := parts.destinationsRun
    rw [destinationFragments_of_plain kept, addressFragments_of_empty destination]
      at destinationsRun
    simp [Parts.lists, ← Except.ok.inj destinationsRun]
  · simp [Parts.lists, serviceMatches_of_empty unserved notPolicy parts.servicesRead]

end Unmatched

/-! ## Declared rules -/

/-- The rule is declared by the attributes with one of them set to a value. -/
def DeclaredWith (kind : RuleKind) (location : String) (attributes : Record) (start : Context)
    (name : String) (value : Value) (rule : Rule) : Prop :=
  ∃ finish, Rule.declare kind location
    (.raw (.map (Record.toEntries (attributes.set name value)))) start = (.ok rule, finish)

/-- The fragments for the zones of the rule, in a context. -/
def FindsZones (rule : Rule) (context : Context) (found : List Fragment) : Prop :=
  (rule.zoneFragments context).1 = .ok found

section Declared

variable {kind : RuleKind} {location name other : String} {attributes : Record}
  {start before : Context} {value : Value} {rule joined one two empty absent : Rule}
  {first second : List Value} {zones : SectionEntries}

theorem findsZones_iff {found : List Fragment} :
    rule.FindsZones before found ↔
      outcome before.hosts.directory rule.zoneFragments = .ok found := by
  rw [FindsZones, (determined_zoneFragments before).1]

theorem DeclaredWith.knows
    (declared : DeclaredWith kind location attributes start name value rule) :
    rule.Knows start :=
  declared.elim fun _ run => knows_of_declare run

theorem DeclaredWith.kind_eq
    (declared : DeclaredWith kind location attributes start name value rule) :
    rule.kind = kind := by
  obtain ⟨_, run⟩ := declared
  obtain ⟨_, _, settled⟩ := settledFrom_of_declare run
  exact settled.kind

theorem DeclaredWith.location_eq
    (declared : DeclaredWith kind location attributes start name value rule) :
    rule.location = location := by
  obtain ⟨_, run⟩ := declared
  obtain ⟨_, _, settled⟩ := settledFrom_of_declare run
  exact settled.location

theorem DeclaredWith.get_eq
    (declared : DeclaredWith kind location attributes start name value rule)
    (kept : other ∉ settledNames ++ limitNames) :
    rule.attributes.get other = (attributes.set name value).get other := by
  obtain ⟨_, run⟩ := declared
  obtain ⟨_, isMap, settled⟩ := settledFrom_of_declare run
  obtain rfl := Option.some.inj isMap
  rw [settled.keeps.get kept, recordOf_toEntries]

theorem DeclaredWith.get_self
    (declared : DeclaredWith kind location attributes start name value rule)
    (kept : name ∉ settledNames ++ limitNames) :
    rule.attributes.get name = value := by
  rw [declared.get_eq kept, Record.get_set_self]

/-- Rules that are declared with different values of one attribute have all others in common. -/
theorem DeclaredWith.get_congr
    {given : Value} (declared : DeclaredWith kind location attributes start name value rule)
    (again : DeclaredWith kind location attributes start name given one)
    (different : other ≠ name) (kept : other ∉ settledNames ++ limitNames) :
    one.attributes.get other = rule.attributes.get other := by
  rw [declared.get_eq kept, again.get_eq kept, Record.get_set_of_ne different,
    Record.get_set_of_ne different]

theorem selectZones_list_eq_ok
    {items : List Value} {selected : Option (List ZoneSelector)}
    (selects : selectZones location zones (.list items) = .ok selected) :
    ∃ list, items.mapM (selectZone location zones) = .ok list ∧ selected = some list := by
  obtain ⟨list, isList, same⟩ := except_bind_eq_ok.1 selects
  exact ⟨list, isList, (Except.ok.inj same).symm⟩

/-- The sides of a list in two parts are those of its parts. -/
theorem mem_sides_of_selectZones
    {joined one two : Option (List ZoneSelector)} {side : Option ZoneSelector}
    (firstListed : first ≠ []) (secondListed : second ≠ [])
    (selects : selectZones location zones (.list (first ++ second)) = .ok joined)
    (selectsFirst : selectZones location zones (.list first) = .ok one)
    (selectsSecond : selectZones location zones (.list second) = .ok two) :
    side ∈ sides joined ↔ side ∈ sides one ∨ side ∈ sides two := by
  obtain ⟨all, areAll, rfl⟩ := selectZones_list_eq_ok selects
  obtain ⟨left, isLeft, rfl⟩ := selectZones_list_eq_ok selectsFirst
  obtain ⟨right, isRight, rfl⟩ := selectZones_list_eq_ok selectsSecond
  rw [List.mapM_append, isLeft, isRight] at areAll
  obtain rfl : left ++ right = all := Except.ok.inj areAll
  have leftListed : left ≠ [] := by
    rintro rfl
    exact firstListed (List.forall₂_nil_right_iff.1 (forall₂_of_mapM_eq_ok isLeft))
  have rightListed : right ≠ [] := by
    rintro rfl
    exact secondListed (List.forall₂_nil_right_iff.1 (forall₂_of_mapM_eq_ok isRight))
  rw [sides_append leftListed rightListed, List.mem_append]

theorem joins_of_declaredWith
    (isSide : name ∈ ["in", "out"]) (firstListed : first ≠ []) (secondListed : second ≠ [])
    (isJoined : DeclaredWith kind location attributes start name (.list (first ++ second)) joined)
    (isOne : DeclaredWith kind location attributes start name (.list first) one)
    (isTwo : DeclaredWith kind location attributes start name (.list second) two) :
    Joins joined one two := by
  have sameOne := isOne.knows.selects_alike isJoined.knows
  have sameTwo := isTwo.knows.selects_alike isJoined.knows
  obtain ⟨joinedIn, joinedOut, _⟩ := isJoined.knows
  obtain ⟨oneIn, oneOut, _⟩ := isOne.knows
  obtain ⟨twoIn, twoOut, _⟩ := isTwo.knows
  rw [isJoined.location_eq] at joinedIn joinedOut
  rw [isOne.location_eq] at oneIn oneOut
  rw [isTwo.location_eq] at twoIn twoOut
  rcases List.mem_cons.1 isSide with rfl | isOut
  · rw [isJoined.get_self (by decide)] at joinedIn
    rw [isOne.get_self (by decide)] at oneIn
    rw [isTwo.get_self (by decide)] at twoIn
    exact Joins.entering
      (fun _ => mem_sides_of_selectZones firstListed secondListed joinedIn oneIn twoIn)
      (sameOne.2.1 (isOne.get_congr isJoined (by decide) (by decide))).symm
      (sameTwo.2.1 (isTwo.get_congr isJoined (by decide) (by decide))).symm
  · obtain rfl := List.mem_singleton.1 isOut
    rw [isJoined.get_self (by decide)] at joinedOut
    rw [isOne.get_self (by decide)] at oneOut
    rw [isTwo.get_self (by decide)] at twoOut
    exact Joins.leaving
      (fun _ => mem_sides_of_selectZones firstListed secondListed joinedOut oneOut twoOut)
      (sameOne.1 (isOne.get_congr isJoined (by decide) (by decide))).symm
      (sameTwo.1 (isTwo.get_congr isJoined (by decide) (by decide))).symm

theorem reverse_eq_of_declaredWith
    {given : Value} (isSide : name ∈ ["in", "out"])
    (declared : DeclaredWith kind location attributes start name value rule)
    (again : DeclaredWith kind location attributes start name given one) :
    one.reverse = rule.reverse := by
  have different : "reverse" ≠ name := by
    rintro rfl
    exact absurd isSide (by decide)
  unfold reverse Record.flag
  rw [declared.get_congr again different (by decide)]

/-- The fragments of a list in two parts are those of its parts. -/
theorem findsZones_of_joined
    (isSide : name ∈ ["in", "out"]) (firstListed : first ≠ []) (secondListed : second ≠ [])
    (isJoined : DeclaredWith kind location attributes start name (.list (first ++ second)) joined)
    (isOne : DeclaredWith kind location attributes start name (.list first) one)
    (isTwo : DeclaredWith kind location attributes start name (.list second) two)
    (before : Context) :
    ((∃ found, joined.FindsZones before found) ↔
        (∃ left, one.FindsZones before left) ∧ ∃ right, two.FindsZones before right) ∧
      ∀ found left right, joined.FindsZones before found → one.FindsZones before left →
        two.FindsZones before right →
          ∀ fragment, fragment ∈ found ↔ fragment ∈ left ∨ fragment ∈ right := by
  have joins := joins_of_declaredWith isSide firstListed secondListed isJoined isOne isTwo
  have members (pair : Option ZoneSelector × Option ZoneSelector) :
      pair ∈ joined.sidePairs ↔ pair ∈ one.sidePairs ∨ pair ∈ two.sidePairs :=
    joins.mem_sidePairs_iff (reverse_eq_of_declaredWith isSide isJoined isOne)
      (reverse_eq_of_declaredWith isSide isJoined isTwo)
  have oneKind : one.kind = joined.kind := isOne.kind_eq.trans isJoined.kind_eq.symm
  have twoKind : two.kind = joined.kind := isTwo.kind_eq.trans isJoined.kind_eq.symm
  constructor
  · simp only [findsZones_iff, exists_outcome_zoneFragments_iff, members, oneKind, twoKind,
      or_imp, forall_and]
  · intro found left right finds findsLeft findsRight fragment
    rw [mem_zoneFragments_iff (findsZones_iff.1 finds),
      mem_zoneFragments_iff (findsZones_iff.1 findsLeft),
      mem_zoneFragments_iff (findsZones_iff.1 findsRight)]
    simp only [members, oneKind, twoKind, or_and_right, exists_or]

/-- Without zones a list does not constrain a rule. -/
theorem zoneFragments_of_emptyList
    (isSide : name ∈ ["in", "out"])
    (isEmpty : DeclaredWith kind location attributes start name (.list []) empty)
    (isAbsent : DeclaredWith kind location attributes start name .null absent) :
    empty.zoneFragments = absent.zoneFragments := by
  have same := isAbsent.knows.selects_alike isEmpty.knows
  obtain ⟨emptyIn, emptyOut, _⟩ := isEmpty.knows
  obtain ⟨absentIn, absentOut, _⟩ := isAbsent.knows
  have sides_eq : sides empty.zonesIn = sides absent.zonesIn ∧
      sides empty.zonesOut = sides absent.zonesOut := by
    rcases List.mem_cons.1 isSide with rfl | isOut
    · rw [isEmpty.get_self (by decide)] at emptyIn
      rw [isAbsent.get_self (by decide)] at absentIn
      rw [same.2.1 (isAbsent.get_congr isEmpty (by decide) (by decide)),
        ← Except.ok.inj emptyIn, ← Except.ok.inj absentIn]
      exact ⟨rfl, rfl⟩
    · obtain rfl := List.mem_singleton.1 isOut
      rw [isEmpty.get_self (by decide)] at emptyOut
      rw [isAbsent.get_self (by decide)] at absentOut
      rw [same.1 (isAbsent.get_congr isEmpty (by decide) (by decide)),
        ← Except.ok.inj emptyOut, ← Except.ok.inj absentOut]
      exact ⟨rfl, rfl⟩
  have samePairs : empty.sidePairs = absent.sidePairs := by
    unfold sidePairs
    rw [reverse_eq_of_declaredWith isSide isAbsent isEmpty]
    cases absent.reverse <;> simp [sides_eq.1, sides_eq.2]
  unfold zoneFragments
  rw [samePairs, isEmpty.kind_eq, isAbsent.kind_eq]

theorem services_of_empty
    (isEmpty : DeclaredWith kind location attributes start "service" (.list []) empty) :
    empty.services = some [] := by
  obtain ⟨_, _, _, selects⟩ := isEmpty.knows.services
  rw [isEmpty.get_self (by decide)] at selects
  obtain ⟨found, _, isFound, same⟩ := bind_eq_ok.1 selects
  obtain ⟨rfl, -⟩ := pure_eq_ok.1 isFound
  exact (pure_eq_ok.1 same).1.symm

/-- Two lists of zones that are not empty stand together for the traffic of either one, on both
sides and in all chains.  A list without zones does not count, though: the rule then matches what it
matches if it names no zones.  A list without addresses or without services lets it match nothing,
as long as the destination is not changed and services count for the kind. -/
theorem zoneFragments_of_lists
    (kind : RuleKind) (location : String) (attributes : Record) (start before : Context) :
    (∀ name ∈ ["in", "out"], ∀ first second : List Value, first ≠ [] → second ≠ [] →
      ∀ joined one two : Rule,
        DeclaredWith kind location attributes start name (.list (first ++ second)) joined →
        DeclaredWith kind location attributes start name (.list first) one →
        DeclaredWith kind location attributes start name (.list second) two →
        ((∃ found, joined.FindsZones before found) ↔
            (∃ left, one.FindsZones before left) ∧ ∃ right, two.FindsZones before right) ∧
          ∀ found left right, joined.FindsZones before found → one.FindsZones before left →
            two.FindsZones before right →
              ∀ fragment, fragment ∈ found ↔ fragment ∈ left ∨ fragment ∈ right) ∧
    (∀ name ∈ ["in", "out"], ∀ empty absent : Rule,
      DeclaredWith kind location attributes start name (.list []) empty →
      DeclaredWith kind location attributes start name .null absent →
        empty.zoneFragments = absent.zoneFragments) ∧
    ∀ name ∈ ["src", "dest", "service"], ∀ empty : Rule,
      DeclaredWith kind location attributes start name (.list []) empty →
      (name = "dest" → empty.changesDestination = false) → (name = "service" → kind ≠ .policy) →
        ∀ matched, (empty.dimensions before).1 = .ok matched → matched = [] := by
  refine ⟨fun name isSide first second firstListed secondListed joined one two isJoined isOne
    isTwo => findsZones_of_joined isSide firstListed secondListed isJoined isOne isTwo before,
    fun name isSide empty absent isEmpty isAbsent =>
      zoneFragments_of_emptyList isSide isEmpty isAbsent,
    fun name isName empty isEmpty kept counts matched run => ?_⟩
  have finishes : empty.dimensions before = (.ok matched, (empty.dimensions before).2) :=
    Prod.ext run rfl
  refine eq_nil_of_dimensions finishes ?_
  simp only [List.mem_cons, List.not_mem_nil, or_false] at isName
  rcases isName with rfl | rfl | rfl
  · exact Or.inl (isEmpty.get_self (by decide))
  · exact Or.inr (Or.inl ⟨isEmpty.get_self (by decide), kept rfl⟩)
  · exact Or.inr (Or.inr ⟨services_of_empty isEmpty, isEmpty.kind_eq ▸ counts rfl⟩)

end Declared

/-- A rule that states nothing but the zones that traffic comes from. -/
def enteringRule (value : Value) (zones : Option (List ZoneSelector)) : Rule :=
  { kind := .plain, serial := 0, location := "rule 1", attributes := [("in", value)]
    zonesIn := zones, zonesOut := none, services := none }

/-- The selector of the zone with two interfaces. -/
def lanSelector : ZoneSelector :=
  .named (.text "lan") lanZone

theorem declaredWith_lanLists :
    DeclaredWith .plain "rule 1" [] lanContext "in" (.list [.text "_fw", .text "lan"])
        (enteringRule (.list [.text "_fw", .text "lan"]) (some [.firewall, lanSelector])) ∧
      DeclaredWith .plain "rule 1" [] lanContext "in" (.list [.text "_fw"])
        (enteringRule (.list [.text "_fw"]) (some [.firewall])) ∧
      DeclaredWith .plain "rule 1" [] lanContext "in" (.list [.text "lan"])
        (enteringRule (.list [.text "lan"]) (some [lanSelector])) ∧
      DeclaredWith .plain "rule 1" [] lanContext "in" (.list [])
        (enteringRule (.list []) (some [])) ∧
      DeclaredWith .plain "rule 1" [] lanContext "in" .null (enteringRule .null none) := by
  let finish : Context := { lanContext with nextSerial := 1 }
  refine ⟨⟨finish, ?_⟩, ⟨finish, ?_⟩, ⟨finish, ?_⟩, ⟨finish, ?_⟩, ⟨finish, ?_⟩⟩ <;>
    with_unfolding_all rfl

theorem findsZones_emptyList :
    (enteringRule (.list []) (some [])).FindsZones lanContext
      [.ofChain "FORWARD", .ofChain "INPUT", .ofChain "OUTPUT"] := by
  with_unfolding_all rfl

theorem findsZones_firewall :
    (enteringRule (.list [.text "_fw"]) (some [.firewall])).FindsZones lanContext
      [.ofChain "OUTPUT"] := by
  with_unfolding_all rfl

theorem findsZones_lan :
    (enteringRule (.list [.text "lan"]) (some [lanSelector])).FindsZones lanContext
      (["FORWARD", "INPUT"].flatMap fun chain => ["-i eth0", "-i eth1"].map fun token =>
        { chain := some chain, tokens := [token] }) := by
  with_unfolding_all rfl

theorem zoneFragments_of_lanLists :
    (∃ found, (enteringRule (.list [.text "_fw", .text "lan"])
        (some [.firewall, lanSelector])).FindsZones lanContext found ∧
      ∀ fragment, fragment ∈ found ↔ fragment ∈ [.ofChain "OUTPUT"] ∨
        fragment ∈ (["FORWARD", "INPUT"].flatMap fun chain =>
          ["-i eth0", "-i eth1"].map fun token =>
            ({ chain := some chain, tokens := [token] } : Fragment))) ∧
      (enteringRule (.list []) (some [])).zoneFragments =
        (enteringRule .null none).zoneFragments ∧
      ∀ matched, (({ enteringRule .null none with attributes := [("src", .list [])] } :
        Rule).dimensions lanContext).1 = .ok matched → matched = [] := by
  obtain ⟨isJoined, isFirewall, isLan, isEmpty, isAbsent⟩ := declaredWith_lanLists
  have isSourceless : DeclaredWith .plain "rule 1" [] lanContext "src" (.list [])
      { enteringRule .null none with attributes := [("src", .list [])] } :=
    ⟨_, by with_unfolding_all rfl⟩
  obtain ⟨union, unconstrained, unmatched⟩ :=
    zoneFragments_of_lists .plain "rule 1" [] lanContext lanContext
  obtain ⟨exists_iff, members⟩ := union "in" (by decide) [.text "_fw"] [.text "lan"]
    (List.cons_ne_nil _ _) (List.cons_ne_nil _ _) _ _ _ isJoined isFirewall isLan
  obtain ⟨found, finds⟩ := exists_iff.2 ⟨⟨_, findsZones_firewall⟩, _, findsZones_lan⟩
  exact ⟨⟨found, finds, members found _ _ finds findsZones_firewall findsZones_lan⟩,
    unconstrained "in" (by decide) _ _ isEmpty isAbsent,
    unmatched "src" (by decide) _ isSourceless (by decide) (by decide)⟩

/-- If one of the lists may be empty, a list need not stand for the traffic of its parts: the empty
one stands for all traffic. -/
theorem not_union_of_emptyList :
    ¬ ∀ (kind : RuleKind) (location : String) (attributes : Record) (start before : Context)
      (first second : List Value) (joined one two : Rule) (found left right : List Fragment),
      DeclaredWith kind location attributes start "in" (.list (first ++ second)) joined →
      DeclaredWith kind location attributes start "in" (.list first) one →
      DeclaredWith kind location attributes start "in" (.list second) two →
      joined.FindsZones before found → one.FindsZones before left →
      two.FindsZones before right →
        ∀ fragment, fragment ∈ found ↔ fragment ∈ left ∨ fragment ∈ right := by
  intro union
  obtain ⟨_, _, isLan, isEmpty, _⟩ := declaredWith_lanLists
  have members := union .plain "rule 1" [] lanContext lanContext [] [.text "lan"] _ _ _ _ _ _
    isLan isEmpty isLan findsZones_lan findsZones_emptyList findsZones_lan
  have stands : (Fragment.ofChain "INPUT") ∈ ([.ofChain "FORWARD", .ofChain "INPUT",
      .ofChain "OUTPUT"] : List Fragment) := by
    decide
  exact absurd ((members (.ofChain "INPUT")).2 (Or.inl stands)) (by decide)

end Rule

end FirewallPolicy
