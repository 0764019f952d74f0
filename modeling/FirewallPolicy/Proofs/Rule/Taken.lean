import FirewallPolicy.Proofs.Rule.Selected

/-!
# What derived rules take over

A rule that is derived from another one, and is no filter rule itself, has fragments of its own
only.  It has the zones and the values of the attributes that it takes over, and services that match
the same.
-/

namespace FirewallPolicy

open Context Run Stateful

theorem Context.Grows.sectionKind?
    {before after : Context} (grows : Grows before after) (name : String) :
    after.sectionKind? name = before.sectionKind? name := by
  unfold Context.sectionKind?
  rw [grows.sections]

namespace Rule

variable {rule derived : Rule} {derivation : Derivation} {names : List String}
  {before middle after : Context} {fragments following : List Fragment}

/-! ## Deriving -/

/-- The second rule is declared by a derivation from the first one. -/
structure IsDerived (derivation : Derivation) (rule derived : Rule) (before middle : Context) :
    Prop where
  kind : derivation.kind = .rule derived.kind
  declares : Rule.declare derived.kind (rule.location ++ " " ++ derivation.label)
    (.raw (.map (Record.toEntries (derivedAttributes rule.attributes derivation)))) before =
      (.ok derived, middle)

theorem exists_isDerived
    {kind : RuleKind} {depth : Nat} (isKind : derivation.kind = .rule kind)
    (notFilter : kind.isFilter = false)
    (run : derive (expandTo (depth + 1)) rule rule.attributes derivation before =
      (.ok fragments, after)) :
    ∃ derived middle, derived.kind = kind ∧ IsDerived derivation rule derived before middle ∧
      derived.ownFragments middle = (.ok fragments, after) := by
  obtain ⟨derived, middle, rfl, declares, own⟩ := exists_declared_of_derive isKind notFilter run
  exact ⟨derived, middle, rfl, ⟨isKind, declares⟩, own⟩

namespace IsDerived

variable (isDerived : IsDerived derivation rule derived before middle)
include isDerived

theorem notes : Notes before middle :=
  notes_declare.of_eq isDerived.declares

/-- A rule that is derived from a sound one is sound. -/
theorem sound
    (plain : derivation.IsPlain) (isDirected : ∀ book, rule.Sound book → derivation.IsDirected book)
    (sound : Context.Sound before) (ruleSound : rule.Sound before.logBook) :
    Context.Sound middle ∧ derived.Sound middle.logBook := by
  refine ⟨isDerived.notes.sound sound, ?_⟩
  refine (sound_of_declare sound.logs rfl ?_ ?_ isDerived.declares).1
  · rw [recordOf_toEntries]
    exact plain.directed (isDirected _ ruleSound)
  · rw [recordOf_toEntries]
    exact fun _ => plain.lookup_eq_none (List.mem_cons_self ..)

end IsDerived

/-! ## Taking over -/

/-- The names of the attributes that are matched as they are declared. -/
def openedNames : List String := ["ipset", "dnat"]

/-- No text stands for the address set or the destination: these were settled. -/
def IsOpened (attributes : Record) : Prop :=
  ∀ name ∈ openedNames, ∀ text, attributes.get name ≠ .text text

/-- What is derived without a change to the address set and the destination states no text for them
either. -/
theorem isOpened_derivedAttributes
    (opened : IsOpened rule.attributes)
    (unchanged : ∀ change ∈ derivation.changes, change.1 ∉ openedNames) :
    IsOpened (derivedAttributes rule.attributes derivation) := by
  intro name isName text stated
  unfold Record.get at stated
  cases found : (derivedAttributes rule.attributes derivation).lookup name with
  | none =>
      rw [found] at stated
      cases stated
  | some value =>
      rw [found] at stated
      obtain rfl : value = .text text := stated
      obtain ⟨isField, -⟩ := List.mem_filter.1 (Named.mem_of_get? found)
      rcases Named.mem_setAll isField with taken | changed
      · obtain ⟨_, _, isTaken⟩ := List.mem_filterMap.1 taken
        split at isTaken
        · obtain ⟨rfl, same⟩ := Prod.mk.inj (Option.some.inj isTaken)
          exact opened _ isName text same
        · cases isTaken
      · exact unchanged _ changed isName

/-- The names of the attributes that declaring a rule may change. -/
def settledOrLimited : List String :=
  ["action", "log", "measure", "addr"] ++ limitNames

/-- The derived rule has the attributes of the other one under these names, with the zones and the
services that they stand for. -/
structure TakesOver (names : List String) (rule derived : Rule) : Prop where
  get : ∀ name ∈ names, derived.attributes.get name = rule.attributes.get name
  zonesIn : "in" ∈ names → derived.zonesIn = rule.zonesIn
  zonesOut : "out" ∈ names → derived.zonesOut = rule.zonesOut
  services : "service" ∈ names → ServicesAlike rule.services derived.services

namespace IsDerived

variable (isDerived : IsDerived derivation rule derived before middle)
include isDerived

/-- A derived rule has the attributes that it was declared with. -/
theorem get
    {name : String} (opened : IsOpened rule.attributes)
    (unchanged : ∀ change ∈ derivation.changes, change.1 ∉ openedNames)
    (kept : name ∉ settledOrLimited) :
    derived.attributes.get name = (derivedAttributes rule.attributes derivation).get name :=
  (keeps_of_declare (isOpened_derivedAttributes opened unchanged) isDerived.declares).get kept

/-- What is taken over, and is neither changed nor left out, is as in the other rule. -/
theorem takesOver
    (opened : IsOpened rule.attributes) (knows : rule.Knows before)
    (taken : ∀ name ∈ names, name ∈ transferred ++
      (if derivation.withDnat && derivation.kind.redirects then ["dnat"] else []))
    (unchanged : ∀ change ∈ derivation.changes, change.1 ∉ names ++ openedNames)
    (kept : ∀ name ∈ names, name ∉ derivation.omitted) :
    TakesOver names rule derived := by
  have settles : ∀ change ∈ derivation.changes, change.1 ∉ openedNames :=
    fun change changed isOpened => unchanged change changed (List.mem_append_right _ isOpened)
  have plain : ∀ name ∈ transferred ++ ["dnat"], name ∉ settledOrLimited := by decide
  have get : ∀ name ∈ names, derived.attributes.get name = rule.attributes.get name := by
    intro name isName
    have isTaken : name ∈ transferred ++ ["dnat"] := by
      have member := taken name isName
      split at member
      · exact member
      · exact List.mem_append_left _ (by simpa using member)
    rw [isDerived.get opened settles (plain name isTaken)]
    apply get_derivedAttributes (taken name isName) _ (kept name isName)
    rintro change changed rfl
    exact unchanged change changed (List.mem_append_left _ isName)
  have derivedKnows : derived.Knows before := knows_of_declare isDerived.declares
  obtain ⟨sameIn, sameOut, sameServices⟩ := knows.selects_alike derivedKnows
  exact ⟨get, fun isName => sameIn (get _ isName), fun isName => sameOut (get _ isName),
    fun isName => sameServices (get _ isName)⟩

/-- A derived rule matches replies only where it is derived to do so. -/
theorem reverse_eq_false
    (opened : IsOpened rule.attributes)
    (unchanged : ∀ change ∈ derivation.changes, change.1 ∉ "reverse" :: openedNames) :
    derived.reverse = false := by
  have absent : (derivedAttributes rule.attributes derivation).get "reverse" = .null := by
    apply get_derivedAttributes_of_absent (by decide)
    rintro change changed same
    exact unchanged change changed (same ▸ List.mem_cons_self ..)
  have settles : ∀ change ∈ derivation.changes, change.1 ∉ openedNames :=
    fun change changed isOpened => unchanged change changed (List.mem_cons_of_mem _ isOpened)
  have read := isDerived.get opened settles (by decide : "reverse" ∉ settledOrLimited)
  rw [absent] at read
  rw [reverse, Record.flag, read]
  rfl

theorem reverse_eq_true
    (opened : IsOpened rule.attributes)
    (isChange : derivation.changes = [("reverse", .bool true)])
    (kept : "reverse" ∉ derivation.omitted) :
    derived.reverse = true := by
  have changed : (derivedAttributes rule.attributes derivation).get "reverse" = .bool true := by
    apply get_derivedAttributes_of_change (by decide) _ _ kept
    · rw [isChange]
      exact List.mem_singleton_self _
    · intro other isOther
      rw [isChange] at isOther
      exact (Prod.mk.inj (List.mem_singleton.1 isOther)).2
  have settles : ∀ change ∈ derivation.changes, change.1 ∉ openedNames := by
    rw [isChange]
    decide
  have read := isDerived.get opened settles (by decide : "reverse" ∉ settledOrLimited)
  rw [changed] at read
  rw [reverse, Record.flag, read]
  rfl

end IsDerived

theorem sectionKind_eq_ok
    {name : String} {kind : ObjectKind}
    (run : rule.sectionKind name before = (.ok kind, after)) :
    before.sectionKind? name = some kind ∧ after = before := by
  obtain ⟨context, _, gets, run⟩ := bind_eq_ok.1 run
  obtain ⟨rfl, rfl⟩ := get_eq_ok.1 gets
  cases known : before.sectionKind? name with
  | none =>
      rw [known] at run
      exact (report_eq_ok.1 run).elim
  | some found =>
      rw [known] at run
      obtain ⟨rfl, rfl⟩ := pure_eq_ok.1 run
      exact ⟨rfl, rfl⟩

/-! ## Declared rules expanded -/

/-- A rule of a kind that was declared by what a policy states, and its expansion in a sound
context. -/
structure IsExpanded (kind : RuleKind) (rule : Rule) (before : Context) (rules : List Fragment)
    (after : Context) : Prop where
  declared : ∃ location source start declared, start.logBook.IsSettled ∧
    (∀ entries, declaration? source = some entries → (recordOf entries).IsWritten) ∧
    Rule.declare kind location source start = (.ok rule, declared) ∧ Grows declared before
  sound : Context.Sound before
  run : rule.fragments before = (.ok rules, after)

/-- What holds of a rule wherever its expansion comes to. -/
structure Reached (rule : Rule) (context : Context) : Prop where
  sound : Context.Sound context
  ruleSound : rule.Sound context.logBook
  knows : rule.Knows context

theorem Reached.notes (reached : rule.Reached before) (notes : Notes before after) :
    rule.Reached after where
  sound := notes.sound reached.sound
  ruleSound := reached.ruleSound.keeps reached.sound.logs notes.logs
  knows := reached.knows.grows notes.grows

theorem Reached.brought
    (reached : rule.Reached before) (brought : Brought rule before after fragments) :
    rule.Reached after where
  sound := brought.sound reached.ruleSound reached.sound
  ruleSound := reached.ruleSound.keeps reached.sound.logs brought.grows.logs
  knows := reached.knows.grows brought.grows

namespace IsExpanded

variable {kind : RuleKind} {rules : List Fragment}
  (expanded : IsExpanded kind rule before rules after)
include expanded

theorem kind_eq : rule.kind = kind := by
  obtain ⟨_, _, _, _, _, _, declares, _⟩ := expanded.declared
  obtain ⟨_, _, settled⟩ := settledFrom_of_declare declares
  exact settled.kind

theorem used : rule.serial < before.nextSerial := by
  obtain ⟨_, _, _, _, _, _, declares, grows⟩ := expanded.declared
  obtain ⟨_, _, settled⟩ := settledFrom_of_declare declares
  exact Nat.lt_of_lt_of_le settled.used grows.serial

theorem isOpened (redirects : kind.redirects = true) : IsOpened rule.attributes := by
  obtain ⟨_, _, _, _, _, _, declares, _⟩ := expanded.declared
  exact ne_text_of_declare redirects declares

theorem reached (isFilter : kind.isFilter = true) : rule.Reached before := by
  obtain ⟨_, _, _, _, settled, written, declares, grows⟩ := expanded.declared
  obtain ⟨entries, isMap, _⟩ := settledFrom_of_declare declares
  have notes : Notes _ _ := notes_declare.of_eq declares
  -- Only derived rules act by default, and a filter rule is none of them.
  have byDefault : ActsByDefault kind (recordOf entries) := by
    rintro rfl
    cases isFilter
  refine ⟨expanded.sound, ?_, ?_⟩
  · exact (sound_of_declare settled isMap ((written entries isMap).directed _) byDefault
      declares).1.keeps (notes.logs.settled settled) grows.logs
  · exact (knows_of_declare declares).grows (notes.grows.trans grows)

/-- The rule itself stands among the rules that it brings. -/
theorem exists_expands (isFilter : kind.isFilter = true) :
    ∃ update own following start finish,
      rule.Expands before after update own following start finish ∧
        rules = update ++ own ++ following := by
  have isRuleFilter : rule.kind.isFilter = true := by
    rw [expanded.kind_eq]
    exact isFilter
  exact expands_of_fragments isRuleFilter expanded.sound (expanded.reached isFilter).ruleSound
    expanded.used expanded.run

end IsExpanded

/-- An accepting rule accepts. -/
theorem target_of_accepting
    (isFilter : rule.kind = .filter) (accepts : rule.action = "accept") :
    rule.target = .ok (some "ACCEPT") := by
  have isLimitable : rule.kind.isFilter = true := by
    rw [isFilter]
    rfl
  rcases target_of_limited isLimitable (Or.inl accepts) with ⟨_, read⟩ | ⟨passes, _⟩
  · exact read
  · rw [accepts] at passes
    exact absurd passes (by decide)

/-! ## What follows a rule -/

/-- The rules that follow an accepting rule, in order, with the contexts between them. -/
structure FollowedBy (rule : Rule) (start : Context) (redirected untracked final related
    reply : List Fragment) (first second third fourth finish : Context) : Prop where
  redirects : dnatFragments (expandTo 3) rule start = (.ok redirected, first)
  untracks : untrackedFragments (expandTo 3) rule first = (.ok untracked, second)
  finals : finalFragments (expandTo 3) rule second = (.ok final, third)
  relates : relatedFragments (expandTo 3) rule third = (.ok related, fourth)
  replies : replyFragments (expandTo 3) rule related fourth = (.ok reply, finish)

theorem exists_followedBy
    (accepts : rule.action = "accept")
    (run : followingFragments (expandTo 3) rule before = (.ok following, after)) :
    ∃ redirected untracked final related reply first second third fourth,
      rule.FollowedBy before redirected untracked final related reply first second third fourth
        after ∧
      following = redirected ++ untracked ++ final ++ related ++ reply := by
  simp only [followingFragments, accepts, if_true, bind_eq_ok, pure_eq_ok] at run
  obtain ⟨redirected, c₁, redirects, untracked, c₂, untracks, final, c₃, finals, related, c₄,
    relates, reply, c₅, replies, rfl, rfl⟩ := run
  exact ⟨redirected, untracked, final, related, reply, c₁, c₂, c₃, c₄,
    ⟨redirects, untracks, finals, relates, replies⟩, rfl⟩

namespace FollowedBy

variable {start first second third fourth finish : Context}
  {redirected untracked final related reply : List Fragment}
  (followed : rule.FollowedBy start redirected untracked final related reply first second third
    fourth finish)
include followed

theorem grows_first : Grows start first :=
  ((brings_dnatFragments (expandsSoundly_expandTo 3)).brought followed.redirects).grows

theorem grows_second : Grows first second :=
  ((brings_untrackedFragments (expandsSoundly_expandTo 3)).brought followed.untracks).grows

theorem grows_third : Grows second third :=
  ((brings_finalFragments (expandsSoundly_expandTo 3)).brought followed.finals).grows

theorem grows_fourth : Grows third fourth :=
  ((brings_relatedFragments (expandsSoundly_expandTo 3)).brought followed.relates).grows

theorem reached (reached : rule.Reached start) :
    rule.Reached first ∧ rule.Reached second ∧ rule.Reached third ∧ rule.Reached fourth := by
  have expanding := expandsSoundly_expandTo 3
  have one := reached.brought ((brings_dnatFragments expanding).brought followed.redirects)
  have two := one.brought ((brings_untrackedFragments expanding).brought followed.untracks)
  have three := two.brought ((brings_finalFragments expanding).brought followed.finals)
  exact ⟨one, two, three,
    three.brought ((brings_relatedFragments expanding).brought followed.relates)⟩

end FollowedBy

/-! ## A policy -/

/-- A context with the sections of the modules, that knows a zone. -/
def policyContext : Context :=
  { lanContext with
    sections := Builtin.modules.flatMap fun module_ => module_.sections.map fun section_ =>
      (section_.name, section_) }

theorem sound_policyContext : Context.Sound policyContext where
  numbered _ none := absurd none List.not_mem_nil
  distinct _ none := absurd none List.not_mem_nil
  shared _ none := absurd none List.not_mem_nil
  auxiliary _ none := absurd none List.not_mem_nil
  logs := sound_empty.logs

/-- A rule that is declared there and expanded next. -/
theorem isExpanded_of_policyContext
    {kind : RuleKind} {source : Entry} {location : String} {declared : Context}
    {rules : List Fragment}
    (written : ∀ entries, declaration? source = some entries → (recordOf entries).IsWritten)
    (declares : Rule.declare kind location source policyContext = (.ok rule, declared))
    (run : rule.fragments declared = (.ok rules, after)) :
    IsExpanded kind rule declared rules after := by
  have notes : Notes policyContext declared := notes_declare.of_eq declares
  exact ⟨⟨location, source, policyContext, declared, sound_policyContext.logs, written, declares,
    Grows.refl _⟩, notes.sound sound_policyContext, run⟩

/-- The declaration of a filter rule there. -/
def filterDeclaration (source : Entry) : Except Failure Rule × Context :=
  Rule.declare .filter "filter 1" source policyContext

/-- The context behind the declaration. -/
abbrev declaredContext (source : Entry) : Context :=
  (filterDeclaration source).2

theorem isExpanded_of_filterDeclaration
    {source : Entry} {rules : List Fragment}
    (written : ∀ entries, declaration? source = some entries → (recordOf entries).IsWritten)
    (declares : rule ∈ (filterDeclaration source).1.toOption)
    (runs : rules ∈ (rule.fragments (declaredContext source)).1.toOption) :
    IsExpanded .filter rule (declaredContext source) rules
      (rule.fragments (declaredContext source)).2 :=
  isExpanded_of_policyContext written (eq_of_mem_toOption declares) (eq_of_mem_toOption runs)

end Rule

end FirewallPolicy
