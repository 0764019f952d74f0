import FirewallPolicy.Proofs.Rule.Declaration
import FirewallPolicy.Proofs.Rule.Upkeep

/-!
# Rules with the rules derived from them

A derived rule takes over matches only, so it has no limit and never goes to the front.  From a
sound context, expanding a rule with all that it brings with it leaves a sound context; its
fragments stand and jump where those of the rule or of rules numbered meanwhile may.
-/

namespace FirewallPolicy

open Context Run Stateful

/-! ## Positions -/

/-- Only a flow limit of tracked traffic takes a filter rule to the front of its chains. -/
theorem Rule.position_eq_prepend_iff
    {rule : Rule} :
    rule.position = .ok "prepend" ↔
      rule.kind.isFilter = true ∧ rule.attributes.flag "no-track" = false ∧
        rule.limitName? = .ok (some "flow-limit") := by
  unfold Rule.position
  cases isFilter : rule.kind.isFilter with
  | false => simp [pure, Except.pure]
  | true =>
      cases untracked : rule.attributes.flag "no-track" with
      | true => simp [pure, Except.pure]
      | false =>
          cases read : rule.limitName? with
          | error failure => simp [bind, Except.bind]
          | ok name =>
              by_cases isFlow : name = some "flow-limit" <;>
                simp [isFlow, bind, Except.bind, pure, Except.pure]

theorem Rule.position_ne_prepend
    {rule : Rule} (unlimited : rule.limitName? = .ok none) :
    rule.position ≠ .ok "prepend" := by
  rw [Ne, position_eq_prepend_iff, unlimited]
  simp

/-! ## Attributes that are taken over -/

namespace Rule

/-- The changes of a derivation leave limits and actions alone. -/
def Derivation.IsPlain (derivation : Derivation) : Prop :=
  ∀ change ∈ derivation.changes, change.1 ∉ "action" :: limitNames

/-- A log class among the changes of a derivation was selected. -/
def Derivation.IsDirected (derivation : Derivation) (book : LogBook) : Prop :=
  ∀ change ∈ derivation.changes, change.1 = "log" → change.2.IsDirective book

/-- The names of the changes that derivations make, apart from the log class. -/
def plainNames : List String :=
  ["limit", "measure", "addr", "to-addr", "to-port", "service", "reverse"]

theorem Derivation.isPlain_of_names
    {derivation : Derivation}
    (named : ∀ change ∈ derivation.changes, change.1 ∈ plainNames) :
    derivation.IsPlain := by
  rintro ⟨name, value⟩ changed
  have isPlain := named _ changed
  dsimp only at isPlain ⊢
  clear changed
  revert name
  decide

theorem Derivation.isDirected_of_names
    {derivation : Derivation}
    (named : ∀ change ∈ derivation.changes, change.1 ∈ plainNames) (book : LogBook) :
    derivation.IsDirected book := by
  rintro ⟨name, value⟩ changed isLog
  have isPlain := named _ changed
  dsimp only at isPlain isLog
  subst isLog
  exact absurd isPlain (by decide)

/-- An attribute of a derived rule is taken over or changed. -/
theorem mem_derivedAttributes
    {source : Record} {derivation : Derivation} {field : String × Value}
    (member : field ∈ derivedAttributes source derivation) :
    field.1 ∈ "dnat" :: transferred ∨ field ∈ derivation.changes := by
  obtain ⟨isField, -⟩ := List.mem_filter.1 member
  refine (Named.mem_setAll isField).imp_left fun taken => ?_
  obtain ⟨name, isName, stated⟩ := List.mem_filterMap.1 taken
  split at stated
  · obtain rfl := Option.some.inj stated
    rcases List.mem_append.1 isName with isTaken | isDnat
    · exact List.mem_cons_of_mem _ isTaken
    · split at isDnat
      · obtain rfl := List.mem_singleton.1 isDnat
        exact List.mem_cons_self ..
      · simp at isDnat
  · simp at stated

variable {source : Record} {derivation : Derivation}

theorem Derivation.IsPlain.lookup_eq_none
    (plain : derivation.IsPlain) {name : String} (isOther : name ∈ "action" :: limitNames) :
    (derivedAttributes source derivation).lookup name = none := by
  cases found : (derivedAttributes source derivation).lookup name with
  | none => rfl
  | some value =>
      rcases mem_derivedAttributes (Named.mem_of_get? found) with taken | changed
      · exfalso
        dsimp only at taken
        clear found
        revert name
        decide
      · exact absurd isOther (plain _ changed)

theorem Derivation.IsPlain.has_eq_false
    (plain : derivation.IsPlain) {name : String} (isLimit : name ∈ limitNames) :
    (derivedAttributes source derivation).has name = false := by
  unfold Record.has Record.get
  rw [plain.lookup_eq_none (List.mem_cons_of_mem _ isLimit)]
  rfl

theorem Derivation.IsPlain.directed
    (plain : derivation.IsPlain) {book : LogBook} (isDirected : derivation.IsDirected book) :
    (derivedAttributes source derivation).Directed book where
  log := by
    unfold Record.get
    cases found : (derivedAttributes source derivation).lookup "log" with
    | none => exact Value.isDirective_of_isWritten rfl book
    | some value =>
        rcases mem_derivedAttributes (Named.mem_of_get? found) with taken | changed
        · dsimp only at taken
          exact absurd taken (by decide)
        · exact isDirected _ changed rfl
  limitLog name isLimit := by
    refine Value.isDirective_of_isWritten ?_ book
    unfold limitDirective Record.get
    rw [plain.lookup_eq_none (List.mem_cons_of_mem _ isLimit)]
    rfl

/-! ## Deriving -/

variable {expand : Rule → Run (List Fragment)} {rule : Rule} {before after : Context}
  {fragments : List Fragment}

/-- A derived rule is declared from the attributes taken over and then expanded. -/
theorem derive_eq_ok
    (run : derive expand rule source derivation before = (.ok fragments, after)) :
    ∃ kind derived middle, derivation.kind = .rule kind ∧
      Rule.declare kind (rule.location ++ " " ++ derivation.label)
          (.raw (.map (Record.toEntries (derivedAttributes source derivation)))) before =
        (.ok derived, middle) ∧
      expand derived middle = (.ok fragments, after) := by
  obtain ⟨object, middle, declares, run⟩ := bind_eq_ok.1 run
  cases isKind : derivation.kind with
  | rule kind =>
      rw [isKind] at declares
      obtain ⟨derived, _, declared, made⟩ := bind_eq_ok.1 declares
      obtain ⟨rfl, rfl⟩ := pure_eq_ok.1 made
      exact ⟨kind, derived, _, rfl, declared, run⟩
  | _ =>
      rw [isKind] at declares
      obtain ⟨_, _, _, made⟩ := bind_eq_ok.1 declares
      obtain ⟨rfl, rfl⟩ := pure_eq_ok.1 made
      exact (unusable_eq_ok.1 run).elim

/-- A rule that is declared from the attributes of such a derivation is sound. -/
theorem Derivation.IsPlain.sound_of_declare
    {kind : RuleKind} {location : String} {derived : Rule} {before after : Context}
    (plain : derivation.IsPlain) (start : Context.Sound before)
    (isDirected : derivation.IsDirected before.logBook)
    (declares : Rule.declare kind location
      (.raw (.map (Record.toEntries (derivedAttributes source derivation)))) before =
        (.ok derived, after)) :
    derived.Sound after.logBook := by
  refine (Rule.sound_of_declare start.logs rfl ?_ ?_ declares).1
  · rw [recordOf_toEntries]
    exact plain.directed isDirected
  · rw [recordOf_toEntries]
    exact fun _ => plain.lookup_eq_none (List.mem_cons_self ..)

/-- A derived rule that is no filter rule has fragments of its own only. -/
theorem exists_declared_of_derive
    {kind : RuleKind} {depth : Nat} {source : Record} (isKind : derivation.kind = .rule kind)
    (notFilter : kind.isFilter = false)
    (run : derive (expandTo (depth + 1)) rule source derivation before =
      (.ok fragments, after)) :
    ∃ derived middle, derived.kind = kind ∧
      Rule.declare kind (rule.location ++ " " ++ derivation.label)
          (.raw (.map (Record.toEntries (derivedAttributes source derivation)))) before =
        (.ok derived, middle) ∧
      derived.ownFragments middle = (.ok fragments, after) := by
  obtain ⟨stated, derived, middle, isStated, declares, expands⟩ := derive_eq_ok run
  obtain rfl : kind = stated := by
    rw [isKind] at isStated
    exact ObjectKind.rule.inj isStated
  obtain ⟨_, _, settled⟩ := settledFrom_of_declare declares
  have plain : derived.kind.isFilter = false := by
    rw [settled.kind]
    exact notFilter
  have own : derived.fragmentsWith (expandTo depth) middle = (.ok fragments, after) := expands
  refine ⟨derived, middle, settled.kind, declares, ?_⟩
  simpa [fragmentsWith, plain] using own

/-- The serial number was given out between two contexts. -/
def IsFresh (before after : Context) (serial : Nat) : Prop :=
  before.nextSerial ≤ serial ∧ serial < after.nextSerial

theorem IsFresh.widen
    {first second third fourth : Context} {serial : Nat}
    (fresh : IsFresh second third serial)
    (early : Grows first second) (late : Grows third fourth) :
    IsFresh first fourth serial :=
  ⟨Nat.le_trans early.serial fresh.1, Nat.lt_of_lt_of_le fresh.2 late.serial⟩

/-- Expanding rules keeps contexts sound, where the rules are sound, and gives fragments where those
of the rule or of rules numbered meanwhile may stand. -/
structure ExpandsSoundly (expand : Rule → Run (List Fragment)) : Prop where
  upholds : ∀ rule : Rule, Moves rule.Upholds (expand rule)
  placed : ∀ rule before after fragments, expand rule before = (.ok fragments, after) →
    AllPlaced after (fun owner => owner.1 = rule.serial ∨ IsFresh before after owner.1)
      (rule.position = .ok "prepend") fragments

/-- What a rule brings comes from rules numbered meanwhile, and none of it goes to the front; where
the rule is sound, the context stays so. -/
structure Brought (rule : Rule) (before after : Context) (fragments : List Fragment) : Prop
    extends rule.Upholds before after where
  placed : AllPlaced after (fun owner => IsFresh before after owner.1) False fragments

/-- All that the computation yields is brought, and the context stays sound even if it fails. -/
structure Brings (rule : Rule) (action : Run (List Fragment)) : Prop where
  upholds : Moves rule.Upholds action
  placed : ∀ before after fragments, action before = (.ok fragments, after) →
    AllPlaced after (fun owner => IsFresh before after owner.1) False fragments

theorem Brings.brought
    {action : Run (List Fragment)} (brings : Brings rule action)
    (run : action before = (.ok fragments, after)) :
    Brought rule before after fragments :=
  ⟨brings.upholds.of_eq run, brings.placed _ _ _ run⟩

theorem Brought.append
    {first second third : Context} {early late : List Fragment}
    (earlier : Brought rule first second early) (later : Brought rule second third late) :
    Brought rule first third (early ++ late) where
  toUpholds := earlier.toUpholds.trans later.toUpholds
  placed := allPlaced_append
    ((earlier.placed.grows later.grows).imp
      (fun _ fresh => fresh.widen (Grows.refl _) later.grows) id)
    (later.placed.imp (fun _ fresh => fresh.widen earlier.grows (Grows.refl _)) id)

theorem brings_nil : Brings rule (pure []) where
  upholds := moves_pure _
  placed before after fragments run := by
    obtain ⟨rfl, rfl⟩ := pure_eq_ok.1 run
    exact allPlaced_nil

theorem brings_report {location : String} {cause : Cause} :
    Brings rule (report location cause) where
  upholds := upholds_of_notes notes_report
  placed _ _ _ run := (report_eq_ok.1 run).elim

/-- What is brought after something was noted. -/
theorem Brings.onward
    {α : Type} {step : Run α} {rest : α → Run (List Fragment)}
    (notes : Moves Notes step) (brings : ∀ a, Brings rule (rest a)) :
    Brings rule (step >>= rest) where
  upholds := (upholds_of_notes notes).bind fun a => (brings a).upholds
  placed before after fragments run := by
    obtain ⟨a, middle, stepRun, run⟩ := bind_eq_ok.1 run
    have noted : Notes before middle := notes.of_eq stepRun
    exact ((brings a).placed _ _ _ run).imp
      (fun _ fresh => fresh.widen noted.grows (Grows.refl _)) id

theorem Brings.append
    {first second : Run (List Fragment)}
    (brings : Brings rule first) (others : Brings rule second) :
    Brings rule (do return (← first) ++ (← second)) where
  upholds := brings.upholds.bind fun _ => others.upholds.bind fun _ => moves_pure _
  placed before after fragments run := by
    simp only [bind_eq_ok, pure_eq_ok] at run
    obtain ⟨early, middle, firstRun, late, _, secondRun, rfl, rfl⟩ := run
    exact ((brings.brought firstRun).append (others.brought secondRun)).placed

/-- A rule derived from a sound rule is sound. -/
theorem upholds_derive
    (expanding : ExpandsSoundly expand) (plain : derivation.IsPlain)
    (isDirected : ∀ book, rule.Sound book → derivation.IsDirected book) :
    Moves rule.Upholds (derive expand rule source derivation) := by
  intro before
  refine (upholds_of_notes PolicyObject.notes_declare).bind_at fun object middle declares => ?_
  have notes : Notes before middle := PolicyObject.notes_declare.of_eq declares
  cases object with
  | rule derived =>
      have upheld := expanding.upholds derived middle
      refine ⟨notes.grows.trans upheld.grows, fun ruleSound start => ?_⟩
      refine upheld.sound ?_ (notes.sound start)
      cases isKind : derivation.kind with
      | rule kind =>
          rw [isKind] at declares
          obtain ⟨declared, _, declaresRule, made⟩ := bind_eq_ok.1 declares
          obtain ⟨isDeclared, rfl⟩ := pure_eq_ok.1 made
          obtain rfl := PolicyObject.rule.inj isDeclared
          exact plain.sound_of_declare start (isDirected _ ruleSound) declaresRule
      | _ =>
          rw [isKind] at declares
          obtain ⟨_, _, _, made⟩ := bind_eq_ok.1 declares
          obtain ⟨⟨⟩, _⟩ := pure_eq_ok.1 made
  | _ => exact ⟨notes.grows, fun _ => notes.sound⟩

theorem brings_derive
    (expanding : ExpandsSoundly expand) (plain : derivation.IsPlain)
    (isDirected : ∀ book, rule.Sound book → derivation.IsDirected book) :
    Brings rule (derive expand rule source derivation) where
  upholds := upholds_derive expanding plain isDirected
  placed before after fragments run := by
    obtain ⟨kind, derived, middle, _, declares, expands⟩ := derive_eq_ok run
    have notes : Notes before middle := notes_declare.of_eq declares
    obtain ⟨entries, isMap, settled⟩ := settledFrom_of_declare declares
    obtain rfl : Record.toEntries (derivedAttributes source derivation) = entries :=
      Option.some.inj isMap
    rw [recordOf_toEntries] at settled
    have unlimited := settled.unlimited fun name isLimit => plain.has_eq_false isLimit
    refine (expanding.placed derived _ _ _ expands).imp ?_ (position_ne_prepend unlimited)
    rintro ⟨serial, key⟩ (rfl | fresh)
    · have grows := ((expanding.upholds derived).of_eq expands).grows
      exact IsFresh.widen ⟨settled.fresh, settled.used⟩ (Grows.refl _) grows
    · exact fresh.widen notes.grows (Grows.refl _)

/-- Deriving a rule without a log class among the changes. -/
theorem brings_derive_of_names
    (expanding : ExpandsSoundly expand)
    (named : ∀ change ∈ derivation.changes, change.1 ∈ plainNames) :
    Brings rule (derive expand rule source derivation) :=
  brings_derive expanding (Derivation.isPlain_of_names named)
    fun book _ => Derivation.isDirected_of_names named book

/-! ## What filter rules derive -/

theorem mem_plainNames_updateChanges
    {mapping : Entries} {name : Value} :
    ∀ change ∈ ("limit", name) :: ["measure", "addr"].filterMap (fun option =>
      (Entries.get? mapping (.text option)).map fun value => (option, value)),
      change.1 ∈ plainNames := by
  intro change changed
  rcases List.mem_cons.1 changed with rfl | isOption
  · simp [plainNames]
  · obtain ⟨option, isName, stated⟩ := List.mem_filterMap.1 isOption
    obtain ⟨value, _, rfl⟩ := Option.map_eq_some_iff.1 stated
    simp only [List.mem_cons, List.not_mem_nil, or_false] at isName
    rcases isName with rfl | rfl <;> simp [plainNames]

theorem brings_updateFragments
    (expanding : ExpandsSoundly expand) :
    Brings rule (updateFragments expand rule) := by
  unfold updateFragments
  extract_lets given mapping
  split
  · exact brings_nil
  · split
    · exact brings_report
    · exact brings_derive_of_names expanding mem_plainNames_updateChanges

theorem brings_dnatFragments
    (expanding : ExpandsSoundly expand) :
    Brings rule (dnatFragments expand rule) := by
  unfold dnatFragments
  extract_lets derived unset tracked
  have derivedBrings : ∀ u, Brings rule (derived u) := fun u =>
    Brings.onward notes_dnatAddress fun _ => Brings.onward notes_recording fun _ =>
      Brings.onward notes_sectionKind fun _ => brings_derive_of_names expanding <| by
        simp [plainNames]
  have unsetBrings : ∀ u, Brings rule (unset u) := by
    intro u
    unfold unset
    split
    · exact Brings.onward notes_report derivedBrings
    · exact derivedBrings ()
  have trackedBrings : ∀ u, Brings rule (tracked u) := by
    intro u
    unfold tracked
    split
    · exact Brings.onward notes_report unsetBrings
    · exact unsetBrings ()
  split
  · exact brings_nil
  · split
    · exact Brings.onward notes_report trackedBrings
    · exact trackedBrings ()

theorem brings_untrackedFragments
    (expanding : ExpandsSoundly expand) :
    Brings rule (untrackedFragments expand rule) := by
  unfold untrackedFragments
  split
  · exact Brings.onward notes_sectionKind fun _ => brings_derive_of_names expanding (by simp)
  · exact brings_nil

/-- How the rule is derived that accepts behind a flow limit. -/
def finalDerivation (rule : Rule) : Derivation where
  label := "final"
  kind := .rule .logging
  changes := [("log", LogClass.optionValue rule.log?)]

theorem isPlain_finalDerivation (rule : Rule) : (finalDerivation rule).IsPlain := by
  intro change changed
  obtain rfl := List.mem_singleton.1 changed
  dsimp only
  decide

theorem isDirected_finalDerivation
    {book : LogBook} (ruleSound : rule.Sound book) :
    (finalDerivation rule).IsDirected book := by
  intro change changed _
  obtain rfl := List.mem_singleton.1 changed
  exact LogClass.isDirective_optionValue ruleSound.log

theorem brings_finalFragments
    (expanding : ExpandsSoundly expand) :
    Brings rule (finalFragments expand rule) := by
  refine Brings.onward notes_recording fun limitName => ?_
  split
  · exact brings_derive expanding (isPlain_finalDerivation rule) fun _ => isDirected_finalDerivation
  · exact brings_nil

theorem brings_listedRelated
    (expanding : ExpandsSoundly expand) {index : Nat} {items : List Value} :
    Brings rule (listedRelated expand rule index items) := by
  induction items generalizing index with
  | nil => exact brings_nil
  | cons item rest inductionHypothesis =>
      have derived : ∀ source, Brings rule (do
          let first ← derive expand rule source
            { label := "related " ++ toString index, kind := .rule .related,
              changes := [("service", rule.attributes.get "service")] }
          return first ++ (← listedRelated expand rule (index + 1) rest)) := fun source =>
        (brings_derive_of_names expanding (by simp [plainNames])).append inductionHypothesis
      unfold listedRelated
      split
      · exact Brings.onward (moves_pure _) derived
      · exact Brings.onward notes_lift derived

theorem brings_relatedFragments
    (expanding : ExpandsSoundly expand) :
    Brings rule (relatedFragments expand rule) := by
  unfold relatedFragments
  extract_lets listed
  split
  · exact (brings_derive_of_names expanding (by simp)).append
      (brings_derive_of_names expanding (by simp [plainNames]))
  · exact brings_listedRelated expanding

theorem brings_replyFragments
    (expanding : ExpandsSoundly expand) {related : List Fragment} :
    Brings rule (replyFragments expand rule related) := by
  unfold replyFragments
  extract_lets derived
  have reversed : ∀ label name, Brings rule (do
      derive expand rule rule.attributes
        { label, kind := ← rule.sectionKind name, changes := [("reverse", .bool true)] }) :=
    fun _ _ => Brings.onward notes_sectionKind fun _ =>
      brings_derive_of_names expanding (by simp [plainNames])
  have derivedBrings : ∀ u, Brings rule (derived u) := by
    intro u
    refine ⟨?_, fun before after fragments run => ?_⟩
    · exact (upholds_of_notes notes_sectionKind).bind fun _ =>
        (brings_derive_of_names expanding (by simp [plainNames])).upholds.bind fun _ =>
        (upholds_of_notes notes_sectionKind).bind fun _ =>
        (brings_derive_of_names expanding (by simp [plainNames])).upholds.bind fun _ =>
        moves_pure _
    · simp only [derived, bind_eq_ok, pure_eq_ok] at run
      obtain ⟨untrackedKind, c₁, knows, untracked, c₂, untracks, kind, c₃, knowsKind, reply, c₄,
        replies, rfl, rfl⟩ := run
      have early := (reversed _ _).brought (bind_eq_ok.2 ⟨_, _, knows, untracks⟩)
      have late := (reversed _ _).brought (bind_eq_ok.2 ⟨_, _, knowsKind, replies⟩)
      exact (early.append late).placed
  split
  · exact brings_nil
  · split
    · exact Brings.onward notes_report derivedBrings
    · exact derivedBrings ()

theorem brings_followingFragments
    (expanding : ExpandsSoundly expand) :
    Brings rule (followingFragments expand rule) where
  upholds := by
    refine (brings_dnatFragments expanding).upholds.bind fun _ =>
      (brings_untrackedFragments expanding).upholds.bind fun _ => ?_
    split
    · exact (brings_finalFragments expanding).upholds.bind fun _ =>
        (brings_relatedFragments expanding).upholds.bind fun _ =>
        (brings_replyFragments expanding).upholds.bind fun _ => moves_pure _
    · exact moves_pure _
  placed before after fragments run := by
    obtain ⟨redirected, c₁, redirects, run⟩ := bind_eq_ok.1 run
    obtain ⟨untracked, c₂, untracks, run⟩ := bind_eq_ok.1 run
    have early : Brought rule before c₂ (redirected ++ untracked) :=
      ((brings_dnatFragments expanding).brought redirects).append
        ((brings_untrackedFragments expanding).brought untracks)
    split at run
    · simp only [bind_eq_ok, pure_eq_ok] at run
      obtain ⟨final, c₃, finals, related, c₄, relates, reply, c₅, replies, rfl, rfl⟩ := run
      exact (((early.append ((brings_finalFragments expanding).brought finals)).append
        ((brings_relatedFragments expanding).brought relates)).append
        ((brings_replyFragments expanding).brought replies)).placed
    · obtain ⟨rfl, rfl⟩ := pure_eq_ok.1 run
      exact early.placed

/-! ## Expanding -/

theorem expandsSoundly_fragmentsWith
    (expanding : ExpandsSoundly expand) :
    ExpandsSoundly (fragmentsWith expand) where
  upholds rule := by
    unfold fragmentsWith
    split
    · exact (brings_updateFragments expanding).upholds.bind fun _ =>
        upholds_ownFragments.bind fun _ =>
        (brings_followingFragments expanding).upholds.bind fun _ => moves_pure _
    · exact upholds_ownFragments
  placed := by
    intro rule before after fragments run
    unfold fragmentsWith at run
    split at run
    · simp only [bind_eq_ok, pure_eq_ok] at run
      obtain ⟨update, c₁, updates, own, c₂, owns, following, c₃, follows, rfl, rfl⟩ := run
      have first : Brought rule _ _ _ := (brings_updateFragments expanding).brought updates
      have last := (brings_followingFragments expanding).brought follows
      -- Rules that are derived on the way have new numbers, also seen from the first context.
      have ownPlaced : AllPlaced c₂ (·.1 = rule.serial) _ own :=
        allPlaced_ownFragments (fun _ => rfl) owns
      have ownGrows : Grows c₁ c₂ := grows_ownFragments.of_eq owns
      refine allPlaced_append (allPlaced_append ?_ ?_) ?_
      · have growsLast := ownGrows.trans last.grows
        exact (first.placed.grows growsLast).imp
          (fun _ fresh => Or.inr (fresh.widen (Grows.refl _) growsLast)) False.elim
      · exact (ownPlaced.grows last.grows).imp (fun _ => Or.inl) id
      · exact last.placed.imp (fun _ fresh => Or.inr (fresh.widen
          (first.grows.trans ownGrows) (Grows.refl _))) False.elim
    · have ownPlaced : AllPlaced after (·.1 = rule.serial) _ fragments :=
        allPlaced_ownFragments (fun _ => rfl) run
      exact ownPlaced.imp (fun _ => Or.inl) id

/-- The induction is on how deep derived rules are nested. -/
theorem expandsSoundly_expandTo (depth : Nat) :
    ExpandsSoundly (expandTo depth) := by
  induction depth with
  | zero => exact ⟨fun _ => upholds_of_notes notes_unusable, fun _ _ _ _ run =>
      (unusable_eq_ok.1 run).elim⟩
  | succ depth inductionHypothesis => exact expandsSoundly_fragmentsWith inductionHypothesis

/-- A rule that is no filter rule brings nothing with it. -/
theorem fragments_of_not_isFilter (notFilter : rule.kind.isFilter = false) :
    rule.fragments = rule.ownFragments := by
  simp [fragments, expandTo, fragmentsWith, notFilter]

/-- The fragments of a rule with all that it brings with it stand and jump where those of the rule
or of rules numbered meanwhile may, and only the position of the rule takes them to the front. -/
theorem allPlaced_fragments
    (run : rule.fragments before = (.ok fragments, after)) :
    AllPlaced after (fun owner => owner.1 = rule.serial ∨ IsFresh before after owner.1)
      (rule.position = .ok "prepend") fragments :=
  (expandsSoundly_expandTo 4).placed rule _ _ _ run

/-- Expanding a rule adds to the context, and keeps it sound where the rule is sound, whatever the
outcome. -/
theorem upholds_fragments (rule : Rule) : Moves rule.Upholds rule.fragments :=
  (expandsSoundly_expandTo 4).upholds rule

/-- Expanding a sound rule keeps a context sound. -/
theorem sound_fragments
    (sound : Context.Sound before) (ruleSound : rule.Sound before.logBook)
    (run : rule.fragments before = (.ok fragments, after)) :
    Context.Sound after :=
  ((upholds_fragments rule).of_eq run).sound ruleSound sound

end Rule

end FirewallPolicy
