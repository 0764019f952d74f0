import FirewallPolicy.Proofs.Rule.Limited

/-!
# Final rules

A rule that accepts under a flow limit brings a further one with the same selectors.  It goes to the
end of the chains and accepts what came back from the limit chain.
-/

namespace FirewallPolicy

open Context Run Stateful

namespace Rule

/-! ## Attributes of derived rules -/

section Attributes

variable {source : Record} {derivation : Derivation} {name : String}

/-- An attribute that is taken over is that of the source. -/
theorem get_derivedAttributes
    (isTaken : name ∈ transferred ++
      (if derivation.withDnat && derivation.kind.redirects then ["dnat"] else []))
    (unchanged : ∀ change ∈ derivation.changes, change.1 ≠ name)
    (kept : name ∉ derivation.omitted) :
    (derivedAttributes source derivation).get name = source.get name := by
  unfold derivedAttributes
  extract_lets names taken
  have isSource : ∀ other, (name, other) ∈ taken → other = source.get name := by
    intro other member
    obtain ⟨found, _, stated⟩ := List.mem_filterMap.1 member
    split at stated
    · cases stated
      rfl
    · cases stated
  refine Record.get_eq_of_mem (fun other member => ?_) fun notNull => ?_
  · obtain ⟨isField, -⟩ := List.mem_filter.1 member
    exact (Named.mem_setAll isField).elim (isSource other)
      fun changed => absurd rfl (unchanged _ changed)
  · have isThere : (name, source.get name) ∈ taken :=
      List.mem_filterMap.2 ⟨name, isTaken, by simp [Record.has, notNull]⟩
    refine List.mem_filter.2 ⟨Named.mem_of_get? ?_, by simp [kept, notNull]⟩
    rw [Named.get?_setAll_of_ne unchanged]
    exact Named.get?_eq_some_of_mem isSource isThere

/-- An attribute that is changed has its new value. -/
theorem get_derivedAttributes_of_change
    {value : Value} (isNew : name ∉ "dnat" :: transferred)
    (changed : (name, value) ∈ derivation.changes)
    (only : ∀ other, (name, other) ∈ derivation.changes → other = value)
    (kept : name ∉ derivation.omitted) :
    (derivedAttributes source derivation).get name = value := by
  refine Record.get_eq_of_mem (fun other member => ?_) fun notNull => ?_
  · rcases mem_derivedAttributes member with taken | isChange
    · exact absurd taken isNew
    · exact only other isChange
  · refine List.mem_filter.2 ⟨Named.mem_of_get? ?_, by simp [kept, notNull]⟩
    exact Named.get?_setAll_of_mem only changed

/-- An attribute that is neither taken over nor changed is null. -/
theorem get_derivedAttributes_of_absent
    (isNew : name ∉ "dnat" :: transferred) (unchanged : ∀ change ∈ derivation.changes, change.1 ≠ name) :
    (derivedAttributes source derivation).get name = .null := by
  refine Record.get_eq_of_mem (fun other member => ?_) fun notNull => by cases notNull
  rcases mem_derivedAttributes member with taken | isChange
  · exact absurd taken isNew
  · exact absurd rfl (unchanged _ isChange)

end Attributes

/-! ## Parts of an expansion -/

section Parts

variable {rule : Rule} {before after : Context} {rules following final : List Fragment}

/-- What was brought before a rule was numbered, or after that, belongs to other rules. -/
theorem Brought.others
    {first second : Context} {fragments : List Fragment} {serial : Nat}
    (brought : Brought rule first second fragments) (grows : Grows second after)
    (other : serial < first.nextSerial ∨ second.nextSerial ≤ serial) :
    AllPlaced after (·.1 ≠ serial) True fragments := by
  refine (brought.placed.grows grows).imp (fun owner fresh same => ?_) False.elim
  obtain ⟨early, late⟩ := fresh
  omega

/-- A sound filter rule is expanded in a sound context: what it brings stands around its own
fragments. -/
structure Expands (rule : Rule) (before after : Context) (update own following : List Fragment)
    (start finish : Context) : Prop where
  sound : Context.Sound before
  ruleSound : rule.Sound before.logBook
  used : rule.serial < before.nextSerial
  updates : updateFragments (expandTo 3) rule before = (.ok update, start)
  own : rule.ownFragments start = (.ok own, finish)
  following : followingFragments (expandTo 3) rule finish = (.ok following, after)

theorem expands_of_fragments
    (isFilter : rule.kind.isFilter = true) (sound : Context.Sound before)
    (ruleSound : rule.Sound before.logBook) (used : rule.serial < before.nextSerial)
    (run : rule.fragments before = (.ok rules, after)) :
    ∃ update own following start finish,
      rule.Expands before after update own following start finish ∧
      rules = update ++ own ++ following := by
  have parts : rule.fragmentsWith (expandTo 3) before = (.ok rules, after) := run
  simp only [fragmentsWith, isFilter, if_true, bind_eq_ok, pure_eq_ok] at parts
  obtain ⟨update, start, updates, own, finish, owns, following, _, follows, rfl, rfl⟩ := parts
  exact ⟨update, own, following, start, finish, ⟨sound, ruleSound, used, updates, owns, follows⟩,
    rfl⟩

namespace Expands

variable {start finish : Context} {early own : List Fragment}
  (expands : rule.Expands before after early own following start finish)
include expands

theorem update : Brought rule before start early :=
  (brings_updateFragments (expandsSoundly_expandTo 3)).brought expands.updates

theorem grows_own : Grows start finish :=
  grows_ownFragments.of_eq expands.own

theorem brought : Brought rule finish after following :=
  (brings_followingFragments (expandsSoundly_expandTo 3)).brought expands.following

theorem sound_start : Context.Sound start :=
  expands.update.sound expands.ruleSound expands.sound

theorem ruleSound_start : rule.Sound start.logBook :=
  expands.ruleSound.keeps expands.sound.logs expands.update.grows.logs

theorem sound_finish : Context.Sound finish :=
  sound_ownFragments expands.sound_start expands.ruleSound_start expands.own

theorem ruleSound_finish : rule.Sound finish.logBook :=
  expands.ruleSound_start.keeps expands.sound_start.logs expands.grows_own.logs

theorem sound_after : Context.Sound after :=
  expands.brought.sound expands.ruleSound_finish expands.sound_finish

theorem placed_own : AllPlaced after (·.1 = rule.serial) True own :=
  ((allPlaced_ownFragments (fun _ => rfl) expands.own).grows expands.brought.grows).imp
    (fun _ => id) fun _ => trivial

/-- The fragments of the rule stand among those that it brings. -/
theorem standsAmong : rule.StandsAmong after own (early ++ own ++ following) where
  sound := expands.sound_after
  placed := expands.placed_own
  split := by
    have late : rule.serial < finish.nextSerial :=
      Nat.lt_of_lt_of_le expands.used
        (Nat.le_trans expands.update.grows.serial expands.grows_own.serial)
    refine ⟨early, following, rfl, allPlaced_append ?_ ?_⟩
    · exact expands.update.others (expands.grows_own.trans expands.brought.grows)
        (Or.inl expands.used)
    · exact expands.brought.others (Grows.refl _) (Or.inl late)

end Expands

end Parts

/-! ## Accepting in the end -/

section Accepting

variable {rule : Rule} {before after : Context} {rules own found attached : List Fragment}
  {action target goal : String}

/-- Where matches jump to log, each rule jumps or stands in a chain of the rule's own. -/
theorem Route.cases_of_mem
    (route : Route rule found action target after attached goal) {part : Fragment}
    (member : part ∈ attached) :
    (∃ matching ∈ found, part = jumpTo goal matching) ∨
      part.chain = some goal ∧
        after.chainNames.lookup (rule.serial, "log" ++ action) = some goal := by
  have ofJump {chain : String} (isJump : part ∈ found.map (jumpTo chain)) :
      ∃ matching ∈ found, part = jumpTo chain matching := by
    obtain ⟨matching, isMatching, rfl⟩ := List.mem_map.1 isJump
    exact ⟨matching, isMatching, rfl⟩
  cases route with
  | direct same => exact Or.inl (ofJump (same ▸ member))
  | shared _ same => exact Or.inl (ofJump (same ▸ member))
  | own known same =>
      rw [same] at member
      rcases List.mem_append.1 member with isJump | isBody
      · exact Or.inl (ofJump isJump)
      · exact Or.inr ⟨chain_of_mem_chainBody (fun _ => chain_of_mem_actionFragments) isBody, known⟩

/-- Behind its jumps an accepting rule accepts, with or without logging. -/
theorem StandsAmong.accepts
    {families : List String} {position family : String} {matched finished : List Fragment}
    (stands : rule.StandsAmong after (Fragment.combine [some finished,
      some (families.map Fragment.ofFamily), some [.ofTable "filter"]]) rules)
    (isMatched : ∀ part ∈ matched, MatchAt position part)
    (route : Route rule matched "accept" "ACCEPT" after finished goal)
    (isEnabled : family ∈ families) (reach : Reach matched family) (traffic : Traffic)
    (depth : Nat) :
    jumpVerdict (rules ++ after.auxiliary) traffic family (depth + 1) goal = some .accept := by
  refine stands.jumpVerdict_of_route route rfl (Or.inr ⟨by decide, by decide⟩)
    (fun log known isOwn jump obeys => ?_) depth
  have outside : ∀ part ∈ matched, part.chain ≠ some goal := fun part isPart inGoal =>
    stands.sound.not_isOrdinary known
      (isOrdinary_of_hook ((isMatched part isPart).chain goal inGoal))
  rw [isOwn]
  refine (chainVerdict_spread isEnabled).trans ((chainVerdict_ownChain outside reach).trans ?_)
  exact (verdict_actionFragments obeys.silent _ _).trans (obeys.verdict _ _ rfl)

end Accepting

/-! ## Expansions with a final rule -/

section Expansion

variable {rule : Rule} {before after start finish : Context}
  {update own following : List Fragment}

end Expansion

end Rule

end FirewallPolicy
