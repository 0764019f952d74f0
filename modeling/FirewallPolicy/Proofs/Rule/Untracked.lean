import FirewallPolicy.Proofs.Rule.Agreement

/-!
# Traffic that is not tracked

A filter rule for untracked traffic brings a rule that exempts the traffic from connection tracking.
It has the selectors of the rule in the chains that stand for the hooks, so it matches whatever the
rule matches there.
-/

namespace FirewallPolicy

open Context Fragment Run Stateful

namespace Rule

variable {rule derived : Rule} {directory : Directory} {before middle after : Context}
  {fragments own untracked : List Fragment} {hook : Hook} {family goal : String}

/-! ## Rules that exempt -/

/-- How the rule is derived that exempts traffic in one direction. -/
def untrackedDerivation (label : String) (changes : Record) : Derivation where
  label := label
  kind := .rule .noTrack
  changes := changes

theorem exists_isDerived_of_untrackedFragments
    {depth : Nat} (asks : rule.attributes.flag "no-track" = true)
    (known : before.sectionKind? "no-track" = some (.rule .noTrack))
    (run : untrackedFragments (expandTo (depth + 1)) rule before = (.ok fragments, after)) :
    ∃ derived middle, derived.kind = .noTrack ∧
      IsDerived (untrackedDerivation "no-track" []) rule derived before middle ∧
      derived.ownFragments middle = (.ok fragments, after) := by
  have asked : rule.action = "tarpit" ∨ rule.attributes.flag "no-track" = true := Or.inr asks
  simp only [untrackedFragments, Bool.or_eq_true, decide_eq_true_eq, asked, if_true,
    bind_eq_ok] at run
  obtain ⟨kind, _, reads, derives⟩ := run
  obtain ⟨again, rfl⟩ := sectionKind_eq_ok reads
  obtain rfl : .rule .noTrack = kind := Option.some.inj (known.symm.trans again)
  exact exists_isDerived rfl rfl derives

/-- How the filter rule for the replies is derived. -/
def replyDerivation : Derivation where
  label := "reply"
  kind := .rule .filter
  changes := [("reverse", .bool true)]

theorem exists_isDerived_of_replyFragments
    {depth : Nat} {related : List Fragment} (asks : rule.attributes.flag "no-track" = true)
    (known : before.sectionKind? "no-track" = some (.rule .noTrack))
    (run : replyFragments (expandTo (depth + 1)) rule related before = (.ok fragments, after)) :
    ∃ derived middle untracked last reply, derived.kind = .noTrack ∧
      IsDerived (untrackedDerivation "no-track-reply" [("reverse", .bool true)]) rule derived before
        middle ∧
      derived.ownFragments middle = (.ok untracked, last) ∧ fragments = untracked ++ reply ∧
      (last.sectionKind? "filter" = some (.rule .filter) →
        derive (expandTo (depth + 1)) rule rule.attributes replyDerivation last =
          (.ok reply, after)) := by
  unfold replyFragments at run
  extract_lets rest at run
  simp only [asks, Bool.not_true, Bool.false_eq_true, if_false] at run
  have continued : rest () before = (.ok fragments, after) := by
    split at run
    · obtain ⟨_, _, reports, _⟩ := bind_eq_ok.1 run
      exact (report_eq_ok.1 reports).elim
    · exact run
  simp only [rest, bind_eq_ok, pure_eq_ok] at continued
  obtain ⟨kind, _, reads, untracked, last, derives, answering, _, finds, reply, _, answers, rfl,
    rfl⟩ := continued
  obtain ⟨again, rfl⟩ := sectionKind_eq_ok reads
  obtain rfl : .rule .noTrack = kind := Option.some.inj (known.symm.trans again)
  obtain ⟨derived, middle, isKind, isDerived, owns⟩ := exists_isDerived rfl rfl derives
  refine ⟨derived, middle, untracked, last, reply, isKind, isDerived, owns, rfl, fun isFilter => ?_⟩
  obtain ⟨found, rfl⟩ := sectionKind_eq_ok finds
  obtain rfl : .rule .filter = answering := Option.some.inj (isFilter.symm.trans found)
  exact answers

/-! ## The same selectors in both tables -/

/-- The rule exempts traffic: it takes over the selectors and matches the same direction. -/
structure IsExempting (rule derived : Rule) : Prop where
  kind : derived.kind = .noTrack
  takes : TakesOver transferred rule derived
  direction : derived.reverse = rule.reverse

/-- A choice for the rule has one for the exempting rule with tokens among its own. -/
theorem IsExempting.exists_choice
    {parts : rule.Parts directory} {others : derived.Parts directory} {holds : String → Prop}
    {chain : String} (exempts : IsExempting rule derived) (isFilter : rule.kind = .filter)
    (plain : rule.attributes.flag "dnat" = false) (mapped : RuleKind.noTrack.chainOf? hook = some chain)
    (choice : Choice parts) (fits : choice.FitsAt hook.chainName family)
    (each : ∀ token ∈ choice.tokens, holds token) :
    ∃ other : Choice others, other.FitsAt chain family ∧ ∀ token ∈ other.tokens, holds token := by
  obtain ⟨isKind, takes, sameSide⟩ := exempts
  have notRedirecting : derived.kind.redirects = false := by
    rw [isKind]
    rfl
  -- The zone is seen from the chain that stands for the hook.
  have isZone : choice.zone.seenFrom chain ∈ others.zones := by
    rw [Parts.projects_zones isFilter sameSide (takes.zonesIn (by decide))
      (takes.zonesOut (by decide)), isKind]
    exact ⟨choice.zone, choice.isZone,
      RuleKind.project?_eq_some.2 ⟨hook, chain, fits.hook, mapped, rfl⟩⟩
  -- The other dimensions are the same.
  have isSource : choice.source ∈ orAny others.sources :=
    (Parts.mem_sources_iff (takes.get "src" (by decide)) sameSide).2 choice.isSource
  have isDestination : choice.destination ∈ orAny others.destinations := by
    have ruleRun := parts.destinationsRun
    have otherRun := others.destinationsRun
    have unchanged : rule.changesDestination = false := by
      simp [changesDestination, plain]
    have otherUnchanged : derived.changesDestination = false := by
      simp [changesDestination, notRedirecting]
    rw [destinationFragments_of_plain unchanged] at ruleRun
    rw [destinationFragments_of_plain otherUnchanged] at otherRun
    rw [mem_addressFragments_iff otherRun,
      matchesHosts_congr (takes.get "dest" (by decide)) sameSide]
    exact (mem_addressFragments_iff ruleRun).1 choice.isDestination
  have isSet : choice.set ∈ orAny others.sets := by
    rw [Parts.sets_eq (takes.get "ipset" (by decide)) sameSide]
    exact choice.isSet
  have isService : choice.service ∈ orAny others.services := by
    have named := parts.servicesRead
    rw [serviceMatches_of_plain isFilter plain] at named
    rw [Parts.services_eq notRedirecting (takes.services (by decide)) sameSide named]
    exact choice.isService
  let other : Choice others := ⟨choice.zone.seenFrom chain, choice.source, choice.destination,
    choice.set, choice.service, isZone, isSource, isDestination, isSet, isService⟩
  obtain ⟨ofZone, ofOthers⟩ := List.forall_mem_cons.1 fits.family
  refine ⟨other, ⟨chain_seenFrom fits.hook chain, List.forall_mem_cons.2 ⟨ofZone, ofOthers⟩⟩, ?_⟩
  · intro token isToken
    obtain ⟨part, isPart, inPart⟩ := List.mem_flatMap.1 isToken
    rcases List.mem_cons.1 isPart with rfl | isOther
    · apply holds_seenFrom _ token inPart
      intro token inZone
      exact each token (List.mem_flatMap.2 ⟨choice.zone, List.mem_cons_self .., inZone⟩)
    · exact each token (List.mem_flatMap.2 ⟨part, List.mem_cons_of_mem _ isOther, inPart⟩)

/-- Whatever the rule matches at a hook, the exempting rule matches in the chain that stands for the
hook. -/
theorem IsExempting.exists_line
    (exempts : IsExempting rule derived) (isFilter : rule.kind = .filter)
    (accepts : rule.action = "accept") (plain : rule.attributes.flag "dnat" = false)
    {finish last : Context} (sound : Context.Sound before) (ruleSound : rule.Sound before.logBook)
    (owns : rule.ownFragments before = (.ok own, finish))
    (soundToo : Context.Sound middle) (derivedSound : derived.Sound middle.logBook)
    (hosts : middle.hosts.directory = before.hosts.directory)
    (settings : last.settings = finish.settings)
    (untracks : derived.ownFragments middle = (.ok untracked, last))
    {holds : String → Prop} {part : Fragment} (member : part ∈ own)
    (inHook : part.chain = some hook.chainName) (ofFamily : part.family = some family)
    (each : ∀ token ∈ part.tokens, holds token) :
    ∃ line ∈ untracked, line.family = some family ∧ line.table = some "raw" ∧
      line.chain = RuleKind.noTrack.chainOf? hook ∧ line.target = some "CT --notrack" ∧
      ∀ token ∈ line.tokens, holds token := by
  obtain ⟨chain, mapped⟩ : ∃ chain, RuleKind.noTrack.chainOf? hook = some chain := by
    cases hook <;> exact ⟨_, rfl⟩
  have exempting : derived.target = .ok (some "CT --notrack") := by
    simp [Rule.target, exempts.kind]
  obtain ⟨parts, _, _, _, stands⟩ :=
    exists_standsByChoices (target_of_accepting isFilter accepts) sound ruleSound rfl owns
  obtain ⟨others, _, goal, isFinished, standsToo⟩ :=
    exists_standsByChoices exempting soundToo derivedSound hosts untracks
  have notLogging : derived.kind.logs = false := by
    rw [exempts.kind]
    rfl
  have goes := (isFinished.goesOn.of_plain notLogging).1
  rw [exempting] at goes
  obtain rfl : "CT --notrack" = goal := Option.some.inj (Except.ok.inj goes)
  obtain ⟨choice, known, isKnown, fits, rfl⟩ :=
    (stands hook.chainName (hookName_mem hook) part inHook).1 member
  obtain rfl : known = family := Option.some.inj ofFamily
  obtain ⟨other, otherFits, otherEach⟩ :
      ∃ other : Choice others, other.FitsAt chain known ∧ ∀ token ∈ other.tokens, holds token :=
    exempts.exists_choice isFilter plain mapped choice fits each
  have inFamilies : known ∈ derived.families last.settings := by
    have notNat : derived.kind.isNat = false := by
      rw [exempts.kind]
      rfl
    have ruleNotNat : rule.kind.isNat = false := by
      rw [isFilter]
      rfl
    rw [families, settings, notNat]
    rw [families, ruleNotNat] at isKnown
    exact isKnown
  have isLine : other.placed chain known "CT --notrack" ∈ untracked :=
    (standsToo chain (mem_hookNames_of_chainOf? mapped) _ rfl).2 ⟨other, known, inFamilies, otherFits, rfl⟩
  refine ⟨_, isLine, rfl, ?_, mapped.symm, rfl, otherEach⟩
  change some derived.kind.table = _
  rw [exempts.kind]
  rfl

/-! ## Expansions -/

/-- The destination of traffic that is not tracked is not changed. -/
theorem flag_dnat_of_untracked
    {expand : Rule → Run (List Fragment)} (asks : rule.attributes.flag "no-track" = true)
    (run : dnatFragments expand rule before = (.ok fragments, after)) :
    rule.attributes.flag "dnat" = false := by
  by_contra changes
  have flagged : rule.attributes.flag "dnat" = true := by simpa using changes
  unfold dnatFragments at run
  extract_lets derived unset tracked at run
  have refused : ∀ u start finish, tracked u start ≠ (.ok fragments, finish) := by
    intro u start finish trackedRun
    simp only [tracked, asks, if_true] at trackedRun
    obtain ⟨_, _, reports, _⟩ := bind_eq_ok.1 trackedRun
    exact (report_eq_ok.1 reports).elim
  simp only [flagged, Bool.not_true, Bool.false_eq_true, if_false] at run
  split at run
  · obtain ⟨_, _, reports, _⟩ := bind_eq_ok.1 run
    exact (report_eq_ok.1 reports).elim
  · exact refused () _ _ run

theorem names_of_reverse
    {derivation : Derivation} (reverses : derivation.changes = [("reverse", .bool true)]) :
    ∀ change ∈ derivation.changes, change.1 ∈ plainNames := by
  rw [reverses]
  simp [plainNames]

theorem Derivation.isPlain_of_reverse
    {derivation : Derivation} (reverses : derivation.changes = [("reverse", .bool true)]) :
    derivation.IsPlain :=
  Derivation.isPlain_of_names (names_of_reverse reverses)

/-- What is derived for the replies takes over the selectors and matches the other direction. -/
theorem IsDerived.facts_of_reverse
    {derivation : Derivation} (isDerived : IsDerived derivation rule derived before middle)
    (reverses : derivation.changes = [("reverse", .bool true)]) (kept : derivation.omitted = [])
    (opened : IsOpened rule.attributes) (reached : rule.Reached before) :
    TakesOver transferred rule derived ∧ derived.reverse = true ∧ Context.Sound middle ∧
      derived.Sound middle.logBook := by
  have notOmitted (name : String) : name ∉ derivation.omitted := by
    rw [kept]
    exact List.not_mem_nil
  obtain ⟨soundMiddle, derivedSound⟩ := isDerived.sound (Derivation.isPlain_of_reverse reverses)
    (fun book _ => Derivation.isDirected_of_names (names_of_reverse reverses) book) reached.sound
    reached.ruleSound
  refine ⟨?_, isDerived.reverse_eq_true opened reverses (notOmitted _), soundMiddle, derivedSound⟩
  apply isDerived.takesOver opened reached.knows
  · exact fun name isName => List.mem_append_left _ isName
  · rw [reverses]
    decide
  · exact fun name _ => notOmitted name

/-- The rule that exempts what an accepting rule for untracked traffic matches is among those that
follow it. -/
theorem exists_isExempting
    {start : Context} {following : List Fragment} (reached : rule.Reached start)
    (opened : IsOpened rule.attributes) (accepts : rule.action = "accept")
    (asks : rule.attributes.flag "no-track" = true)
    (known : start.sectionKind? "no-track" = some (.rule .noTrack))
    (run : followingFragments (expandTo 3) rule start = (.ok following, after)) :
    rule.attributes.flag "dnat" = false ∧
      ∃ derived middle untracked last, IsExempting rule derived ∧ Context.Sound middle ∧
        derived.Sound middle.logBook ∧ Grows start middle ∧
        derived.ownFragments middle = (.ok untracked, last) ∧ untracked ⊆ following := by
  obtain ⟨redirected, untracked, final, related, reply, first, second, third, fourth, followed,
    rfl⟩ := exists_followedBy accepts run
  obtain ⟨atFirst, _, _, atFourth⟩ := followed.reached reached
  have toFirst : Grows start first := followed.grows_first
  have toFourth : Grows start fourth :=
    ((toFirst.trans followed.grows_second).trans followed.grows_third).trans followed.grows_fourth
  refine ⟨flag_dnat_of_untracked asks followed.redirects, ?_⟩
  by_cases replies : rule.reverse = true
  · have knownThere : fourth.sectionKind? "no-track" = some (.rule .noTrack) := by
      rw [toFourth.sectionKind?, known]
    obtain ⟨derived, middle, exempted, last, rest, isKind, isDerived, owns, rfl, -⟩ :=
      exists_isDerived_of_replyFragments asks knownThere followed.replies
    obtain ⟨takes, reverses, soundMiddle, derivedSound⟩ :=
      isDerived.facts_of_reverse rfl rfl opened atFourth
    refine ⟨derived, middle, exempted, last, ⟨isKind, takes, reverses.trans replies.symm⟩,
      soundMiddle, derivedSound, toFourth.trans isDerived.notes.grows, owns, fun part member => ?_⟩
    simp [member]
  · have knownThere : first.sectionKind? "no-track" = some (.rule .noTrack) := by
      rw [toFirst.sectionKind?, known]
    obtain ⟨derived, middle, isKind, isDerived, owns⟩ :=
      exists_isDerived_of_untrackedFragments asks knownThere followed.untracks
    have named : ∀ change ∈ ([] : Record), change.1 ∈ plainNames := by simp
    obtain ⟨soundMiddle, derivedSound⟩ := isDerived.sound (Derivation.isPlain_of_names named)
      (fun book _ => Derivation.isDirected_of_names named book) atFirst.sound atFirst.ruleSound
    have takes : TakesOver transferred rule derived := by
      apply isDerived.takesOver opened atFirst.knows
      · exact fun name isName => List.mem_append_left _ isName
      · simp [untrackedDerivation]
      · simp [untrackedDerivation]
    have direction : derived.reverse = rule.reverse := by
      rw [eq_false_of_ne_true replies]
      exact isDerived.reverse_eq_false opened (by simp [untrackedDerivation])
    refine ⟨derived, middle, untracked, second, ⟨isKind, takes, direction⟩, soundMiddle,
      derivedSound, toFirst.trans isDerived.notes.grows, owns, fun part member => ?_⟩
    simp [member]

/-- In every table the zones of a rule are those of the filter table, each as the chain for its hook
sees it, without repetitions.  So whatever an accepting rule for untracked traffic matches at a hook
is exempt from connection tracking in the chain for the hook. -/
theorem zones_projected_and_exempted :
    (∀ (rule mapped : Rule) (before middle later : Context) (found : List Fragment),
      rule.kind.table = "filter" → mapped.zonesIn = rule.zonesIn →
      mapped.zonesOut = rule.zonesOut → mapped.reverse = rule.reverse →
      later.hosts.directory = before.hosts.directory →
      rule.zoneFragments before = (.ok found, middle) →
      ∃ placed afterwards, mapped.zoneFragments later = (.ok placed, afterwards) ∧ placed.Nodup ∧
        mapped.kind.Projects found placed) ∧
    (∀ (rule : Rule) (before after : Context) (rules : List Fragment),
      IsExpanded .filter rule before rules after → rule.action = "accept" →
      rule.attributes.flag "no-track" = true →
      before.sectionKind? "no-track" = some (.rule .noTrack) →
      ∃ update own following start finish,
        updateFragments (expandTo 3) rule before = (.ok update, start) ∧
        rule.ownFragments start = (.ok own, finish) ∧
        followingFragments (expandTo 3) rule finish = (.ok following, after) ∧
        rules = update ++ own ++ following ∧
        ∀ (hook : Hook) (family : String) (holds : String → Prop),
          ∀ part ∈ own, part.chain = some hook.chainName → part.family = some family →
            (∀ token ∈ part.tokens, holds token) →
            ∃ line ∈ following, line.family = some family ∧ line.table = some "raw" ∧
              line.chain = RuleKind.noTrack.chainOf? hook ∧
              line.target = some "CT --notrack" ∧ ∀ token ∈ line.tokens, holds token) := by
  constructor
  · intro rule mapped before middle later found isFilter sameIn sameOut sameSide hosts run
    have sameSides : mapped.sidePairs = rule.sidePairs := by
      unfold sidePairs
      rw [sameIn, sameOut, sameSide]
    obtain ⟨placed, placedRun, nodup, projects⟩ :=
      exists_projected_zoneFragments isFilter sameSides (determined_zoneFragments.outcome_eq run)
    rw [← hosts] at placedRun
    obtain ⟨afterwards, laterRun⟩ := determined_zoneFragments.exists_eq placedRun
    exact ⟨placed, afterwards, laterRun, nodup, projects⟩
  · intro rule before after rules expanded accepts asks known
    obtain ⟨update, own, following, start, finish, expands, rfl⟩ := expanded.exists_expands rfl
    refine ⟨update, own, following, start, finish, expands.updates, expands.own, expands.following,
      rfl, fun hook family holds part member inHook ofFamily each => ?_⟩
    have toFinish : Grows before finish := expands.update.grows.trans expands.grows_own
    have reached : rule.Reached finish :=
      ⟨expands.sound_finish, expands.ruleSound_finish, (expanded.reached rfl).knows.grows toFinish⟩
    have knownThere : finish.sectionKind? "no-track" = some (.rule .noTrack) := by
      rw [toFinish.sectionKind?, known]
    obtain ⟨plain, derived, middle, untracked, last, exempts, soundMiddle, derivedSound, grows,
      untracks, among⟩ := exists_isExempting reached (expanded.isOpened rfl) accepts asks knownThere
        expands.following
    have hosts : middle.hosts.directory = start.hosts.directory :=
      grows.directory.trans expands.grows_own.directory
    have settings : last.settings = finish.settings :=
      (grows_ownFragments.of_eq untracks : Grows middle last).settings.trans grows.settings
    obtain ⟨line, isLine, exempt⟩ := exempts.exists_line expanded.kind_eq accepts plain
      expands.sound_start expands.ruleSound_start expands.own soundMiddle derivedSound hosts
      settings untracks member inHook ofFamily each
    exact ⟨line, among isLine, exempt⟩

/-- What declares a rule for traffic from the zone that is not tracked. -/
def untrackedSource : Entry :=
  .raw (.map [(.text "in", .text "lan"), (.text "no-track", .bool true)])

/-- The declaration of the rule. -/
def untrackedDeclaration : Except Failure Rule × Context :=
  Rule.declare .filter "filter 1" untrackedSource policyContext

/-- Traffic from the zone to the firewall is exempt before routing. -/
theorem exempted_of_untrackedSource :
    (∃ found placed middle after, lanRule.zoneFragments lanContext = (.ok found, middle) ∧
      found.length = 4 ∧
      { lanRule with kind := .noTrack }.zoneFragments lanContext = (.ok placed, after) ∧
      placed.Nodup ∧ RuleKind.noTrack.Projects found placed) ∧
    ∃ rule rules after,
      IsExpanded .filter rule untrackedDeclaration.2 rules after ∧ rule.action = "accept" ∧
      rule.attributes.flag "no-track" = true ∧
      untrackedDeclaration.2.sectionKind? "no-track" = some (.rule .noTrack) ∧
      ∃ line ∈ rules, line.family = some "inet" ∧ line.table = some "raw" ∧
        line.chain = some "PREROUTING" ∧ line.target = some "CT --notrack" ∧
        ∀ token ∈ line.tokens, token = "-i eth0" := by
  obtain ⟨projected, exempted⟩ := zones_projected_and_exempted
  constructor
  · obtain ⟨found, zones, length⟩ :
        ∃ found ∈ (lanRule.zoneFragments lanContext).1.toOption, found.length = 4 := by
      decide +kernel
    have run := eq_of_mem_toOption zones
    obtain ⟨placed, after, placedRun, nodup, projects⟩ :=
      projected lanRule { lanRule with kind := .noTrack } lanContext _ lanContext found rfl rfl rfl
        rfl rfl run
    exact ⟨found, placed, _, after, run, length, placedRun, nodup, projects⟩
  · obtain ⟨rule, declares, accepts, asks, update, updates, own, owns, rules, runs, part, member,
        inHook, ofFamily, tokens⟩ :
        ∃ rule ∈ untrackedDeclaration.1.toOption, rule.action = "accept" ∧
          rule.attributes.flag "no-track" = true ∧
          ∃ update ∈ (updateFragments (expandTo 3) rule untrackedDeclaration.2).1.toOption,
          ∃ own ∈ (rule.ownFragments
            (updateFragments (expandTo 3) rule untrackedDeclaration.2).2).1.toOption,
          ∃ rules ∈ (rule.fragments untrackedDeclaration.2).1.toOption,
          ∃ part ∈ own, part.chain = some Hook.input.chainName ∧ part.family = some "inet" ∧
            part.tokens = ["-i eth0"] := by
      decide +kernel
    have known : untrackedDeclaration.2.sectionKind? "no-track" = some (.rule .noTrack) := by
      decide +kernel
    have written : ∀ entries, declaration? untrackedSource = some entries →
        (recordOf entries).IsWritten := by
      rintro entries ⟨⟩
      exact isWritten_recordOf (by decide)
    have expanded : IsExpanded .filter rule untrackedDeclaration.2 rules _ :=
      isExpanded_of_policyContext written (eq_of_mem_toOption declares) (eq_of_mem_toOption runs)
    obtain ⟨early, found, following, start, finish, updatesAgain, ownsAgain, _, rfl, exempts⟩ :=
      exempted rule _ _ rules expanded accepts asks known
    obtain ⟨_, rfl⟩ := Prod.mk.inj ((eq_of_mem_toOption updates).symm.trans updatesAgain)
    obtain ⟨same, _⟩ := Prod.mk.inj ((eq_of_mem_toOption owns).symm.trans ownsAgain)
    obtain rfl : own = found := Except.ok.inj same
    obtain ⟨line, isLine, isInet, isRaw, inChain, target, holds⟩ :=
      exempts .input "inet" (· = "-i eth0") part member inHook ofFamily (by simp [tokens])
    exact ⟨rule, _, _, expanded, accepts, asks, known, line, List.mem_append_right _ isLine, isInet,
      isRaw, inChain, target, holds⟩

end Rule

end FirewallPolicy
