import FirewallPolicy.Proofs.Rule.Destination

/-!
# Filter rules after translation

Filter rules see traffic after its destination was changed.  A rule with a new destination matches
the new address and port, and so do the final rule and the related one that are derived from it.
-/

namespace FirewallPolicy

open Context Fragment Run Stateful

namespace Rule

variable {rule derived : Rule} {directory : Directory} {before after start middle : Context}
  {fragments own : List Fragment} {address : String} {derivation : Derivation}

/-! ## Parts of an expansion -/

/-- A sound rule has fragments of its own in a sound context. -/
structure Owns (rule : Rule) (before : Context) (own : List Fragment) (after : Context) : Prop where
  sound : Context.Sound before
  ruleSound : rule.Sound before.logBook
  run : rule.ownFragments before = (.ok own, after)

theorem exists_owns
    {kind : RuleKind} {depth : Nat} (reached : rule.Reached start) (plain : derivation.IsPlain)
    (isDirected : ∀ book, rule.Sound book → derivation.IsDirected book)
    (isKind : derivation.kind = .rule kind) (notFilter : kind.isFilter = false)
    (run : derive (expandTo (depth + 1)) rule rule.attributes derivation start =
      (.ok fragments, after)) :
    ∃ derived middle, derived.kind = kind ∧ IsDerived derivation rule derived start middle ∧
      derived.Owns middle fragments after := by
  obtain ⟨derived, middle, sameKind, isDerived, owns⟩ := exists_isDerived isKind notFilter run
  obtain ⟨sound, ruleSound⟩ := isDerived.sound plain isDirected reached.sound reached.ruleSound
  exact ⟨derived, middle, sameKind, isDerived, sound, ruleSound, owns⟩

/-- How the rule is derived that changes the destination. -/
def redirection (address : String) (port : Value) : Derivation where
  label := "dnat"
  kind := .rule .dnat
  changes := [("to-addr", .text address), ("to-port", port)]
  omitted := ["out"]

/-- Only tracked traffic that no address set is matched for gets a new destination. -/
theorem dnatFragments_eq_ok
    {expand : Rule → Run (List Fragment)} (changes : rule.attributes.flag "dnat" = true)
    (known : before.sectionKind? "dnat" = some (.rule .dnat))
    (run : dnatFragments expand rule before = (.ok fragments, after)) :
    rule.attributes.flag "no-track" = false ∧ rule.attributes.flag "ipset" = false ∧
      ∃ address port middle, rule.dnatAddress before = (.ok address, middle) ∧
        rule.dnatField "port" = .ok port ∧
        derive expand rule rule.attributes (redirection address port) middle =
          (.ok fragments, after) := by
  -- A check that fails ends the run.
  have checked {failing : Bool} {cause : Cause} {rest : Unit → Run (List Fragment)}
      (run : (if failing = true then report rule.location cause >>= rest else rest ()) before =
        (.ok fragments, after)) :
      failing = false ∧ rest () before = (.ok fragments, after) := by
    cases failing with
    | true =>
        obtain ⟨_, _, reports, _⟩ := bind_eq_ok.1 run
        exact (report_eq_ok.1 reports).elim
    | false => exact ⟨rfl, run⟩
  unfold dnatFragments at run
  extract_lets derives unset tracked at run
  simp only [changes, Bool.not_true, Bool.false_eq_true, if_false] at run
  obtain ⟨_, trackedRun⟩ := checked run
  obtain ⟨notUntracked, unsetRun⟩ := checked trackedRun
  obtain ⟨noSet, derivesRun⟩ := checked unsetRun
  simp only [derives, bind_eq_ok, recording_eq_ok] at derivesRun
  obtain ⟨address, middle, resolves, port, _, ⟨isPort, rfl⟩, kind, later, isKind, derivesRun⟩ :=
    derivesRun
  obtain ⟨found, rfl⟩ := sectionKind_eq_ok isKind
  have grows : Grows before later := (notes_dnatAddress.of_eq resolves : Notes before _).grows
  rw [grows.sectionKind?, known] at found
  obtain rfl := Option.some.inj found
  exact ⟨notUntracked, noSet, address, port, later, resolves, isPort, derivesRun⟩

/-- An accepting rule for tracked traffic exempts none. -/
theorem untrackedFragments_of_tracked
    {expand : Rule → Run (List Fragment)} (accepts : rule.action = "accept")
    (tracked : rule.attributes.flag "no-track" = false) :
    untrackedFragments expand rule = pure [] := by
  have unasked : (rule.action = "tarpit" || rule.attributes.flag "no-track") = false := by
    rw [accepts, tracked]
    decide
  unfold untrackedFragments
  rw [unasked]
  rfl

theorem replyFragments_of_tracked
    {expand : Rule → Run (List Fragment)} {related : List Fragment}
    (tracked : rule.attributes.flag "no-track" = false) :
    replyFragments expand rule related = pure [] := by
  unfold replyFragments
  rw [tracked]
  rfl

theorem updateFragments_of_null
    {expand : Rule → Run (List Fragment)}
    (unlimited : (rule.attributes.get "update-limit").isNull = true) :
    updateFragments expand rule = pure [] := by
  unfold updateFragments
  simp only [unlimited, if_true]

/-- How the rules for related traffic are derived, for each direction. -/
def relatedDerivation : Derivation where
  label := "related"
  kind := .rule .related

def relatedReplyDerivation : Derivation where
  label := "related-reply"
  kind := .rule .related
  changes := [("reverse", .bool true)]

theorem relatedFragments_eq_ok
    {expand : Rule → Run (List Fragment)}
    (unlisted : (rule.attributes.get "related").isNull = true)
    (run : relatedFragments expand rule before = (.ok fragments, after)) :
    ∃ forward reply middle,
      derive expand rule rule.attributes relatedDerivation before = (.ok forward, middle) ∧
      derive expand rule rule.attributes relatedReplyDerivation middle = (.ok reply, after) ∧
      fragments = forward ++ reply := by
  unfold relatedFragments at run
  simp only [unlisted, if_true, bind_eq_ok, pure_eq_ok] at run
  obtain ⟨forward, middle, isForward, reply, _, isReply, rfl, rfl⟩ := run
  exact ⟨forward, reply, middle, isForward, isReply, rfl⟩

/-! ## At the hooks -/

/-- All IPv4 rules at the hooks of the filter table match the new destination. -/
def AllTranslated (rule : Rule) (directory : Directory) (address : String)
    (fragments : List Fragment) : Prop :=
  ∀ line ∈ fragments, line.family = some "inet" → line.table = some "filter" →
    ∀ hook ∈ hookNames, line.chain = some hook → rule.IsTranslated directory address line

theorem Owns.allTranslated
    {target : String} (owns : rule.Owns before own after) (read : rule.target = .ok (some target))
    (hosts : before.hosts.directory = directory)
    (isKind : rule.kind ∈ [.filter, .logging, .related]) (forward : rule.reverse = false)
    (agrees : rule.AgreesOnZones) (changesTo : rule.ChangesTo directory address) :
    rule.AllTranslated directory address own := by
  obtain ⟨parts, _, goal, _, stands⟩ :=
    exists_standsByChoices read owns.sound owns.ruleSound hosts owns.run
  intro line member ofFamily _ hook isHook inHook
  obtain ⟨choice, family, _, fits, rfl⟩ := (stands hook isHook line inHook).1 member
  obtain rfl : family = "inet" := Option.some.inj ofFamily
  exact choice.isTranslated isKind forward agrees changesTo fits

/-- A rule that is derived to accept has the new destination of the other one. -/
theorem IsDerived.allTranslated
    (isDerived : IsDerived derivation rule derived start middle)
    (owns : derived.Owns middle own after) (isKind : derived.kind ∈ [.logging, .related])
    (withDnat : derivation.withDnat = true) (nothingOmitted : derivation.omitted = [])
    (unchanged : ∀ change ∈ derivation.changes, change.1 ∉ "out" :: "reverse" :: openedNames)
    (opened : IsOpened rule.attributes) (knows : rule.Knows start)
    (hosts : start.hosts.directory = directory) (changesTo : rule.ChangesTo directory address) :
    rule.AllTranslated directory address own := by
  have redirects : derivation.kind.redirects = true := by
    rw [isDerived.kind]
    revert isKind
    cases derived.kind <;> decide
  have target : derived.target = .ok (some "ACCEPT") := by
    rcases List.mem_pair.1 isKind with same | same <;> simp [Rule.target, same]
  have takes : TakesOver ["out", "dnat"] rule derived := by
    apply isDerived.takesOver opened knows
    · rw [withDnat, redirects]
      decide
    · have among : ["out", "dnat"] ++ openedNames ⊆ "out" :: "reverse" :: openedNames := by decide
      exact fun change changed member => unchanged change changed (among member)
    · simp [nothingOmitted]
  have forward : derived.reverse = false := by
    apply isDerived.reverse_eq_false opened
    exact fun change changed member => unchanged change changed (List.mem_cons_of_mem _ member)
  have sameDestination := takes.get "dnat" (by decide)
  have derivedChanges : derived.ChangesTo directory address := changesTo.congr sameDestination
  have agrees : derived.AgreesOnZones := agreesOnZones_of_declare isDerived.declares
  have sameHosts : middle.hosts.directory = directory := isDerived.notes.directory.trans hosts
  have isTranslating : derived.kind ∈ [.filter, .logging, .related] := List.mem_cons_of_mem _ isKind
  have all := owns.allTranslated target sameHosts isTranslating forward agrees derivedChanges
  intro line member ofFamily inTable hook isHook inHook
  obtain ⟨stated, only, ports⟩ := all line member ofFamily inTable hook isHook inHook
  rw [takes.zonesOut (by decide)] at only
  refine ⟨stated, only, fun port isPort => ports port ?_⟩
  rw [dnatField, sameDestination]
  exact isPort

/-! ## Expansions -/

theorem IsExpanded.agreesOnZones
    {kind : RuleKind} {rules : List Fragment} (expanded : IsExpanded kind rule before rules after) :
    rule.AgreesOnZones := by
  obtain ⟨_, _, _, _, _, _, declares, _⟩ := expanded.declared
  exact agreesOnZones_of_declare declares

theorem AllTranslated.append
    {others : List Fragment} (first : rule.AllTranslated directory address fragments)
    (second : rule.AllTranslated directory address others) :
    rule.AllTranslated directory address (fragments ++ others) := by
  intro line member
  rcases List.mem_append.1 member with inFirst | inSecond
  · exact first line inFirst
  · exact second line inSecond

/-- What stands in another table is no rule of the filter table. -/
theorem allTranslated_of_redirecting
    (owns : derived.Owns middle own after) (isDnat : derived.kind = .dnat) :
    rule.AllTranslated directory address own := by
  intro line member _ inTable
  have inNat := table_of_mem_ownFragments owns.run member
  rw [isDnat, inTable] at inNat
  exact absurd (Option.some.inj inNat) (by decide)

theorem allTranslated_of_finalFragments
    {depth : Nat} (reached : rule.Reached start) (opened : IsOpened rule.attributes)
    (hosts : start.hosts.directory = directory) (changesTo : rule.ChangesTo directory address)
    (run : finalFragments (expandTo (depth + 1)) rule start = (.ok fragments, after)) :
    rule.AllTranslated directory address fragments := by
  obtain ⟨limitName, _, reads, run⟩ := bind_eq_ok.1 run
  obtain ⟨_, rfl⟩ := recording_eq_ok.1 reads
  by_cases limited : limitName = some "flow-limit"
  · rw [if_pos limited] at run
    obtain ⟨derived, middle, isLogging, isDerived, owns⟩ := exists_owns reached
      (isPlain_finalDerivation rule) (fun _ => isDirected_finalDerivation) rfl rfl run
    have isKind : derived.kind ∈ [.logging, .related] := by
      rw [isLogging]
      decide
    refine isDerived.allTranslated owns isKind rfl rfl ?_ opened reached.knows hosts changesTo
    simp [finalDerivation, openedNames]
  · rw [if_neg limited] at run
    obtain ⟨rfl, rfl⟩ := pure_eq_ok.1 run
    exact fun line none => absurd none List.not_mem_nil

/-- What follows an accepting rule with a new destination: the rule that redirects, a final rule and
the rules for related traffic. -/
structure FollowedTranslated (rule : Rule) (finish : Context) (address : String)
    (redirected final related : List Fragment) : Prop where
  redirects : ∃ port start derived middle last, rule.dnatField "port" = .ok port ∧
    rule.Reached start ∧ Grows finish start ∧
    IsDerived (redirection address port) rule derived start middle ∧
    derived.Owns middle redirected last
  finals : ∃ start last, rule.Reached start ∧ Grows finish start ∧
    finalFragments (expandTo 3) rule start = (.ok final, last)
  relates : ∃ start last, rule.Reached start ∧ Grows finish start ∧
    relatedFragments (expandTo 3) rule start = (.ok related, last)

theorem IsExpanded.exists_translated
    {rules : List Fragment} (expanded : IsExpanded .filter rule before rules after)
    (accepts : rule.action = "accept") (changesTo : rule.ChangesTo before.hosts.directory address)
    (known : before.sectionKind? "dnat" = some (.rule .dnat)) :
    ∃ update own redirected final related start finish,
      rule.Expands before after update own (redirected ++ final ++ related) start finish ∧
      rule.FollowedTranslated finish address redirected final related ∧
      rules = update ++ own ++ (redirected ++ final ++ related) := by
  obtain ⟨update, own, following, start, finish, expands, rfl⟩ := expanded.exists_expands rfl
  have toFinish : Grows before finish := expands.update.grows.trans expands.grows_own
  have reached : rule.Reached finish :=
    ⟨expands.sound_finish, expands.ruleSound_finish, (expanded.reached rfl).knows.grows toFinish⟩
  obtain ⟨redirected, untracked, final, related, reply, first, second, third, fourth, followed,
    rfl⟩ := exists_followedBy accepts expands.following
  obtain ⟨atFirst, atSecond, atThird, _⟩ := followed.reached reached
  have knownThere : finish.sectionKind? "dnat" = some (.rule .dnat) := by
    rw [toFinish.sectionKind?, known]
  obtain ⟨tracked, _, resolved, port, resolvedAt, resolves, isPort, redirects⟩ :=
    dnatFragments_eq_ok changesTo.changes knownThere followed.redirects
  have isAddress := determined_dnatAddress.outcome_eq resolves
  rw [toFinish.directory, changesTo.resolved] at isAddress
  obtain rfl : address = resolved := Except.ok.inj isAddress
  have resolving : Notes finish resolvedAt := notes_dnatAddress.of_eq resolves
  have named : ∀ change ∈ (redirection address port).changes, change.1 ∈ plainNames := by
    simp [redirection, plainNames]
  obtain ⟨derived, middle, _, isDerived, owns⟩ := exists_owns (reached.notes resolving)
    (Derivation.isPlain_of_names named) (fun book _ => Derivation.isDirected_of_names named book)
    rfl rfl redirects
  have untracks := followed.untracks
  have replies := followed.replies
  rw [untrackedFragments_of_tracked accepts tracked] at untracks
  rw [replyFragments_of_tracked tracked] at replies
  obtain ⟨rfl, rfl⟩ := pure_eq_ok.1 untracks
  obtain ⟨rfl, rfl⟩ := pure_eq_ok.1 replies
  have toThird : Grows finish third := followed.grows_first.trans followed.grows_third
  refine ⟨update, own, redirected, final, related, start, finish, ?_, ⟨?_, ?_, ?_⟩, by simp⟩
  · simpa using expands
  · exact ⟨port, resolvedAt, derived, middle, first, isPort, reached.notes resolving,
      resolving.grows, isDerived, owns⟩
  · exact ⟨first, third, atFirst, followed.grows_first, followed.finals⟩
  · exact ⟨third, fourth, atThird, toThird, followed.relates⟩

/-- An accepting rule with a new destination, and all that follows it but the rule for replies,
matches the new destination and the new port.  The rule that records events in a limit does not: it
is derived without the new destination. -/
theorem translated_of_isExpanded
    (rule : Rule) (before after : Context) (rules : List Fragment) (address : String)
    (expanded : IsExpanded .filter rule before rules after) (accepts : rule.action = "accept")
    (unlisted : (rule.attributes.get "related").isNull = true)
    (changesTo : rule.ChangesTo before.hosts.directory address)
    (known : before.sectionKind? "dnat" = some (.rule .dnat)) :
    ∃ update own further reply start finish middle last,
      updateFragments (expandTo 3) rule before = (.ok update, start) ∧
      rule.ownFragments start = (.ok own, finish) ∧
      derive (expandTo 3) rule rule.attributes relatedReplyDerivation middle = (.ok reply, last) ∧
      rules = update ++ own ++ further ++ reply ∧
      ((rule.attributes.get "update-limit").isNull = true → update = []) ∧
      (rule.reverse = false → rule.AllTranslated before.hosts.directory address own) ∧
      rule.AllTranslated before.hosts.directory address further := by
  obtain ⟨update, own, redirected, final, related, start, finish, expands, followed, rfl⟩ :=
    expanded.exists_translated accepts changesTo known
  have opened : IsOpened rule.attributes := expanded.isOpened rfl
  have toStart : Grows before start := expands.update.grows
  have toFinish : Grows before finish := toStart.trans expands.grows_own
  obtain ⟨port, _, derived, _, _, _, _, _, isDerived, owns⟩ := followed.redirects
  obtain ⟨second, _, atSecond, toSecond, finals⟩ := followed.finals
  obtain ⟨third, fourth, atThird, toThird, relates⟩ := followed.relates
  obtain ⟨forward, backward, middle, isForward, isBackward, rfl⟩ :=
    relatedFragments_eq_ok unlisted relates
  refine ⟨update, own, redirected ++ final ++ forward, backward, start, finish, middle, fourth,
    expands.updates, expands.own, isBackward, by simp, ?_, ?_, ?_⟩
  · intro unlimited
    have updates := expands.updates
    rw [updateFragments_of_null unlimited] at updates
    exact (pure_eq_ok.1 updates).1.symm
  · intro isForwards
    have isKind : rule.kind ∈ [.filter, .logging, .related] := by
      rw [expanded.kind_eq]
      decide
    have owns : rule.Owns start own finish :=
      ⟨expands.sound_start, expands.ruleSound_start, expands.own⟩
    exact owns.allTranslated (target_of_accepting expanded.kind_eq accepts) toStart.directory isKind
      isForwards expanded.agreesOnZones changesTo
  · have inNat : rule.AllTranslated before.hosts.directory address redirected :=
      allTranslated_of_redirecting owns (ObjectKind.rule.inj isDerived.kind).symm
    have isFinal : rule.AllTranslated before.hosts.directory address final :=
      allTranslated_of_finalFragments atSecond opened (toFinish.trans toSecond).directory changesTo
        finals
    have isRelated : rule.AllTranslated before.hosts.directory address forward := by
      have named : ∀ change ∈ relatedDerivation.changes, change.1 ∈ plainNames := by
        simp [relatedDerivation]
      obtain ⟨derived, _, isKind, isDerived, owns⟩ := exists_owns atThird
        (Derivation.isPlain_of_names named) (fun book _ => Derivation.isDirected_of_names named book)
        rfl rfl isForward
      apply isDerived.allTranslated owns _ rfl rfl _ opened atThird.knows
        (toFinish.trans toThird).directory changesTo
      · rw [isKind]
        decide
      · simp [relatedDerivation]
    exact (inNat.append isFinal).append isRelated

theorem changesTo_of_declaredContext
    {source : Entry} (changes : rule.attributes.flag "dnat" = true) (isInet : IsInet address)
    (resolved : address ∈ (rule.dnatAddress (declaredContext source)).1.toOption) :
    rule.ChangesTo (declaredContext source).hosts.directory address :=
  ⟨changes, isInet, determined_dnatAddress.outcome_eq (eq_of_mem_toOption resolved)⟩

theorem sectionKind_of_declaredContext
    {source : Entry} (declares : rule ∈ (filterDeclaration source).1.toOption) :
    (declaredContext source).sectionKind? "dnat" = some (.rule .dnat) := by
  have notes : Notes policyContext (declaredContext source) :=
    notes_declare.of_eq (eq_of_mem_toOption declares)
  rw [notes.grows.sectionKind?]
  decide +kernel

/-- What declares a rule for a new destination and a new port. -/
def translatingSource : Entry :=
  .raw (.map [
    (.text "dnat", .map [(.text "addr", .text "10.0.0.5"), (.text "port", .int 8080)]),
    (.text "service", .map [(.text "proto", .text "tcp"), (.text "port", .int 80)])])

/-- The rule matches the new destination and the new port. -/
theorem translated_of_translatingSource :
    ∃ rule rules after,
      IsExpanded .filter rule (declaredContext translatingSource) rules after ∧
      rule.action = "accept" ∧
      (rule.attributes.get "related").isNull = true ∧
      rule.ChangesTo (declaredContext translatingSource).hosts.directory "10.0.0.5" ∧
      (declaredContext translatingSource).sectionKind? "dnat" = some (.rule .dnat) ∧
      ∃ line ∈ rules, line.family = some "inet" ∧ line.chain = some "FORWARD" ∧
        line.tokens = ["-d 10.0.0.5", "-p tcp", "--dport 8080"] ∧
        rule.IsTranslated (declaredContext translatingSource).hosts.directory "10.0.0.5" line := by
  obtain ⟨rule, declares, accepts, unlisted, unlimited, changes, forward, resolved, own, owns,
      rules, runs, line, member, ofFamily, inTable, inHook, tokens⟩ :
      ∃ rule ∈ (filterDeclaration translatingSource).1.toOption, rule.action = "accept" ∧
        (rule.attributes.get "related").isNull = true ∧
        (rule.attributes.get "update-limit").isNull = true ∧
        rule.attributes.flag "dnat" = true ∧ rule.reverse = false ∧
        "10.0.0.5" ∈ (rule.dnatAddress (declaredContext translatingSource)).1.toOption ∧
        ∃ own ∈ (rule.ownFragments (declaredContext translatingSource)).1.toOption,
        ∃ rules ∈ (rule.fragments (declaredContext translatingSource)).1.toOption,
        ∃ line ∈ own, line.family = some "inet" ∧ line.table = some "filter" ∧
          line.chain = some "FORWARD" ∧
          line.tokens = ["-d 10.0.0.5", "-p tcp", "--dport 8080"] := by
    decide +kernel
  have known := sectionKind_of_declaredContext declares
  have isInet : IsInet "10.0.0.5" := by decide +kernel
  have written : ∀ entries, declaration? translatingSource = some entries →
      (recordOf entries).IsWritten := by
    rintro entries ⟨⟩
    exact isWritten_recordOf (by decide)
  have expanded := isExpanded_of_filterDeclaration written declares runs
  have changesTo := changesTo_of_declaredContext changes isInet resolved
  obtain ⟨update, found, further, reply, start, finish, _, _, updates, ownsAgain, _, rfl, _,
      isTranslated, _⟩ :=
    translated_of_isExpanded rule _ _ rules "10.0.0.5" expanded accepts unlisted changesTo known
  rw [updateFragments_of_null unlimited] at updates
  obtain ⟨rfl, rfl⟩ := pure_eq_ok.1 updates
  obtain ⟨same, _⟩ := Prod.mk.inj ((eq_of_mem_toOption owns).symm.trans ownsAgain)
  obtain rfl : own = found := Except.ok.inj same
  have isHook : "FORWARD" ∈ hookNames := by decide
  refine ⟨rule, _, _, expanded, accepts, unlisted, changesTo, known, line, by simp [member],
    ofFamily, inHook, tokens, ?_⟩
  exact isTranslated forward line member ofFamily inTable "FORWARD" isHook inHook

/-- What declares a rule for a new destination that records events in a limit. -/
def recordingSource : Entry :=
  .raw (.map [(.text "dnat", .text "10.0.0.5"), (.text "update-limit", .text "ssh")])

/-- Events are recorded for all traffic, whatever its destination. -/
theorem not_translated_of_recordingSource :
    ∃ rule rules after,
      IsExpanded .filter rule (declaredContext recordingSource) rules after ∧
      rule.action = "accept" ∧
      (rule.attributes.get "related").isNull = true ∧ rule.reverse = false ∧
      rule.ChangesTo (declaredContext recordingSource).hosts.directory "10.0.0.5" ∧
      (declaredContext recordingSource).sectionKind? "dnat" = some (.rule .dnat) ∧
      ∃ line ∈ rules, line.family = some "inet" ∧ line.table = some "filter" ∧
        line.chain = some "FORWARD" ∧ "--name user:ssh" ∈ line.tokens ∧ "--set" ∈ line.tokens ∧
        ¬ rule.IsTranslated (declaredContext recordingSource).hosts.directory "10.0.0.5" line := by
  obtain ⟨rule, declares, accepts, unlisted, changes, forward, resolved, rules, runs, line, member,
      ofFamily, inTable, inHook, named, records, notStated⟩ :
      ∃ rule ∈ (filterDeclaration recordingSource).1.toOption, rule.action = "accept" ∧
        (rule.attributes.get "related").isNull = true ∧ rule.attributes.flag "dnat" = true ∧
        rule.reverse = false ∧
        "10.0.0.5" ∈ (rule.dnatAddress (declaredContext recordingSource)).1.toOption ∧
        ∃ rules ∈ (rule.fragments (declaredContext recordingSource)).1.toOption,
        ∃ line ∈ rules, line.family = some "inet" ∧ line.table = some "filter" ∧
          line.chain = some "FORWARD" ∧ "--name user:ssh" ∈ line.tokens ∧
          "--set" ∈ line.tokens ∧ "-d 10.0.0.5" ∉ line.tokens := by
    decide +kernel
  have known := sectionKind_of_declaredContext declares
  have isInet : IsInet "10.0.0.5" := by decide +kernel
  have written : ∀ entries, declaration? recordingSource = some entries →
      (recordOf entries).IsWritten := by
    rintro entries ⟨⟩
    exact isWritten_recordOf (by decide)
  have expanded := isExpanded_of_filterDeclaration written declares runs
  have changesTo := changesTo_of_declaredContext changes isInet resolved
  exact ⟨rule, rules, _, expanded, accepts, unlisted, forward, changesTo, known, line, member,
    ofFamily, inTable, inHook, named, records, fun isTranslated => notStated isTranslated.stated⟩

end Rule

end FirewallPolicy
