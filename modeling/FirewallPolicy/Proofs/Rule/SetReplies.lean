import FirewallPolicy.Proofs.Rule.Reply
import FirewallPolicy.Proofs.Rule.Untracked

/-!
# Address sets in the reply direction

A rule that names an address set without flags matches the set by the side that its traffic comes
from, and its replies by the other side.  Flags that a rule states are matched as they are, in both
directions, so the rules for the replies to traffic that is not tracked match the set by the sides
that were stated for the traffic itself.
-/

namespace FirewallPolicy

open Context Fragment Run Stateful

/-! ## Flags -/

/-- The flag that matches a set by a side. -/
def Direction.setFlag : Direction → String
  | inward => "src"
  | outward => "dst"

/-- The flags of the sides as a match writes them. -/
def flagText (sides : List Direction) : String :=
  ",".intercalate (sides.map Direction.setFlag)

/-- The match of the named set by the sides. -/
def setMatch (name : Value) (sides : List Direction) : String :=
  "-m set --match-set " ++ name.written ++ " " ++ flagText sides

theorem isEmpty_setMatch (name : Value) (sides : List Direction) :
    (setMatch name sides).isEmpty = false :=
  isEmpty_option ("-m set --match-set " ++ name.written) (flagText sides)

theorem exists_flagText_cons (side : Direction) (rest : List Direction) :
    ∃ tail, flagText (side :: rest) = side.setFlag ++ tail := by
  unfold flagText
  cases rest with
  | nil => exact ⟨"", by simp⟩
  | cons next others =>
      refine ⟨"," ++ ",".intercalate ((next :: others).map Direction.setFlag), ?_⟩
      rw [List.map_cons, String.intercalate_cons_of_ne_nil (by simp), String.append_assoc]

/-- The first flags tell the texts apart. -/
theorem flagText_ne_opposite {sides : List Direction} (stated : sides ≠ []) :
    flagText sides ≠ flagText (sides.map Direction.opposite) := by
  obtain ⟨side, rest, rfl⟩ := List.exists_cons_of_ne_nil stated
  obtain ⟨tail, isText⟩ := exists_flagText_cons side rest
  obtain ⟨other, isOther⟩ := exists_flagText_cons side.opposite (rest.map Direction.opposite)
  intro same
  rw [List.map_cons, isText, isOther] at same
  have heads := congrArg (fun text => text.toList.head?) same
  cases side <;> simp [Direction.setFlag, Direction.opposite] at heads

namespace Rule

variable {rule reply derived : Rule} {name value : Value} {flags : List Direction}
  {before middle after : Context} {own rules fragments : List Fragment}

/-- The value states flags: by a list, by a text, or none of them. -/
inductive StatesFlags : Value → List Direction → Prop
  | absent {value : Value} : value.isTruthy = false → StatesFlags value []
  | listed {flags : List Direction} :
      flags ≠ [] → StatesFlags (.list (flags.map fun side => .text side.setFlag)) flags
  | written {flags : List Direction} : flags ≠ [] → StatesFlags (.text (flagText flags)) flags

/-- The rule names an address set, with the flags that it states for the set. -/
def NamesSet (rule : Rule) (name : Value) (flags : List Direction) : Prop :=
  ∃ entries, (rule.attributes.get "ipset").entries? = some entries ∧
    Entries.get? entries (.text "name") = some name ∧
    StatesFlags ((Entries.get? entries (.text "args")).getD .null) flags

/-- The sides by which the rule matches its set: those of the stated flags, or the side where its
traffic comes from. -/
def setSides (rule : Rule) (flags : List Direction) : List Direction :=
  if flags = [] then [rule.side .inward] else flags

theorem mapM_flags
    {read : Value → Except Failure String} (flags : List Direction)
    (reads : ∀ side : Direction, read (.text side.setFlag) = .ok side.setFlag) :
    (flags.map fun side => Value.text side.setFlag).mapM read =
      .ok (flags.map Direction.setFlag) := by
  induction flags with
  | nil => rfl
  | cons side rest inductionHypothesis =>
      rw [List.map_cons, List.mapM_cons, reads, inductionHypothesis]
      rfl

theorem setFlags_eq (states : StatesFlags value flags) :
    rule.setFlags value = .ok (flagText (rule.setSides flags)) := by
  cases states with
  | absent unset =>
      have default_ : flagText (rule.setSides []) = if rule.reverse then "dst" else "src" := by
        unfold setSides side
        cases rule.reverse <;> rfl
      simp [setFlags, unset, default_]
  | listed stated =>
      have isTruthy : (Value.list (flags.map fun side => .text side.setFlag)).isTruthy = true := by
        simpa [Value.isTruthy] using stated
      simp only [setFlags, isTruthy, Value.opened]
      rw [setSides, if_neg stated, mapM_flags flags]
      · rfl
      · exact fun _ => rfl
  | written stated =>
      obtain ⟨side, rest, rfl⟩ := List.exists_cons_of_ne_nil stated
      obtain ⟨tail, isText⟩ := exists_flagText_cons side rest
      have isTruthy : (Value.text (flagText (side :: rest))).isTruthy = true := by
        rw [isText]
        cases side <;> simp [Value.isTruthy, Scalar.isTruthy, Direction.setFlag]
      unfold setFlags
      rw [isTruthy, setSides, if_neg stated]
      rfl

theorem isTruthy_of_substitute
    {mark : Nat} {whole : Value} {entries : Entries}
    (opens : Value.substitute mark whole value = .map entries) (nonempty : entries ≠ [])
    (isLoop : ∀ others, whole ≠ .map others) : value.isTruthy = true := by
  cases value with
  | map inside =>
      cases inside with
      | nil =>
          obtain rfl := Value.map.inj opens
          exact absurd rfl nonempty
      | cons _ _ => rfl
  | again other =>
      unfold Value.substitute at opens
      split at opens
      · exact absurd opens (isLoop _)
      · cases opens
  | _ => cases opens

theorem isTruthy_of_entries?
    {entries : Entries} (isMap : value.entries? = some entries) (nonempty : entries ≠ []) :
    value.isTruthy = true := by
  unfold Value.entries? at isMap
  split at isMap
  · next stated opens =>
      obtain rfl := Option.some.inj isMap
      cases value with
      | map inside =>
          obtain rfl : inside = stated := Value.map.inj opens
          simpa [Value.isTruthy] using nonempty
      | loop mark body =>
          have isLoop : ∀ others, Value.loop mark body ≠ .map others := by simp
          change Value.substitute mark (.loop mark body) body = _ at opens
          change body.isTruthy = true
          exact isTruthy_of_substitute opens nonempty isLoop
      | _ => cases opens
  · cases isMap

/-- The match of a rule for the set that it names. -/
theorem setFragments_eq (names : rule.NamesSet name flags) :
    rule.setFragments = .ok (some [.matching [setMatch name (rule.setSides flags)]]) := by
  obtain ⟨entries, isMap, isName, states⟩ := names
  have nonempty : entries ≠ [] := by
    rintro rfl
    cases isName
  have given := isTruthy_of_entries? isMap nonempty
  simp only [setFragments, given, isMap, isName, setFlags_eq states]
  rfl

theorem NamesSet.congr
    (names : rule.NamesSet name flags)
    (same : derived.attributes.get "ipset" = rule.attributes.get "ipset") :
    derived.NamesSet name flags := by
  unfold NamesSet
  rw [same]
  exact names

theorem setFragments_eq_iff
    {sides : List Direction} (names : rule.NamesSet name flags) :
    rule.setFragments = .ok (some [.matching [setMatch name sides]]) ↔
      setMatch name (rule.setSides flags) = setMatch name sides := by
  rw [setFragments_eq names]
  simp [matching, isEmpty_setMatch]

/-- Where the direction is the other one, the match is for the opposite sides only if no flags are
stated. -/
theorem setMatch_opposite_iff (other : derived.reverse = !rule.reverse) :
    setMatch name (derived.setSides flags) =
        setMatch name ((rule.setSides flags).map Direction.opposite) ↔ flags = [] := by
  by_cases unstated : flags = []
  · have sides : derived.side .inward = (rule.side .inward).opposite := by
      unfold side
      rw [other]
      cases rule.reverse <;> rfl
    simp [setSides, unstated, sides]
  · rw [setSides, setSides, if_neg unstated, if_neg unstated]
    constructor
    · intro same
      exact absurd ((String.append_right_inj _).1 same) (flagText_ne_opposite unstated)
    · exact fun none => absurd none unstated

/-! ## Rules for replies -/

/-- All lines at the hooks state the token. -/
def AllState (token : String) (own : List Fragment) : Prop :=
  ∀ line ∈ own, ∀ chain ∈ hookNames, line.chain = some chain → token ∈ line.tokens

/-- Where a rule stands, it matches its set. -/
theorem allState_setMatch
    {target : String} (read : rule.target = .ok (some target)) (names : rule.NamesSet name flags)
    (sound : Context.Sound before) (ruleSound : rule.Sound before.logBook)
    (run : rule.ownFragments before = (.ok own, after)) :
    AllState (setMatch name (rule.setSides flags)) own := by
  obtain ⟨parts, finished, goal, -, stands⟩ := exists_standsByChoices read sound ruleSound rfl run
  intro line member chain isHook inChain
  obtain ⟨choice, family, -, -, rfl⟩ := (stands chain isHook line inChain).1 member
  have sets : parts.sets = some [.matching [setMatch name (rule.setSides flags)]] :=
    Except.ok.inj (parts.setsRead.symm.trans (setFragments_eq names))
  have isSet : choice.set = .matching [setMatch name (rule.setSides flags)] := by
    have member := choice.isSet
    rw [sets] at member
    exact List.mem_singleton.1 member
  have inSet : setMatch name (rule.setSides flags) ∈ choice.set.tokens := by
    simp [isSet, matching, isEmpty_setMatch]
  exact List.mem_flatMap.2 ⟨choice.set, by simp [Choice.fragments], inSet⟩

theorem IsDerived.action_eq
    {derivation : Derivation} (isDerived : IsDerived derivation rule derived before middle)
    (plain : derivation.IsPlain) (logs : derived.kind.logs = true) : derived.action = "accept" := by
  refine action_of_declare logs rfl ?_ isDerived.declares
  rw [recordOf_toEntries]
  exact plain.lookup_eq_none (List.mem_cons_self ..)

/-- A derived filter rule stands among what it brings itself. -/
theorem exists_own_of_derive
    {depth : Nat} {derivation : Derivation} (isFilter : derivation.kind = .rule .filter)
    (run : derive (expandTo (depth + 1)) rule rule.attributes derivation before =
      (.ok fragments, after)) :
    ∃ derived middle update start own finish following, derived.kind = .filter ∧
      IsDerived derivation rule derived before middle ∧
      updateFragments (expandTo depth) derived middle = (.ok update, start) ∧
      derived.ownFragments start = (.ok own, finish) ∧ fragments = update ++ own ++ following := by
  obtain ⟨kind, derived, middle, isKind, declares, expands⟩ := derive_eq_ok run
  obtain rfl : .filter = kind := ObjectKind.rule.inj (isFilter.symm.trans isKind)
  obtain ⟨_, _, settled⟩ := settledFrom_of_declare declares
  have isDerived : IsDerived derivation rule derived before middle := by
    refine ⟨isKind.trans (by rw [settled.kind]), ?_⟩
    rw [settled.kind]
    exact declares
  have parts : derived.fragmentsWith (expandTo depth) middle = (.ok fragments, after) := expands
  have brings : derived.kind.isFilter = true := by
    rw [settled.kind]
    rfl
  simp only [fragmentsWith, brings, if_true, bind_eq_ok, pure_eq_ok] at parts
  obtain ⟨update, start, updates, own, finish, owns, following, _, _, rfl, rfl⟩ := parts
  exact ⟨derived, middle, update, start, own, finish, following, settled.kind, isDerived, updates,
    owns, rfl⟩

/-- The rule for replies takes over what it matches, and wherever it stands among the rules it
matches the set by its own sides. -/
structure AnswersFor (rule derived : Rule) (name : Value) (flags : List Direction)
    (rules : List Fragment) : Prop where
  takes : TakesOver transferred rule derived
  reverse : derived.reverse = true
  stands : ∃ middle own last, derived.ownFragments middle = (.ok own, last) ∧ own ⊆ rules ∧
    AllState (setMatch name (derived.setSides flags)) own

theorem AnswersFor.mono
    {others : List Fragment} (answers : AnswersFor rule derived name flags rules)
    (among : rules ⊆ others) : AnswersFor rule derived name flags others := by
  obtain ⟨middle, own, last, owns, inRules, states⟩ := answers.stands
  exact ⟨answers.takes, answers.reverse, middle, own, last, owns,
    fun part member => among (inRules member), states⟩

/-- An accepting rule for untracked traffic is followed by two rules for its replies, one that
exempts them and one that accepts them. -/
theorem exists_answersFor
    {start : Context} {following : List Fragment} (reached : rule.Reached start)
    (opened : IsOpened rule.attributes) (accepts : rule.action = "accept")
    (asks : rule.attributes.flag "no-track" = true)
    (knowsRaw : start.sectionKind? "no-track" = some (.rule .noTrack))
    (knowsFilter : start.sectionKind? "filter" = some (.rule .filter))
    (names : rule.NamesSet name flags)
    (run : followingFragments (expandTo 3) rule start = (.ok following, after)) :
    ∃ exempting answering, exempting.kind = .noTrack ∧ answering.kind = .filter ∧
      AnswersFor rule exempting name flags following ∧
      AnswersFor rule answering name flags following := by
  obtain ⟨redirected, untracked, final, related, reply, first, second, third, fourth, followed,
    rfl⟩ := exists_followedBy accepts run
  obtain ⟨-, -, -, atFourth⟩ := followed.reached reached
  have toFourth : Grows start fourth :=
    ((followed.grows_first.trans followed.grows_second).trans followed.grows_third).trans
      followed.grows_fourth
  obtain ⟨exempting, middle, exempted, last, rest, isRaw, exempts, owns, rfl, answers⟩ :=
    exists_isDerived_of_replyFragments asks (by rw [toFourth.sectionKind?, knowsRaw])
      followed.replies
  have notes : Notes fourth middle := exempts.notes
  have toLast : Grows fourth last := notes.grows.trans (grows_ownFragments.of_eq owns)
  obtain ⟨takes, reverses, soundMiddle, exemptingSound⟩ :=
    exempts.facts_of_reverse rfl rfl opened atFourth
  have soundLast : Context.Sound last := sound_ownFragments soundMiddle exemptingSound owns
  have atLast : rule.Reached last :=
    ⟨soundLast, atFourth.ruleSound.keeps atFourth.sound.logs toLast.logs,
      atFourth.knows.grows toLast⟩
  obtain ⟨answering, between, update, early, own, finish, others, isFilter, isAnswer, updates,
    answersOwn, rfl⟩ := exists_own_of_derive rfl
      (answers (by rw [toLast.sectionKind?, toFourth.sectionKind?, knowsFilter]))
  obtain ⟨takesToo, reversesToo, soundBetween, answeringSound⟩ :=
    isAnswer.facts_of_reverse rfl rfl opened atLast
  have brought : Brought answering between early update :=
    (brings_updateFragments (expandsSoundly_expandTo 2)).brought updates
  refine ⟨exempting, answering, isRaw, isFilter, ⟨takes, reverses, ?_⟩, takesToo, reversesToo, ?_⟩
  · refine ⟨middle, exempted, last, owns, fun part member => by simp [member], ?_⟩
    have target : exempting.target = .ok (some "CT --notrack") := by
      simp [Rule.target, isRaw]
    exact allState_setMatch target (names.congr (takes.get "ipset" (by decide))) soundMiddle
      exemptingSound owns
  · refine ⟨early, own, finish, answersOwn, fun part member => by simp [member], ?_⟩
    have accepting : answering.action = "accept" :=
      isAnswer.action_eq (Derivation.isPlain_of_reverse rfl) (by rw [isFilter]; rfl)
    exact allState_setMatch (target_of_accepting isFilter accepting)
      (names.congr (takesToo.get "ipset" (by decide)))
      (brought.sound answeringSound soundBetween)
      (answeringSound.keeps soundBetween.logs brought.grows.logs) answersOwn

/-- The reply of a rule matches the set of the rule by the opposite sides exactly where the rule
states no flags: stated flags are those of the reply too.  The rules that exempt and accept the
replies to untracked traffic are no different. -/
theorem setFragments_of_replies (names : rule.NamesSet name flags) :
    rule.setFragments = .ok (some [.matching [setMatch name (rule.setSides flags)]]) ∧
    (∀ reply : Rule, IsReply rule reply →
      (reply.setFragments = .ok (some [.matching
          [setMatch name ((rule.setSides flags).map Direction.opposite)]]) ↔ flags = []) ∧
      (flags ≠ [] → reply.setFragments = rule.setFragments)) ∧
    ∀ (before after : Context) (rules : List Fragment),
      IsExpanded .filter rule before rules after → rule.action = "accept" →
      rule.reverse = false → rule.attributes.flag "no-track" = true →
      before.sectionKind? "no-track" = some (.rule .noTrack) →
      before.sectionKind? "filter" = some (.rule .filter) →
        ∃ exempting answering : Rule, exempting.kind = .noTrack ∧ answering.kind = .filter ∧
          ∀ derived ∈ [exempting, answering], AnswersFor rule derived name flags rules ∧
            (setMatch name (derived.setSides flags) =
              setMatch name ((rule.setSides flags).map Direction.opposite) ↔ flags = []) := by
  refine ⟨setFragments_eq names, fun reply isReply => ?_, ?_⟩
  · have replyNames : reply.NamesSet name flags :=
      names.congr (isReply.attributes "ipset" (by decide))
    constructor
    · rw [setFragments_eq_iff replyNames]
      exact setMatch_opposite_iff isReply.reverse
    · intro stated
      rw [setFragments_eq names, setFragments_eq replyNames, setSides, setSides, if_neg stated,
        if_neg stated]
  · intro before after rules expanded accepts forward asks knowsRaw knowsFilter
    obtain ⟨update, own, following, start, finish, expands, rfl⟩ := expanded.exists_expands rfl
    have toFinish : Grows before finish := expands.update.grows.trans expands.grows_own
    have reached : rule.Reached finish :=
      ⟨expands.sound_finish, expands.ruleSound_finish, (expanded.reached rfl).knows.grows toFinish⟩
    obtain ⟨exempting, answering, isRaw, isFilter, exempts, answers⟩ :=
      exists_answersFor reached (expanded.isOpened rfl) accepts asks
        (by rw [toFinish.sectionKind?, knowsRaw]) (by rw [toFinish.sectionKind?, knowsFilter]) names
        expands.following
    have among : following ⊆ update ++ own ++ following := List.subset_append_right _ _
    refine ⟨exempting, answering, isRaw, isFilter, fun derived isDerived => ?_⟩
    have isAnswer : AnswersFor rule derived name flags following := by
      rcases List.mem_cons.1 isDerived with rfl | isSecond
      · exact exempts
      · exact List.mem_singleton.1 isSecond ▸ answers
    refine ⟨isAnswer.mono among, setMatch_opposite_iff ?_⟩
    rw [isAnswer.reverse, forward]
    rfl

/-- The set "pairs" as a rule names it, without flags. -/
def plainSet : Value :=
  .map [(.text "name", .text "pairs")]

/-- The set with the flags for both sides. -/
def pairsSet : Value :=
  .map [(.text "name", .text "pairs"), (.text "args", .list [.text "src", .text "dst"])]

/-- What declares a rule for untracked traffic from the zone and from the addresses in the set. -/
def setSource (set : Value) : Entry :=
  .raw (.map [(.text "in", .text "lan"), (.text "ipset", set), (.text "no-track", .bool true)])

/-- The rule that is declared so. -/
def setRule (set : Value) : Rule :=
  { kind := .filter, serial := 0, location := "filter 1"
    attributes := [("in", .text "lan"), ("ipset", set), ("no-track", .bool true),
      ("action", .text "accept"), ("log", .null)]
    zonesIn := some [.named (.text "lan") lanZone]
    zonesOut := none
    services := none }

/-- The rule for the replies to what the rule matches. -/
def setReply (set : Value) : Rule :=
  { setRule set with attributes := (setRule set).attributes.set "reverse" (.bool true) }

theorem declare_plainSet : filterDeclaration (setSource plainSet) =
    (.ok (setRule plainSet), { policyContext with nextSerial := 1 }) := by
  with_unfolding_all rfl

theorem declare_pairsSet : filterDeclaration (setSource pairsSet) =
    (.ok (setRule pairsSet), { policyContext with nextSerial := 1 }) := by
  with_unfolding_all rfl

theorem namesSet_plainSet : (setRule plainSet).NamesSet (.text "pairs") [] :=
  ⟨_, rfl, rfl, .absent rfl⟩

theorem namesSet_pairsSet : (setRule pairsSet).NamesSet (.text "pairs") [.inward, .outward] := by
  have listed : StatesFlags (.list ([.inward, .outward].map fun side : Direction =>
      .text side.setFlag)) [.inward, .outward] :=
    .listed (List.cons_ne_nil _ _)
  exact ⟨_, rfl, rfl, listed⟩

/-- The replies to what comes from an address in a set go to the address.  For untracked traffic
between pairs in a set they are matched as if they went the same way. -/
theorem setFragments_of_setRules :
    (∃ finish, filterDeclaration (setSource plainSet) = (.ok (setRule plainSet), finish) ∧
      IsReply (setRule plainSet) (setReply plainSet) ∧
      (setReply plainSet).setFragments = .ok (some [.matching ["-m set --match-set pairs dst"]])) ∧
    ∃ rules after,
      IsExpanded .filter (setRule pairsSet) (declaredContext (setSource pairsSet)) rules after ∧
      (setRule pairsSet).action = "accept" ∧ (setRule pairsSet).reverse = false ∧
      (setRule pairsSet).attributes.flag "no-track" = true ∧
      ∃ exempting answering : Rule, exempting.kind = .noTrack ∧ answering.kind = .filter ∧
        ∀ derived ∈ [exempting, answering],
          AnswersFor (setRule pairsSet) derived (.text "pairs") [.inward, .outward] rules ∧
          setMatch (.text "pairs") (derived.setSides [.inward, .outward]) ≠
            "-m set --match-set pairs dst,src" := by
  constructor
  · have isReply : IsReply (setRule plainSet) (setReply plainSet) := isReply_of_set rfl
    obtain ⟨-, ofReply, -⟩ := setFragments_of_replies namesSet_plainSet
    obtain ⟨mirrored, -⟩ := ofReply _ isReply
    exact ⟨_, declare_plainSet, isReply, mirrored.2 rfl⟩
  · have succeeds : ((setRule pairsSet).fragments
        (declaredContext (setSource pairsSet))).1.toOption.isSome = true := by
      decide +kernel
    obtain ⟨rules, runs⟩ := Option.isSome_iff_exists.1 succeeds
    have knowsRaw : (declaredContext (setSource pairsSet)).sectionKind? "no-track" =
        some (.rule .noTrack) := by
      decide +kernel
    have knowsFilter : (declaredContext (setSource pairsSet)).sectionKind? "filter" =
        some (.rule .filter) := by
      decide +kernel
    have written : ∀ entries, declaration? (setSource pairsSet) = some entries →
        (recordOf entries).IsWritten := by
      rintro entries ⟨⟩
      exact isWritten_recordOf (by decide)
    have declares : setRule pairsSet ∈ (filterDeclaration (setSource pairsSet)).1.toOption := by
      rw [declare_pairsSet]
      rfl
    have expanded := isExpanded_of_filterDeclaration written declares runs
    obtain ⟨-, -, ofUntracked⟩ := setFragments_of_replies namesSet_pairsSet
    obtain ⟨exempting, answering, isRaw, isFilter, answers⟩ :=
      ofUntracked _ _ _ expanded rfl rfl rfl knowsRaw knowsFilter
    refine ⟨rules, _, expanded, rfl, rfl, rfl, exempting, answering, isRaw, isFilter, ?_⟩
    intro derived isDerived
    obtain ⟨answersFor, mirrored⟩ := answers derived isDerived
    exact ⟨answersFor, fun same => List.cons_ne_nil _ _ (mirrored.1 same)⟩

/-- A rule for traffic between pairs in a set, and a rule for its replies that matches the same. -/
theorem exists_reply_of_pairsSet :
    ∃ finish, filterDeclaration (setSource pairsSet) = (.ok (setRule pairsSet), finish) ∧
      IsReply (setRule pairsSet) (setReply pairsSet) ∧
      (setRule pairsSet).setFragments =
        .ok (some [.matching ["-m set --match-set pairs src,dst"]]) ∧
      (setReply pairsSet).setFragments ≠
        .ok (some [.matching ["-m set --match-set pairs dst,src"]]) := by
  have isReply : IsReply (setRule pairsSet) (setReply pairsSet) := isReply_of_set rfl
  have names := namesSet_pairsSet.congr (isReply.attributes "ipset" (by decide))
  refine ⟨_, declare_pairsSet, isReply, setFragments_eq namesSet_pairsSet, fun mirrored => ?_⟩
  have opposite : setMatch (.text "pairs") ((setReply pairsSet).setSides [.inward, .outward]) =
      setMatch (.text "pairs") [.outward, .inward] :=
    (setFragments_eq_iff names).1 mirrored
  exact List.cons_ne_nil _ _ ((setMatch_opposite_iff isReply.reverse).1 opposite)

end Rule

end FirewallPolicy
