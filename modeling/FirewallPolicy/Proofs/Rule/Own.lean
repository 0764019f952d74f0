import FirewallPolicy.Proofs.Rule.Limit
import FirewallPolicy.Proofs.Rule.Placed

/-!
# The fragments of a rule itself

What a rule does to its matches stands and jumps where fragments of the rule may, and it goes to
the front only where the position of the rule says so.  A sound context stays sound when the rule
is sound as well.
-/

namespace FirewallPolicy

open Context Run Stateful

namespace Rule

variable {rule : Rule} {before after : Context} {owns : Nat × String → Prop} {front : Prop}
  {matched attached : List Fragment}

/-! ## Places -/

theorem allPlaced_attachLog
    {log : Option LogClass} {action : String} {target : Option String}
    (isOwner : ∀ action, owns (rule.serial, "log" ++ action))
    (ordinary : ∀ goal, target = some goal → IsOrdinary goal)
    (matchedPlaced : AllPlaced before owns front matched)
    (run : rule.attachLog matched log action target before = (.ok attached, after)) :
    AllPlaced after owns front attached := by
  have grows := grows_attachLog.of_eq run
  have actionsPlaced : AllPlaced after owns front (actionFragments log target) :=
    allPlaced_actionFragments log ordinary
  cases logAttachment_of_attachLog run with
  | nothing _ => exact matchedPlaced
  | merged isSingle =>
      rw [isSingle] at actionsPlaced
      exact allPlaced_combine_pair matchedPlaced actionsPlaced
  | shared _ _ _ declares =>
      refine allPlaced_combine_pair (matchedPlaced.grows grows) (allPlaced_singleton ?_)
      exact placed_ofTarget (Or.inr (Or.inl (mem_declared_of_declareChain declares)))
  | own isKnown isGoal names =>
      subst isKnown isGoal
      exact allPlaced_ownChain ⟨_, isOwner _, lookup_of_chainNameOf names⟩
        (matchedPlaced.grows grows) actionsPlaced

theorem allPlaced_attachAction
    (isOwner : ∀ action, owns (rule.serial, "log" ++ action))
    (matchedPlaced : AllPlaced before owns front matched)
    (run : rule.attachAction matched before = (.ok attached, after)) :
    AllPlaced after owns front attached := by
  simp only [attachAction, bind_eq_ok, recording_eq_ok] at run
  obtain ⟨target, _, ⟨read, rfl⟩, run⟩ := run
  refine allPlaced_attachLog isOwner ?_ matchedPlaced run
  rintro goal rfl
  exact isOrdinary_target read

private theorem isOrdinary_drop :
    ∀ goal, some "DROP" = some goal → IsOrdinary goal := by
  rintro _ ⟨⟩
  decide

theorem allPlaced_recentChain
    {checks records : List Fragment} {log : Option LogClass} {connection : Bool}
    {target : Option String}
    (isOwner : ∀ action, owns (rule.serial, "log" ++ action))
    (ordinary : ∀ goal, target = some goal → IsOrdinary goal)
    (matching : ∀ fragment ∈ checks ++ records, fragment.IsMatch [])
    (run : rule.recentChain checks records log connection target before =
      (.ok attached, after)) :
    AllPlaced after owns front attached := by
  simp only [recentChain, bind_eq_ok, pure_eq_ok] at run
  obtain ⟨dropped, _, drops, rfl, rfl⟩ := run
  have checksPlaced : AllPlaced before owns front checks :=
    allPlaced_of_isMatch fun fragment member => matching fragment (List.mem_append_left _ member)
  have droppedPlaced := allPlaced_attachLog isOwner isOrdinary_drop checksPlaced drops
  refine allPlaced_append (allPlaced_append droppedPlaced ?_) ?_
  · split
    · exact allPlaced_actionFragments _ (by simp)
    · exact allPlaced_nil
  · refine allPlaced_combine_pair (allPlaced_of_isMatch fun fragment member =>
      matching fragment (List.mem_append_right _ member)) (allPlaced_singleton ?_)
    refine ⟨by simp, ?_, by simp⟩
    intro goal isGoal
    split at isGoal
    · exact Or.inl (ordinary goal isGoal)
    · simp at isGoal

theorem allPlaced_passingChain
    {limit : Limit} {name : String} {log : Option LogClass}
    (isOwner : ∀ action, owns (rule.serial, "log" ++ action))
    (run : rule.passingChain limit name log before = (.ok attached, after)) :
    AllPlaced after owns front attached := by
  simp only [passingChain, bind_eq_ok, pure_eq_ok, get_eq_ok, recording_eq_ok] at run
  obtain ⟨_, _, ⟨rfl, rfl⟩, above, _, ⟨read, rfl⟩, dropped, _, drops, rfl, rfl⟩ := run
  have abovePlaced : AllPlaced before owns front above :=
    allPlaced_of_isMatch (Limit.isMatch_hashFragments read)
  exact allPlaced_append (allPlaced_attachLog isOwner isOrdinary_drop abovePlaced drops)
    (allPlaced_actionFragments _ (by simp))

theorem allPlaced_countingChain
    {limit : Limit} {name : String} {log : Option LogClass} {connection : Bool}
    (isOwner : ∀ action, owns (rule.serial, "log" ++ action))
    (run : rule.countingChain limit name log connection before = (.ok attached, after)) :
    AllPlaced after owns front attached := by
  simp only [countingChain, bind_eq_ok, get_eq_ok, recording_eq_ok] at run
  obtain ⟨_, _, ⟨rfl, rfl⟩, within, _, ⟨read, rfl⟩, run⟩ := run
  have withinPlaced : AllPlaced before owns front within :=
    allPlaced_of_isMatch (Limit.isMatch_hashFragments read)
  have lastPlaced : AllPlaced after owns front (actionFragments log (some "DROP")) :=
    allPlaced_actionFragments _ isOrdinary_drop
  split at run
  · simp only [bind_eq_ok, pure_eq_ok] at run
    obtain ⟨passed, _, passes, rfl, rfl⟩ := run
    exact allPlaced_append (allPlaced_attachAction isOwner withinPlaced passes) lastPlaced
  · simp only [bind_eq_ok, pure_eq_ok] at run
    obtain ⟨_, _, ⟨rfl, rfl⟩, rfl, rfl⟩ := run
    refine allPlaced_append (allPlaced_combine_pair withinPlaced ?_) lastPlaced
    exact allPlaced_singleton (placed_ofTarget (Or.inl (by decide)))

theorem allPlaced_limitBody
    {limit : Limit} {chain : String} {log : Option LogClass} {connection : Bool}
    {target : Option String}
    (isOwner : ∀ action, owns (rule.serial, "log" ++ action))
    (read : rule.target = .ok target)
    (isBody : LimitBody rule limit chain log connection target before attached after) :
    AllPlaced after owns front attached := by
  have ordinary : ∀ goal, target = some goal → IsOrdinary goal := by
    rintro goal rfl
    exact isOrdinary_target read
  cases isBody with
  | recent recentRead builds =>
      exact allPlaced_recentChain isOwner ordinary (Limit.isMatch_recentFragments recentRead)
        builds
  | passing _ _ builds => exact allPlaced_passingChain isOwner builds
  | counting _ _ builds => exact allPlaced_countingChain isOwner builds

/-- Attaching a limit: the limit chain belongs to the rule. -/
theorem allPlaced_attachLimit
    {name : String}
    (isOwner : ∀ key, owns (rule.serial, key))
    (matchedPlaced : AllPlaced before owns front matched)
    (run : rule.attachLimit matched name before = (.ok attached, after)) :
    AllPlaced after owns front attached := by
  obtain ⟨chain, mapping, limit, target, body, named, declared, filled, -, -, -, -, read, isBody,
    attaches⟩ := attachLimit_eq_ok run
  have bodyPlaced : AllPlaced filled owns front body :=
    allPlaced_limitBody (fun _ => isOwner _) read isBody
  obtain ⟨ownName, again, rfl⟩ := attach_own_eq_ok attaches
  have growsLast : Grows filled after := grows_chainNameOf.of_eq again
  have growsAll : Grows before after := grows_attachLimit.of_eq run
  exact allPlaced_ownChain ⟨_, isOwner _, lookup_of_chainNameOf again⟩
    (matchedPlaced.grows growsAll) (bodyPlaced.grows growsLast)

theorem allPlaced_attachUpdate
    (matchedPlaced : AllPlaced before owns front matched)
    (run : rule.attachUpdate matched before = (.ok attached, after)) :
    AllPlaced before owns front attached := by
  simp only [attachUpdate, bind_eq_ok, get_eq_ok, recording_eq_ok, pure_eq_ok] at run
  obtain ⟨limit, _, _, _, _, _, records, _, ⟨read, _⟩, rfl, _⟩ := run
  exact allPlaced_combine_pair matchedPlaced
    (allPlaced_of_isMatch (Limit.isMatch_recordFragments read))

/-! ## Ways to finish a rule -/

/-- What is done to the matches of a rule. -/
inductive Finishing (rule : Rule) (matched : List Fragment) (before : Context) :
    List Fragment → Context → Prop
  | update {attached : List Fragment} {after : Context} :
      rule.kind = .limitUpdate →
      rule.attachUpdate matched before = (.ok attached, after) →
      Finishing rule matched before attached after
  | limited {name : String} {attached : List Fragment} {after : Context} :
      rule.kind.isFilter = true → rule.limitName? = .ok (some name) →
      rule.attachLimit matched name before = (.ok attached, after) →
      Finishing rule matched before attached after
  | action {attached : List Fragment} {after : Context} :
      rule.kind.logs = true → (rule.kind.isFilter = true → rule.limitName? = .ok none) →
      rule.attachAction matched before = (.ok attached, after) →
      Finishing rule matched before attached after
  | jump {target : String} :
      rule.target = .ok (some target) →
      Finishing rule matched before
        (Fragment.combine [some matched, some [.ofTarget target]]) before
  | plain :
      rule.target = .ok none →
      Finishing rule matched before matched before

theorem finishing_of_attachFilter
    (isFilter : rule.kind.isFilter = true)
    (run : rule.attachFilter matched before = (.ok attached, after)) :
    Finishing rule matched before attached after := by
  obtain ⟨limitName, middle, reads, run⟩ := bind_eq_ok.1 run
  obtain ⟨read, rfl⟩ := recording_eq_ok.1 reads
  cases limitName with
  | some name => exact Finishing.limited isFilter read run
  | none => exact Finishing.action (logs_of_isFilter isFilter) (fun _ => read) run

theorem finishing_of_attachTarget
    (run : rule.attachTarget matched before = (.ok attached, after)) :
    Finishing rule matched before attached after := by
  obtain ⟨target, middle, reads, run⟩ := bind_eq_ok.1 run
  obtain ⟨read, rfl⟩ := recording_eq_ok.1 reads
  cases target with
  | none =>
      obtain ⟨rfl, rfl⟩ := pure_eq_ok.1 run
      exact Finishing.plain read
  | some target =>
      obtain ⟨rfl, rfl⟩ := pure_eq_ok.1 run
      exact Finishing.jump read

theorem finishing_of_finish
    (run : rule.finish matched before = (.ok attached, after)) :
    Finishing rule matched before attached after := by
  unfold finish at run
  cases kind : rule.kind with
  | limitUpdate =>
      simp only [kind] at run
      exact Finishing.update kind run
  | logging =>
      simp only [kind] at run
      refine Finishing.action (by rw [kind]; rfl) ?_ run
      simp [kind, RuleKind.isFilter]
  | filter =>
      simp only [kind] at run
      exact finishing_of_attachFilter (by rw [kind]; rfl) run
  | policy =>
      simp only [kind] at run
      exact finishing_of_attachFilter (by rw [kind]; rfl) run
  | _ =>
      simp only [kind] at run
      exact finishing_of_attachTarget run

theorem mem_limitNames_of_limitName?
    {name : String} (read : rule.limitName? = .ok (some name)) :
    name ∈ limitNames ∧ rule.attributes.has name = true := by
  unfold limitName? at read
  split at read
  · split at read
    · simp at read
    · next single isSingle =>
        obtain rfl : single = name := by simpa using read
        exact List.mem_filter.1 (isSingle ▸ List.mem_singleton.2 rfl)
    · simp at read
  · simp at read

theorem allPlaced_finish
    (isOwner : ∀ key, owns (rule.serial, key))
    (matchedPlaced : AllPlaced before owns front matched)
    (run : rule.finish matched before = (.ok attached, after)) :
    AllPlaced after owns front attached := by
  cases finishing_of_finish run with
  | update _ updates =>
      have notes : Notes before after := notes_attachUpdate.of_eq updates
      exact (allPlaced_attachUpdate matchedPlaced updates).grows notes.grows
  | limited _ _ limits => exact allPlaced_attachLimit isOwner matchedPlaced limits
  | action _ _ acts => exact allPlaced_attachAction (fun _ => isOwner _) matchedPlaced acts
  | jump read =>
      exact allPlaced_combine_pair matchedPlaced (allPlaced_singleton
        (placed_ofTarget (Or.inl (isOrdinary_target read))))
  | plain _ => exact matchedPlaced

/-! ## Matches and what is done to them -/

/-- What a rule matches, at its position. -/
def dimensions (rule : Rule) : Run (List Fragment) := do
  let zones ← rule.zoneFragments
  let sources ← rule.sourceFragments
  let destinations ← rule.destinationFragments
  let sets ← Run.recording rule.setFragments
  let services ← rule.serviceFragments
  let position ← Run.recording rule.position
  return Fragment.combine [some zones, sources, destinations, sets, services,
    some [{ position := some position }]]

/-- The fragments of a rule without the derived ones, in two steps. -/
theorem ownFragments_eq_ok
    {own : List Fragment} (run : rule.ownFragments before = (.ok own, after)) :
    ∃ matched middle finished,
      rule.dimensions before = (.ok matched, middle) ∧
      rule.finish matched middle = (.ok finished, after) ∧
      own = Fragment.combine [some finished,
        some ((rule.families after.settings).map Fragment.ofFamily),
        some [.ofTable rule.kind.table]] := by
  simp only [ownFragments, bind_eq_ok, get_eq_ok, pure_eq_ok] at run
  obtain ⟨zones, c₁, zonesRun, sources, c₂, sourcesRun, destinations, c₃, destinationsRun,
    sets, c₄, setsRun, services, c₅, servicesRun, position, c₆, positionRun,
    finished, c₇, finishRun, _, _, ⟨rfl, rfl⟩, rfl, rfl⟩ := run
  refine ⟨_, c₆, finished, ?_, finishRun, rfl⟩
  simp only [dimensions, bind_eq_ok, pure_eq_ok]
  exact ⟨zones, c₁, zonesRun, sources, c₂, sourcesRun, destinations, c₃, destinationsRun,
    sets, c₄, setsRun, services, c₅, servicesRun, position, c₆, positionRun, rfl, rfl⟩

theorem notes_dimensions : Moves Notes rule.dimensions :=
  notes_zoneFragments.bind fun _ => notes_addressFragments.bind fun _ =>
    notes_destinationFragments.bind fun _ => notes_recording.bind fun _ =>
    notes_serviceFragments.bind fun _ => notes_recording.bind fun _ => moves_pure _

/-- The dimensions only match; a position to the front is that of the rule. -/
theorem yields_dimensions :
    Yields (AllPlaced before owns (rule.position = .ok "prepend")) rule.dimensions := by
  refine yields_zoneFragments.bind fun zones isZone =>
    (yields_addressFragments []).bind fun sources isSource =>
    (yields_destinationFragments []).bind fun destinations isDestination =>
    Yields.bind (yields_recording fun _ => areMatches_setFragments []) fun sets isSet =>
    (yields_serviceFragments []).bind fun services isService =>
    Yields.bind (yields_recording fun _ => id) fun position isPosition => yields_pure ?_
  refine allPlaced_combine fun list given => ?_
  simp only [List.mem_cons, Option.some.injEq, List.not_mem_nil, or_false] at given
  rcases given with rfl | isList | isList | isList | isList | rfl
  · exact fun fragment member =>
      (isZone fragment member).placed (hookChains_subset rule.kind)
  · exact allPlaced_of_isMatch (isSource list isList.symm)
  · exact allPlaced_of_isMatch (isDestination list isList.symm)
  · exact allPlaced_of_isMatch (isSet list isList.symm)
  · exact allPlaced_of_isMatch (isService list isList.symm)
  · refine allPlaced_singleton ⟨by simp, by simp, ?_⟩
    rintro ⟨⟩
    exact isPosition

/-- The fragments of a rule without the derived ones belong to the table of the rule. -/
theorem table_of_mem_ownFragments
    {own : List Fragment}
    (run : rule.ownFragments before = (.ok own, after))
    {fragment : Fragment} (member : fragment ∈ own) :
    fragment.table = some rule.kind.table := by
  obtain ⟨_, _, _, _, _, rfl⟩ := ownFragments_eq_ok run
  obtain ⟨part, isPart, upper⟩ := Fragment.exists_extends_of_mem_combine member
    (show some [Fragment.ofTable rule.kind.table] ∈ _ by simp)
  obtain rfl := List.mem_singleton.1 isPart
  exact upper.table _ rfl

/-- The fragments of a rule without the derived ones stand and jump where those of the rule may,
and go to the front only where its position says so. -/
theorem allPlaced_ownFragments
    {own : List Fragment}
    (isOwner : ∀ key, owns (rule.serial, key))
    (run : rule.ownFragments before = (.ok own, after)) :
    AllPlaced after owns (rule.position = .ok "prepend") own := by
  obtain ⟨matched, middle, finished, matchedRun, finishes, rfl⟩ := ownFragments_eq_ok run
  refine allPlaced_combine fun list given => ?_
  simp only [List.mem_cons, Option.some.injEq, List.not_mem_nil, or_false] at given
  rcases given with rfl | rfl | rfl
  · exact allPlaced_finish isOwner (yields_dimensions.of_eq matchedRun) finishes
  · exact allPlaced_families _
  · exact allPlaced_singleton ⟨by simp [Fragment.ofTable], by simp [Fragment.ofTable],
      by simp [Fragment.ofTable]⟩

/-! ## Soundness -/

/-- Log classes of the rule were selected, and its action fits its kind. -/
structure Sound (rule : Rule) (book : LogBook) : Prop where
  log : ∀ log, rule.log? = some log → book.Knows log
  limitLog : ∀ name ∈ limitNames, ∀ mapping,
    (rule.attributes.get name).entries? = some mapping →
      ∀ log, limitLog? mapping = some log → book.Knows log
  action : rule.kind = .logging → rule.action = "accept"
  custom : rule.kind.isFilter = true → rule.isCustom = true → rule.log? = none

theorem Sound.keeps
    {first second : LogBook} (sound : rule.Sound first) (settled : first.IsSettled)
    (keeps : first.Keeps second) :
    rule.Sound second where
  log log isLog := keeps.knows settled log (sound.log log isLog)
  limitLog name isLimit mapping isMap log isLog :=
    keeps.knows settled log (sound.limitLog name isLimit mapping isMap log isLog)
  action := sound.action
  custom := sound.custom

theorem sound_attachLog
    {log : Option LogClass} {action : String} {target : Option String}
    (sound : Context.Sound before)
    (isKnown : ∀ known, log = some known → before.logBook.Knows known)
    (isAction : ∀ known goal, log = some known → target = some goal →
      (action, goal) ∈ actionTargets)
    (run : rule.attachLog matched log action target before = (.ok attached, after)) :
    Context.Sound after := by
  cases logAttachment_of_attachLog run with
  | nothing _ => exact sound
  | merged _ => exact sound
  | shared isLog isGoal isName declares =>
      obtain ⟨name, rfl, calls⟩ := (isKnown _ isLog).exists_calls isName
      exact sound.declareChain (isAction _ _ isLog isGoal) (isKnown _ isLog) calls declares
  | own isLog isGoal names =>
      exact sound.chainNameOf (Or.inr ⟨_, isAction _ _ isLog isGoal, rfl⟩) names

/-- A rule that logs and jumps has the target of its action. -/
theorem Sound.mem_actionTargets
    {log : LogClass} {target : String} {book : LogBook}
    (ruleSound : rule.Sound book) (logs : rule.kind.logs = true)
    (isLog : rule.log? = some log) (read : rule.target = .ok (some target)) :
    (rule.action, target) ∈ actionTargets := by
  have filter : rule.kind.isFilter = true → rule.filterTarget = .ok (some target) →
      (rule.action, target) ∈ actionTargets := by
    intro isFilter read
    refine (filterTarget_cases read).resolve_left ?_
    rintro ⟨custom, -⟩
    rw [ruleSound.custom isFilter custom] at isLog
    simp at isLog
  unfold Rule.target at read
  cases kind : rule.kind with
  | logging =>
      obtain rfl : "ACCEPT" = target := by simpa [kind] using read
      rw [ruleSound.action kind]
      decide
  | filter =>
      simp only [kind] at read
      exact filter (by rw [kind]; rfl) read
  | policy =>
      simp only [kind] at read
      exact filter (by rw [kind]; rfl) read
  | _ => simp [kind, RuleKind.logs] at logs

end Rule

end FirewallPolicy
