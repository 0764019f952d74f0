import FirewallPolicy.Proofs.Compile.Soundness

/-!
# Names of chains stay apart

A name that is given out carries its key and the number of the key, so no two of them are the same,
whatever the keys are.  However a compilation ends, the chains that rules have of their own go by
other names than the chains that log classes share, the built-in ones and those of the policy.
-/

namespace FirewallPolicy

open Context Stateful

/-! ## Giving out names -/

namespace Run

theorem freshName_apply (key : String) (before : Context) :
    freshName key before =
      (.ok (numberedName key ((before.counters.get? key).getD 0)), { before with
        counters := before.counters.set key ((before.counters.get? key).getD 0 + 1) }) :=
  rfl

/-- The names that are given out for keys one after the other carry numbers that were not reached
before, and are all different. -/
theorem exists_freshNames (keys : List String) (before : Context) :
    ∃ names after, keys.mapM freshName before = (.ok names, after) ∧ names.Nodup ∧
      ∀ name ∈ names, ∃ key number, name = numberedName key number ∧
        (before.counters.get? key).getD 0 ≤ number := by
  induction keys generalizing before with
  | nil => exact ⟨[], before, rfl, List.nodup_nil, by simp⟩
  | cons key rest inductionHypothesis =>
      let number := (before.counters.get? key).getD 0
      let middle := { before with counters := before.counters.set key (number + 1) }
      obtain ⟨names, after, gives, distinct, numbered⟩ := inductionHypothesis middle
      have ofKey : (middle.counters.get? key).getD 0 = number + 1 := by
        simp [middle]
      have ofOther : ∀ other, other ≠ key →
          middle.counters.get? other = before.counters.get? other :=
        fun other different => Named.get?_set_of_ne different _ _
      refine ⟨numberedName key number :: names, after, ?_, ?_, ?_⟩
      · rw [List.mapM_cons]
        exact bind_eq_ok.2 ⟨_, middle, freshName_apply key before,
          bind_eq_ok.2 ⟨names, after, gives, rfl⟩⟩
      · refine List.nodup_cons.2 ⟨fun member => ?_, distinct⟩
        obtain ⟨other, count, same, reached⟩ := numbered _ member
        obtain ⟨rfl, rfl⟩ := numberedName_inj same
        rw [ofKey] at reached
        omega
      · intro name member
        rcases List.mem_cons.1 member with rfl | later
        · exact ⟨key, number, rfl, Nat.le_refl _⟩
        · obtain ⟨other, count, same, reached⟩ := numbered name later
          refine ⟨other, count, same, ?_⟩
          by_cases isKey : other = key
          · subst isKey
            rw [ofKey] at reached
            omega
          · rwa [← ofOther other isKey]

end Run

/-! ## Objects -/

namespace Building

/-- The context is sound, and so are its rules. -/
def IsReady (context : Context) : Prop :=
  Context.Sound context ∧ EachEntry (IsPrepared context.logBook) context

/-- A later context is ready if an earlier one is. -/
def StaysReady (before after : Context) : Prop :=
  IsReady before → IsReady after

instance : IsPreorder Context StaysReady where
  refl _ := id
  trans _ _ _ early late := late ∘ early

theorem staysReady_of_notes
    {α : Type} {action : Run α} (notes : Moves Notes action) :
    Moves StaysReady action :=
  fun before => survives_isPrepared.notes _ _ (notes before)

/-- What adds to a ready context and keeps it sound keeps it ready. -/
theorem IsReady.of_grows
    {before after : Context} (ready : IsReady before) (grows : Grows before after)
    (sound : Context.Sound after) :
    IsReady after := by
  refine ⟨sound, ?_⟩
  exact (ready.2.imp fun _ _ prepared => prepared.keeps ready.1.logs grows.logs).grows
    (isPrepared_log _) grows

/-- Where an entry is refused, what its declaration did is only noted. -/
theorem notes_of_declareKey
    {policy : Policy} {name : String} {kind : ObjectKind} {key : Scalar} {failure : Failure}
    {before after : Context}
    (run : declareKey policy name kind key before = (.error failure, after)) :
    Notes before after := by
  unfold declareKey at run
  split at run
  · obtain ⟨-, rfl⟩ := Prod.mk.inj run
    exact Notes.refl _
  · have gets : (get : Run Context) before = (.ok before, before) := rfl
    dsimp only at run
    rw [bind_apply, gets] at run
    dsimp only at run
    cases found : (before.entriesOf name).get? key with
    | none =>
        simp only [found] at run
        obtain ⟨-, rfl⟩ := Prod.mk.inj run
        exact Notes.refl _
    | some entry =>
        simp only [found, bind_apply] at run
        cases declares : PolicyObject.declare kind (entryLocation policy name key)
            (LogClass.keyOf key) entry before with
        | mk result middle =>
            rw [declares] at run
            cases result with
            | ok object => cases run
            | error cause =>
                obtain ⟨-, rfl⟩ := Prod.mk.inj run
                exact PolicyObject.notes_declare.of_eq declares

theorem staysReady_declareKey
    {policy : Policy} {described : Section} {kind : ObjectKind} {key : Scalar}
    (isBuiltin : described ∈ Builtin.ordered) (isKind : described.kind = some kind) :
    Moves StaysReady (declareKey policy described.name kind key) := by
  intro before ready
  cases run : declareKey policy described.name kind key before with
  | mk result after =>
      cases result with
      | ok u => exact survives_isPrepared.declareKey isBuiltin isKind ready run
      | error failure => exact survives_isPrepared.notes _ _ (notes_of_declareKey run) ready

theorem staysReady_declareKeys
    {policy : Policy} {described : Section} {kind : ObjectKind} {keys : List Scalar}
    (isBuiltin : described ∈ Builtin.ordered) (isKind : described.kind = some kind) :
    Moves StaysReady (declareKeys policy described.name kind keys) := by
  induction keys with
  | nil => exact moves_pure _
  | cons key rest inductionHypothesis =>
      exact (staysReady_declareKey isBuiltin isKind).bind fun _ => inductionHypothesis

theorem staysReady_declareSections
    {policy : Policy} {sections : List Section} (areBuiltin : sections ⊆ Builtin.ordered) :
    Moves StaysReady (declareSections policy sections) := by
  induction sections with
  | nil => exact moves_pure _
  | cons described rest inductionHypothesis =>
      rw [List.cons_subset] at areBuiltin
      refine Moves.bind ?_ fun _ => inductionHypothesis areBuiltin.2
      unfold declareSection
      cases isVirtual : described.isVirtual with
      | true => exact moves_pure _
      | false =>
          cases isKind : described.kind with
          | none => exact moves_pure _
          | some kind =>
              exact moves_get_bind fun _ => staysReady_declareKeys areBuiltin.1 isKind

/-! ## Rules -/

variable {build : Build}

theorem moves_inContext
    {α : Type} {relation : Context → Context → Prop} {action : Run α}
    (moves : Moves relation action) :
    Moves (fun before after : Build => relation before.context after.context)
      (inContext action) :=
  fun build => moves build.context

/-- The rules are inserted into the tree; the context notes at most that one is refused. -/
theorem notes_insertRules {owner : String} {fragments : List Fragment} :
    Moves (fun before after : Build => Notes before.context after.context)
      (insertRules owner fragments) :=
  fun build => Run.notes_recording build.context

/-- Rules of a ready context leave a ready context behind.  The induction is on the entries; what
was expanded before keeps the rules sound that come later. -/
theorem isReady_insertObjects
    {entries : List Entry}
    (rulesSound : ∀ rule ∈ rulesAmong entries, rule.Sound build.context.logBook)
    (ready : IsReady build.context) :
    IsReady (insertObjects entries build).2.context := by
  induction entries generalizing build with
  | nil => exact ready
  | cons entry rest inductionHypothesis =>
      cases entry with
      | raw value => exact inductionHypothesis rulesSound ready
      | object object =>
          cases object with
          | rule rule =>
              obtain ⟨ruleSound, restSound⟩ := List.forall_mem_cons.1 rulesSound
              have expanding : Moves (fun before after : Build =>
                  rule.Upholds before.context after.context) (inContext rule.fragments) :=
                moves_inContext (Rule.upholds_fragments rule)
              have upheld := expanding build
              have readyThen : ∀ {after : Build}, rule.Upholds build.context after.context →
                  IsReady after.context :=
                fun upheld => ready.of_grows upheld.grows (upheld.sound ruleSound ready.1)
              rw [insertObjects, bind_apply]
              cases run : inContext rule.fragments build with
              | mk result expanded =>
                  rw [run] at upheld
                  cases result with
                  | error failure => exact readyThen upheld
                  | ok fragments =>
                      dsimp only
                      rw [bind_apply]
                      cases inserts : insertRules rule.location fragments expanded with
                      | mk result inserted =>
                          have noted := notes_insertRules.of_eq inserts
                          have kept : rule.Upholds build.context inserted.context :=
                            upheld.trans ⟨noted.grows, fun _ => noted.sound⟩
                          cases result with
                          | error failure => exact readyThen kept
                          | ok u =>
                              refine inductionHypothesis (fun other member => ?_) (readyThen kept)
                              exact (restSound other member).keeps ready.1.logs kept.grows.logs
          | _ => exact inductionHypothesis rulesSound ready

/-- A later build has a ready context if an earlier one does. -/
def KeepsReady (before after : Build) : Prop :=
  StaysReady before.context after.context

instance : IsPreorder Build KeepsReady where
  refl _ := id
  trans _ _ _ early late := late ∘ early

theorem keepsReady_insertRules {owner : String} {fragments : List Fragment} :
    Moves KeepsReady (insertRules owner fragments) :=
  fun before => survives_isPrepared.notes _ _ (notes_insertRules before)

theorem keepsReady_insertSections
    {sections : List Section} (areBuiltin : sections ⊆ Builtin.ordered) :
    Moves KeepsReady (insertSections sections) := by
  induction sections with
  | nil => exact moves_pure _
  | cons described rest inductionHypothesis =>
      rw [List.cons_subset] at areBuiltin
      refine Moves.bind ?_ fun _ => inductionHypothesis areBuiltin.2
      unfold insertSection
      split
      · exact (moves_inContext (staysReady_of_notes RuleSource.notes_rules)).bind
          fun _ => keepsReady_insertRules
      · split
        · next hasKind =>
            refine moves_of_get fun build ready => isReady_insertObjects ?_ ready
            exact fun rule member => sound_of_mem_rulesIn ready.2 areBuiltin.1 hasKind member
        · exact moves_pure _

/-! ## Compilations -/

theorem isReady_loaded
    {policy : Policy} (written : policy.IsWritten) (hosts : HostBook) (settings : Settings) :
    IsReady (loaded policy hosts settings) :=
  ⟨{ sound_checked policy hosts settings with }, prepared_checked written hosts settings⟩

theorem staysReady_order : Moves StaysReady Run.order := by
  refine moves_of_get fun before => ?_
  cases before.knownOrder with
  | some names => exact moves_pure _ before
  | none =>
      cases Order.resolve (Run.directives before.sections) with
      | ok names => exact fun ready => ⟨{ ready.1 with }, ready.2⟩
      | error cycle => exact moves_throw _ before

theorem mem_ordered_of_registered :
    ∀ entry ∈ Builtin.registered, entry.2 ∈ Builtin.ordered := by
  decide

/-- However the compilation of a written policy ends, it leaves a ready context behind. -/
theorem isReady_compilePolicy
    {policy : Policy} (written : policy.IsWritten) (hosts : HostBook) (settings : Settings) :
    IsReady (compilePolicy policy Builtin.modules { context := { settings, hosts } }).2.context := by
  have fromLoaded : ∀ rest : Building (List AddressSet), Moves KeepsReady rest →
      IsReady (rest { context := loaded policy hosts settings }).2.context :=
    fun rest keeps => keeps _ (isReady_loaded written hosts settings)
  have kept : ∀ {names : List String}, names.filterMap Builtin.registered.get? ⊆ Builtin.ordered := by
    intro names described member
    obtain ⟨name, _, found⟩ := List.mem_filterMap.1 member
    exact mem_ordered_of_registered _ (Named.mem_of_get? found)
  have checking : ∀ context sections, Moves KeepsReady (inContext (checkKeyed context sections)) :=
    fun context sections => moves_inContext (staysReady_of_notes notes_checkKeyed)
  unfold compilePolicy
  rw [inContext_bind_apply (Builtin.setUp_modules settings hosts), bind_apply]
  refine fromLoaded (inContext (warnUnknown _) >>= _) ?_
  refine (moves_inContext (staysReady_of_notes notes_warnUnknown)).bind fun _ => ?_
  refine moves_get_bind fun _ => (checking _ _).bind fun _ => ?_
  refine (moves_inContext staysReady_order).bind fun names => ?_
  refine (moves_inContext (staysReady_declareSections kept)).bind fun _ => ?_
  refine (keepsReady_insertSections kept).bind fun _ => moves_get_bind fun _ => ?_
  split
  · exact moves_pure _
  · exact moves_throw _

end Building

/-! ## Chains that are told apart -/

/-- The name is one that a log class may be declared under. -/
def LogClass.Accepts (name : Scalar) : Prop :=
  ∃ settings location attributes settled,
    settle settings location (some name) attributes = .ok settled

theorem LogClass.Accepts.isClassName {name : Scalar} (accepted : Accepts name) :
    IsClassName name := by
  obtain ⟨_, _, _, _, settles⟩ := accepted
  exact (settle_eq_ok settles).1 name rfl

/-- Each chain that rules have of their own goes by a numbered name of its kind, which belongs to a
single owner.  It is not the name of a chain that log classes share or may share, nor that of a
built-in or a custom chain. -/
structure Context.TellsChainsApart (context : Context) : Prop where
  numbered : ∀ owner name, (owner, name) ∈ context.chainNames →
    IsChainKey owner.2 ∧ ∃ number, name = numberedName owner.2 number
  owner : ∀ first second name, (first, name) ∈ context.chainNames →
    (second, name) ∈ context.chainNames → first = second
  declared : ∀ owner name, (owner, name) ∈ context.chainNames → name ∉ context.declared
  shared : ∀ owner name, (owner, name) ∈ context.chainNames →
    ∀ entry ∈ actionTargets, ∀ log, LogClass.Accepts log →
      name ≠ Rule.sharedName ("log" ++ entry.1) log
  builtin : ∀ owner name, (owner, name) ∈ context.chainNames →
    name ≠ "tarpit" ∧ name ≠ "icmp-routing"
  custom : ∀ owner name, (owner, name) ∈ context.chainNames → customName? name = none

theorem Context.Sound.tellsChainsApart
    {context : Context} (sound : Context.Sound context) :
    context.TellsChainsApart := by
  have numbered : ∀ owner name, (owner, name) ∈ context.chainNames →
      IsChainKey owner.2 ∧ ∃ number, name = numberedName owner.2 number := by
    intro owner name member
    obtain ⟨isKey, number, _, same⟩ := sound.numbered _ member
    exact ⟨isKey, number, same⟩
  have notShared : ∀ owner name, (owner, name) ∈ context.chainNames → ¬ IsSharedName name := by
    intro owner name member
    obtain ⟨isKey, number, rfl⟩ := numbered owner name member
    exact not_isSharedName_numberedName isKey number
  have notOrdinary : ∀ owner name, (owner, name) ∈ context.chainNames → ¬ IsOrdinary name := by
    intro owner name member
    obtain ⟨isKey, number, rfl⟩ := numbered owner name member
    exact not_isOrdinary_numberedName isKey number
  refine ⟨numbered, fun first second name isFirst isSecond => ?_, ?_, ?_, ?_, ?_⟩
  · exact sound.distinct _ isFirst _ isSecond rfl
  · exact fun owner name member declared =>
      notShared owner name member (sound.shared name declared).isSharedName
  · rintro owner name member entry isEntry log accepted rfl
    exact notShared owner _ member ⟨entry, isEntry, log, fun _ => accepted.isClassName, rfl⟩
  · refine fun owner name member => ⟨?_, ?_⟩
    · rintro rfl
      exact notOrdinary owner _ member (by decide)
    · rintro rfl
      exact notOrdinary owner _ member (by decide)
  · intro owner name member
    by_contra isCustom
    exact notOrdinary owner name member
      (Rule.isOrdinary_of_customName? (Option.isSome_iff_ne_none.2 isCustom))

/-- Names that are given out one after the other are all different, whatever they are given out for.
However the compilation of a written policy ends, its chains are told apart. -/
theorem names_told_apart :
    (∀ (keys : List String) (before : Context), ∃ names after,
      keys.mapM Run.freshName before = (.ok names, after) ∧ names.Nodup) ∧
    ∀ (policy : Policy) (hosts : HostBook) (settings : Settings), policy.IsWritten →
      (Building.compilePolicy policy Builtin.modules
        { context := { settings, hosts } }).2.context.TellsChainsApart := by
  refine ⟨fun keys before => ?_, fun policy hosts settings written => ?_⟩
  · obtain ⟨names, after, gives, distinct, -⟩ := Run.exists_freshNames keys before
    exact ⟨names, after, gives, distinct⟩
  · exact (Building.isReady_compilePolicy written hosts settings).1.tellsChainsApart

/-- A log class whose name ends in a number, and rules that log with it, log with a class of their
own and are limited. -/
def numberingPolicy : Policy where
  objects := [
    ("log", .map [(.text "0-0", .map [])]),
    ("filter", .list [
      .map [(.text "action", .text "drop"), (.text "log", .text "0-0")],
      .map [(.text "action", .text "drop"), (.text "log", .map [(.text "prefix", .text "OWN ")])],
      .map [(.text "flow-limit", .int 3)]])]

/-- Keys with hyphens and digits give different names, and so do the chains of a policy whose log
class is named much like a number. -/
theorem names_told_apart_of_numberingPolicy :
    (∃ names after,
      ["logdrop", "logdrop-0", "logdrop"].mapM Run.freshName {} = (.ok names, after) ∧
        names.Nodup) ∧
    numberingPolicy.IsWritten ∧
    ∃ context, context = (Building.compilePolicy numberingPolicy Builtin.modules
        { context := { settings := { ipv6 := false }, hosts := .none } }).2.context ∧
      context.chainNames.map (·.2) = ["limit-0", "logdrop-0"] ∧
      context.declared = ["logdrop", "logdrop-0-0"] ∧ context.TellsChainsApart := by
  have written : numberingPolicy.IsWritten := by
    unfold Policy.IsWritten
    decide +kernel
  have compiles : Building.compilePolicy numberingPolicy Builtin.modules
      { context := { settings := { ipv6 := false }, hosts := .none } } =
        Building.process numberingPolicy
          { context := Building.checked numberingPolicy .none { ipv6 := false } } :=
    Building.compilePolicy_apply (by decide +kernel) .none _
  refine ⟨names_told_apart.1 _ _, written, _, rfl, ?_, ?_,
    names_told_apart.2 numberingPolicy .none _ written⟩
  · rw [compiles]
    decide +kernel
  · rw [compiles]
    decide +kernel

end FirewallPolicy
