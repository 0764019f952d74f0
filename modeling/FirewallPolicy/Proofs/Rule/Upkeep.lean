import FirewallPolicy.Proofs.Rule.Own

/-!
# Contexts that rules leave behind

The fragments of a sound rule keep a context sound whatever comes of them: a rule that is stopped by
a fault may have given out chain names and declared shared chains as well.
-/

namespace FirewallPolicy

open Context Run Stateful

namespace Stateful

variable {ε σ α β : Type}

/-- The computation succeeds from every state. -/
def Succeeds (action : Stateful ε σ α) : Prop :=
  ∀ before, ∃ a after, action before = (.ok a, after)

theorem succeeds_pure (a : α) : Succeeds (pure a : Stateful ε σ α) :=
  fun before => ⟨a, before, rfl⟩

theorem succeeds_get : Succeeds (get : Stateful ε σ σ) :=
  fun before => ⟨before, before, rfl⟩

theorem Succeeds.bind
    {action : Stateful ε σ α} {rest : α → Stateful ε σ β}
    (first : Succeeds action) (second : ∀ a, Succeeds (rest a)) :
    Succeeds (action >>= rest) := by
  intro before
  obtain ⟨a, middle, head⟩ := first before
  obtain ⟨b, after, tail⟩ := second a middle
  exact ⟨b, after, bind_eq_ok.2 ⟨a, middle, head, tail⟩⟩

end Stateful

namespace Run

theorem succeeds_chainNameOf {serial : Nat} {key : String} :
    Succeeds (chainNameOf serial key) := by
  intro before
  rw [chainNameOf_apply]
  split <;> exact ⟨_, _, rfl⟩

theorem succeeds_declareChain {chain : String} {rules : List Fragment} :
    Succeeds (declareChain chain rules) := by
  intro before
  rw [declareChain_apply]
  split <;> exact ⟨_, _, rfl⟩

end Run

namespace Rule

/-- What the rule does to a context adds to it, and keeps it sound where the rule is sound. -/
structure Upholds (rule : Rule) (before after : Context) : Prop where
  grows : Grows before after
  sound : rule.Sound before.logBook → Context.Sound before → Context.Sound after

theorem Upholds.refl (rule : Rule) (context : Context) : rule.Upholds context context where
  grows := Grows.refl _
  sound _ := id

theorem Upholds.trans
    {rule : Rule} {first second third : Context}
    (early : rule.Upholds first second) (late : rule.Upholds second third) :
    rule.Upholds first third where
  grows := early.grows.trans late.grows
  sound ruleSound start :=
    late.sound (ruleSound.keeps start.logs early.grows.logs) (early.sound ruleSound start)

instance (rule : Rule) : IsPreorder Context rule.Upholds where
  refl := Upholds.refl rule
  trans _ _ _ := Upholds.trans

theorem upholds_of_notes
    {rule : Rule} {α : Type} {action : Run α} (notes : Moves Notes action) :
    Moves rule.Upholds action :=
  fun before => ⟨(notes before).grows, fun _ => (notes before).sound⟩

section Rules

variable {rule : Rule} {matched : List Fragment}

/-! ## Actions -/

theorem upholds_chainNameOf {serial : Nat} {key : String} (isKey : IsChainKey key) :
    Moves rule.Upholds (chainNameOf serial key) := by
  intro before
  refine ⟨grows_chainNameOf before, fun _ sound => ?_⟩
  have apply := chainNameOf_apply serial key before
  cases known : before.chainNames.lookup (serial, key) with
  | some name =>
      simp only [known] at apply
      rw [apply]
      exact sound
  | none =>
      simp only [known] at apply
      rw [apply]
      exact sound.chainNameOf isKey apply

/-- Attaching actions never fails. -/
theorem succeeds_attach
    {actions : List Fragment} {key : String} {log : Option LogClass} {own : Bool} :
    Succeeds (rule.attach matched actions key log own) := by
  unfold attach
  split
  · exact succeeds_pure _
  · refine succeeds_get.bind fun context => ?_
    split
    · exact succeeds_declareChain.bind fun _ => succeeds_pure _
    · exact succeeds_chainNameOf.bind fun _ => succeeds_pure _

theorem succeeds_attachLog
    {log : Option LogClass} {action : String} {target : Option String} :
    Succeeds (rule.attachLog matched log action target) := by
  unfold attachLog
  split
  · exact succeeds_pure _
  · exact succeeds_attach

theorem upholds_attach_own {actions : List Fragment} {key : String} (isKey : IsChainKey key) :
    Moves rule.Upholds (rule.attach matched actions key none true) := by
  intro before
  have attaches : Succeeds (rule.attach matched actions key none true) := succeeds_attach
  obtain ⟨attached, after, run⟩ := attaches before
  obtain ⟨chain, names, -⟩ := attach_own_eq_ok run
  rw [run]
  exact (upholds_chainNameOf isKey).of_eq names

theorem upholds_attachLog
    {log : Option LogClass} {action : String} {target : Option String}
    (isKnown : ∀ book, rule.Sound book → ∀ known, log = some known → book.Knows known)
    (isAction : ∀ book, rule.Sound book → ∀ known goal, log = some known → target = some goal →
      (action, goal) ∈ actionTargets) :
    Moves rule.Upholds (rule.attachLog matched log action target) := by
  intro before
  refine ⟨grows_attachLog before, fun ruleSound sound => ?_⟩
  have attaches : Succeeds (rule.attachLog matched log action target) := succeeds_attachLog
  obtain ⟨attached, after, run⟩ := attaches before
  rw [run]
  exact sound_attachLog sound (isKnown _ ruleSound) (isAction _ ruleSound) run

theorem upholds_attachAction (logs : rule.kind.logs = true) :
    Moves rule.Upholds (rule.attachAction matched) := by
  intro before
  refine (upholds_of_notes notes_recording).bind_at fun target middle reads => ?_
  obtain ⟨read, rfl⟩ := recording_eq_ok.1 reads
  refine upholds_attachLog (fun _ ruleSound => ruleSound.log) ?_ _
  rintro book ruleSound known goal isLog rfl
  exact ruleSound.mem_actionTargets logs isLog read

/-! ## Limits -/

/-- What is above a limit is logged with the class of the limit and dropped. -/
theorem upholds_attachLog_drop
    {log : Option LogClass}
    (isKnown : ∀ book, rule.Sound book → ∀ known, log = some known → book.Knows known) :
    Moves rule.Upholds (rule.attachLog matched log "drop" (some "DROP")) := by
  refine upholds_attachLog isKnown ?_
  rintro book _ known goal _ ⟨⟩
  decide

theorem upholds_recentChain
    {checks records : List Fragment} {log : Option LogClass} {connection : Bool}
    {target : Option String}
    (isKnown : ∀ book, rule.Sound book → ∀ known, log = some known → book.Knows known) :
    Moves rule.Upholds (rule.recentChain checks records log connection target) :=
  (upholds_attachLog_drop isKnown).bind fun _ => moves_pure _

theorem upholds_passingChain
    {limit : Limit} {name : String} {log : Option LogClass}
    (isKnown : ∀ book, rule.Sound book → ∀ known, log = some known → book.Knows known) :
    Moves rule.Upholds (rule.passingChain limit name log) :=
  moves_get_bind fun _ => (upholds_of_notes notes_recording).bind fun _ =>
    (upholds_attachLog_drop isKnown).bind fun _ => moves_pure _

theorem upholds_countingChain
    {limit : Limit} {name : String} {log : Option LogClass} {connection : Bool}
    (logs : rule.kind.logs = true) :
    Moves rule.Upholds (rule.countingChain limit name log connection) := by
  refine moves_get_bind fun _ => (upholds_of_notes notes_recording).bind fun _ => ?_
  dsimp only
  split
  · exact (upholds_attachAction logs).bind fun _ => moves_pure _
  · exact (moves_pure _).bind fun _ => moves_pure _

theorem upholds_attachLimit
    {name : String} (logs : rule.kind.logs = true) (isLimit : name ∈ limitNames) :
    Moves rule.Upholds (rule.attachLimit matched name) := by
  have isKey : IsChainKey "limit" := Or.inl rfl
  have attached : ∀ body, Moves rule.Upholds (rule.attach matched body "limit" none true) :=
    fun body => upholds_attach_own isKey
  unfold attachLimit
  extract_lets connection attaching limited
  have limits : ∀ u, Moves rule.Upholds (limited u) := by
    intro u
    refine (upholds_chainNameOf isKey).bind fun chain => ?_
    extract_lets read
    have reads : ∀ mapping, (rule.attributes.get name).entries? = some mapping →
        Moves rule.Upholds (read mapping) := by
      intro mapping isMapping
      have isKnown : ∀ book, rule.Sound book → ∀ known, limitLog? mapping = some known →
          book.Knows known :=
        fun book ruleSound => ruleSound.limitLog name isLimit mapping isMapping
      refine (upholds_of_notes Limit.notes_declare).bind fun limit =>
        (upholds_of_notes notes_recording).bind fun target => moves_get_bind fun context =>
        (upholds_of_notes notes_recording).bind fun recent => ?_
      split
      · exact (upholds_recentChain isKnown).bind attached
      · split
        · exact (upholds_passingChain isKnown).bind attached
        · exact (upholds_countingChain logs).bind attached
    split
    · next mapping isMapping => exact reads mapping isMapping
    · exact fun _ => (upholds_of_notes notes_unusable).bind_at fun _ _ stops =>
        (unusable_eq_ok.1 stops).elim
  split
  · exact (upholds_of_notes notes_report).bind limits
  · exact limits ()

theorem upholds_attachFilter (isFilter : rule.kind.isFilter = true) :
    Moves rule.Upholds (rule.attachFilter matched) := by
  have logs := logs_of_isFilter isFilter
  intro before
  refine (upholds_of_notes notes_recording).bind_at fun limitName middle reads => ?_
  obtain ⟨isLimit, rfl⟩ := recording_eq_ok.1 reads
  cases limitName with
  | some name => exact upholds_attachLimit logs (mem_limitNames_of_limitName? isLimit).1 _
  | none => exact upholds_attachAction logs _

theorem upholds_finish : Moves rule.Upholds (rule.finish matched) := by
  unfold finish
  split
  · exact upholds_of_notes notes_attachUpdate
  · next isLogging => exact upholds_attachAction (by rw [isLogging]; rfl)
  · next isFilter => exact upholds_attachFilter (by rw [isFilter]; rfl)
  · next isPolicy => exact upholds_attachFilter (by rw [isPolicy]; rfl)
  · exact upholds_of_notes notes_attachTarget

theorem upholds_ownFragments : Moves rule.Upholds rule.ownFragments := by
  refine (upholds_of_notes notes_zoneFragments).bind fun _ =>
    (upholds_of_notes notes_addressFragments).bind fun _ =>
    (upholds_of_notes notes_destinationFragments).bind fun _ =>
    (upholds_of_notes notes_recording).bind fun _ =>
    (upholds_of_notes notes_serviceFragments).bind fun _ =>
    (upholds_of_notes notes_recording).bind fun _ => ?_
  exact upholds_finish.bind fun _ => moves_get_bind fun _ => moves_pure _

theorem sound_ownFragments
    {own : List Fragment} {before after : Context}
    (sound : Context.Sound before) (ruleSound : rule.Sound before.logBook)
    (run : rule.ownFragments before = (.ok own, after)) :
    Context.Sound after :=
  (upholds_ownFragments.of_eq run).sound ruleSound sound

end Rules

end Rule

end FirewallPolicy
