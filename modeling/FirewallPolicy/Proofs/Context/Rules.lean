import FirewallPolicy.Proofs.Context.Evolution

/-!
# What rules do to a context

Declaring a rule and collecting its matches only note things.  Attaching actions may give out
chain names and declare shared chains, and so may the rules that a rule derives.
-/

namespace FirewallPolicy

open Context Run Stateful

namespace Rule

/-! ## Declaration -/

theorem notes_selectService {location : String} {item : Value} :
    Moves Notes (selectService location item) := by
  unfold selectService
  split
  · refine moves_get_bind fun context => Moves.bind notes_lift fun found => ?_
    split
    · exact notes_report
    · exact notes_report
    · exact moves_pure _
  · exact Moves.bind Service.notes_declare fun _ => moves_pure _

theorem notes_selectEach {location : String} {items : List Value} :
    Moves Notes (selectEach location items) := by
  induction items with
  | nil => exact moves_pure _
  | cons item rest inductionHypothesis =>
      exact Moves.bind notes_selectService fun _ => inductionHypothesis.bind fun _ => moves_pure _

theorem notes_selectServices {location : String} {items : Value} :
    Moves Notes (selectServices location items) := by
  unfold selectServices
  split
  · exact moves_pure _
  · exact Moves.bind notes_selectEach fun _ => moves_pure _

theorem notes_replaceAction {location : String} {attributes : Record} :
    Moves Notes (replaceAction location attributes) := by
  unfold replaceAction
  extract_lets action replace
  clear_value action
  have replaced : ∀ u, Moves Notes (replace u) := by
    intro u
    unfold replace
    split
    · split
      · exact Moves.bind notes_warn fun _ => moves_pure _
      · exact moves_pure _
    · exact moves_pure _
  split
  · exact Moves.bind notes_unusable replaced
  · exact replaced ()

theorem notes_settleLog {kind : RuleKind} {location : String} {attributes : Record} :
    Moves Notes (settleLog kind location attributes) := by
  unfold settleLog
  extract_lets withAction action settled custom directive check
  have checked : ∀ logged, Moves Notes (check logged) := by
    intro logged
    unfold check
    extract_lets done
    split
    · exact Moves.bind notes_report fun _ => moves_pure _
    · exact moves_pure _
  split
  · exact (moves_pure _).bind checked
  · exact Moves.bind LogClass.notes_select fun _ => (moves_pure _).bind checked

theorem notes_settleLimit {rule : Rule} :
    Moves Notes (settleLimit rule) := by
  refine Moves.bind notes_recording fun limitName => ?_
  cases limitName with
  | none => exact moves_pure _
  | some name =>
      dsimp only
      split
      · exact Moves.bind notes_report fun _ =>
          Moves.bind LogClass.notes_select fun _ => moves_pure _
      · exact Moves.bind LogClass.notes_select fun _ => moves_pure _

theorem notes_settleFilter {rule : Rule} :
    Moves Notes (settleFilter rule) := by
  unfold settleFilter
  split
  · exact Moves.bind notes_settleLimit fun _ => Moves.bind notes_recording fun _ => moves_pure _
  · exact moves_pure _

theorem notes_settleAction {kind : RuleKind} {location : String} {attributes : Record} :
    Moves Notes (settleAction kind location attributes) := by
  unfold settleAction
  split
  · exact notes_replaceAction
  · exact moves_pure _

theorem notes_settleDestination {kind : RuleKind} {location : String} {attributes : Record} :
    Moves Notes (settleDestination kind location attributes) := by
  unfold settleDestination
  split
  · exact notes_recording
  · exact moves_pure _

theorem notes_settleLogging {kind : RuleKind} {location : String} {attributes : Record} :
    Moves Notes (settleLogging kind location attributes) := by
  unfold settleLogging
  split
  · exact notes_settleLog
  · exact moves_pure _

theorem notes_settleMeasure {kind : RuleKind} {location : String} {attributes : Record} :
    Moves Notes (settleMeasure kind location attributes) := by
  unfold settleMeasure
  split
  · exact notes_recording
  · exact moves_pure _

theorem notes_settle {kind : RuleKind} {location : String} {attributes : Record} :
    Moves Notes (settle kind location attributes) := by
  refine Moves.bind notes_settleAction fun _ => moves_get_bind fun _ =>
    Moves.bind notes_recording fun _ => Moves.bind notes_recording fun _ =>
    Moves.bind notes_selectServices fun _ => Moves.bind notes_recording fun _ => ?_
  exact Moves.bind notes_settleDestination fun _ => Moves.bind notes_settleLogging fun _ =>
    Moves.bind notes_settleMeasure fun _ => Moves.bind notes_freshSerial fun _ => notes_settleFilter

theorem notes_declare {kind : RuleKind} {location : String} {source : Entry} :
    Moves Notes (Rule.declare kind location source) :=
  Moves.bind notes_attributesOf fun _ => notes_settle

end Rule

theorem PolicyObject.notes_declare
    {kind : ObjectKind} {location : String} {key : Option Scalar} {source : Entry} :
    Moves Notes (PolicyObject.declare kind location key source) := by
  cases kind with
  | zone => exact Moves.bind Zone.notes_declare fun _ => moves_pure _
  | service => exact Moves.bind Service.notes_declare fun _ => moves_pure _
  | definition => exact Moves.bind ServiceDefinition.notes_declare fun _ => moves_pure _
  | log => exact Moves.bind LogClass.notes_declare fun _ => moves_pure _
  | limit => exact Moves.bind Limit.notes_declare fun _ => moves_pure _
  | filterLimit => exact Moves.bind Limit.notes_declare fun _ => moves_pure _
  | rule kind => exact Moves.bind Rule.notes_declare fun _ => moves_pure _

namespace Rule

/-! ## Matches -/

theorem notes_sideFragments
    {chain : String} {direction : Direction} {selector : Option ZoneSelector} :
    Moves Notes (sideFragments chain direction selector) := by
  unfold sideFragments
  split
  · exact moves_pure _
  · exact Moves.bind Zone.notes_fragmentsOn fun _ => moves_pure _
  · exact notes_unusable

theorem notes_chainFragments {zoneIn zoneOut : Option ZoneSelector} {chain : String} :
    Moves Notes (chainFragments zoneIn zoneOut chain) := by
  unfold chainFragments
  split
  · exact moves_gather fun _ => Moves.bind Zone.notes_fragmentsOn fun _ =>
      Moves.bind Zone.notes_fragmentsOn fun _ => moves_pure _
  · exact Moves.bind notes_sideFragments fun _ =>
      Moves.bind notes_sideFragments fun _ => moves_pure _

theorem notes_zoneFragments {rule : Rule} :
    Moves Notes rule.zoneFragments :=
  (moves_gather fun _ => moves_gather fun _ => notes_chainFragments).bind
    fun _ => moves_pure _

theorem notes_addressFragments {rule : Rule} {name : String} {direction : Direction} :
    Moves Notes (rule.addressFragments name direction) := by
  unfold addressFragments
  split
  · exact Moves.bind notes_hostFragments fun _ => moves_pure _
  · exact moves_pure _

theorem notes_dnatAddress {rule : Rule} :
    Moves Notes rule.dnatAddress := by
  unfold dnatAddress
  extract_lets read
  have reads : ∀ entries, Moves Notes (read entries) := by
    intro entries
    unfold read
    split
    · exact notes_unusable
    · extract_lets host resolve
      have resolved : ∀ u, Moves Notes (resolve u) := fun u =>
        Moves.bind notes_resolveHost fun _ => notes_recording
      split
      · exact Moves.bind notes_report resolved
      · exact resolved ()
  split
  · exact (moves_pure _).bind reads
  · exact Moves.bind notes_unusable reads

theorem notes_destinationFragments {rule : Rule} :
    Moves Notes rule.destinationFragments := by
  refine Moves.bind notes_addressFragments fun given => ?_
  split
  · exact Moves.bind notes_dnatAddress fun _ => Moves.bind Zone.notes_declare fun _ =>
      Moves.bind Zone.notes_fragmentsOn fun _ => moves_pure _
  · exact moves_pure _

theorem notes_dnatServiceFragments {rule : Rule} :
    Moves Notes rule.dnatServiceFragments := by
  refine Moves.bind notes_recording fun given => ?_
  split
  · exact moves_pure _
  · refine Moves.bind notes_recording fun port => ?_
    split
    · exact moves_pure _
    · refine Moves.bind notes_recording fun _ => Moves.bind ?_ fun _ => moves_pure _
      exact moves_gather fun _ => Moves.bind Service.notes_declare fun _ =>
        Moves.bind notes_recording fun _ => moves_pure _

theorem notes_serviceFragments {rule : Rule} :
    Moves Notes rule.serviceFragments := by
  unfold serviceFragments
  split
  · exact moves_pure _
  · exact notes_recording
  · refine Moves.bind notes_dnatServiceFragments fun _ => ?_
    split <;> exact moves_pure _
  all_goals first
    | exact notes_dnatServiceFragments
    | exact notes_recording

end Rule

/-! ## Names and shared chains -/

namespace Run

/-- The name that an object has for a key is kept; a new one carries the next number. -/
theorem chainNameOf_apply (serial : Nat) (key : String) (before : Context) :
    chainNameOf serial key before =
      match before.chainNames.lookup (serial, key) with
      | some name => (.ok name, before)
      | none =>
        let name := key ++ "-" ++ toString ((before.counters.get? key).getD 0)
        (.ok name, { before with
          counters := before.counters.set key ((before.counters.get? key).getD 0 + 1)
          chainNames := ((serial, key), name) :: before.chainNames }) := by
  change (match before.chainNames.lookup (serial, key) with
    | some name => (pure name : Run String)
    | none => do
      let name ← freshName key
      modify fun context : Context =>
        { context with chainNames := ((serial, key), name) :: context.chainNames }
      return name) before = _
  cases before.chainNames.lookup (serial, key) with
  | some name => rfl
  | none => rfl

theorem declareChain_apply (chain : String) (rules : List Fragment) (before : Context) :
    declareChain chain rules before =
      if before.declared.contains chain then (.ok false, before)
      else (.ok true, { before with
        declared := chain :: before.declared
        auxiliary := before.auxiliary ++
          rules.map fun rule => { rule with chain := some chain } }) := by
  change (if before.declared.contains chain then (pure false : Run Bool)
    else do
      modify fun context : Context => { context with
        declared := chain :: context.declared
        auxiliary := context.auxiliary ++
          rules.map fun rule => { rule with chain := some chain } }
      return true) before = _
  split <;> rfl

theorem grows_chainNameOf {serial : Nat} {key : String} :
    Moves Grows (chainNameOf serial key) := by
  intro before
  rw [chainNameOf_apply]
  split
  · exact Grows.refl before
  · next unnamed =>
      refine { Grows.refl before with chainNames := List.suffix_cons .., nameOf := ?_ }
      intro owner name known
      have different : owner ≠ (serial, key) := by
        rintro rfl
        simp [unnamed] at known
      rw [List.lookup_cons, beq_false_of_ne different]
      exact known

theorem grows_declareChain {chain : String} {rules : List Fragment}
    (isLog : IsLogName chain) :
    Moves Grows (declareChain chain rules) := by
  intro before
  rw [declareChain_apply]
  split
  · exact Grows.refl before
  · next undeclared =>
      have fresh : chain ∉ before.declared := by simpa using undeclared
      refine { Grows.refl before with
        declared := List.subset_cons_self _ _,
        logNames := ?_,
        auxiliary := ⟨_, rfl, ?_⟩ }
      · intro other member
        rcases List.mem_cons.1 member with rfl | old
        · exact Or.inr isLog
        · exact Or.inl old
      · intro rule member
        obtain ⟨body, _, rfl⟩ := List.mem_map.1 member
        exact ⟨chain, rfl, List.mem_cons_self .., fresh⟩

end Run

namespace Rule

theorem isLogName_sharedName (action : String) (name : Scalar) :
    IsLogName (sharedName ("log" ++ action) name) := by
  unfold sharedName
  split
  · exact ⟨action ++ "-" ++ name.written, by simp only [String.append_assoc]⟩
  · exact ⟨action, rfl⟩

/-! ## Actions -/

/-- A chain of the rule's own is used, or the key is one for logging. -/
def IsLogKey (key : String) (own : Bool) : Prop :=
  own = true ∨ ∃ action, key = "log" ++ action

theorem grows_attach
    {rule : Rule} {matched actions : List Fragment} {key : String} {log : Option LogClass}
    {own : Bool} (isLog : IsLogKey key own) :
    Moves Grows (rule.attach matched actions key log own) := by
  have named : ∀ name, own = false → Moves Grows (do
      let _ ← Run.declareChain (sharedName key name) actions
      return Fragment.combine [some matched, some [.ofTarget (sharedName key name)]] :
        Run (List Fragment)) := by
    intro name shared
    obtain ⟨action, rfl⟩ := isLog.resolve_left (by simp [shared])
    exact (grows_declareChain (isLogName_sharedName action name)).bind fun _ => moves_pure _
  unfold attach
  split
  · exact moves_pure _
  · refine moves_get_bind fun context => ?_
    split
    · next name found =>
        cases own with
        | true => simp at found
        | false => exact named name rfl
    · exact Moves.bind grows_chainNameOf fun _ => moves_pure _

theorem grows_attachLog
    {rule : Rule} {matched : List Fragment} {log : Option LogClass} {action : String}
    {target : Option String} :
    Moves Grows (rule.attachLog matched log action target) := by
  unfold attachLog
  split
  · exact moves_pure _
  · exact grows_attach (Or.inr ⟨action, rfl⟩)

theorem grows_attachAction {rule : Rule} {matched : List Fragment} :
    Moves Grows (rule.attachAction matched) :=
  (notes_grow notes_recording).bind fun _ => grows_attachLog

theorem grows_recentChain
    {rule : Rule} {checks records : List Fragment} {log : Option LogClass} {connection : Bool}
    {target : Option String} :
    Moves Grows (rule.recentChain checks records log connection target) :=
  Moves.bind grows_attachLog fun _ => moves_pure _

theorem grows_passingChain
    {rule : Rule} {limit : Limit} {name : String} {log : Option LogClass} :
    Moves Grows (rule.passingChain limit name log) :=
  moves_get_bind fun _ => (notes_grow notes_recording).bind fun _ =>
    Moves.bind grows_attachLog fun _ => moves_pure _

theorem grows_countingChain
    {rule : Rule} {limit : Limit} {name : String} {log : Option LogClass} {connection : Bool} :
    Moves Grows (rule.countingChain limit name log connection) := by
  refine moves_get_bind fun _ => (notes_grow notes_recording).bind fun _ => ?_
  dsimp only
  split
  · exact Moves.bind grows_attachAction fun _ => moves_pure _
  · exact (moves_pure _).bind fun _ => moves_pure _

theorem grows_attachLimit {rule : Rule} {matched : List Fragment} {name : String} :
    Moves Grows (rule.attachLimit matched name) := by
  have attached : ∀ body, Moves Grows (rule.attach matched body "limit" none true) :=
    fun body => grows_attach (Or.inl rfl)
  unfold attachLimit
  extract_lets connection attaching limited
  have limits : ∀ u, Moves Grows (limited u) := by
    intro u
    refine Moves.bind grows_chainNameOf fun chain => ?_
    extract_lets read
    have reads : ∀ mapping, Moves Grows (read mapping) := by
      intro mapping
      refine (notes_grow Limit.notes_declare).bind fun limit =>
        (notes_grow notes_recording).bind fun target => moves_get_bind fun context =>
        (notes_grow notes_recording).bind fun recent => ?_
      split
      · exact Moves.bind grows_recentChain attached
      · split
        · exact Moves.bind grows_passingChain attached
        · exact Moves.bind grows_countingChain attached
    split
    · exact (moves_pure _).bind reads
    · exact (notes_grow notes_unusable).bind reads
  split
  · exact (notes_grow notes_report).bind limits
  · exact limits ()

theorem notes_attachUpdate {rule : Rule} {matched : List Fragment} :
    Moves Notes (rule.attachUpdate matched) :=
  Moves.bind Limit.notes_declare fun _ => moves_get_bind fun _ =>
    Moves.bind notes_recording fun _ => moves_pure _

theorem grows_attachFilter {rule : Rule} {matched : List Fragment} :
    Moves Grows (rule.attachFilter matched) := by
  refine (notes_grow notes_recording).bind fun limitName => ?_
  cases limitName with
  | some name => exact grows_attachLimit
  | none => exact grows_attachAction

theorem notes_attachTarget {rule : Rule} {matched : List Fragment} :
    Moves Notes (rule.attachTarget matched) := by
  refine Moves.bind notes_recording fun target => ?_
  cases target with
  | some target => exact moves_pure _
  | none => exact moves_pure _

theorem grows_finish {rule : Rule} {matched : List Fragment} :
    Moves Grows (rule.finish matched) := by
  unfold finish
  split
  · exact notes_grow notes_attachUpdate
  · exact grows_attachAction
  · exact grows_attachFilter
  · exact grows_attachFilter
  · exact notes_grow notes_attachTarget

theorem grows_ownFragments {rule : Rule} :
    Moves Grows rule.ownFragments := by
  refine (notes_grow notes_zoneFragments).bind fun _ =>
    (notes_grow notes_addressFragments).bind fun _ =>
    (notes_grow notes_destinationFragments).bind fun _ =>
    (notes_grow notes_recording).bind fun _ =>
    (notes_grow notes_serviceFragments).bind fun _ =>
    (notes_grow notes_recording).bind fun _ => ?_
  exact Moves.bind grows_finish fun _ => moves_get_bind fun _ => moves_pure _

/-! ## Derived rules -/

section Extras

variable {expand : Rule → Run (List Fragment)}

theorem grows_derive
    (expanding : ∀ rule, Moves Grows (expand rule))
    {rule : Rule} {source : Record} {derivation : Derivation} :
    Moves Grows (derive expand rule source derivation) := by
  refine (notes_grow PolicyObject.notes_declare).bind fun object => ?_
  cases object with
  | rule derived => exact expanding derived
  | _ => exact notes_grow notes_unusable

theorem notes_sectionKind {rule : Rule} {name : String} :
    Moves Notes (rule.sectionKind name) := by
  refine moves_get_bind fun context => ?_
  cases context.sectionKind? name with
  | some kind => exact moves_pure _
  | none => exact notes_report

theorem grows_updateFragments
    (expanding : ∀ rule, Moves Grows (expand rule)) {rule : Rule} :
    Moves Grows (updateFragments expand rule) := by
  unfold updateFragments
  extract_lets given mapping
  split
  · exact moves_pure _
  · split
    · exact notes_grow notes_report
    · exact grows_derive expanding

theorem grows_dnatFragments
    (expanding : ∀ rule, Moves Grows (expand rule)) {rule : Rule} :
    Moves Grows (dnatFragments expand rule) := by
  unfold dnatFragments
  extract_lets derived unset tracked
  have derivedMoves : ∀ u, Moves Grows (derived u) := fun u =>
    (notes_grow notes_dnatAddress).bind fun _ => (notes_grow notes_recording).bind fun _ =>
      (notes_grow notes_sectionKind).bind fun _ => grows_derive expanding
  have unsetMoves : ∀ u, Moves Grows (unset u) := by
    intro u
    unfold unset
    split
    · exact (notes_grow notes_report).bind derivedMoves
    · exact derivedMoves ()
  have trackedMoves : ∀ u, Moves Grows (tracked u) := by
    intro u
    unfold tracked
    split
    · exact (notes_grow notes_report).bind unsetMoves
    · exact unsetMoves ()
  split
  · exact moves_pure _
  · split
    · exact (notes_grow notes_report).bind trackedMoves
    · exact trackedMoves ()

theorem grows_untrackedFragments
    (expanding : ∀ rule, Moves Grows (expand rule)) {rule : Rule} :
    Moves Grows (untrackedFragments expand rule) := by
  unfold untrackedFragments
  split
  · exact (notes_grow notes_sectionKind).bind fun _ => grows_derive expanding
  · exact moves_pure _

theorem grows_finalFragments
    (expanding : ∀ rule, Moves Grows (expand rule)) {rule : Rule} :
    Moves Grows (finalFragments expand rule) := by
  refine (notes_grow notes_recording).bind fun limitName => ?_
  split
  · exact grows_derive expanding
  · exact moves_pure _

theorem grows_listedRelated
    (expanding : ∀ rule, Moves Grows (expand rule)) {rule : Rule} {index : Nat}
    {items : List Value} :
    Moves Grows (listedRelated expand rule index items) := by
  induction items generalizing index with
  | nil => exact moves_pure _
  | cons item rest inductionHypothesis =>
      have derived : ∀ source, Moves Grows (do
          let first ← derive expand rule source
            { label := "related " ++ toString index, kind := .rule .related,
              changes := [("service", rule.attributes.get "service")] }
          return first ++ (← listedRelated expand rule (index + 1) rest) :
            Run (List Fragment)) := fun source =>
        (grows_derive expanding).bind fun _ => inductionHypothesis.bind fun _ => moves_pure _
      unfold listedRelated
      split
      · exact (moves_pure _).bind derived
      · exact (notes_grow notes_lift).bind derived

theorem grows_relatedFragments
    (expanding : ∀ rule, Moves Grows (expand rule)) {rule : Rule} :
    Moves Grows (relatedFragments expand rule) := by
  unfold relatedFragments
  extract_lets listed
  split
  · exact (grows_derive expanding).bind fun _ =>
      (grows_derive expanding).bind fun _ => moves_pure _
  · exact grows_listedRelated expanding

theorem grows_replyFragments
    (expanding : ∀ rule, Moves Grows (expand rule)) {rule : Rule} {related : List Fragment} :
    Moves Grows (replyFragments expand rule related) := by
  unfold replyFragments
  extract_lets derived
  have derivedMoves : ∀ u, Moves Grows (derived u) := fun u =>
    (notes_grow notes_sectionKind).bind fun _ => (grows_derive expanding).bind fun _ =>
      (notes_grow notes_sectionKind).bind fun _ => (grows_derive expanding).bind fun _ => moves_pure _
  split
  · exact moves_pure _
  · split
    · exact (notes_grow notes_report).bind derivedMoves
    · exact derivedMoves ()

theorem grows_followingFragments
    (expanding : ∀ rule, Moves Grows (expand rule)) {rule : Rule} :
    Moves Grows (followingFragments expand rule) := by
  refine (grows_dnatFragments expanding).bind fun _ =>
    (grows_untrackedFragments expanding).bind fun _ => ?_
  split
  · exact (grows_finalFragments expanding).bind fun _ =>
      (grows_relatedFragments expanding).bind fun _ =>
      (grows_replyFragments expanding).bind fun _ => moves_pure _
  · exact moves_pure _

theorem grows_fragmentsWith
    (expanding : ∀ rule, Moves Grows (expand rule)) {rule : Rule} :
    Moves Grows (fragmentsWith expand rule) := by
  unfold fragmentsWith
  split
  · exact (grows_updateFragments expanding).bind fun _ => Moves.bind grows_ownFragments fun _ =>
      (grows_followingFragments expanding).bind fun _ => moves_pure _
  · exact grows_ownFragments

end Extras

/-- The induction is on how deep derived rules are nested. -/
theorem grows_expandTo {depth : Nat} {rule : Rule} :
    Moves Grows (expandTo depth rule) := by
  induction depth generalizing rule with
  | zero => exact notes_grow notes_unusable
  | succ depth inductionHypothesis => exact grows_fragmentsWith fun _ => inductionHypothesis

theorem grows_fragments {rule : Rule} :
    Moves Grows rule.fragments :=
  grows_expandTo

end Rule

theorem RuleSource.notes_rules {source : RuleSource} :
    Moves Notes source.rules := by
  cases source with
  | fixed rules => exact moves_pure _
  | stateful => exact moves_get_bind fun _ => notes_recording
  | icmp => exact moves_get_bind fun _ => moves_pure _

end FirewallPolicy
