import FirewallPolicy.Proofs.Rule.Names

/-!
# Sound contexts

In a sound context every chain name that was given out carries its key and a number of its own, and
every shared chain holds the rules of one log class followed by a jump to the target of its action.
Giving out names and declaring shared chains keep a context sound.
-/

namespace FirewallPolicy

open Stateful

namespace Context

/-- The rules of a shared chain that logs and then jumps to a target. -/
def sharedBody (chain : String) (log : LogClass) (target : String) : List Fragment :=
  (Rule.actionFragments (some log) (some target)).map fun rule => { rule with chain := some chain }

/-- The chain is named for an action and a log class, and does what both say. -/
def Shares (context : Context) (chain : String) : Prop :=
  ∃ entry ∈ actionTargets, ∃ name log,
    context.logBook.Knows log ∧ context.logBook.Calls log name ∧
      chain = Rule.sharedName ("log" ++ entry.1) (.text name) ∧
      context.auxiliary.filter (fun rule => rule.chain = some chain) =
        sharedBody chain log entry.2

theorem Shares.isSharedName
    {context : Context} {chain : String} (shares : Shares context chain) :
    IsSharedName chain := by
  obtain ⟨entry, member, name, log, known, calls, same, _⟩ := shares
  exact ⟨entry, member, .text name, known.isClassName calls, same⟩

/-- Names are told apart, and shared chains do what their names say. -/
structure Sound (context : Context) : Prop where
  numbered : ∀ entry ∈ context.chainNames, IsChainKey entry.1.2 ∧
    ∃ number < (context.counters.get? entry.1.2).getD 0,
      entry.2 = numberedName entry.1.2 number
  distinct : ∀ first ∈ context.chainNames, ∀ second ∈ context.chainNames,
    first.2 = second.2 → first.1 = second.1
  shared : ∀ chain ∈ context.declared, Shares context chain
  auxiliary : ∀ rule ∈ context.auxiliary, ∃ chain, rule.chain = some chain ∧
    (chain = "tarpit" ∨ chain ∈ context.declared)
  logs : context.logBook.IsSettled

variable {before after : Context}

theorem Notes.sound (notes : Notes before after) (sound : Sound before) :
    Sound after where
  numbered := by
    rw [notes.chainNames, notes.counters]
    exact sound.numbered
  distinct := by
    rw [notes.chainNames]
    exact sound.distinct
  shared chain member := by
    obtain ⟨entry, isEntry, name, log, known, calls, same, body⟩ :=
      sound.shared chain (notes.declared ▸ member)
    exact ⟨entry, isEntry, name, log, notes.logs.knows sound.logs log known,
      calls.keeps notes.logs, same, notes.auxiliary ▸ body⟩
  auxiliary := by
    rw [notes.auxiliary, notes.declared]
    exact sound.auxiliary
  logs := notes.logs.settled sound.logs

theorem sound_empty : Sound {} where
  numbered _ none := absurd none List.not_mem_nil
  distinct _ none := absurd none List.not_mem_nil
  shared _ none := absurd none List.not_mem_nil
  auxiliary _ none := absurd none List.not_mem_nil
  logs := by
    refine LogBook.isSettled_of_unheld ?_
    rintro log (listed | isDefault)
    · exact absurd listed List.not_mem_nil
    · cases isDefault

/-! ## Names -/

/-- The chain is one that was given out to an owner: to an object, by its serial number, for a kind
of chain. -/
def Names (context : Context) (owns : Nat × String → Prop) (chain : String) : Prop :=
  ∃ owner, owns owner ∧ context.chainNames.lookup owner = some chain

theorem Names.grows
    {owns : Nat × String → Prop} {chain : String}
    (names : Names before owns chain) (grows : Grows before after) :
    Names after owns chain := by
  obtain ⟨owner, isOwner, known⟩ := names
  exact ⟨owner, isOwner, grows.nameOf _ _ known⟩

theorem mem_of_lookup
    {names : List ((Nat × String) × String)} {owner : Nat × String} {name : String}
    (known : names.lookup owner = some name) :
    (owner, name) ∈ names := by
  obtain ⟨early, late, rfl, _⟩ := List.lookup_eq_some_iff.1 known
  simp

theorem Sound.isChainKey
    (sound : Sound before) {owner : Nat × String} {name : String}
    (known : before.chainNames.lookup owner = some name) :
    IsChainKey owner.2 ∧ ∃ number, name = numberedName owner.2 number := by
  obtain ⟨isKey, number, _, same⟩ := sound.numbered _ (mem_of_lookup known)
  exact ⟨isKey, number, same⟩

/-- No chain that was given out has the name of a shared chain. -/
theorem Sound.notMem_declared
    (sound : Sound before) {owns : Nat × String → Prop} {chain : String}
    (names : Names before owns chain) :
    chain ∉ before.declared := by
  obtain ⟨owner, _, known⟩ := names
  obtain ⟨isKey, number, rfl⟩ := sound.isChainKey known
  exact fun member =>
    not_isSharedName_numberedName isKey number (sound.shared _ member).isSharedName

/-- Chains that were given out to different owners have different names. -/
theorem Sound.owner_eq
    (sound : Sound before) {first second : Nat × String} {name : String}
    (firstKnown : before.chainNames.lookup first = some name)
    (secondKnown : before.chainNames.lookup second = some name) :
    first = second :=
  sound.distinct _ (mem_of_lookup firstKnown) _ (mem_of_lookup secondKnown) rfl

/-! ## Steps -/

/-- A chain name that is given out stays with its owner. -/
theorem lookup_of_chainNameOf
    {serial : Nat} {key name : String}
    (run : Run.chainNameOf serial key before = (.ok name, after)) :
    after.chainNames.lookup (serial, key) = some name := by
  rw [Run.chainNameOf_apply] at run
  cases known : before.chainNames.lookup (serial, key) with
  | some old =>
      simp only [known] at run
      obtain ⟨rfl, rfl⟩ := run
      exact known
  | none =>
      simp only [known] at run
      obtain ⟨rfl, rfl⟩ := run
      simp

theorem mem_declared_of_declareChain
    {chain : String} {rules : List Fragment} {isNew : Bool}
    (run : Run.declareChain chain rules before = (.ok isNew, after)) :
    chain ∈ after.declared := by
  rw [Run.declareChain_apply] at run
  split at run
  · next known =>
      obtain ⟨-, rfl⟩ := Prod.mk.inj run
      simpa using known
  · obtain ⟨-, rfl⟩ := Prod.mk.inj run
    exact List.mem_cons_self ..

/-- Giving out a chain name keeps a context sound: the number of a new name was never used. -/
theorem Sound.chainNameOf
    {serial : Nat} {key name : String}
    (sound : Sound before) (isKey : IsChainKey key)
    (run : Run.chainNameOf serial key before = (.ok name, after)) :
    Sound after := by
  rw [Run.chainNameOf_apply] at run
  cases known : before.chainNames.lookup (serial, key) with
  | some old =>
      simp only [known] at run
      obtain ⟨rfl, rfl⟩ := run
      exact sound
  | none =>
      simp only [known] at run
      obtain ⟨rfl, rfl⟩ := run
      have unused : ∀ entry ∈ before.chainNames,
          entry.2 ≠ numberedName key ((before.counters.get? key).getD 0) := by
        intro entry member same
        obtain ⟨_, number, bound, named⟩ := sound.numbered entry member
        obtain ⟨rfl, rfl⟩ := numberedName_inj (same.symm.trans named)
        exact Nat.lt_irrefl _ bound
      refine ⟨?_, ?_, sound.shared, sound.auxiliary, sound.logs⟩
      · intro entry member
        rcases List.mem_cons.1 member with rfl | old
        · exact ⟨isKey, _, by simp, rfl⟩
        · obtain ⟨oldKey, number, bound, named⟩ := sound.numbered entry old
          refine ⟨oldKey, number, ?_, named⟩
          by_cases same : entry.1.2 = key
          · rw [same] at bound ⊢
            simp only [Named.get?_set_self, Option.getD_some]
            omega
          · rwa [Named.get?_set_of_ne same]
      · intro first firstMember second secondMember same
        rcases List.mem_cons.1 firstMember with rfl | firstOld <;>
          rcases List.mem_cons.1 secondMember with rfl | secondOld
        · rfl
        · exact absurd same.symm (unused second secondOld)
        · exact absurd same (unused first firstOld)
        · exact sound.distinct first firstOld second secondOld same

private theorem filter_withChain
    (rules : List Fragment) (chain : String) :
    (rules.map fun rule => { rule with chain := some chain }).filter
        (fun rule : Fragment => rule.chain = some chain) =
      rules.map fun rule => { rule with chain := some chain } := by
  rw [List.filter_eq_self]
  intro rule member
  obtain ⟨body, _, rfl⟩ := List.mem_map.1 member
  simp

/-- A shared chain has no rules before it is declared. -/
theorem Sound.filter_undeclared
    {key : String} {name : Scalar} (sound : Sound before)
    (undeclared : Rule.sharedName ("log" ++ key) name ∉ before.declared) :
    before.auxiliary.filter
      (fun rule => rule.chain = some (Rule.sharedName ("log" ++ key) name)) = [] := by
  have ordinary : IsOrdinary "tarpit" := by decide
  have notTarpit : Rule.sharedName ("log" ++ key) name ≠ "tarpit" :=
    ordinary.ne_of_isLogName (Rule.isLogName_sharedName key name)
  rw [List.filter_eq_nil_iff]
  intro rule member stands
  obtain ⟨chain, hasChain, isTarpit | isDeclared⟩ := sound.auxiliary rule member
  · simp only [hasChain, Option.some.injEq, decide_eq_true_eq] at stands
    exact notTarpit (stands.symm.trans isTarpit)
  · simp only [hasChain, Option.some.injEq, decide_eq_true_eq] at stands
    exact undeclared (stands ▸ isDeclared)

/-- Declaring a shared chain keeps a context sound: a chain that is new has no rules yet, and one
that is declared already stays as it is. -/
theorem Sound.declareChain
    {action target name : String} {log : LogClass} {isNew : Bool}
    (sound : Sound before) (isAction : (action, target) ∈ actionTargets)
    (known : before.logBook.Knows log) (calls : before.logBook.Calls log name)
    (run : Run.declareChain (Rule.sharedName ("log" ++ action) (.text name))
      (Rule.actionFragments (some log) (some target)) before = (.ok isNew, after)) :
    Sound after := by
  rw [Run.declareChain_apply] at run
  split at run
  · obtain ⟨-, rfl⟩ := Prod.mk.inj run
    exact sound
  · next unknown =>
      obtain ⟨-, rfl⟩ := Prod.mk.inj run
      have undeclared : Rule.sharedName ("log" ++ action) (.text name) ∉ before.declared := by
        simpa using unknown
      refine ⟨sound.numbered, sound.distinct, ?_, ?_, sound.logs⟩
      · intro chain member
        rcases List.mem_cons.1 member with rfl | old
        · refine ⟨(action, target), isAction, name, log, known, calls, rfl, ?_⟩
          rw [List.filter_append, sound.filter_undeclared undeclared, List.nil_append,
            filter_withChain]
          rfl
        · obtain ⟨entry, isEntry, oldName, oldLog, oldKnown, oldCalls, same, body⟩ :=
            sound.shared chain old
          refine ⟨entry, isEntry, oldName, oldLog, oldKnown, oldCalls, same, ?_⟩
          rw [List.filter_append, body, List.filter_eq_nil_iff.2, List.append_nil]
          intro rule isNewRule
          obtain ⟨part, _, rfl⟩ := List.mem_map.1 isNewRule
          simp only [Option.some.injEq, decide_eq_true_eq]
          rintro rfl
          exact undeclared old
      · intro rule member
        rcases List.mem_append.1 member with old | isNewRule
        · obtain ⟨chain, hasChain, isTarpit | isDeclared⟩ := sound.auxiliary rule old
          · exact ⟨chain, hasChain, Or.inl isTarpit⟩
          · exact ⟨chain, hasChain, Or.inr (List.mem_cons_of_mem _ isDeclared)⟩
        · obtain ⟨part, _, rfl⟩ := List.mem_map.1 isNewRule
          exact ⟨_, rfl, Or.inr (List.mem_cons_self ..)⟩

end Context

end FirewallPolicy
