import FirewallPolicy.Proofs.Compile.Soundness

/-!
# Log chains

The name of a shared chain tells the action and the name of the log class.  A chain keeps the rules
that it was declared with first, so log classes keep chains of their own as long as their names tell
them apart.  They do, but for a class that is declared under the empty name, which is the name of the
default class.
-/

namespace FirewallPolicy

open Context Stateful

namespace Rule

/-! ## What rules log -/

/-- The rule logs with the class and jumps to the target: by its action, or above its limit. -/
inductive LogsWith (rule : Rule) : LogClass → String → String → Prop
  | action {log : LogClass} {target : String} :
      rule.kind.logs = true → rule.log? = some log → rule.target = .ok (some target) →
      LogsWith rule log rule.action target
  | limit {name : String} {mapping : Entries} {log : LogClass} :
      rule.limitName? = .ok (some name) →
      (rule.attributes.get name).entries? = some mapping → limitLog? mapping = some log →
      LogsWith rule log "drop" "DROP"

theorem LogsWith.knows
    {rule : Rule} {log : LogClass} {action target : String} {book : LogBook}
    (logs : rule.LogsWith log action target) (ruleSound : rule.Sound book) :
    book.Knows log := by
  cases logs with
  | action _ isLog _ => exact ruleSound.log log isLog
  | limit isLimit isMapping isLog =>
      exact ruleSound.limitLog _ (mem_limitNames_of_limitName? isLimit).1 _ isMapping log isLog

theorem LogsWith.mem_actionTargets
    {rule : Rule} {log : LogClass} {action target : String} {book : LogBook}
    (logs : rule.LogsWith log action target) (ruleSound : rule.Sound book) :
    (action, target) ∈ actionTargets := by
  cases logs with
  | action isLogging isLog read => exact ruleSound.mem_actionTargets isLogging isLog read
  | limit _ _ _ => decide

/-- In a context, the rule logs with the class under the name and jumps to the target through the
chain that the action and the name share. -/
structure SharesChain (rule : Rule) (context : Context) (log : LogClass)
    (action target : String) (name : Scalar) : Prop where
  logs : rule.LogsWith log action target
  isName : log.nameIn context = some name
  declared : sharedName ("log" ++ action) name ∈ context.declared

end Rule

/-! ## The rules of a shared chain -/

section Shared

variable {context : Context} {log : LogClass} {action target name : String}

/-- A shared chain logs with the class and jumps to the target that its name stands for. -/
theorem Context.Sound.sharedRules
    (sound : Context.Sound context) (isAction : (action, target) ∈ actionTargets)
    (known : context.logBook.Knows log) (calls : context.logBook.Calls log name)
    (distinct : name = "" → context.logBook.entries.get? (.text "") = none)
    (declared : Rule.sharedName ("log" ++ action) (.text name) ∈ context.declared) :
    context.auxiliary.filter
        (fun rule => rule.chain = some (Rule.sharedName ("log" ++ action) (.text name))) =
      sharedBody (Rule.sharedName ("log" ++ action) (.text name)) log target := by
  obtain ⟨entry, isEntry, other, otherLog, otherKnown, otherCalls, same, body⟩ :=
    sound.shared _ declared
  obtain ⟨rfl, rfl⟩ := Rule.sharedName_inj isAction isEntry same
  have sameClass : otherLog.fragments = log.fragments :=
    LogClass.fragments_eq_of_attributes
      (otherKnown.attributes_eq known otherCalls calls distinct)
  rw [body]
  unfold sharedBody Rule.actionFragments
  simp only [Option.map_some, Option.getD_some, sameClass]

end Shared

namespace Compilation

variable {policy : Policy} {hosts : HostBook} {given : Option Settings}
  {compilation : Compilation}

/-- The rules of the sections whose rules log. -/
def loggingRules (compilation : Compilation) : List Rule :=
  compilation.build.context.rulesIn "filter" ++ compilation.build.context.rulesIn "policy"

/-- A compilation of a written policy ends with sound rules that log. -/
theorem sound_of_mem_loggingRules
    (written : policy.IsWritten)
    (compiled : ofPolicy policy Builtin.modules hosts given = .ok compilation) :
    Context.Sound compilation.build.context ∧
      ∀ rule ∈ compilation.loggingRules, rule.Sound compilation.build.context.logBook := by
  obtain ⟨settings, run⟩ := ofPolicy_eq_ok compiled
  obtain ⟨sound, rulesSound⟩ := Building.sound_final written run
  have inSection : ∀ name ∈ ["filter", "policy"], ∃ described ∈ Builtin.ordered,
      described.name = name ∧ described.kind.isSome = true := by
    decide
  refine ⟨sound, fun rule member => ?_⟩
  have ofSection {name : String} (isSection : name ∈ ["filter", "policy"])
      (isRule : rule ∈ compilation.build.context.rulesIn name) :
      rule.Sound compilation.build.context.logBook := by
    obtain ⟨described, isBuiltin, rfl, hasKind⟩ := inSection name isSection
    exact rulesSound described isBuiltin hasKind rule isRule
  rcases List.mem_append.1 member with isFilter | isPolicy
  · exact ofSection (by simp) isFilter
  · exact ofSection (by simp) isPolicy

/-- A shared log chain has the rules of the log class that goes by its name, followed by the jump of
the action, and rules share a chain only if they share the class and the action.  This takes that no
class is declared under the empty name, unless the name is another one. -/
theorem sharedChain_of_ofPolicy
    (written : policy.IsWritten)
    (compiled : ofPolicy policy Builtin.modules hosts given = .ok compilation)
    {first : Rule} (isFirst : first ∈ compilation.loggingRules)
    {log : LogClass} {action target : String} {name : Scalar}
    (shares : first.SharesChain compilation.build.context log action target name)
    (distinct : name = .text "" →
      (compilation.build.context.entriesOf "log").get? (.text "") = none) :
    compilation.build.context.auxiliary.filter
        (fun rule => rule.chain = some (Rule.sharedName ("log" ++ action) name)) =
      sharedBody (Rule.sharedName ("log" ++ action) name) log target ∧
    ∀ second ∈ compilation.loggingRules, ∀ otherLog otherAction otherTarget otherName,
      second.SharesChain compilation.build.context otherLog otherAction otherTarget otherName →
      Rule.sharedName ("log" ++ otherAction) otherName = Rule.sharedName ("log" ++ action) name →
      otherAction = action ∧ otherTarget = target ∧ otherName = name ∧
        otherLog.attributes = log.attributes := by
  obtain ⟨sound, rulesSound⟩ := sound_of_mem_loggingRules written compiled
  have firstSound := rulesSound first isFirst
  have known := shares.logs.knows firstSound
  have isAction := shares.logs.mem_actionTargets firstSound
  obtain ⟨text, rfl, calls⟩ := known.exists_calls shares.isName
  have unlisted : text = "" → compilation.build.context.logBook.entries.get? (.text "") = none :=
    fun isEmpty => distinct (isEmpty ▸ rfl)
  refine ⟨sound.sharedRules isAction known calls unlisted shares.declared, ?_⟩
  intro second isSecond otherLog otherAction otherTarget otherName otherShares same
  have secondSound := rulesSound second isSecond
  have otherKnown := otherShares.logs.knows secondSound
  obtain ⟨otherText, rfl, otherCalls⟩ := otherKnown.exists_calls otherShares.isName
  obtain ⟨sameAction, rfl⟩ :=
    Rule.sharedName_inj (otherShares.logs.mem_actionTargets secondSound) isAction same
  obtain ⟨rfl, rfl⟩ := Prod.mk.inj sameAction
  exact ⟨rfl, rfl, rfl, otherKnown.attributes_eq known otherCalls calls unlisted⟩

/-- Two rules that drop and log, one with a class that the policy declares under the name and one
with the default class. -/
def loggingPolicy (name : String) : Policy :=
  { objects := [
      ("log", .map [(.text name, .map [(.text "prefix", .text "NAMED ")])]),
      ("filter", .list [.map [(.text "action", .text "drop"), (.text "log", .text name)],
        .map [(.text "action", .text "drop")]])] }

/-- A dropping rule logs with its class and drops. -/
theorem logsWith_drop
    {rule : Rule} {log : LogClass} (kind : rule.kind = .filter) (action : rule.action = "drop")
    (isLog : rule.log? = some log) :
    rule.LogsWith log "drop" "DROP" := by
  have read : rule.target = .ok (some "DROP") := by
    have notCustom : customName? "drop" = none := by decide +kernel
    simp [Rule.target, Rule.filterTarget, Rule.isCustom, kind, action, notCustom]
  rw [← action]
  exact Rule.LogsWith.action (by rw [kind]; rfl) isLog read

theorem sharedChain_of_loggingPolicy :
    ∃ compilation first log,
      ofPolicy (loggingPolicy "x") Builtin.modules .none (some { ipv6 := false }) =
        .ok compilation ∧
      (loggingPolicy "x").IsWritten ∧
      first ∈ compilation.loggingRules ∧
      first.SharesChain compilation.build.context log "drop" "DROP" (.text "x") ∧
      (Scalar.text "x" = .text "" →
        (compilation.build.context.entriesOf "log").get? (.text "") = none) ∧
      compilation.build.context.auxiliary.filter (fun rule => rule.chain = some "logdrop-x") =
        sharedBody "logdrop-x" log "DROP" := by
  obtain ⟨compilation, compiled, isBuild⟩ :=
    exists_of_process (loggingPolicy "x") .none { ipv6 := false } (by decide +kernel)
      (by decide +kernel)
  have written : (loggingPolicy "x").IsWritten := by
    unfold Policy.IsWritten
    decide +kernel
  obtain ⟨first, isFirst, log, isLog, kind, action, isName, declared⟩ :
      ∃ first ∈ compilation.loggingRules, ∃ log ∈ first.log?, first.kind = .filter ∧
        first.action = "drop" ∧ log.nameIn compilation.build.context = some (.text "x") ∧
        "logdrop-x" ∈ compilation.build.context.declared := by
    unfold loggingRules
    rw [isBuild]
    decide +kernel
  have shares : first.SharesChain compilation.build.context log "drop" "DROP" (.text "x") :=
    ⟨logsWith_drop kind action isLog, isName, declared⟩
  have distinct : Scalar.text "x" = .text "" →
      (compilation.build.context.entriesOf "log").get? (.text "") = none := by
    simp
  exact ⟨compilation, first, log, compiled, written, isFirst, shares, distinct,
    (sharedChain_of_ofPolicy written compiled isFirst shares distinct).1⟩

/-- What a class with the prefix of the logging policy does. -/
def namedFragments : List Fragment :=
  [.ofTarget "LOG --log-prefix \"NAMED \""]

/-- A class that is declared under the empty name shares its chain with the default class, so what
is logged by default is logged with the other class. -/
theorem mixed_of_emptyName :
    ∃ compilation, ∃ first ∈ compilation.loggingRules, ∃ second ∈ compilation.loggingRules,
      ∃ log default,
      ofPolicy (loggingPolicy "") Builtin.modules .none (some { ipv6 := false }) =
        .ok compilation ∧
      (loggingPolicy "").IsWritten ∧
      first.SharesChain compilation.build.context log "drop" "DROP" (.text "") ∧
      second.SharesChain compilation.build.context default "drop" "DROP" (.text "") ∧
      default.fragments = [.ofTarget "LOG"] ∧
      compilation.build.context.auxiliary.filter (fun rule => rule.chain = some "logdrop") =
        sharedBody "logdrop" log "DROP" ∧
      compilation.build.context.auxiliary.filter (fun rule => rule.chain = some "logdrop") ≠
        sharedBody "logdrop" default "DROP" := by
  obtain ⟨compilation, compiled, isBuild⟩ :=
    exists_of_process (loggingPolicy "") .none { ipv6 := false } (by decide +kernel)
      (by decide +kernel)
  have written : (loggingPolicy "").IsWritten := by
    unfold Policy.IsWritten
    decide +kernel
  have logging : ∀ fragments ∈ [namedFragments, [.ofTarget "LOG"]],
      ∃ rule ∈ compilation.loggingRules, ∃ log ∈ rule.log?, rule.kind = .filter ∧
        rule.action = "drop" ∧ log.nameIn compilation.build.context = some (.text "") ∧
        log.fragments = fragments := by
    unfold loggingRules
    rw [isBuild]
    decide +kernel
  have declared : "logdrop" ∈ compilation.build.context.declared := by
    rw [isBuild]
    decide +kernel
  have body : compilation.build.context.auxiliary.filter
      (fun rule => rule.chain = some "logdrop") =
        (namedFragments ++ [Fragment.ofTarget "DROP"]).map fun rule =>
          { rule with chain := some "logdrop" } := by
    rw [isBuild]
    decide +kernel
  obtain ⟨first, isFirst, log, isLog, kind, action, isName, named⟩ :=
    logging namedFragments (by simp)
  obtain ⟨second, isSecond, default, isDefault, secondKind, secondAction, secondName, plain⟩ :=
    logging [.ofTarget "LOG"] (by simp)
  refine ⟨compilation, first, isFirst, second, isSecond, log, default, compiled, written,
    ⟨logsWith_drop kind action isLog, isName, declared⟩,
    ⟨logsWith_drop secondKind secondAction isDefault, secondName, declared⟩, plain, ?_, ?_⟩
  · rw [body]
    unfold sharedBody Rule.actionFragments
    rw [Option.map_some, named]
    rfl
  · rw [body]
    unfold sharedBody Rule.actionFragments
    rw [Option.map_some, plain]
    decide

end Compilation

end FirewallPolicy
