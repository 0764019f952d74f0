import FirewallPolicy.Proofs.Insertion.Chain
import FirewallPolicy.Proofs.Insertion.Lookups

/-!
# The arrangement of a chain after several insertions

Insertions that succeed leave what stands in a chain as it is.  Each one puts its rules for the
front before it, in order, and appends its other rules.  Among the appended rules stands the body of
the chain, once, if the insertions look the chain up.
-/

namespace FirewallPolicy.Assembly

/-! ## Calls -/

namespace Call

/-- The rules as they go into chains. -/
def rules (call : Call) : List ChainRule :=
  call.fragments.map fun fragment => { fragment }

/-- What the call puts to the front of a chain. -/
def prepended (place : Place) (call : Call) : List RuleLine :=
  prependedAt place call.rules

/-- What the call puts to the end of a chain. -/
def appended (place : Place) (call : Call) : List RuleLine :=
  appendedAt place call.rules

end Call

variable {place : Place} {before middle after : Assembly} {calls more : List Call}
  {lines others : List RuleLine}

/-- The lines that calls leave at the end of a chain: what they append in order, and the body of the
chain somewhere in what one of them appends if the chain is looked up. -/
inductive Appends (place : Place) (before after : Assembly) (calls : List Call) :
    List RuleLine → Prop
  | settled :
      place ∈ before.expanded ∨ place ∉ after.expanded →
      Appends place before after calls (calls.flatMap (Call.appended place))
  | looked {early late : List Call} {call : Call} {owner : String} {body : List ChainRule}
      {first last : List RuleLine} :
      place ∉ before.expanded → place ∈ after.expanded →
      calls = early ++ call :: late →
      call.source.body owner place = .ok body →
      call.appended place = first ++ last →
      Appends place before after calls (early.flatMap (Call.appended place) ++
        (first ++ body.map (·.line) ++ last) ++ late.flatMap (Call.appended place))

/-- A chain that was looked up stays so, which is why it is looked up by one call only. -/
theorem Appends.append
    (first : Appends place before middle calls lines)
    (second : Appends place middle after more others)
    (firstGrows : before.expanded ⊆ middle.expanded)
    (secondGrows : middle.expanded ⊆ after.expanded) :
    Appends place before after (calls ++ more) (lines ++ others) := by
  cases first with
  | settled firstSettled =>
      cases second with
      | settled secondSettled =>
          rw [← List.flatMap_append]
          refine Appends.settled ?_
          rcases firstSettled with known | unknown
          · exact Or.inl known
          · exact Or.inr (secondSettled.resolve_left unknown)
      | @looked early late call owner body start rest fresh known split read appended =>
          have joinedSplit : calls ++ more = (calls ++ early) ++ call :: late := by
            rw [split, List.append_assoc]
          have joined := Appends.looked (fun member => fresh (firstGrows member)) known
            joinedSplit read appended
          simpa only [List.flatMap_append, List.append_assoc] using joined
  | @looked early late call owner body start rest fresh known split read appended =>
      cases second with
      | settled _ =>
          have joinedSplit : calls ++ more = early ++ call :: (late ++ more) := by
            rw [split, List.append_assoc, List.cons_append]
          have joined := Appends.looked fresh (secondGrows known) joinedSplit read appended
          simpa only [List.flatMap_append, List.append_assoc] using joined
      | looked freshAgain _ _ _ _ => exact absurd known freshAgain

/-! ## What calls leave in a chain -/

/-- No rule that is declared for all auxiliary chains is put to the front. -/
def Call.KeepsBack (call : Call) : Prop :=
  ∀ fragment ∈ call.source.auxiliary, fragment.position ≠ some "prepend"

theorem Call.KeepsBack.isFront_eq_false
    {call : Call} {owner : String} {body : List ChainRule} {rule : ChainRule}
    (keepsBack : call.KeepsBack) (read : call.source.body owner place = .ok body)
    (member : rule ∈ body) : isFront rule = false := by
  rw [isFront, decide_eq_false_iff_not]
  intro stated
  obtain ⟨fragment, isFragment, position⟩ :=
    ChainSource.exists_position_of_body read member stated
  exact keepsBack fragment isFragment position

/-- One successful call. -/
theorem Call.exists_rules_of_inserts
    {call : Call} (keepsBack : call.KeepsBack)
    (inserts : Inserts call.source [] call.rules before after) (place : Place) :
    ∃ lines, Appends place before after [call] lines ∧
      after.tree.rules place = call.prepended place ++ before.tree.rules place ++ lines := by
  by_cases settled : place ∈ before.expanded ∨ place ∉ after.expanded
  · refine ⟨_, Appends.settled settled, ?_⟩
    rw [inserts.rules_eq_arranged (Nat.zero_le _) (settled.imp_right Or.inl)]
    simp [arranged, Call.prepended, Call.appended]
  · obtain ⟨fresh, known⟩ := not_or.1 settled
    obtain ⟨owner, body, first, last, read, split, result⟩ :=
      inserts.exists_rules_of_looked (Nat.zero_le _) fresh (not_not.1 known)
        fun _ _ read _ member => keepsBack.isFront_eq_false read member
    have alone : [call] = [] ++ call :: [] := rfl
    refine ⟨_, Appends.looked fresh (not_not.1 known) alone read split, ?_⟩
    rw [result]
    simp [arranged, Call.prepended]

/-- Calls that all succeed: the first one inserts its rules, and then the others succeed. -/
theorem insertCalls_cons_succeeds
    {call : Call} {rest : List Call} {results : List (Except Failure Unit)}
    (run : insertCalls (call :: rest) before = (results, after))
    (succeed : ∀ result ∈ results, result = .ok ()) :
    ∃ middle later, Inserts call.source [] call.rules before middle ∧
      insertCalls rest middle = (later, after) ∧ ∀ result ∈ later, result = .ok () := by
  obtain ⟨rfl, rfl⟩ := Prod.mk.inj run
  obtain ⟨first, others⟩ := List.forall_mem_cons.1 succeed
  exact ⟨_, _, inserts_of_insert (Prod.ext first rfl), rfl, others⟩

theorem expanded_subset_insertCalls (calls : List Call) (before : Assembly) :
    before.expanded ⊆ (insertCalls calls before).2.expanded := by
  obtain ⟨_, performs⟩ := performsAll_insertCalls calls before
  exact performs.recorded.subset

/-- Calls that succeed leave every chain as it was, behind the rules that they put to the front,
those of later calls first, and before the rules that they append with at most one body among
them. -/
theorem rules_of_insertCalls
    {calls : List Call} {before after : Assembly} {results : List (Except Failure Unit)}
    (run : insertCalls calls before = (results, after))
    (succeed : ∀ result ∈ results, result = .ok ())
    (keepBack : ∀ call ∈ calls, call.KeepsBack) (place : Place) :
    ∃ lines, Appends place before after calls lines ∧
      after.tree.rules place =
        calls.reverse.flatMap (Call.prepended place) ++ before.tree.rules place ++ lines := by
  induction calls generalizing before results with
  | nil =>
      obtain ⟨rfl, rfl⟩ := Prod.mk.inj run
      exact ⟨[], Appends.settled (Classical.em _), by simp⟩
  | cons call rest inductionHypothesis =>
      obtain ⟨keepsBack, restKeepBack⟩ := List.forall_mem_cons.1 keepBack
      obtain ⟨middle, later, inserts, restRun, restSucceed⟩ := insertCalls_cons_succeeds run succeed
      obtain ⟨lines, first, firstRules⟩ := call.exists_rules_of_inserts keepsBack inserts place
      obtain ⟨others, second, restRules⟩ := inductionHypothesis restRun restSucceed restKeepBack
      have grows : middle.expanded ⊆ after.expanded := by
        simpa [restRun] using expanded_subset_insertCalls rest middle
      refine ⟨lines ++ others, first.append second inserts.expanded_subset grows, ?_⟩
      rw [restRules, firstRules]
      simp

/-- A rule of the filter table with one token. -/
def filterRule (chain token : String) : Fragment :=
  { family := some "inet", table := some "filter", chain := some chain, tokens := [token] }

/-- The chain of a quota. -/
def quota : Place :=
  ⟨"inet", "filter", "quota"⟩

/-- The first call looks the chain up between two rules that it appends to it.  The second one has
two rules for the front of the chain. -/
def quotaCalls : List Call :=
  let source : ChainSource := ⟨[{ chain := some "quota", target := some "DROP" }], .map []⟩
  [{ source, owner := "", fragments := [
      filterRule "quota" "-p tcp",
      { filterRule "INPUT" "-i lan" with target := some "quota" },
      { filterRule "quota" "-p icmp" with position := some "prepend" },
      filterRule "quota" "-p udp"] },
    { source, owner := "", fragments := [
      { filterRule "quota" "-i lo" with position := some "prepend" },
      { filterRule "quota" "-i dmz" with position := some "prepend" }] }]

theorem rules_of_quotaCalls :
    (∀ result ∈ (insertCalls quotaCalls {}).1, result = .ok ()) ∧
      (∀ call ∈ quotaCalls, call.KeepsBack) ∧
      ((insertCalls quotaCalls {}).2.tree.rules quota).map (·.text) =
        ["-i lo", "-i dmz", "-p icmp", "-p tcp", "-j DROP", "-p udp"] ∧
      ∃ lines, Appends quota {} (insertCalls quotaCalls {}).2 quotaCalls lines ∧
        (insertCalls quotaCalls {}).2.tree.rules quota =
          ["-i lo", "-i dmz", "-p icmp"].map (⟨·, none, none⟩) ++ [] ++ lines := by
  have results : (insertCalls quotaCalls {}).1 = [.ok (), .ok ()] := by
    with_unfolding_all rfl
  have succeed : ∀ result ∈ (insertCalls quotaCalls {}).1, result = .ok () := by
    simp [results]
  have keepBack : ∀ call ∈ quotaCalls, call.KeepsBack := by
    unfold Call.KeepsBack
    decide
  have texts : ((insertCalls quotaCalls {}).2.tree.rules quota).map (·.text) =
      ["-i lo", "-i dmz", "-p icmp", "-p tcp", "-j DROP", "-p udp"] := by
    decide +kernel
  have prepended : quotaCalls.reverse.flatMap (Call.prepended quota) =
      ["-i lo", "-i dmz", "-p icmp"].map (⟨·, none, none⟩) := by
    decide +kernel
  obtain ⟨lines, appends, rules⟩ := rules_of_insertCalls rfl succeed keepBack quota
  rw [prepended] at rules
  exact ⟨succeed, keepBack, texts, lines, appends, rules⟩

end FirewallPolicy.Assembly
