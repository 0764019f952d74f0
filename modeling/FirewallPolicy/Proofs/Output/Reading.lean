import FirewallPolicy.Proofs.Fragment.Narrowing
import FirewallPolicy.Proofs.Insertion.Tree
import FirewallPolicy.Proofs.Output.Lines
import FirewallPolicy.Proofs.Text.Parts

/-!
# Reading a restore file

A restore file is read line by line: a table starts with its name, its chains are declared with
their policies before any rule stands in it, and it ends with a commit.  What is read from a rendered
tree is the tree again, table by table.
-/

namespace FirewallPolicy

namespace Text

/-- A name that can be told from what follows it: it is not empty and has no blank. -/
structure IsWord (text : String) : Prop where
  nonempty : text.toList ≠ []
  solid : ∀ c ∈ text.toList, isBlank c = false

instance (text : String) : Decidable (IsWord text) :=
  decidable_of_iff (text.toList ≠ [] ∧ text.toList.any isBlank = false)
    ⟨fun ⟨nonempty, solid⟩ => ⟨nonempty, by simpa using solid⟩,
      fun ⟨nonempty, solid⟩ => ⟨nonempty, by simpa using solid⟩⟩

theorem IsWord.notMem {text : String} (word : IsWord text) {c : Char} (blank : isBlank c = true) :
    c ∉ text.toList := by
  intro member
  rw [word.solid c member] at blank
  cases blank

theorem IsWord.isUnbroken {text : String} (word : IsWord text) : IsUnbroken text :=
  word.notMem (by decide)

/-! ### Blanks at the end -/

theorem dropBlanksRight_append (first second : List Char) :
    dropBlanksRight (first ++ second) =
      if (dropBlanksRight second).isEmpty then dropBlanksRight first
      else first ++ dropBlanksRight second := by
  simp only [dropBlanksRight, List.reverse_append, List.dropWhile_append, List.isEmpty_reverse]
  split <;> simp

theorem dropBlanksRight_of_solid {cs : List Char} (solid : ∀ c ∈ cs, isBlank c = false) :
    dropBlanksRight cs = cs := by
  unfold dropBlanksRight
  cases reversed : cs.reverse with
  | nil => simpa using reversed.symm
  | cons last rest =>
      have isLast : isBlank last = false := solid last (List.mem_reverse.1 (reversed ▸ by simp))
      rw [List.dropWhile_cons, isLast, ← reversed, if_neg Bool.false_ne_true, List.reverse_reverse]

end Text

namespace Restore

open Text

/-! ## Lines -/

/-- What a line of a file says. -/
inductive Line where
  | comment
  | table (name : String)
  | chain (name policy : String)
  | rule (chain text : String)
  | commit
deriving DecidableEq

/-- What a line says; the name of a chain ends at the first blank. -/
def readLine? : List Char → Option Line
  | '#' :: _ => some .comment
  | '*' :: name => some (.table (String.ofList name))
  | ':' :: rest => do
    let (name, tail) ← cutAt? ' ' rest
    let policy ← tail.dropSuffix? " [0:0]".toList
    return .chain (String.ofList name) (String.ofList policy)
  | '-' :: 'A' :: ' ' :: rest =>
    let (chain, text) := (cutAt? ' ' rest).getD (rest, [])
    some (.rule (String.ofList chain) (String.ofList text))
  | line => if line = "COMMIT".toList then some .commit else none

theorem readLine?_table (table : String) :
    readLine? ("*" ++ table).toList = some (.table table) := by
  rw [String.toList_append]
  change some (Line.table (String.ofList table.toList)) = _
  rw [String.ofList_toList]

theorem readLine?_declaration {chain : String} (word : IsWord chain) (policy : String) :
    readLine? (":" ++ chain ++ " " ++ policy ++ " [0:0]").toList = some (.chain chain policy) := by
  have written : (":" ++ chain ++ " " ++ policy ++ " [0:0]").toList =
      ':' :: (chain.toList ++ ' ' :: (policy.toList ++ " [0:0]".toList)) := by
    simp
  have isPolicy : (policy.toList ++ " [0:0]".toList).dropSuffix? " [0:0]".toList =
      some policy.toList :=
    List.dropSuffix?_eq_some_iff.2 ⟨_, rfl, beq_self_eq_true _⟩
  have noBlank : ' ' ∉ chain.toList := word.notMem (by decide)
  rw [written]
  simp only [readLine?, cutAt?_append noBlank, isPolicy, Option.bind_eq_bind, Option.bind_some,
    Option.pure_def, String.ofList_toList]

theorem readLine?_rule {chain : String} (word : IsWord chain) (text : String) :
    readLine? (trimRight ("-A " ++ chain ++ " " ++ text)).toList =
      some (.rule chain (trimRight text)) := by
  have start : dropBlanksRight ("-A ".toList ++ chain.toList) = "-A ".toList ++ chain.toList := by
    rw [dropBlanksRight_append, dropBlanksRight_of_solid word.solid, if_neg (by simp [word.nonempty])]
  have written : (trimRight ("-A " ++ chain ++ " " ++ text)).toList =
      if (dropBlanksRight text.toList).isEmpty then "-A ".toList ++ chain.toList
      else "-A ".toList ++ chain.toList ++ ' ' :: dropBlanksRight text.toList := by
    rw [trimRight, String.toList_ofList, String.toList_append, dropBlanksRight_append,
      String.toList_append, dropBlanksRight_append ("-A " ++ chain).toList, String.toList_append,
      start]
    have single : dropBlanksRight [' '] = [] := by decide
    split <;> simp [single]
  have noBlank : ' ' ∉ chain.toList := word.notMem (by decide)
  have read (rest : List Char) : readLine? ("-A ".toList ++ rest) =
      some (.rule (String.ofList ((cutAt? ' ' rest).getD (rest, [])).1)
        (String.ofList ((cutAt? ' ' rest).getD (rest, [])).2)) :=
    rfl
  rw [written, trimRight]
  split
  · next blank =>
      have noText : dropBlanksRight text.toList = [] := by simpa using blank
      rw [read, cutAt?_of_notMem noBlank, Option.getD_none, String.ofList_toList, noText]
  · rw [List.append_assoc, read, cutAt?_append noBlank, Option.getD_some, String.ofList_toList]

/-! ## Tables -/

/-- What a file says of one table: its chains with their policies, and its rules with their chains. -/
structure TableText where
  name : String
  chains : List (String × String) := []
  rules : List (String × String) := []
deriving DecidableEq

/-- What is read after a line, behind the tables that are complete and the one that was started. -/
def readNext? : List TableText × Option TableText → Line → Option (List TableText × Option TableText)
  | (done, none), .comment => some (done, none)
  | (done, none), .table name => some (done, some { name })
  | (done, some table), .chain name policy =>
    if table.rules.isEmpty then
      some (done, some { table with chains := table.chains ++ [(name, policy)] })
    else none
  | (done, some table), .rule chain text =>
    some (done, some { table with rules := table.rules ++ [(chain, text)] })
  | (done, some table), .commit => some (done ++ [table], none)
  | _, _ => none

/-- The tables of a file, if it can be read. -/
def read? (text : String) : Option (List TableText) := do
  let lines ← (linesOf text).mapM readLine?
  let (done, started) ← lines.foldlM readNext? ([], none)
  if started.isNone then some done else none

namespace TableText

/-- The lines that say what is read of the table. -/
def lines (table : TableText) : List Line :=
  .table table.name :: table.chains.map (fun chain => .chain chain.1 chain.2) ++
    table.rules.map (fun rule => .rule rule.1 rule.2) ++ [.commit]

theorem readNext?_chains (done : List TableText) (name : String)
    (known chains : List (String × String)) :
    (chains.map fun chain => Line.chain chain.1 chain.2).foldlM readNext?
        (done, some { name, chains := known }) =
      some (done, some { name, chains := known ++ chains }) := by
  induction chains generalizing known with
  | nil => simp
  | cons chain rest inductionHypothesis =>
      rw [List.map_cons, List.foldlM_cons]
      have step := inductionHypothesis (known ++ [chain])
      rw [List.append_assoc] at step
      exact step

theorem readNext?_rules (done : List TableText) (name : String) (chains : List (String × String))
    (known rules : List (String × String)) :
    (rules.map fun rule => Line.rule rule.1 rule.2).foldlM readNext?
        (done, some ⟨name, chains, known⟩) =
      some (done, some ⟨name, chains, known ++ rules⟩) := by
  induction rules generalizing known with
  | nil => simp
  | cons rule rest inductionHypothesis =>
      rw [List.map_cons, List.foldlM_cons]
      have step := inductionHypothesis (known ++ [rule])
      rw [List.append_assoc] at step
      exact step

theorem readNext?_lines (done : List TableText) (table : TableText) :
    table.lines.foldlM readNext? (done, none) = some (done ++ [table], none) := by
  rw [lines, List.foldlM_append, List.foldlM_append, List.foldlM_cons]
  change ((((table.chains.map fun chain => Line.chain chain.1 chain.2).foldlM readNext?
    (done, some { name := table.name, chains := [] })) >>= _) >>= _) = _
  rw [readNext?_chains, List.nil_append]
  change (((table.rules.map fun rule => Line.rule rule.1 rule.2).foldlM readNext?
    (done, some ⟨table.name, table.chains, []⟩)) >>= _) = _
  rw [readNext?_rules, List.nil_append]
  rfl

/-- Complete tables are read one after the other. -/
theorem readNext?_tables (done tables : List TableText) :
    (tables.flatMap lines).foldlM readNext? (done, none) = some (done ++ tables, none) := by
  induction tables generalizing done with
  | nil => simp
  | cons table rest inductionHypothesis =>
      have step := inductionHypothesis (done ++ [table])
      rw [List.append_assoc] at step
      rw [List.flatMap_cons, List.foldlM_append, readNext?_lines]
      exact step

end TableText

theorem mapM_eq_some_of_map
    {α β : Type} {results : α → Option β} {items : List α} {all : List β}
    (each : items.map results = all.map some) : items.mapM results = some all := by
  induction items generalizing all with
  | nil =>
      obtain rfl := List.map_eq_nil_iff.1 each.symm
      rfl
  | cons item rest inductionHypothesis =>
      obtain ⟨first, others, rfl, isFirst, areOthers⟩ := List.map_eq_cons_iff.1 each.symm
      rw [List.mapM_cons, ← isFirst, inductionHypothesis areOthers.symm]
      rfl

/-! ## Rendered trees -/

variable {settings : Settings} {tree : RuleTree} {family : String}

/-- What the file of a family says of a table. -/
def tableOf (settings : Settings) (tree : RuleTree) (family table : String) : TableText where
  name := table
  chains :=
    (builtinChains table).map (fun chain => (chain, chainPolicy settings table)) ++
      (((tree.chainsOf family table).map (·.1)).filter fun chain =>
        !(builtinChains table).contains chain).map fun chain => (chain, "-")
  rules := (tree.chainsOf family table).flatMap fun chain =>
    chain.2.map fun rule => (chain.1, trimRight rule.text)

/-- What the file of a family says of its tables. -/
def fileOf (settings : Settings) (tree : RuleTree) (family : String) : List TableText :=
  (tables tree family).map (tableOf settings tree family)

/-- The names of a family's tables and chains are words, and no rule or policy has a line break. -/
structure IsReadable (settings : Settings) (tree : RuleTree) (family : String) : Prop where
  policy : Text.IsUnbroken settings.filterChainPolicy
  table : ∀ chain ∈ tree.chains, chain.1.family = family → IsWord chain.1.table
  chain : ∀ chain ∈ tree.chains, chain.1.family = family → IsWord chain.1.chain
  rule : ∀ chain ∈ tree.chains, chain.1.family = family →
    ∀ rule ∈ chain.2, Text.IsUnbroken rule.text

theorem IsReadable.isUnbroken (readable : IsReadable settings tree family) :
    IsUnbroken settings tree family where
  policy := readable.policy
  table chain member ofFamily := (readable.table chain member ofFamily).isUnbroken
  chain chain member ofFamily := (readable.chain chain member ofFamily).isUnbroken
  rule := readable.rule

section Readable

variable (readable : IsReadable settings tree family)
include readable

theorem readLine?_declarations (table : String) :
    (declarations settings table ((tree.chainsOf family table).map (·.1))).map
        (readLine? ∘ String.toList) =
      (tableOf settings tree family table).chains.map fun chain =>
        some (.chain chain.1 chain.2) := by
  have builtin : ∀ chain ∈ builtinChains table, IsWord chain :=
    of_builtinChains (fun chains => ∀ chain ∈ chains, IsWord chain) (by decide)
      (by decide) table
  simp only [declarations, tableOf, List.map_append, List.map_map]
  refine congr (congrArg _ (List.map_congr_left fun chain isBuiltin => ?_))
    (List.map_congr_left fun chain isOther => ?_)
  · exact readLine?_declaration (builtin chain isBuiltin) _
  · obtain ⟨⟨name, rules⟩, isChain, rfl⟩ := List.mem_map.1 (List.mem_filter.1 isOther).1
    exact readLine?_declaration (readable.chain _ (RuleTree.mem_chainsOf.1 isChain) rfl) _

theorem readLine?_rules (table : String) :
    ((tree.chainsOf family table).flatMap fun chain => ruleLines chain.1 chain.2).map
        (readLine? ∘ String.toList) =
      (tableOf settings tree family table).rules.map fun rule => some (.rule rule.1 rule.2) := by
  simp only [tableOf, List.map_flatMap]
  refine List.flatMap_congr fun chain isChain => ?_
  have word := readable.chain _ (RuleTree.mem_chainsOf.1 isChain) rfl
  simp only [ruleLines, List.map_map]
  refine List.map_congr_left fun rule _ => ?_
  rw [Function.comp_apply, Function.comp_apply, Function.comp_apply, readLine?_rule word]

theorem readLine?_tableLines (table : String) :
    (tableLines settings table (tree.chainsOf family table)).map (readLine? ∘ String.toList) =
      (tableOf settings tree family table).lines.map some := by
  have commit : readLine? "COMMIT".toList = some .commit := by decide
  simp only [tableLines, TableText.lines, List.map_append, List.map_cons, List.map_nil,
    List.map_map, readLine?_declarations readable, readLine?_rules readable, Function.comp_apply,
    readLine?_table, commit, List.singleton_append]
  rfl

theorem mapM_lines :
    (linesOf (render settings tree family)).mapM readLine? =
      some (.comment :: (fileOf settings tree family).flatMap TableText.lines) := by
  have read : (lines settings tree family).map (readLine? ∘ String.toList) =
      (Line.comment :: (fileOf settings tree family).flatMap TableText.lines).map some := by
    have comment : readLine? header.toList = some .comment := by decide
    rw [lines, List.map_cons, List.map_cons, Function.comp_apply, comment, fileOf,
      List.map_flatMap, List.flatMap_map, List.map_flatMap]
    exact congrArg _ (List.flatMap_congr fun table _ => readLine?_tableLines readable table)
  rw [linesOf_render readable.isUnbroken, List.mapM_map]
  exact mapM_eq_some_of_map read

/-- Reading a rendered tree gives back what the tree says of each table. -/
theorem read?_render : read? (render settings tree family) = some (fileOf settings tree family) := by
  rw [read?, mapM_lines readable]
  change (((fileOf settings tree family).flatMap TableText.lines).foldlM readNext? ([], none) >>=
    fun state => if state.2.isNone then some state.1 else none) = _
  rw [TableText.readNext?_tables, List.nil_append]
  rfl

end Readable

/-! ## What a file says of the tree -/

/-- The tables of the file are those of the tree and the filter table, in their order; each declares
the built-in chains and those of the tree, and has the rules of each chain in order. -/
structure ReadsBack (settings : Settings) (tree : RuleTree) (family : String)
    (file : List TableText) : Prop where
  order : ∃ others, file.map (·.name) =
      (["raw", "mangle", "nat", "filter"].filter fun table =>
        table = "filter" ∨ table ∈ tree.tables family) ++ others ∧
    (others.Pairwise fun first second => precedes second first = false) ∧
    ∀ table, table ∈ others ↔
      table ∈ tree.tables family ∧ table ∉ ["raw", "mangle", "nat", "filter"]
  once : (file.map (·.name)).Nodup
  declaredOnce : ∀ table ∈ file, (table.chains.map (·.1)).Nodup
  declared : ∀ table ∈ file, ∀ chain policy, (chain, policy) ∈ table.chains ↔
    (chain ∈ builtinChains table.name ∧ policy = chainPolicy settings table.name) ∨
      (chain ∉ builtinChains table.name ∧ tree.isOpen ⟨family, table.name, chain⟩ = true ∧
        policy = "-")
  rules : ∀ table ∈ file, ∀ chain,
    (table.rules.filter fun rule => rule.1 = chain).map (·.2) =
      (tree.rules ⟨family, table.name, chain⟩).map fun rule => trimRight rule.text

theorem names_fileOf : (fileOf settings tree family).map (·.name) = tables tree family := by
  simp [fileOf, tableOf, Function.comp_def]

theorem mem_names_chainsOf {table chain : String} :
    chain ∈ (tree.chainsOf family table).map (·.1) ↔
      tree.isOpen ⟨family, table, chain⟩ = true := by
  simp only [List.mem_map, Prod.exists, exists_and_right, exists_eq_right, RuleTree.mem_chainsOf,
    RuleTree.isOpen, List.any_eq_true, beq_iff_eq]

theorem lookup_chainsOf (table chain : String) :
    (tree.chainsOf family table).lookup chain = tree.chains.lookup ⟨family, table, chain⟩ := by
  obtain ⟨chains⟩ := tree
  induction chains with
  | nil => rfl
  | cons entry rest inductionHypothesis =>
      obtain ⟨place, rules⟩ := entry
      unfold RuleTree.chainsOf at inductionHypothesis ⊢
      by_cases here : place.family = family ∧ place.table = table
      · obtain ⟨rfl, rfl⟩ := here
        have same : ((⟨place.family, place.table, chain⟩ : Place) == place) = (chain == place.chain) := by
          rw [Bool.eq_iff_iff, beq_iff_eq, beq_iff_eq, Place.mk.injEq]
          simp
        rw [List.filter_cons_of_pos (by simp), List.map_cons, List.lookup_cons, List.lookup_cons,
          inductionHypothesis, same]
      · have different : ((⟨family, table, chain⟩ : Place) == place) = false := by
          refine beq_false_of_ne fun same => here ?_
          rw [← same]
          exact ⟨rfl, rfl⟩
        rw [List.filter_cons_of_neg (by simpa using here), inductionHypothesis, List.lookup_cons,
          different]

theorem nodup_names_chainsOf (distinct : (tree.chains.map (·.1)).Nodup) (table : String) :
    ((tree.chainsOf family table).map (·.1)).Nodup := by
  rw [RuleTree.chainsOf, List.map_map]
  refine List.Nodup.map_on ?_ (List.Nodup.filter _ (List.Nodup.of_map _ distinct))
  intro first isFirst second isSecond same
  simp only [List.mem_filter, Bool.and_eq_true, beq_iff_eq] at isFirst isSecond
  have samePlace : first.1 = second.1 := by
    cases isPlace : first.1 with
    | mk ownFamily ownTable ownChain =>
        cases isOther : second.1 with
        | mk otherFamily otherTable otherChain => simp_all
  exact List.inj_on_of_nodup_map distinct isFirst.1 isSecond.1 samePlace

theorem rules_flatMap
    {chains : List (String × List RuleLine)} (distinct : (chains.map (·.1)).Nodup) (chain : String) :
    ((chains.flatMap fun chain => chain.2.map fun rule => (chain.1, trimRight rule.text)).filter
        fun rule => rule.1 = chain).map (·.2) =
      ((chains.lookup chain).getD []).map fun rule => trimRight rule.text := by
  induction chains with
  | nil => rfl
  | cons first rest inductionHypothesis =>
      obtain ⟨name, rules⟩ := first
      rw [List.map_cons, List.nodup_cons] at distinct
      rw [List.flatMap_cons, List.filter_append, List.map_append, inductionHypothesis distinct.2,
        List.lookup_cons]
      by_cases same : chain = name
      · subst same
        have absent : rest.lookup chain = none := by
          rw [List.lookup_eq_none_iff]
          intro entry member
          refine bne_iff_ne.2 fun same => distinct.1 ?_
          exact List.mem_map.2 ⟨entry, member, same.symm⟩
        simp [absent, List.filter_map, Function.comp_def]
      · have different : (chain == name) = false := beq_false_of_ne same
        simp [different, Ne.symm same, List.filter_map, Function.comp_def]

theorem exists_tables :
    ∃ others, tables tree family =
        (["raw", "mangle", "nat", "filter"].filter fun table =>
          table = "filter" ∨ table ∈ tree.tables family) ++ others ∧
      (others.Pairwise fun first second => precedes second first = false) ∧
      (∀ table, table ∈ others ↔
        table ∈ tree.tables family ∧ table ∉ ["raw", "mangle", "nat", "filter"]) ∧
      others.Nodup := by
  refine ⟨_, congrArg (· ++ _) (List.filter_congr fun table _ => ?_), ?_, fun table => ?_, ?_⟩
  · rw [Bool.eq_iff_iff, List.contains_iff_mem, mem_withFilter, decide_eq_true_eq]
  · exact (pairwise_sorted _).imp fun ordered => by simpa using ordered
  · have notOther : "filter" ∈ builtinTables.map (·.1) := by decide
    rw [mem_sorted, List.mem_filter, mem_withFilter, Bool.not_eq_true', ← Bool.not_eq_true,
      List.contains_iff_mem]
    refine ⟨fun ⟨known, other⟩ => ⟨known.resolve_left fun same => other (same ▸ notOther), other⟩,
      fun ⟨known, other⟩ => ⟨.inr known, other⟩⟩
  · refine (List.mergeSort_perm ..).nodup_iff.2 (List.Nodup.filter _ ?_)
    have distinct : (tree.tables family).Nodup := nodup_eraseDups _
    split
    · exact distinct
    · next absent =>
        refine List.nodup_append.2 ⟨distinct, List.nodup_singleton _, ?_⟩
        rintro table known _ isFilter rfl
        rw [List.mem_singleton.1 isFilter] at known
        exact absent (List.contains_iff_mem.2 known)

theorem nodup_tables : (tables tree family).Nodup := by
  obtain ⟨others, isTables, -, members, distinct⟩ := @exists_tables tree family
  rw [isTables, List.nodup_append]
  refine ⟨List.Nodup.filter _ (by decide), distinct, ?_⟩
  rintro table known _ isOther rfl
  exact ((members table).1 isOther).2 (List.mem_filter.1 known).1

theorem declared_tableOf {table chain policy : String} :
    (chain, policy) ∈ (tableOf settings tree family table).chains ↔
      (chain ∈ builtinChains table ∧ policy = chainPolicy settings table) ∨
        (chain ∉ builtinChains table ∧ tree.isOpen ⟨family, table, chain⟩ = true ∧
          policy = "-") := by
  rw [← mem_names_chainsOf, tableOf, List.mem_append, List.mem_map, List.mem_map]
  constructor
  · rintro (⟨builtin, isBuiltin, same⟩ | ⟨other, isOther, same⟩) <;> obtain ⟨rfl, rfl⟩ := Prod.mk.inj same
    · exact .inl ⟨isBuiltin, rfl⟩
    · obtain ⟨isOpen, notBuiltin⟩ := List.mem_filter.1 isOther
      exact .inr ⟨by simpa using notBuiltin, isOpen, rfl⟩
  · rintro (⟨isBuiltin, rfl⟩ | ⟨notBuiltin, isOpen, rfl⟩)
    · exact .inl ⟨chain, isBuiltin, rfl⟩
    · exact .inr ⟨chain, List.mem_filter.2 ⟨isOpen, by simpa using notBuiltin⟩, rfl⟩

theorem nodup_chains_tableOf (distinct : (tree.chains.map (·.1)).Nodup) (table : String) :
    ((tableOf settings tree family table).chains.map (·.1)).Nodup := by
  have builtinOnce : (builtinChains table).Nodup :=
    of_builtinChains List.Nodup List.nodup_nil (by decide) table
  simp only [tableOf, List.map_append, List.map_map, Function.comp_def, List.map_id']
  refine List.nodup_append.2 ⟨builtinOnce, List.Nodup.filter _ (nodup_names_chainsOf distinct table), ?_⟩
  rintro chain isBuiltin _ isOther rfl
  have notBuiltin := (List.mem_filter.1 isOther).2
  simp [isBuiltin] at notBuiltin

theorem readsBack_fileOf (distinct : (tree.chains.map (·.1)).Nodup) :
    ReadsBack settings tree family (fileOf settings tree family) where
  order := by
    obtain ⟨others, isTables, ordered, members, -⟩ := @exists_tables tree family
    exact ⟨others, names_fileOf.trans isTables, ordered, members⟩
  once := names_fileOf ▸ nodup_tables
  declaredOnce table member := by
    obtain ⟨name, -, rfl⟩ := List.mem_map.1 member
    exact nodup_chains_tableOf distinct name
  declared table member chain policy := by
    obtain ⟨name, -, rfl⟩ := List.mem_map.1 member
    exact declared_tableOf
  rules table member chain := by
    obtain ⟨name, -, rfl⟩ := List.mem_map.1 member
    have read := rules_flatMap (@nodup_names_chainsOf tree family distinct name) chain
    rw [lookup_chainsOf] at read
    exact read

/-- A rendered file can be read, and what is read of it is the tree. -/
theorem exists_read?_render (distinct : (tree.chains.map (·.1)).Nodup)
    (readable : IsReadable settings tree family) :
    ∃ file, read? (render settings tree family) = some file ∧
      ReadsBack settings tree family file :=
  ⟨_, read?_render readable, readsBack_fileOf distinct⟩

/-- A tree with a chain of its own in a table behind the known ones. -/
def mixedTree : RuleTree where
  chains := [
    (⟨"inet", "security", "audit"⟩, [{ condition := "-i lo ", target := some "ACCEPT" }]),
    (⟨"inet", "nat", "INPUT"⟩, [{ condition := "  ", target := none }])]

theorem exists_read?_render_mixedTree :
    (mixedTree.chains.map (·.1)).Nodup ∧ IsReadable {} mixedTree "inet" ∧
      ∃ file, read? (render {} mixedTree "inet") = some file ∧ ReadsBack {} mixedTree "inet" file := by
  have distinct : (mixedTree.chains.map (·.1)).Nodup := by decide
  have readable : IsReadable {} mixedTree "inet" := by
    constructor <;> decide
  exact ⟨distinct, readable, exists_read?_render distinct readable⟩

/-- Settings whose policy of chains goes on in another line, which declares a chain. -/
def brokenSettings : Settings := { filterChainPolicy := "DROP [0:0]\n:open ACCEPT" }

/-- A policy with a line break may declare chains that the tree does not have. -/
theorem not_readsBack_of_brokenSettings :
    ¬ ∃ file, read? (render brokenSettings {} "inet") = some file ∧
      ReadsBack brokenSettings {} "inet" file := by
  have read : read? (render brokenSettings {} "inet") = some [{
      name := "filter"
      chains := [("INPUT", "DROP"), ("open", "ACCEPT"), ("FORWARD", "DROP"), ("open", "ACCEPT"),
        ("OUTPUT", "DROP"), ("open", "ACCEPT")] }] := by
    decide +kernel
  rintro ⟨file, isRead, readsBack⟩
  obtain rfl := Option.some.inj (read.symm.trans isRead)
  have declaredOnce := readsBack.declaredOnce _ (List.mem_singleton_self _)
  revert declaredOnce
  decide

end Restore

end FirewallPolicy
