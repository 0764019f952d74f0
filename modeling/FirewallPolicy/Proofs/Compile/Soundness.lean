import FirewallPolicy.Proofs.Compile.Phases

/-!
# Contexts of a compilation are sound

A policy that holds no log class set up before declares sound rules only, and expanding sound rules
keeps the context sound.  So every context of a compilation is sound, up to its end.
-/

namespace FirewallPolicy

open Context Stateful

namespace Building

/-! ## Declaring -/

theorem survives_sound : Survives Context.Sound where
  notes _ _ notes sound := notes.sound sound
  declares described _ notLog _ _ _ _ key _ object _ after sound _ declares := by
    have noted := (PolicyObject.notes_declare.of_eq declares).sound sound
    have sameLogs : (withObject after described.name key object).logBook = after.logBook :=
      logBook_withObject notLog
    exact
      { noted with
        shared := fun chain member => by
          obtain ⟨entry, isEntry, name, log, known, calls, same, body⟩ := noted.shared chain member
          exact ⟨entry, isEntry, name, log, sameLogs ▸ known, sameLogs ▸ calls, same, body⟩
        logs := sameLogs ▸ noted.logs }

/-- A value is one that a policy may state, an object has the kind of its section, and a rule is
sound. -/
def IsPrepared (book : LogBook) (kind : ObjectKind) : Entry → Prop
  | .raw value => value.isWritten = true
  | .object object => object.kind = kind ∧
      ∀ rule, object = .rule rule → rule.Sound book ∧ rule.attributes.Directed book

theorem directed_of_isPrepared
    {book : LogBook} {kind : RuleKind} {source : Entry} {entries : Entries}
    (prepared : IsPrepared book (.rule kind) source) (isMap : declaration? source = some entries) :
    (recordOf entries).Directed book := by
  cases source with
  | raw value =>
      refine Record.IsWritten.directed (isWritten_recordOf ?_) book
      have isEntries : value.entries? = some entries := by
        cases value with
        | log _ _ _ _ => simp [IsPrepared, Value.isWritten] at prepared
        | _ => exact isMap
      exact Value.isWritten_of_entries? prepared isEntries
  | object object =>
      obtain ⟨isKind, isSound⟩ := prepared
      obtain rfl := Option.some.inj isMap
      cases object with
      | rule rule =>
          rw [recordOf_toEntries]
          exact (isSound rule rfl).2
      | _ => simp [PolicyObject.kind] at isKind

theorem IsPrepared.keeps
    {first second : LogBook} {kind : ObjectKind} {entry : Entry}
    (prepared : IsPrepared first kind entry) (settled : first.IsSettled)
    (keeps : first.Keeps second) :
    IsPrepared second kind entry := by
  cases entry with
  | raw value => exact prepared
  | object object =>
      refine ⟨prepared.1, fun rule isRule => ?_⟩
      obtain ⟨sound, directed⟩ := prepared.2 rule isRule
      exact ⟨sound.keeps settled keeps, directed.keeps settled keeps⟩

theorem isPrepared_of_declare
    {described : Section} {kind : ObjectKind} (isBuiltin : described ∈ Builtin.ordered)
    (isKind : described.kind = some kind) {location : String} {key : Option Scalar}
    {source : Entry} {object : PolicyObject} {before after : Context}
    (sound : Context.Sound before) (prepared : IsPrepared before.logBook kind source)
    (run : PolicyObject.declare kind location key source before = (.ok object, after)) :
    IsPrepared after.logBook kind (.object object) := by
  refine ⟨kind_of_declare run, ?_⟩
  rintro rule rfl
  obtain rfl : kind = .rule rule.kind := (kind_of_declare run).symm
  have notLogging : ∀ other ∈ Builtin.ordered, other.kind ≠ some (.rule .logging) := by
    decide
  obtain ⟨declared, _, declares, made⟩ := bind_eq_ok.1 run
  obtain ⟨isDeclared, rfl⟩ := pure_eq_ok.1 made
  obtain rfl := PolicyObject.rule.inj isDeclared
  obtain ⟨entries, isMap, _⟩ := Rule.settledFrom_of_declare declares
  refine Rule.sound_of_declare sound.logs isMap (directed_of_isPrepared prepared isMap) ?_ declares
  intro isLogging
  rw [isLogging] at isKind
  exact absurd isKind (notLogging described isBuiltin)

theorem isPrepared_log (book : LogBook) (log : LogClass) :
    IsPrepared book .log (.object (.log log)) := by
  refine ⟨rfl, ?_⟩
  rintro rule ⟨⟩

theorem survives_isPrepared :
    Survives fun context => Context.Sound context ∧
      EachEntry (IsPrepared context.logBook) context := by
  refine survives_eachEntry survives_sound isPrepared_log ?_ ?_
  · intro context book kind entry sound keeps prepared
    exact prepared.keeps sound.logs keeps
  · intro described isBuiltin kind isKind location name source object before after sound prepared
      declares
    exact isPrepared_of_declare isBuiltin isKind sound prepared declares

/-! ## The start -/

theorem isSettled_checked
    (policy : Policy) (hosts : HostBook) (settings : Settings) :
    (checked policy hosts settings).logBook.IsSettled := by
  refine LogBook.isSettled_of_unheld ?_
  rintro log (listed | isDefault)
  · obtain ⟨_, _, _, _, isRaw⟩ := exists_of_mem_checked listed
    simp at isRaw
  · cases isDefault

theorem sound_checked
    (policy : Policy) (hosts : HostBook) (settings : Settings) :
    Context.Sound (checked policy hosts settings) where
  numbered _ none := absurd none List.not_mem_nil
  distinct _ none := absurd none List.not_mem_nil
  shared _ none := absurd none List.not_mem_nil
  auxiliary rule member := ⟨"tarpit", chain_of_mem_registered rule member, Or.inl rfl⟩
  logs := isSettled_checked policy hosts settings

/-- The entries of a written policy are prepared. -/
theorem prepared_checked
    {policy : Policy} (written : policy.IsWritten) (hosts : HostBook) (settings : Settings) :
    EachEntry (IsPrepared (checked policy hosts settings).logBook)
      (checked policy hosts settings) := by
  intro described _ kind _ entry member
  obtain ⟨stated, isStated, value, isValue, rfl⟩ := exists_of_mem_checked member
  exact written stated isStated value isValue

/-- A successful compilation of a written policy runs its batches from a sound context with prepared
entries. -/
theorem prepared_of_compilePolicy
    {policy : Policy} {hosts : HostBook} {settings : Settings} {sets : List AddressSet}
    {build : Build}
    (written : policy.IsWritten)
    (run : compilePolicy policy Builtin.modules { context := { settings, hosts } } =
      (.ok sets, build)) :
    ∃ start batches, Ran batches start build ∧
      Framed (checked policy hosts settings) start.context ∧ Context.Sound start.context ∧
      EachEntry (IsPrepared start.context.logBook) start.context := by
  obtain ⟨start, batches, ran, framed, -, sound, prepared⟩ :=
    runs_of_compilePolicy survives_isPrepared
      ⟨sound_checked policy hosts settings, prepared_checked written hosts settings⟩ run
  exact ⟨start, batches, ran, framed, sound, prepared⟩

/-- The rules of a section with prepared entries are sound. -/
theorem sound_of_mem_rulesIn
    {context : Context} {book : LogBook} (prepared : EachEntry (IsPrepared book) context)
    {described : Section} (isBuiltin : described ∈ Builtin.ordered)
    (hasKind : described.kind.isSome = true) {rule : Rule}
    (member : rule ∈ context.rulesIn described.name) :
    rule.Sound book := by
  obtain ⟨kind, isKind⟩ := Option.isSome_iff_exists.1 hasKind
  exact ((prepared described isBuiltin kind isKind _ (mem_rulesIn.1 member)).2 rule rfl).1

/-- Batches that start from prepared entries are of sound rules. -/
theorem Ran.sound_of_origin
    {start final : Build} {batches : List Batch} {book : LogBook} (ran : Ran batches start final)
    (prepared : EachEntry (IsPrepared book) start.context) :
    ∀ batch ∈ batches, batch.described ∈ Builtin.ordered ∧
      ∀ rule, batch.origin = some rule → rule.Sound book := by
  intro batch member
  obtain ⟨isSection, isOrigin⟩ := label_mem_origins ran.labels member
  have isBuiltin := Builtin.subset_ordered isSection
  refine ⟨isBuiltin, fun rule isRule => ?_⟩
  obtain ⟨hasKind, inSection⟩ := mem_rulesIn_of_mem_origins isOrigin isRule
  exact sound_of_mem_rulesIn (prepared.grows (isPrepared_log _) ran.runs.grows) isBuiltin hasKind
    inSection

/-- A successful compilation of a written policy runs batches of sound rules from a sound
context. -/
theorem sound_of_compilePolicy
    {policy : Policy} {hosts : HostBook} {settings : Settings} {sets : List AddressSet}
    {build : Build}
    (written : policy.IsWritten)
    (run : compilePolicy policy Builtin.modules { context := { settings, hosts } } =
      (.ok sets, build)) :
    ∃ start batches, Ran batches start build ∧
      Framed (checked policy hosts settings) start.context ∧ Context.Sound start.context ∧
      ∀ batch ∈ batches, batch.described ∈ Builtin.ordered ∧
        ∀ rule, batch.origin = some rule → rule.Sound start.context.logBook := by
  obtain ⟨start, batches, ran, framed, sound, prepared⟩ := prepared_of_compilePolicy written run
  exact ⟨start, batches, ran, framed, sound, ran.sound_of_origin prepared⟩

end Building

/-! ## Running batches -/

theorem Batch.Expands.sound
    {batch : Batch} {before after : Context}
    (expands : batch.Expands before after)
    (ruleSound : ∀ rule, batch.origin = some rule → rule.Sound before.logBook)
    (sound : Context.Sound before) :
    Context.Sound after := by
  cases expands with
  | object run => exact Rule.sound_fragments sound (ruleSound _ rfl) run
  | virtual _ run => exact (RuleSource.notes_rules.of_eq run).sound sound

theorem RunsAll.sound
    {batches : List Batch} {before after : Build}
    (runs : RunsAll batches before after)
    (ruleSound : ∀ batch ∈ batches, ∀ rule, batch.origin = some rule →
      rule.Sound before.context.logBook)
    (sound : Context.Sound before.context) :
    Context.Sound after.context := by
  induction runs with
  | nil => exact sound
  | cons first _ inductionHypothesis =>
      rw [List.forall_mem_cons] at ruleSound
      refine inductionHypothesis (fun batch member rule isRule => ?_)
        (first.expands.sound ruleSound.1 sound)
      exact (ruleSound.2 batch member rule isRule).keeps sound.logs first.expands.grows.logs

/-- At the end of a successful compilation of a written policy the context and all its rules are
sound. -/
theorem Building.sound_final
    {policy : Policy} {hosts : HostBook} {settings : Settings} {sets : List AddressSet}
    {build : Build}
    (written : policy.IsWritten)
    (run : compilePolicy policy Builtin.modules { context := { settings, hosts } } =
      (.ok sets, build)) :
    Context.Sound build.context ∧
      ∀ described ∈ Builtin.ordered, described.kind.isSome = true →
        ∀ rule ∈ build.context.rulesIn described.name, rule.Sound build.context.logBook := by
  obtain ⟨start, batches, ran, -, sound, prepared⟩ := prepared_of_compilePolicy written run
  have preparedFinal : EachEntry (IsPrepared build.context.logBook) build.context :=
    (prepared.imp fun _ _ entryPrepared =>
      entryPrepared.keeps sound.logs ran.runs.grows.logs).grows (isPrepared_log _) ran.runs.grows
  refine ⟨ran.runs.sound (fun batch member => (ran.sound_of_origin prepared batch member).2) sound,
    fun described isBuiltin hasKind rule member => ?_⟩
  exact sound_of_mem_rulesIn preparedFinal isBuiltin hasKind member

end FirewallPolicy
