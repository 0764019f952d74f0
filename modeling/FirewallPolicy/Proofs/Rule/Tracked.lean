import FirewallPolicy.Proofs.Rule.Derived
import FirewallPolicy.Proofs.Run.Simulation

/-!
# Limits that track one address

A limit can be kept in lists of recent events where exactly one address is tracked in each family.
What a limit tracks does not depend on how it logs, so a rule whose limits are stated that way keeps
them that way when it is declared, and a derived rule has no limits at all.
-/

namespace FirewallPolicy

open Context Run Stateful Record

theorem Record.Keeps.symm
    {changed : List String} {before after : Record} (keeps : Keeps changed before after) :
    Keeps changed after before :=
  fun name kept => (keeps name kept).symm

theorem Record.Keeps.setDefault
    {changed : List String} {before after : Record} (keeps : Keeps changed before after)
    (name : String) (value : Value) :
    Keeps changed (before.setDefault name value) (after.setDefault name value) := by
  intro other kept
  by_cases same : other = name
  · subst same
    unfold Record.setDefault
    rw [keeps other kept]
    split
    · exact keeps other kept
    · exact (Named.get?_set_self ..).trans (Named.get?_set_self ..).symm
  · have unchanged (record : Record) : (record.setDefault name value).lookup other =
        record.lookup other := keeps_setDefault other (by simpa using same)
    rw [unchanged, unchanged, keeps other kept]

/-! ## Limits -/

namespace Limit

/-- Exactly one address is tracked in each family. -/
structure TracksSingly (limit : Limit) : Prop where
  inet : (trackedAddress? limit.maskInet).isSome = true
  inet6 : (trackedAddress? limit.maskInet6).isSome = true

/-- The limits track the same addresses. -/
def SameMasks (limit other : Limit) : Prop :=
  other.maskInet = limit.maskInet ∧ other.maskInet6 = limit.maskInet6

/-- The masks of a limit do not depend on how it logs. -/
theorem follows_settle_of_keeps
    {attributes other : Record} (keeps : Keeps ["log"] attributes other) (location : String) :
    Follows SameMasks (settle location attributes) (settle location other) := by
  have settled := (((keeps.setDefault "count" (.int 1)).setDefault "interval" (.int 1)).setDefault
    "addr" (.text "src")).setDefault "update" (.bool true)
  have amount (name : String) (kept : name ∉ ["log"]) {before after : Record}
      (keeps : Keeps ["log"] before after) :
      readAmount location name after = readAmount location name before := by
    simp only [readAmount, keeps.get kept]
  unfold settle
  simp only [amount "count" (by decide) settled, amount "interval" (by decide) settled,
    settled.get (show "addr" ∉ ["log"] by decide),
    settled.get (show "measure" ∉ ["log"] by decide),
    settled.get (show "mask" ∉ ["log"] by decide)]
  refine Follows.bind (Follows.of_self fun _ _ => rfl) ?_
  rintro count _ rfl
  refine Follows.bind (Follows.of_self fun _ _ => rfl) ?_
  rintro interval _ rfl
  refine Follows.ite (fun _ => Follows.throw) fun _ => Follows.ite (fun _ => Follows.throw) fun _ => ?_
  refine Follows.bind (Follows.of_self fun _ _ => rfl) ?_
  rintro given _ rfl
  refine Follows.bind (Follows.of_self fun _ _ => rfl) ?_
  rintro maskInet _ rfl
  refine Follows.bind (Follows.of_self fun _ _ => rfl) ?_
  rintro maskInet6 _ rfl
  exact Follows.ok ⟨rfl, rfl⟩

end Limit

/-! ## Mappings that state limits -/

theorem lookup_recordOf (entries : Entries) (name : String) :
    (recordOf entries).lookup name = Entries.get? entries (.text name) := by
  induction entries with
  | nil => rfl
  | cons entry rest inductionHypothesis =>
      obtain ⟨key, value⟩ := entry
      unfold recordOf Entries.get? at inductionHypothesis ⊢
      rw [List.find?_cons]
      cases same : key.sameKey (.text name) with
      | true =>
          obtain rfl := Scalar.sameKey_text_iff.1 same
          simp
      | false =>
          rw [← inductionHypothesis]
          cases key with
          | text known =>
              have different : (name == known) = false := by
                rw [beq_eq_false_iff_ne]
                rintro rfl
                simp [Scalar.sameKey_text_iff.2 rfl] at same
              simp [List.lookup_cons, different]
          | _ => rfl

theorem keeps_recordOf_insert (entries : Entries) (name : String) (value : Value) :
    Keeps [name] (recordOf entries) (recordOf (Entries.insert entries (.text name) value)) := by
  intro other kept
  have different : Scalar.sameKey (.text name) (.text other) = false := by
    rw [Bool.eq_false_iff, Ne, Scalar.sameKey_text_iff]
    rintro ⟨⟩
    exact kept (List.mem_singleton.2 rfl)
  rw [lookup_recordOf, lookup_recordOf, Entries.get?_insert, different]
  rfl

/-- Any limit that the mapping states tracks exactly one address in each family. -/
def Entries.StateSingle (mapping : Entries) : Prop :=
  ∀ location limit, Limit.settle location (recordOf mapping) = .ok limit → limit.TracksSingly

theorem Entries.StateSingle.insert_log
    {mapping : Entries} (single : StateSingle mapping) (log : Value) :
    StateSingle (Entries.insert mapping (.text "log") log) := by
  intro location limit settled
  obtain ⟨known, settledToo, sameInet, sameInet6⟩ := Limit.follows_settle_of_keeps
    (keeps_recordOf_insert mapping "log" log).symm location limit settled
  obtain ⟨inet, inet6⟩ := single location known settledToo
  exact ⟨sameInet ▸ inet, sameInet6 ▸ inet6⟩

/-- Any limit that the attributes state tracks exactly one address in each family. -/
def Record.LimitsSingly (attributes : Record) : Prop :=
  ∀ name ∈ limitNames, attributes.has name = true →
    (Rule.limitMapping (attributes.get name)).StateSingle

namespace Rule

variable {kind : RuleKind} {location : String} {attributes : Record} {before after : Context}
  {rule : Rule}

/-- Declaring a rule leaves what its limits track. -/
theorem limitsSingly_of_settle
    (single : attributes.LimitsSingly)
    (run : settle kind location attributes before = (.ok rule, after)) :
    rule.attributes.LimitsSingly := by
  obtain ⟨acted, c₁, zonesIn, zonesOut, services, c₂, withSet, withDestination, c₃, logged, c₄,
    measured, c₅, serial, c₆, acts, _, _, _, sets, directs, logs, measures, _, settles⟩ :=
    settle_eq_ok run
  have keeps := keeps_before_limit acts sets directs logs measures
  have measuredSingly : measured.LimitsSingly := by
    intro name isLimit stated
    have kept : name ∉ settledNames := by
      clear stated
      revert name
      decide
    rw [Record.has, keeps.get kept] at stated
    rw [keeps.get kept]
    exact single name isLimit stated
  rcases settleFilter_eq_ok settles with ⟨_, rfl, _⟩ | ⟨_, limits, _⟩
  · exact measuredSingly
  · rcases settleLimit_eq_ok limits with ⟨_, rfl, _⟩ | ⟨name, log, isName, _, rfl⟩
    · exact measuredSingly
    · obtain ⟨isLimit, stated⟩ := mem_limitNames_of_limitName? isName
      intro other isOther otherStated
      unfold withLimitLog at otherStated ⊢
      by_cases same : other = name
      · subst same
        rw [Record.get_set_self]
        exact (measuredSingly other isLimit stated).insert_log _
      · rw [Record.get_set_of_ne same]
        rw [Record.has, Record.get_set_of_ne same] at otherStated
        exact measuredSingly other isOther otherStated

theorem limitsSingly_of_declare
    {entries : Entries} (single : (recordOf entries).LimitsSingly) {source : Entry}
    (isDeclared : declaration? source = some entries)
    (run : Rule.declare kind location source before = (.ok rule, after)) :
    rule.attributes.LimitsSingly :=
  limitsSingly_of_settle single (settle_of_declare isDeclared run)

end Rule

end FirewallPolicy
