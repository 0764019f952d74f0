import FirewallPolicy.Proofs.Context.Twins

/-!
# Serial numbers of named objects

What a named object becomes depends on the entry that states it, on the way of logging that the
settings ask for, and on its serial number, but on nothing else that was declared before.  So under
another serial number it is the same object, but for the number.
-/

namespace FirewallPolicy

open Stateful Run

/-- The two states are these ones. -/
def Pinned {σ τ : Type} (first : σ) (second : τ) (before : σ) (otherBefore : τ) : Prop :=
  before = first ∧ otherBefore = second

theorem Stateful.Lockstep.of_pinned
    {ε σ τ α β : Type} {change : α → β} {action : Stateful ε σ α} {other : Stateful ε τ β}
    {first : σ} {second : τ} {a : α} {after : σ}
    (lockstep : Lockstep (Pinned first second) (Becomes change) action other)
    (run : action first = (.ok a, after)) :
    after = first ∧ other second = (.ok (change a), second) := by
  obtain ⟨b, otherAfter, otherRun, rfl, same, otherSame⟩ := lockstep _ _ _ _ ⟨rfl, rfl⟩ run
  exact ⟨same, otherSame ▸ otherRun⟩

theorem Run.freshSerial_apply (context : Context) :
    freshSerial context =
      (.ok context.nextSerial, { context with nextSerial := context.nextSerial + 1 }) :=
  rfl

/-- Is the object known by a name, and declared before all rules? -/
def ObjectKind.isNamed : ObjectKind → Bool
  | .zone => true
  | .service => true
  | .log => true
  | _ => false

/-- How many serial numbers the declaration of a named object takes. -/
def ObjectKind.serials : ObjectKind → Nat
  | .service => 1
  | .log => 1
  | _ => 0

namespace PolicyObject

/-- Contexts that give out the same serial numbers declare the same named objects. -/
theorem lockstep_declare_named
    {states : Context → Context → Prop} (alike : DeclaresAlike id states) {kind : ObjectKind}
    (named : kind.isNamed = true) (location : String) (key : Option Scalar) (source : Entry) :
    Lockstep states Eq (declare kind location key source) (declare kind location key source) := by
  have wrapped {α : Type} {action other : Run α} {change : α → α} (same : ∀ a, change a = a)
      (lockstep : Lockstep states (Becomes change) action other) (wrap : α → PolicyObject) :
      Lockstep states Eq (action >>= fun a => pure (wrap a)) (other >>= fun a => pure (wrap a)) := by
    refine lockstep.bind ?_
    rintro a _ rfl
    exact lockstep_pure (congrArg wrap (same a).symm)
  have unchanged := Entry.renamed_id source
  cases kind with
  | zone => exact (Zone.lockstep_declare location source).bind_same fun zone => lockstep_pure rfl
  | service =>
      have lockstep := Service.lockstep_declare alike location source
      rw [unchanged] at lockstep
      exact wrapped Service.renamed_id lockstep .service
  | log =>
      have lockstep := LogClass.lockstep_declare alike location key source
      rw [unchanged] at lockstep
      exact wrapped LogClass.renamed_id lockstep .log
  | _ => exact absurd named Bool.false_ne_true

/-- With the way of logging that the settings ask for, the value declares the object under that
serial number, whatever else the context holds. -/
def Stamped (mode : Value) (kind : ObjectKind) (location : String) (key : Option Scalar)
    (value : Value) (serial : Nat) (object : PolicyObject) : Prop :=
  ∀ context : Context, context.settings.logMode = mode → context.nextSerial = serial →
    declare kind location key (.raw value) context =
      (.ok object, { context with nextSerial := serial + kind.serials })

section Declaring

variable {rename : Nat → Nat} {location : String} {key : Option Scalar} {value : Value}
  {first after : Context}

theorem service_stamped
    {service : Service} (unchanged : value.renamed rename = value)
    (run : Service.declare location (.raw value) first = (.ok service, after)) :
    after = { first with nextSerial := first.nextSerial + 1 } ∧
      ∀ second : Context, second.nextSerial = rename first.nextSerial →
        Service.declare location (.raw value) second =
          (.ok (service.renamed rename),
            { second with nextSerial := second.nextSerial + 1 }) := by
  have same : Entry.renamed rename (.raw value) = .raw value := congrArg Entry.raw unchanged
  have lockstep (second : Context) := @Service.lockstep_declareItems rename
    (Pinned { first with nextSerial := first.nextSerial + 1 }
      { second with nextSerial := second.nextSerial + 1 }) location (Service.items (.raw value))
  simp only [← Service.items_renamed, same] at lockstep
  unfold Service.declare at run ⊢
  simp only at run ⊢
  rw [bind_apply, freshSerial_apply] at run
  obtain ⟨definitions, middle, declares, run⟩ := bind_eq_ok.1 run
  obtain ⟨rfl, -⟩ := (lockstep first).of_pinned declares
  have notEmpty : definitions.isEmpty = false := by
    by_contra isEmpty
    rw [Bool.not_eq_false] at isEmpty
    rw [if_pos isEmpty] at run
    obtain ⟨_, _, reports, -⟩ := bind_eq_ok.1 run
    exact (report_eq_ok.1 reports).elim
  rw [if_neg (by simp [notEmpty])] at run
  obtain ⟨rfl, rfl⟩ := pure_eq_ok.1 run
  refine ⟨rfl, fun second serial => ?_⟩
  rw [bind_apply, freshSerial_apply]
  dsimp only
  rw [bind_apply, ((lockstep second).of_pinned declares).2]
  dsimp only
  rw [List.isEmpty_map, if_neg (by simp [notEmpty]), serial]
  rfl

theorem log_stamped
    {log : LogClass} (unchanged : value.renamed rename = value)
    (run : LogClass.declare location key (.raw value) first = (.ok log, after)) :
    after = { first with nextSerial := first.nextSerial + 1 } ∧
      ∀ second : Context, second.settings.logMode = first.settings.logMode.renamed rename →
        second.nextSerial = rename first.nextSerial →
        LogClass.declare location key (.raw value) second =
          (.ok (log.renamed rename), { second with nextSerial := second.nextSerial + 1 }) := by
  have lockstep (second : Context) :=
    @lockstep_attributesOf rename (Pinned first second) .log location (.raw value)
  simp only [Entry.renamed, unchanged] at lockstep
  obtain ⟨attributes, middle, reads, continued⟩ := bind_eq_ok.1 run
  obtain ⟨rfl, -⟩ := (lockstep first).of_pinned reads
  obtain ⟨_, _, gets, continued⟩ := bind_eq_ok.1 continued
  obtain ⟨rfl, rfl⟩ := get_eq_ok.1 gets
  obtain ⟨settled, _, settles, continued⟩ := bind_eq_ok.1 continued
  obtain ⟨isSettled, rfl⟩ := recording_eq_ok.1 settles
  rw [bind_apply, freshSerial_apply] at continued
  obtain ⟨rfl, rfl⟩ := pure_eq_ok.1 continued
  refine ⟨rfl, fun second mode serial => ?_⟩
  obtain ⟨_, otherSettles, rfl⟩ := LogClass.follows_settle mode location key attributes _ isSettled
  refine bind_eq_ok.2 ⟨_, _, ((lockstep second).of_pinned reads).2, bind_eq_ok.2 ⟨_, _, rfl,
    bind_eq_ok.2 ⟨_, _, recording_eq_ok.2 ⟨otherSettles, rfl⟩, ?_⟩⟩⟩
  rw [bind_apply, freshSerial_apply, serial]
  rfl

/-- A named object that was declared is the same one in any context in which it gets the serial
number that its own one is renamed to. -/
theorem stamped_of_declare
    {kind : ObjectKind} (named : kind.isNamed = true) {object : PolicyObject}
    (unchanged : value.renamed rename = value)
    (run : declare kind location key (.raw value) first = (.ok object, after)) :
    after = { first with nextSerial := first.nextSerial + kind.serials } ∧
      Stamped (first.settings.logMode.renamed rename) kind location key value
        (rename first.nextSerial) (object.renamed rename) := by
  cases kind with
  | zone =>
      obtain ⟨zone, _, declares, made⟩ := bind_eq_ok.1 run
      obtain ⟨rfl, rfl⟩ := pure_eq_ok.1 made
      obtain ⟨attributes, _, reads, made⟩ := bind_eq_ok.1 declares
      obtain ⟨rfl, rfl⟩ := pure_eq_ok.1 made
      have lockstep (second : Context) :=
        @lockstep_attributesOf rename (Pinned first second) .zone location (.raw value)
      simp only [Entry.renamed, unchanged] at lockstep
      refine ⟨((lockstep first).of_pinned reads).1, ?_⟩
      rintro second - serial
      rw [← serial]
      exact bind_eq_ok.2 ⟨_, _,
        bind_eq_ok.2 ⟨_, _, ((lockstep second).of_pinned reads).2, rfl⟩, rfl⟩
  | service =>
      obtain ⟨service, _, declares, made⟩ := bind_eq_ok.1 run
      obtain ⟨rfl, rfl⟩ := pure_eq_ok.1 made
      obtain ⟨isAfter, again⟩ := service_stamped unchanged declares
      refine ⟨isAfter, fun second _ serial => ?_⟩
      refine bind_eq_ok.2 ⟨_, _, again second serial, ?_⟩
      rw [serial]
      rfl
  | log =>
      obtain ⟨log, _, declares, made⟩ := bind_eq_ok.1 run
      obtain ⟨rfl, rfl⟩ := pure_eq_ok.1 made
      obtain ⟨isAfter, again⟩ := log_stamped unchanged declares
      refine ⟨isAfter, fun second mode serial => ?_⟩
      refine bind_eq_ok.2 ⟨_, _, again second mode serial, ?_⟩
      rw [serial]
      rfl
  | _ => exact absurd named Bool.false_ne_true

end Declaring

namespace Stamped

variable {mode : Value} {kind : ObjectKind} {location : String} {key : Option Scalar}
  {value : Value} {serial : Nat} {object : PolicyObject}

theorem unique
    {other : PolicyObject} (stamped : Stamped mode kind location key value serial object)
    (otherStamped : Stamped mode kind location key value serial other) :
    other = object := by
  let context : Context := { settings := { logMode := mode }, nextSerial := serial }
  have same := (otherStamped context rfl rfl).symm.trans (stamped context rfl rfl)
  cases same
  rfl

/-- With another serial number a value without log classes declares the renamed object. -/
theorem renamed
    (stamped : Stamped mode kind location key value serial object) (named : kind.isNamed = true)
    (written : value.isWritten = true) (writtenMode : mode.isWritten = true)
    (rename : Nat → Nat) :
    Stamped mode kind location key value (rename serial) (object.renamed rename) := by
  let context : Context := { settings := { logMode := mode }, nextSerial := serial }
  have unchanged : value.renamed rename = value := Value.renamed_of_isWritten value written
  have again := (stamped_of_declare named unchanged (stamped context rfl rfl)).2
  rwa [show context.settings.logMode.renamed rename = mode from
    Value.renamed_of_isWritten mode writtenMode] at again

end Stamped

end PolicyObject

end FirewallPolicy
