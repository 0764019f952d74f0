import FirewallPolicy.Proofs.Compile.Phases
import FirewallPolicy.Proofs.Context.Stamps
import FirewallPolicy.Proofs.Value.Reordering

/-!
# Declaring named objects

The entries of a section of named objects become objects one after the other, with consecutive serial
numbers.  Entries in another order become the same objects, but for the numbers.
-/

namespace FirewallPolicy

open Stateful Run Context

theorem Entries.areDistinct_mapped
    {α β : Type} {change : α → β} {entries : List (Scalar × α)} :
    AreDistinct (mapped change entries) ↔ AreDistinct entries :=
  areDistinct_congr (keys_mapped ..)

namespace Building

/-! ## Objects with consecutive numbers -/

/-- Values become objects in their order, with consecutive serial numbers; `locate` tells where an
entry stands. -/
inductive StampsAll (locate : Scalar → String) (mode : Value) (kind : ObjectKind) :
    Nat → Entries → List (Scalar × PolicyObject) → Prop
  | nil {serial : Nat} : StampsAll locate mode kind serial [] []
  | cons {serial : Nat} {key : Scalar} {value : Value} {object : PolicyObject} {rest : Entries}
      {others : List (Scalar × PolicyObject)} :
      key.isShowable = true →
      PolicyObject.Stamped mode kind (locate key) (LogClass.keyOf key) value serial object →
      StampsAll locate mode kind (serial + kind.serials) rest others →
      StampsAll locate mode kind serial ((key, value) :: rest) ((key, object) :: others)

/-- All numbers outside the range stay as they are. -/
def KeepsOutside (start count : Nat) (rename : Nat → Nat) : Prop :=
  ∀ number, number < start ∨ start + count ≤ number → rename number = number

namespace StampsAll

variable {locate : Scalar → String} {mode : Value} {kind : ObjectKind} {serial : Nat}
  {entries others : Entries} {objects : List (Scalar × PolicyObject)}

theorem keys_eq (stamps : StampsAll locate mode kind serial entries objects) :
    objects.map (·.1) = entries.map (·.1) := by
  induction stamps with
  | nil => rfl
  | cons _ _ _ inductionHypothesis => rw [List.map_cons, List.map_cons, inductionHypothesis]

/-- Each object was declared by the value of its key, with a number of the range. -/
theorem stamped_of_mem
    (stamps : StampsAll locate mode kind serial entries objects) {entry : Scalar × PolicyObject}
    (member : entry ∈ objects) :
    ∃ number value, serial ≤ number ∧
      (0 < kind.serials → number < serial + kind.serials * entries.length) ∧
      (entry.1, value) ∈ entries ∧
      PolicyObject.Stamped mode kind (locate entry.1) (LogClass.keyOf entry.1) value number
        entry.2 := by
  induction stamps with
  | nil => exact absurd member List.not_mem_nil
  | @cons serial key value object rest others _ stamped _ inductionHypothesis =>
      rcases List.mem_cons.1 member with rfl | later
      · refine ⟨serial, value, le_refl _, fun takes => ?_, List.mem_cons_self .., stamped⟩
        exact Nat.lt_add_of_pos_right (Nat.mul_pos takes (Nat.succ_pos _))
      · obtain ⟨number, value, from_, below, isEntry, stamped⟩ := inductionHypothesis later
        refine ⟨number, value, le_trans (Nat.le_add_right ..) from_, fun takes => ?_,
          List.mem_cons_of_mem _ isEntry, stamped⟩
        have bound := below takes
        rw [List.length_cons, Nat.mul_add_one]
        omega

section Renaming

variable (named : kind.isNamed = true) (written : ∀ entry ∈ entries, entry.2.isWritten = true)
  (writtenMode : mode.isWritten = true)
include named written writtenMode

/-- Where the numbers from there on are kept, so are the objects. -/
theorem of_keeps
    (stamps : StampsAll locate mode kind serial entries objects) {rename : Nat → Nat}
    (keeps : ∀ number, serial ≤ number → rename number = number) :
    StampsAll locate mode kind serial entries
      (Entries.mapped (PolicyObject.renamed rename) objects) := by
  induction stamps with
  | nil => exact .nil
  | @cons serial key value object rest others showable stamped _ inductionHypothesis =>
      rw [List.forall_mem_cons] at written
      refine .cons showable ?_ (inductionHypothesis written.2 fun number later =>
        keeps number (le_trans (Nat.le_add_right ..) later))
      have renamed := stamped.renamed named written.1 writtenMode rename
      rwa [keeps serial (le_refl _)] at renamed

/-- Renaming by two maps that agree on the numbers of the range gives the same objects. -/
theorem mapped_congr
    (stamps : StampsAll locate mode kind serial entries objects) {rename other : Nat → Nat}
    (agree : ∀ number, serial ≤ number →
      (0 < kind.serials → number < serial + kind.serials * entries.length) →
      rename number = other number) :
    Entries.mapped (PolicyObject.renamed rename) objects =
      Entries.mapped (PolicyObject.renamed other) objects := by
  refine List.map_congr_left fun entry member => congrArg (Prod.mk entry.1) ?_
  obtain ⟨number, value, from_, below, isEntry, stamped⟩ := stamps.stamped_of_mem member
  have renamed := stamped.renamed named (written _ isEntry) writtenMode
  have first := renamed rename
  rw [agree number from_ below] at first
  exact (renamed other).unique first

theorem mapped_comp
    (stamps : StampsAll locate mode kind serial entries objects) (rename other : Nat → Nat) :
    Entries.mapped (PolicyObject.renamed other)
        (Entries.mapped (PolicyObject.renamed rename) objects) =
      Entries.mapped (PolicyObject.renamed (other ∘ rename)) objects := by
  unfold Entries.mapped
  rw [List.map_map]
  refine List.map_congr_left fun entry member => congrArg (Prod.mk entry.1) ?_
  obtain ⟨number, value, _, _, isEntry, stamped⟩ := stamps.stamped_of_mem member
  have once := stamped.renamed named (written _ isEntry) writtenMode (other ∘ rename)
  have twice := (stamped.renamed named (written _ isEntry) writtenMode rename).renamed named
    (written _ isEntry) writtenMode other
  exact once.unique twice

end Renaming

/-- Two values that change places become the same objects with their numbers exchanged. -/
theorem exists_of_swap
    (named : kind.isNamed = true) (writtenMode : mode.isWritten = true)
    {first second : Scalar × Value} {rest : Entries}
    (written : ∀ entry ∈ first :: second :: rest, entry.2.isWritten = true)
    (stamps : StampsAll locate mode kind serial (first :: second :: rest) objects) :
    ∃ rename otherObjects, Function.Injective rename ∧
      KeepsOutside serial (kind.serials * (first :: second :: rest).length) rename ∧
      StampsAll locate mode kind serial (second :: first :: rest) otherObjects ∧
      otherObjects.Perm (Entries.mapped (PolicyObject.renamed rename) objects) := by
  obtain _ | @⟨_, key, value, object, _, _, showable, stamped, tail⟩ := stamps
  obtain _ | @⟨_, next, nextValue, nextObject, _, _, nextShowable, nextStamped, tail⟩ := tail
  rw [List.forall_mem_cons, List.forall_mem_cons] at written
  -- The numbers of the first two objects are exchanged.
  let rename : Nat → Nat := Equiv.swap serial (serial + kind.serials)
  have keeps (number : Nat) (outside : number < serial ∨
      serial + kind.serials + kind.serials ≤ number) : rename number = number := by
    simp only [rename, Equiv.swap_apply_def]
    split
    · omega
    · split <;> omega
  have moved := nextStamped.renamed named written.2.1 writtenMode rename
  have movedBack := stamped.renamed named written.1 writtenMode rename
  rw [show rename (serial + kind.serials) = serial from Equiv.swap_apply_right ..] at moved
  rw [show rename serial = serial + kind.serials from Equiv.swap_apply_left ..] at movedBack
  refine ⟨rename, (next, nextObject.renamed rename) :: (key, object.renamed rename) ::
      Entries.mapped (PolicyObject.renamed rename) _, (Equiv.swap ..).injective,
    fun number outside => keeps number (outside.imp_right fun behind => ?_),
    .cons nextShowable moved (.cons showable movedBack
      (of_keeps named written.2.2 writtenMode tail fun number later =>
        keeps number (.inr later))), List.Perm.swap ..⟩
  rw [List.length_cons, List.length_cons, Nat.mul_add_one, Nat.mul_add_one] at behind
  omega

/-- Values in another order become the same objects with other numbers of the same range. -/
theorem exists_of_perm
    (named : kind.isNamed = true) (written : ∀ entry ∈ entries, entry.2.isWritten = true)
    (writtenMode : mode.isWritten = true)
    (stamps : StampsAll locate mode kind serial entries objects) (perm : entries.Perm others) :
    ∃ rename otherObjects, Function.Injective rename ∧
      KeepsOutside serial (kind.serials * entries.length) rename ∧
      StampsAll locate mode kind serial others otherObjects ∧
      otherObjects.Perm (Entries.mapped (PolicyObject.renamed rename) objects) := by
  induction perm generalizing serial objects with
  | nil =>
      cases stamps
      exact ⟨id, [], Function.injective_id, fun _ _ => rfl, .nil, List.Perm.refl _⟩
  | @cons entry rest others perm inductionHypothesis =>
      obtain _ | @⟨_, key, value, object, _, _, showable, stamped, tail⟩ := stamps
      rw [List.forall_mem_cons] at written
      obtain ⟨rename, otherObjects, injective, keeps, otherStamps, same⟩ :=
        inductionHypothesis written.2 tail
      have fixed : rename serial = serial := by
        rcases Nat.eq_zero_or_pos kind.serials with none | some
        · exact keeps serial (.inr (by simp [none]))
        · exact keeps serial (.inl (Nat.lt_add_of_pos_right some))
      have sameObject : object.renamed rename = object := by
        have renamed := stamped.renamed named written.1 writtenMode rename
        rw [fixed] at renamed
        exact stamped.unique renamed
      refine ⟨rename, (key, object) :: otherObjects, injective, fun number outside => ?_,
        .cons showable stamped otherStamps, ?_⟩
      · refine keeps number (outside.imp (fun before => ?_) fun behind => ?_)
        · exact lt_of_lt_of_le before (Nat.le_add_right ..)
        · rw [List.length_cons, Nat.mul_add_one] at behind
          omega
      · unfold Entries.mapped at same ⊢
        rw [List.map_cons, sameObject]
        exact same.cons _
  | swap first second rest => exact exists_of_swap named writtenMode written stamps
  | @trans _ middle _ perm _ first second =>
      obtain ⟨rename, middleObjects, injective, keeps, middleStamps, same⟩ := first written stamps
      obtain ⟨other, otherObjects, otherInjective, otherKeeps, otherStamps, otherSame⟩ :=
        second (fun entry member => written entry (perm.mem_iff.2 member)) middleStamps
      refine ⟨other ∘ rename, otherObjects, otherInjective.comp injective, fun number outside => ?_,
        otherStamps, ?_⟩
      · rw [Function.comp_apply, keeps number outside]
        exact otherKeeps number (perm.length_eq ▸ outside)
      · rw [← mapped_comp named written writtenMode stamps]
        exact otherSame.trans (same.map _)

end StampsAll

/-! ## The entries of one section -/

/-- The section holds those entries afterwards; apart from it, only serial numbers were taken. -/
structure Declares (name : String) (entries : SectionEntries) (serials : Nat)
    (before after : Context) : Prop where
  same : after =
    { before with objects := after.objects, nextSerial := before.nextSerial + serials }
  own : after.entriesOf name = entries
  others : ∀ other, other ≠ name → after.entriesOf other = before.entriesOf other

theorem Declares.trans
    {name : String} {entries others : SectionEntries} {serials more : Nat}
    {before middle after : Context} (first : Declares name entries serials before middle)
    (second : Declares name others more middle after) :
    Declares name others (serials + more) before after where
  same := by
    rw [second.same, first.same]
    simp [Nat.add_assoc]
  own := second.own
  others := fun other different => (second.others other different).trans (first.others other different)

section Keys

variable {policy : Policy} {name : String} {kind : ObjectKind} {key : Scalar} {value : Value}
  {done rest : List (Scalar × Entry)} {before after : Context}
  (stated : before.entriesOf name = .map (done ++ (key, .raw value) :: rest))
  (fresh : ∀ entry ∈ done, entry.1.sameKey key = false)
include stated fresh

theorem get?_of_stated : (before.entriesOf name).get? key = some (.raw value) := by
  rw [stated, SectionEntries.get?, Entries.get?_append, Entries.get?_eq_none_iff.2 fresh,
    Entries.get?_cons, Scalar.sameKey_self]
  rfl

theorem stamped_of_declareKey
    (named : kind.isNamed = true)
    (run : declareKey policy name kind key before = (.ok (), after)) :
    key.isShowable = true ∧ ∃ object, PolicyObject.Stamped before.settings.logMode kind
      (entryLocation policy name key) (LogClass.keyOf key) value before.nextSerial object := by
  obtain ⟨showable, entry, object, _, found, declares, -⟩ := declareKey_eq_ok run
  obtain rfl := Option.some.inj ((get?_of_stated stated fresh).symm.trans found)
  have stamped := (PolicyObject.stamped_of_declare named (Value.renamed_id value) declares).2
  rw [Value.renamed_id] at stamped
  exact ⟨showable, object.renamed id, stamped⟩

theorem declareKey_of_stamped
    (showable : key.isShowable = true) {object : PolicyObject}
    (stamped : PolicyObject.Stamped before.settings.logMode kind (entryLocation policy name key)
      (LogClass.keyOf key) value before.nextSerial object) :
    ∃ after, declareKey policy name kind key before = (.ok (), after) ∧
      Declares name (.map (done ++ (key, .object object) :: rest)) kind.serials before after := by
  let declared : Context := { before with nextSerial := before.nextSerial + kind.serials }
  have stillStated : declared.entriesOf name = .map (done ++ (key, .raw value) :: rest) := stated
  refine ⟨withObject declared name key object, ?_, rfl, ?_, fun other different => ?_⟩
  · unfold declareKey
    rw [if_neg (by simp [showable])]
    refine bind_eq_ok.2 ⟨before, before, rfl, ?_⟩
    rw [get?_of_stated stated fresh]
    exact bind_eq_ok.2 ⟨object, declared, stamped before rfl rfl, rfl⟩
  · unfold withObject
    rw [entriesOf_set_self, stillStated, SectionEntries.put, Entries.insert_append_cons fresh]
  · unfold withObject
    rw [entriesOf_set_of_ne different]
    rfl

end Keys

section Sections

variable {policy : Policy} {name : String} {kind : ObjectKind} {entries : Entries}

/-- Some entries became objects, and the others are as they were stated. -/
def partly (done : List (Scalar × PolicyObject)) (rest : Entries) : List (Scalar × Entry) :=
  Entries.mapped Entry.object done ++ Entries.mapped Entry.raw rest

theorem partly_concat (done : List (Scalar × PolicyObject)) (key : Scalar) (object : PolicyObject)
    (rest : Entries) :
    partly (done ++ [(key, object)]) rest =
      Entries.mapped Entry.object done ++ (key, .object object) :: Entries.mapped Entry.raw rest := by
  simp [partly, Entries.mapped]

theorem areDistinct_partly_concat
    {done : List (Scalar × PolicyObject)} {key : Scalar} {value : Value} {rest : Entries}
    (distinct : Entries.AreDistinct (partly done ((key, value) :: rest))) (object : PolicyObject) :
    Entries.AreDistinct (partly (done ++ [(key, object)]) rest) :=
  (Entries.areDistinct_congr (by simp [partly, Entries.mapped])).1 distinct

theorem declareKeys_of_stamps
    {done objects : List (Scalar × PolicyObject)} {before : Context}
    (distinct : Entries.AreDistinct (partly done entries))
    (stated : before.entriesOf name = .map (partly done entries))
    (stamps : StampsAll (entryLocation policy name) before.settings.logMode kind before.nextSerial
      entries objects) :
    ∃ after, declareKeys policy name kind (entries.map (·.1)) before = (.ok (), after) ∧
      Declares name (.map (Entries.mapped Entry.object (done ++ objects)))
        (kind.serials * entries.length) before after := by
  induction entries generalizing done objects before with
  | nil =>
      cases stamps
      exact ⟨before, rfl, rfl, by simpa [partly, Entries.mapped] using stated, fun _ _ => rfl⟩
  | cons entry rest inductionHypothesis =>
      obtain _ | @⟨_, key, value, object, _, others, showable, stamped, tail⟩ := stamps
      obtain ⟨middle, first, declares⟩ :=
        declareKey_of_stamped stated distinct.fresh showable stamped
      have nowStated : middle.entriesOf name = .map (partly (done ++ [(key, object)]) rest) :=
        declares.own.trans (congrArg SectionEntries.map (partly_concat ..).symm)
      have sameMode : middle.settings = before.settings := by rw [declares.same]
      have next : middle.nextSerial = before.nextSerial + kind.serials := by rw [declares.same]
      rw [← sameMode, ← next] at tail
      obtain ⟨after, declaresOthers, declaresRest⟩ :=
        inductionHypothesis (areDistinct_partly_concat distinct object) nowStated tail
      refine ⟨after, bind_eq_ok.2 ⟨(), middle, first, declaresOthers⟩, ?_⟩
      have whole := declares.trans declaresRest
      rw [List.append_assoc] at whole
      rw [List.length_cons, Nat.mul_add_one, Nat.add_comm]
      exact whole

theorem exists_stamps_of_declareKeys
    (named : kind.isNamed = true) {done : List (Scalar × PolicyObject)} {before after : Context}
    (distinct : Entries.AreDistinct (partly done entries))
    (stated : before.entriesOf name = .map (partly done entries))
    (run : declareKeys policy name kind (entries.map (·.1)) before = (.ok (), after)) :
    ∃ objects, StampsAll (entryLocation policy name) before.settings.logMode kind
      before.nextSerial entries objects := by
  induction entries generalizing done before with
  | nil => exact ⟨[], .nil⟩
  | cons entry rest inductionHypothesis =>
      obtain ⟨key, value⟩ := entry
      obtain ⟨_, middle, first, others⟩ := bind_eq_ok.1 run
      obtain ⟨showable, object, stamped⟩ := stamped_of_declareKey stated distinct.fresh named first
      obtain ⟨_, again, declares⟩ := declareKey_of_stamped stated distinct.fresh showable stamped
      obtain rfl := (Prod.mk.inj (first.symm.trans again)).2
      have nowStated : middle.entriesOf name = .map (partly (done ++ [(key, object)]) rest) :=
        declares.own.trans (congrArg SectionEntries.map (partly_concat ..).symm)
      obtain ⟨objects, stamps⟩ :=
        inductionHypothesis (areDistinct_partly_concat distinct object) nowStated others
      rw [declares.same] at stamps
      exact ⟨(key, object) :: objects, .cons showable stamped stamps⟩

end Sections

end Building

end FirewallPolicy
