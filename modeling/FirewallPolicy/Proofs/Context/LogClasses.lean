import FirewallPolicy.Model.Log
import FirewallPolicy.Proofs.Record
import FirewallPolicy.Proofs.Run.Basic

/-!
# The log classes of a context

A log class is set up under its name, and one of the classes may become the default.  Classes are
told apart by their serial numbers.  Whatever is set up later, a class that was selected stays the
one that its name stands for.
-/

namespace FirewallPolicy

open Stateful

/-! ## Sections -/

namespace SectionEntries

variable {entries : SectionEntries} {key : Scalar} {new entry : Entry}

/-- An entry of a section after a replacement was there before or is the new one. -/
theorem mem_put
    (member : entry ∈ (entries.put key new).values) :
    entry ∈ entries.values ∨ entry = new := by
  unfold put at member
  split at member
  · exact List.mem_or_eq_of_mem_set member
  · exact Or.inl member
  · obtain ⟨field, isField, rfl⟩ := List.mem_map.1 member
    rcases Entries.mem_insert isField with known | isNew
    · exact Or.inl (List.mem_map_of_mem known)
    · exact Or.inr isNew

theorem mem_of_get?
    (found : entries.get? key = some entry) :
    entry ∈ entries.values := by
  unfold get? at found
  split at found
  · exact List.mem_of_getElem? found
  · simp at found
  · obtain ⟨field, isField, rfl⟩ := Option.map_eq_some_iff.1 found
    exact List.mem_map_of_mem (List.mem_of_find?_eq_some isField)

/-- The entry of a name after the replacement of an entry that was there. -/
theorem get?_put_text
    (found : entries.get? key = some entry) (name : String) :
    (entries.put key new).get? (.text name) =
      if key = .text name then some new else entries.get? (.text name) := by
  cases shape : entries with
  | list items =>
      rw [shape] at found
      unfold get? at found
      split at found
      · rfl
      · simp at found
      · next shape => cases shape
  | map fields =>
      change Entries.get? (Entries.insert fields key new) (.text name) = _
      rw [Entries.get?_insert]
      simp only [Scalar.sameKey_text_iff]
      rfl

end SectionEntries

/-! ## Entries that become objects -/

/-- The entry is still the old one, or it became an object. -/
def Entry.Advances (old new : Entry) : Prop :=
  new = old ∨ ∃ object, new = .object object

/-- An object may be replaced, but only by another one. -/
theorem Entry.Advances.exists_object
    {old new : Entry} (advances : old.Advances new) {object : PolicyObject}
    (isObject : old = .object object) :
    ∃ later, new = .object later := by
  rcases advances with rfl | known
  · exact ⟨object, isObject⟩
  · exact known

theorem Entry.Advances.trans
    {first second third : Entry}
    (early : first.Advances second) (late : second.Advances third) :
    first.Advances third := by
  rcases late with rfl | isObject
  · exact early
  · exact Or.inr isObject

namespace SectionEntries

/-- The section has the same keys in the same order, and what is found under a key is still the old
entry or became an object. -/
structure Advances (entries others : SectionEntries) : Prop where
  keys : others.keys = entries.keys
  found : ∀ key entry, entries.get? key = some entry →
    ∃ later, others.get? key = some later ∧ entry.Advances later

theorem Advances.refl (entries : SectionEntries) : entries.Advances entries where
  keys := rfl
  found _ entry isEntry := ⟨entry, isEntry, Or.inl rfl⟩

theorem Advances.trans
    {first second third : SectionEntries}
    (early : first.Advances second) (late : second.Advances third) :
    first.Advances third where
  keys := late.keys.trans early.keys
  found key entry isEntry := by
    obtain ⟨middle, isMiddle, advanced⟩ := early.found key entry isEntry
    obtain ⟨later, isLater, advancedMore⟩ := late.found key middle isMiddle
    exact ⟨later, isLater, advanced.trans advancedMore⟩

variable {entries : SectionEntries} {key : Scalar} {entry : Entry}

theorem keys_put
    (found : entries.get? key = some entry) (new : Entry) :
    (entries.put key new).keys = entries.keys := by
  unfold get? at found
  split at found
  · simp only [put, keys, List.length_set]
  · simp at found
  · exact Entries.keys_insert_of_get? found new

/-- The new entry stands where the old one did. -/
theorem exists_values_put
    (found : entries.get? key = some entry) (new : Entry) :
    ∃ early late, entries.values = early ++ entry :: late ∧
      (entries.put key new).values = early ++ new :: late := by
  unfold get? at found
  split at found
  · next items i =>
      obtain ⟨inside, isEntry⟩ := List.getElem?_eq_some_iff.1 found
      obtain ⟨early, late, isOld, -, isNew⟩ := @List.exists_of_set _ _ new _ inside
      rw [isEntry] at isOld
      exact ⟨early, late, isOld, isNew⟩
  · simp at found
  · next fields =>
      obtain ⟨early, known, late, isOld, isNew⟩ := Entries.exists_insert found new
      refine ⟨early.map (·.2), late.map (·.2), ?_, ?_⟩
      · rw [values, isOld, List.map_append, List.map_cons]
      · rw [put, values, isNew, List.map_append, List.map_cons]

/-- Replacing an entry changes what is found under the keys that name it, and nothing else. -/
theorem get?_put_cases
    (found : entries.get? key = some entry) (new : Entry) (other : Scalar) :
    (entries.put key new).get? other = some new ∨
      (entries.put key new).get? other = entries.get? other := by
  unfold get? at found
  split at found
  · next items i =>
      cases other with
      | int j =>
          change (items.set i.toNat new)[j.toNat]? = _ ∨ (items.set i.toNat new)[j.toNat]? = _
          by_cases same : i.toNat = j.toNat
          · have inside := (List.getElem?_eq_some_iff.1 found).1
            exact Or.inl (by rw [← same, List.getElem?_set_self inside])
          · exact Or.inr (List.getElem?_set_ne same)
      | _ => exact Or.inr rfl
  · simp at found
  · next fields =>
      change Entries.get? (Entries.insert fields _ new) other = _ ∨
        Entries.get? (Entries.insert fields _ new) other = _
      rw [Entries.get?_insert]
      split
      · exact Or.inl rfl
      · exact Or.inr rfl

theorem get?_put_self
    (found : entries.get? key = some entry) (new : Entry) :
    (entries.put key new).get? key = some new := by
  unfold get? at found
  split at found
  · exact List.getElem?_set_self (List.getElem?_eq_some_iff.1 found).1
  · simp at found
  · change Entries.get? (Entries.insert _ _ new) _ = _
    rw [Entries.get?_insert, if_pos (Scalar.sameKey_iff.2 rfl)]

/-- An object takes the place of an entry. -/
theorem advances_put
    (found : entries.get? key = some entry) (object : PolicyObject) :
    entries.Advances (entries.put key (.object object)) where
  keys := keys_put found _
  found other old isOld := by
    rcases get?_put_cases found (.object object) other with isNew | same
    · exact ⟨_, isNew, Or.inr ⟨object, rfl⟩⟩
    · exact ⟨old, same.trans isOld, Or.inl rfl⟩

end SectionEntries

/-! ## Attributes -/

theorem recordOf_toEntries (record : Record) :
    recordOf (Record.toEntries record) = record := by
  simp [recordOf, Record.toEntries, List.filterMap_map]

/-- The attributes of an object are those of its declaration. -/
theorem attributesOf_eq_ok
    {kind : ObjectKind} {location : String} {source : Entry} {attributes : Record}
    {before after : Context}
    (run : attributesOf kind location source before = (.ok attributes, after)) :
    ∃ entries, declaration? source = some entries ∧ attributes = recordOf entries ∧
      after = before := by
  unfold attributesOf at run
  cases isMap : declaration? source with
  | none =>
      simp only [isMap] at run
      exact (throw_eq_ok.1 run).elim
  | some entries =>
      cases unknown : unknownKeys kind.attributes entries with
      | nil =>
          simp only [isMap, unknown] at run
          obtain ⟨rfl, rfl⟩ := pure_eq_ok.1 run
          exact ⟨entries, rfl, rfl, rfl⟩
      | cons name rest =>
          simp only [isMap, unknown] at run
          exact (Run.report_eq_ok.1 run).elim

/-! ## Names of log classes -/

/-- A name of a log class that is no number. -/
def IsClassName (name : Scalar) : Prop :=
  Text.isDigits name.written = false

namespace LogClass

/-- A name of the log class is no number, unless it counts for nothing in the names of chains. -/
def IsNamed (log : LogClass) : Prop :=
  ∀ name, log.key = some name → name.isTruthy = true → IsClassName name

/-- What logs is in the attributes of a log class. -/
theorem fragments_eq_of_attributes
    {first second : LogClass} (same : first.attributes = second.attributes) :
    first.fragments = second.fragments := by
  unfold fragments conditions optionText
  rw [same]

theorem settle_eq_ok
    {settings : Settings} {location : String} {key : Option Scalar} {attributes settled : Record}
    (run : settle settings location key attributes = .ok settled) :
    (∀ name, key = some name → IsClassName name) ∧
      settled = attributes.setDefault "mode" settings.logMode := by
  have checked : ∀ {settled}, (do
      checkMode location ((attributes.setDefault "mode" settings.logMode).get "mode")
      if (attributes.setDefault "mode" settings.logMode).has "every" &&
          (attributes.setDefault "mode" settings.logMode).has "probability" then
        throw (.fault location .everyAndProbability)
      return attributes.setDefault "mode" settings.logMode : Except Failure Record) = .ok settled →
      settled = attributes.setDefault "mode" settings.logMode := by
    intro settled run
    obtain ⟨_, _, run⟩ := except_bind_eq_ok.1 run
    split at run
    · obtain ⟨_, thrown, _⟩ := except_bind_eq_ok.1 run
      exact (except_throw_eq_ok.1 thrown).elim
    · exact (except_pure_eq_ok.1 run).symm
  unfold settle at run
  cases key with
  | none => exact ⟨by simp, checked run⟩
  | some name =>
      dsimp only at run
      split at run
      · obtain ⟨_, thrown, _⟩ := except_bind_eq_ok.1 run
        exact (except_throw_eq_ok.1 thrown).elim
      · next notNumber =>
          refine ⟨?_, checked run⟩
          rintro _ ⟨⟩
          exact eq_false_of_ne_true notNumber

/-- A log class that is declared takes the next serial number and nothing else from the context. -/
theorem declare_eq_ok
    {location : String} {key : Option Scalar} {source : Entry} {log : LogClass}
    {before after : Context}
    (run : LogClass.declare location key source before = (.ok log, after)) :
    ∃ entries, declaration? source = some entries ∧
      (∀ name, key = some name → IsClassName name) ∧
      log.attributes = (recordOf entries).setDefault "mode" before.settings.logMode ∧
      log.key = key ∧ log.serial = before.nextSerial ∧
      after = { before with nextSerial := before.nextSerial + 1 } := by
  simp only [LogClass.declare, bind_eq_ok, get_eq_ok, pure_eq_ok, Run.recording_eq_ok,
    Run.freshSerial_eq_ok] at run
  obtain ⟨attributes, _, reads, _, _, ⟨rfl, rfl⟩, settled, _, ⟨settles, rfl⟩, _, _, ⟨rfl, rfl⟩, rfl,
    rfl⟩ := run
  obtain ⟨entries, isMap, rfl, rfl⟩ := attributesOf_eq_ok reads
  obtain ⟨named, rfl⟩ := settle_eq_ok settles
  exact ⟨entries, isMap, named, rfl, rfl, rfl, rfl⟩

end LogClass

theorem Record.isSome_lookup_setDefault (record : Record) (name : String) (value : Value) :
    ((record.setDefault name value).lookup name).isSome = true := by
  unfold setDefault
  split
  · next known => exact known
  · rw [show (record.set name value).lookup name = some value from Named.get?_set_self ..]
    rfl

/-! ## Log classes that were set up -/

/-- The log classes of a context: the entries of their section, the default class, and the next
serial number. -/
structure LogBook where
  entries : SectionEntries
  default : Option LogClass
  next : Nat

/-- The log classes of the context. -/
def Context.logBook (context : Context) : LogBook :=
  ⟨context.entriesOf "log", context.defaultLog, context.nextSerial⟩

namespace LogBook

/-- The log class was set up: it stands in the section or is the default. -/
def Holds (book : LogBook) (log : LogClass) : Prop :=
  Entry.object (.log log) ∈ book.entries.values ∨ book.default = some log

/-- The log class stands in the section under the name. -/
def Lists (book : LogBook) (name : String) (log : LogClass) : Prop :=
  book.entries.get? (.text name) = some (.object (.log log))

/-- The log classes that were set up are well formed, and told apart by their serial numbers. -/
structure IsSettled (book : LogBook) : Prop where
  named : ∀ log, book.Holds log → log.IsNamed
  used : ∀ log, book.Holds log → log.serial < book.next
  moded : ∀ log, book.Holds log → (log.attributes.lookup "mode").isSome = true
  same : ∀ first second, book.Holds first → book.Holds second → first.serial = second.serial →
    first.attributes = second.attributes
  keyed : ∀ name log, book.Lists name log → log.key = some (.text name)
  default : ∀ log, book.default = some log → log.key = some (.text "")

/-- The log class was selected for a rule: it is the one that its name stands for, or it has none. -/
structure Knows (book : LogBook) (log : LogClass) : Prop where
  named : log.IsNamed
  used : log.serial < book.next
  same : ∀ other, book.Holds other → other.serial = log.serial → other.attributes = log.attributes
  text : ∀ name, log.key = some name → ∃ text, name = .text text
  listed : ∀ name, log.key = some (.text name) → name ≠ "" →
    ∃ other, book.Lists name other ∧ other.attributes = log.attributes
  unlisted : log.key = some (.text "") → book.entries.get? (.text "") = none →
    ∃ other, book.default = some other ∧ other.attributes = log.attributes

/-- What was set up or selected stays so. -/
structure Keeps (before after : LogBook) : Prop where
  default : ∀ log, before.default = some log → after.default = some log
  settled : before.IsSettled → after.IsSettled
  knows : before.IsSettled → ∀ log, before.Knows log → after.Knows log

variable {book before after : LogBook} {log : LogClass} {next : Nat}

theorem Keeps.refl (book : LogBook) : Keeps book book :=
  ⟨fun _ => id, id, fun _ _ => id⟩

theorem Keeps.trans
    {first second third : LogBook} (early : Keeps first second) (late : Keeps second third) :
    Keeps first third where
  default log isDefault := late.default log (early.default log isDefault)
  settled start := late.settled (early.settled start)
  knows start log known := late.knows (early.settled start) log (early.knows start log known)

theorem Lists.holds {name : String} (listed : book.Lists name log) : book.Holds log :=
  Or.inl (SectionEntries.mem_of_get? listed)

theorem isSettled_of_unheld
    (unheld : ∀ log, ¬ book.Holds log) : book.IsSettled where
  named log holds := (unheld log holds).elim
  used log holds := (unheld log holds).elim
  moded log holds := (unheld log holds).elim
  same log _ holds := (unheld log holds).elim
  keyed _ log listed := (unheld log listed.holds).elim
  default log isDefault := (unheld log (Or.inr isDefault)).elim

/-- A class that stands under its name may be selected by that name. -/
theorem IsSettled.knows_of_lists
    (settled : book.IsSettled) {name : String} (listed : book.Lists name log) :
    book.Knows log where
  named := settled.named log listed.holds
  used := settled.used log listed.holds
  same other holds := settled.same other log holds listed.holds
  text other isKey := ⟨name, Option.some.inj (isKey.symm.trans (settled.keyed name log listed))⟩
  listed other isKey _ := by
    obtain rfl : name = other := by simpa using (settled.keyed name log listed).symm.trans isKey
    exact ⟨log, listed, rfl⟩
  unlisted isKey absent := by
    obtain rfl : name = "" := by simpa using (settled.keyed name log listed).symm.trans isKey
    exact absurd (listed.symm.trans absent) (by simp)

/-- The default class may be selected. -/
theorem IsSettled.knows_default
    (settled : book.IsSettled) (isDefault : book.default = some log) :
    book.Knows log where
  named := settled.named log (Or.inr isDefault)
  used := settled.used log (Or.inr isDefault)
  same other holds := settled.same other log holds (Or.inr isDefault)
  text name isKey := ⟨"", Option.some.inj (isKey.symm.trans (settled.default log isDefault))⟩
  listed name isKey nonempty := by
    have empty := (settled.default log isDefault).symm.trans isKey
    exact absurd (by simpa using empty.symm) nonempty
  unlisted _ _ := ⟨log, isDefault, rfl⟩

/-! ## Setting up a log class -/

/-- The log class may be set up: its serial number is new, or stands for the same attributes. -/
structure Admits (book : LogBook) (log : LogClass) (next : Nat) : Prop where
  le : book.next ≤ next
  used : log.serial < next
  moded : (log.attributes.lookup "mode").isSome = true
  held : ∀ other, book.Holds other → other.serial = log.serial → other.attributes = log.attributes
  known : ∀ other, book.Knows other → other.serial = log.serial → other.attributes = log.attributes

theorem IsSettled.admits_of_holds
    (settled : book.IsSettled) (holds : book.Holds log) :
    book.Admits log book.next where
  le := Nat.le_refl _
  used := settled.used log holds
  moded := settled.moded log holds
  held other otherHolds := settled.same other log otherHolds holds
  known _ isKnown same := (isKnown.same log holds same.symm).symm

theorem IsSettled.admits_of_fresh
    (settled : book.IsSettled) (fresh : log.serial = book.next)
    (moded : (log.attributes.lookup "mode").isSome = true) :
    book.Admits log (book.next + 1) where
  le := Nat.le_succ _
  used := by omega
  moded := moded
  held other holds same := by
    have := settled.used other holds
    omega
  known _ isKnown same := by
    have := isKnown.used
    omega

/-- Nothing is set up but the log class, perhaps under a name of its own. -/
def Adds (before after : LogBook) (log : LogClass) : Prop :=
  ∀ other, after.Holds other → before.Holds other ∨
    other.IsNamed ∧ other.serial = log.serial ∧ other.attributes = log.attributes

theorem Admits.isSettled
    (admits : before.Admits log after.next) (adds : Adds before after log)
    (settled : before.IsSettled)
    (keyed : ∀ name other, after.Lists name other → other.key = some (.text name))
    (default : ∀ other, after.default = some other → other.key = some (.text "")) :
    after.IsSettled where
  named other holds := (adds other holds).elim (settled.named other) And.left
  used other holds := by
    rcases adds other holds with old | ⟨_, serial, _⟩
    · exact Nat.lt_of_lt_of_le (settled.used other old) admits.le
    · exact serial ▸ admits.used
  moded other holds := by
    rcases adds other holds with old | ⟨_, _, attributes⟩
    · exact settled.moded other old
    · exact attributes ▸ admits.moded
  same first second firstHolds secondHolds same := by
    rcases adds first firstHolds with firstOld | ⟨_, firstSerial, firstSame⟩ <;>
      rcases adds second secondHolds with secondOld | ⟨_, secondSerial, secondSame⟩
    · exact settled.same first second firstOld secondOld same
    · exact (admits.held first firstOld (same.trans secondSerial)).trans secondSame.symm
    · exact firstSame.trans (admits.held second secondOld (same.symm.trans firstSerial)).symm
    · exact firstSame.trans secondSame.symm
  keyed := keyed
  default := default

theorem Admits.knows
    (admits : before.Admits log after.next) (adds : Adds before after log)
    {known : LogClass} (isKnown : before.Knows known)
    (listed : ∀ name, known.key = some (.text name) → name ≠ "" →
      ∃ other, after.Lists name other ∧ other.attributes = known.attributes)
    (unlisted : known.key = some (.text "") → after.entries.get? (.text "") = none →
      ∃ other, after.default = some other ∧ other.attributes = known.attributes) :
    after.Knows known where
  named := isKnown.named
  used := Nat.lt_of_lt_of_le isKnown.used admits.le
  same other holds same := by
    rcases adds other holds with old | ⟨_, serial, attributes⟩
    · exact isKnown.same other old same
    · exact attributes.trans (admits.known known isKnown (same.symm.trans serial)).symm
  text := isKnown.text
  listed := listed
  unlisted := unlisted

/-- A log class takes the place of an entry under its own key. -/
theorem keeps_put
    {key : Scalar} {source : Entry}
    (found : book.entries.get? key = some source)
    (admits : book.IsSettled → book.Admits log next)
    (named : log.IsNamed) (isKey : log.key = LogClass.keyOf key)
    (again : book.IsSettled → ∀ old, source = .object (.log old) → old.attributes = log.attributes) :
    Keeps book { book with entries := book.entries.put key (.object (.log log)), next } := by
  have lists_iff (name : String) :
      (book.entries.put key (.object (.log log))).get? (.text name) =
        if key = .text name then some (.object (.log log)) else book.entries.get? (.text name) :=
    SectionEntries.get?_put_text found name
  have adds : Adds book { book with
      entries := book.entries.put key (.object (.log log)), next } log := by
    rintro other (listed | isDefault)
    · rcases SectionEntries.mem_put listed with old | new
      · exact Or.inl (Or.inl old)
      · obtain rfl : other = log := PolicyObject.log.inj (Entry.object.inj new)
        exact Or.inr ⟨named, rfl, rfl⟩
    · exact Or.inl (Or.inr isDefault)
  refine ⟨fun _ => id, fun settled => ?_, fun settled known isKnown => ?_⟩
  · refine (admits settled).isSettled adds settled ?_ settled.default
    intro name other listed
    rw [Lists, lists_iff] at listed
    split at listed
    · next isName =>
        obtain rfl : log = other := by simpa using listed
        rw [isKey, isName]
        rfl
    · exact settled.keyed name other listed
  · refine (admits settled).knows adds isKnown ?_ ?_
    -- A known class that loses its place to the new one has the attributes of the new one.
    · intro name isName nonempty
      obtain ⟨other, listed, same⟩ := isKnown.listed name isName nonempty
      by_cases isPlace : key = .text name
      · subst isPlace
        have isSource : source = .object (.log other) := Option.some.inj (found.symm.trans listed)
        exact ⟨log, (lists_iff name).trans (if_pos rfl),
          (again settled other isSource).symm.trans same⟩
      · exact ⟨other, (lists_iff name).trans ((if_neg isPlace).trans listed), same⟩
    · intro isEmpty absent
      dsimp only at absent
      rw [lists_iff] at absent
      split at absent
      · simp at absent
      · exact isKnown.unlisted isEmpty absent

/-- A log class becomes the default, under the empty name. -/
theorem keeps_default
    (undefined : book.default = none)
    (admits : book.IsSettled → book.Admits log next) :
    Keeps book { book with default := some { log with key := some (.text "") }, next } := by
  have adds : Adds book
      { book with default := some { log with key := some (.text "") }, next } log := by
    rintro other (listed | isDefault)
    · exact Or.inl (Or.inl listed)
    · obtain rfl := Option.some.inj isDefault
      refine Or.inr ⟨?_, rfl, rfl⟩
      rintro name ⟨⟩ truthy
      simp [Scalar.isTruthy] at truthy
  refine ⟨?_, fun settled => ?_, fun settled known isKnown => ?_⟩
  · intro other isDefault
    rw [undefined] at isDefault
    cases isDefault
  · refine (admits settled).isSettled adds settled settled.keyed ?_
    rintro other ⟨⟩
    rfl
  · refine (admits settled).knows adds isKnown isKnown.listed fun isEmpty absent => ?_
    obtain ⟨other, isDefault, _⟩ := isKnown.unlisted isEmpty absent
    rw [undefined] at isDefault
    cases isDefault

theorem keeps_of_le (le : book.next ≤ next) :
    Keeps book { book with next } where
  default _ := id
  settled settled :=
    { settled with used := fun log holds => Nat.lt_of_lt_of_le (settled.used log holds) le }
  knows _ _ known := { known with used := Nat.lt_of_lt_of_le known.used le }

/-! ## Names -/

/-- The log class has the name: as its own, or as the default class, which has the empty one. -/
def Calls (book : LogBook) (log : LogClass) (name : String) : Prop :=
  log.key = some (.text name) ∨
    name = "" ∧ ∃ other, book.default = some other ∧ other.serial = log.serial

theorem Calls.keeps
    {name : String} (calls : before.Calls log name) (keeps : before.Keeps after) :
    after.Calls log name := by
  rcases calls with isKey | ⟨isEmpty, other, isDefault, same⟩
  · exact Or.inl isKey
  · exact Or.inr ⟨isEmpty, other, keeps.default other isDefault, same⟩

/-- A name that counts in the names of chains is no number. -/
theorem Knows.isClassName
    {name : String} (known : book.Knows log) (calls : book.Calls log name) :
    (Scalar.text name).isTruthy = true → IsClassName (.text name) := by
  intro truthy
  rcases calls with isKey | ⟨rfl, _⟩
  · exact known.named _ isKey truthy
  · simp [Scalar.isTruthy] at truthy

/-- Selected classes of one name are one class, unless a class was declared under the empty name. -/
theorem Knows.attributes_eq
    {first second : LogClass} {name : String}
    (firstKnown : book.Knows first) (secondKnown : book.Knows second)
    (firstCalls : book.Calls first name) (secondCalls : book.Calls second name)
    (distinct : name = "" → book.entries.get? (.text "") = none) :
    first.attributes = second.attributes := by
  by_cases isEmpty : name = ""
  · subst isEmpty
    have isDefault {log : LogClass} (known : book.Knows log) (calls : book.Calls log "") :
        ∃ other, book.default = some other ∧ other.attributes = log.attributes := by
      rcases calls with isKey | ⟨_, other, isDefault, same⟩
      · exact known.unlisted isKey (distinct rfl)
      · exact ⟨other, isDefault, known.same other (Or.inr isDefault) same⟩
    obtain ⟨other, found, same⟩ := isDefault firstKnown firstCalls
    obtain ⟨another, again, sameSecond⟩ := isDefault secondKnown secondCalls
    obtain rfl := Option.some.inj (found.symm.trans again)
    exact same.symm.trans sameSecond
  · have isListed {log : LogClass} (known : book.Knows log) (calls : book.Calls log name) :
        ∃ other, book.Lists name other ∧ other.attributes = log.attributes :=
      known.listed name (calls.resolve_right fun both => isEmpty both.1) isEmpty
    obtain ⟨other, listed, same⟩ := isListed firstKnown firstCalls
    obtain ⟨another, again, sameSecond⟩ := isListed secondKnown secondCalls
    obtain rfl : other = another := by simpa using listed.symm.trans again
    exact same.symm.trans sameSecond

theorem Knows.exists_calls
    {context : Context} {name : Scalar} (known : context.logBook.Knows log)
    (isName : log.nameIn context = some name) :
    ∃ text, name = .text text ∧ context.logBook.Calls log text := by
  have own (isKey : log.key = some name) :
      ∃ text, name = .text text ∧ context.logBook.Calls log text := by
    obtain ⟨text, rfl⟩ := known.text name isKey
    exact ⟨text, rfl, Or.inl isKey⟩
  unfold LogClass.nameIn at isName
  split at isName
  · next other isDefault =>
      split at isName
      · next same =>
          obtain rfl := Option.some.inj isName
          exact ⟨"", rfl, Or.inr ⟨rfl, other, isDefault, same⟩⟩
      · exact own isName
  · exact own isName

end LogBook

/-! ## Declaring -/

namespace LogClass

variable {location : String} {key : Option Scalar} {source : Entry} {log : LogClass}
  {before after : Context}

theorem isNamed_of_declare
    (run : LogClass.declare location key source before = (.ok log, after)) :
    log.IsNamed := by
  obtain ⟨_, _, named, _, rfl, _, _⟩ := declare_eq_ok run
  exact fun name isKey _ => named name isKey

theorem admits_of_declare
    (run : LogClass.declare location key source before = (.ok log, after))
    (settled : before.logBook.IsSettled) :
    before.logBook.Admits log (before.nextSerial + 1) := by
  obtain ⟨_, _, _, attributes, _, serial, _⟩ := declare_eq_ok run
  refine settled.admits_of_fresh serial ?_
  rw [attributes]
  exact Record.isSome_lookup_setDefault ..

/-- A log class that is declared from another one has its attributes. -/
theorem attributes_of_declare
    {old : LogClass} (moded : (old.attributes.lookup "mode").isSome = true)
    (run : LogClass.declare location key (.object (.log old)) before = (.ok log, after)) :
    old.attributes = log.attributes := by
  obtain ⟨entries, isMap, _, attributes, _⟩ := declare_eq_ok run
  obtain rfl : Record.toEntries old.attributes = entries := Option.some.inj isMap
  rw [attributes, recordOf_toEntries, Record.setDefault, if_pos moded]

/-- The class that the entry of a key declares takes the place of the entry. -/
theorem keeps_of_declare
    {key : Scalar} (found : (before.entriesOf "log").get? key = some source)
    (run : LogClass.declare location (LogClass.keyOf key) source before = (.ok log, after)) :
    before.logBook.Keeps
      ⟨(before.entriesOf "log").put key (.object (.log log)), before.defaultLog,
        before.nextSerial + 1⟩ := by
  obtain ⟨_, _, _, _, isKey, _, _⟩ := declare_eq_ok run
  refine LogBook.keeps_put found (admits_of_declare run) (isNamed_of_declare run) isKey ?_
  rintro settled old rfl
  exact attributes_of_declare (settled.moded old (Or.inl (SectionEntries.mem_of_get? found))) run

/-- A class that is declared in place has no name. -/
theorem knows_of_declare
    (settled : before.logBook.IsSettled)
    (run : LogClass.declare location none source before = (.ok log, after)) :
    after.logBook.Knows log := by
  have admits := admits_of_declare run settled
  have isNamed := isNamed_of_declare run
  obtain ⟨_, _, _, _, isKey, _, rfl⟩ := declare_eq_ok run
  exact
    { named := isNamed
      used := admits.used
      same := admits.held
      text := by simp [isKey]
      listed := by simp [isKey]
      unlisted := by simp [isKey] }

end LogClass

end FirewallPolicy
