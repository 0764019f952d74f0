import FirewallPolicy.Proofs.Record
import FirewallPolicy.Value.Written
import Mathlib.Data.List.Pairwise

/-!
# Mappings in another order

A mapping whose keys are different holds the same value under each key, whatever the order of its
entries is.
-/

namespace FirewallPolicy

namespace Scalar

theorem sameKey_self (key : Scalar) : key.sameKey key = true :=
  sameKey_iff.2 rfl

theorem sameKey_comm (first second : Scalar) : first.sameKey second = second.sameKey first := by
  rw [Bool.eq_iff_iff, sameKey_iff, sameKey_iff]
  exact eq_comm

/-- The keys name different entries, and where they are written differently, they differ in some
character. -/
structure Differs (first second : Scalar) : Prop where
  keys : first.sameKey second = false
  codes : first.written ≠ second.written → Text.codes first.written ≠ Text.codes second.written

theorem Differs.symm {first second : Scalar} (differs : first.Differs second) :
    second.Differs first where
  keys := (sameKey_comm second first).trans differs.keys
  codes := fun different same => differs.codes different.symm same.symm

instance (first second : Scalar) : Decidable (first.Differs second) :=
  decidable_of_iff
    (first.sameKey second = false ∧
      (first.written ≠ second.written → Text.codes first.written ≠ Text.codes second.written))
    ⟨fun ⟨keys, codes⟩ => ⟨keys, codes⟩, fun ⟨keys, codes⟩ => ⟨keys, codes⟩⟩

end Scalar

namespace Entries

variable {α β : Type} {entries others : List (Scalar × α)}

/-- No two keys name the same entry. -/
def AreDistinct (entries : List (Scalar × α)) : Prop :=
  entries.Pairwise fun first second => first.1.Differs second.1

instance (entries : List (Scalar × α)) : Decidable (AreDistinct entries) :=
  inferInstanceAs (Decidable (List.Pairwise _ _))

theorem AreDistinct.of_perm (distinct : AreDistinct entries) (perm : entries.Perm others) :
    AreDistinct others :=
  perm.pairwise distinct fun differs => differs.symm

theorem AreDistinct.differs
    (distinct : AreDistinct entries) {first second : Scalar × α} (isFirst : first ∈ entries)
    (isSecond : second ∈ entries) (different : first ≠ second) :
    first.1.Differs second.1 := by
  have symmetric : Std.Symm fun first second : Scalar × α => first.1.Differs second.1 :=
    ⟨fun _ _ differs => differs.symm⟩
  exact List.Pairwise.forall distinct isFirst isSecond different

/-- A key behind others names none of their entries. -/
theorem AreDistinct.fresh
    {rest : List (Scalar × α)} {key : Scalar} {value : α}
    (distinct : AreDistinct (entries ++ (key, value) :: rest)) :
    ∀ entry ∈ entries, entry.1.sameKey key = false := fun entry member =>
  ((List.pairwise_append.1 distinct).2.2 entry member _ (List.mem_cons_self ..)).keys

theorem areDistinct_congr
    {entries : List (Scalar × α)} {others : List (Scalar × β)}
    (keys : entries.map (·.1) = others.map (·.1)) :
    AreDistinct entries ↔ AreDistinct others := by
  have byKeys {γ : Type} (entries : List (Scalar × γ)) :
      AreDistinct entries ↔ (entries.map (·.1)).Pairwise Scalar.Differs := by
    rw [List.pairwise_map]
    rfl
  rw [byKeys, byKeys, keys]

/-! ## Looking up -/

theorem get?_cons (key : Scalar) (value : α) (rest : List (Scalar × α)) (other : Scalar) :
    get? ((key, value) :: rest) other =
      if key.sameKey other then some value else get? rest other := by
  unfold get?
  rw [List.find?_cons]
  cases key.sameKey other <;> rfl

theorem get?_append (first second : List (Scalar × α)) (key : Scalar) :
    get? (first ++ second) key = (get? first key).or (get? second key) := by
  unfold get?
  rw [List.find?_append]
  cases first.find? fun entry => entry.1.sameKey key <;> rfl

theorem get?_eq_none_iff {key : Scalar} :
    get? entries key = none ↔ ∀ entry ∈ entries, entry.1.sameKey key = false := by
  unfold get?
  rw [Option.map_eq_none_iff, List.find?_eq_none]
  simp only [Bool.not_eq_true]

/-- The order of entries with different keys does not matter for what is found. -/
theorem get?_of_perm
    (distinct : AreDistinct entries) (perm : entries.Perm others) (key : Scalar) :
    get? others key = get? entries key := by
  induction perm with
  | nil => rfl
  | cons entry _ inductionHypothesis =>
      rw [get?_cons, get?_cons, inductionHypothesis (List.pairwise_cons.1 distinct).2]
  | swap first second rest =>
      have differs : second.1.Differs first.1 :=
        (List.pairwise_cons.1 distinct).1 first (List.mem_cons_self ..)
      rw [get?_cons, get?_cons, get?_cons, get?_cons]
      cases isFirst : first.1.sameKey key with
      | false => rfl
      | true =>
          have notSecond : second.1.sameKey key = false := by
            rw [Scalar.sameKey_iff] at isFirst
            have apart := differs.keys
            rw [Bool.eq_false_iff, Ne, Scalar.sameKey_iff] at apart ⊢
            exact fun isSecond => apart (isSecond.trans isFirst.symm)
          rw [notSecond]
          rfl
  | trans firstPerm _ first second =>
      rw [second (distinct.of_perm firstPerm), first distinct]

/-! ## Storing -/

theorem insert_of_fresh
    {key : Scalar} (fresh : ∀ entry ∈ entries, entry.1.sameKey key = false) (value : α) :
    insert entries key value = entries ++ [(key, value)] := by
  induction entries with
  | nil => rfl
  | cons entry rest inductionHypothesis =>
      obtain ⟨known, old⟩ := entry
      rw [List.forall_mem_cons] at fresh
      rw [insert, fresh.1, inductionHypothesis fresh.2]
      rfl

/-- The entry of a key is replaced in its place. -/
theorem insert_append_cons
    {key : Scalar} (fresh : ∀ entry ∈ entries, entry.1.sameKey key = false) (old value : α)
    (rest : List (Scalar × α)) :
    insert (entries ++ (key, old) :: rest) key value = entries ++ (key, value) :: rest := by
  induction entries with
  | nil => rw [List.nil_append, insert, Scalar.sameKey_self]; rfl
  | cons entry others inductionHypothesis =>
      obtain ⟨known, kept⟩ := entry
      rw [List.forall_mem_cons] at fresh
      rw [List.cons_append, insert, fresh.1, inductionHypothesis fresh.2]
      rfl

/-- Entries with different keys are stored as they are. -/
theorem insertAll_nil (distinct : AreDistinct entries) : insertAll [] entries = entries := by
  have stored (known added : List (Scalar × α)) (distinct : AreDistinct (known ++ added)) :
      insertAll known added = known ++ added := by
    induction added generalizing known with
    | nil => exact (List.append_nil known).symm
    | cons entry rest inductionHypothesis =>
        obtain ⟨key, value⟩ := entry
        rw [insertAll, List.foldl_cons, insert_of_fresh distinct.fresh]
        have moved := inductionHypothesis (known ++ [(key, value)]) (by simpa using distinct)
        rw [insertAll] at moved
        simpa using moved
  exact stored [] entries distinct

end Entries

end FirewallPolicy
