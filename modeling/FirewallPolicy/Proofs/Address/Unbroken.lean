import FirewallPolicy.Address.HostBook
import FirewallPolicy.Address.Mask
import FirewallPolicy.Proofs.Run.Contract
import FirewallPolicy.Proofs.Text.Unbroken
import FirewallPolicy.Proofs.Text.Parts

/-!
# Addresses on one line

An address is written with digits and signs, and with the zone of its scope, which is part of the
text that it was read from.  So the addresses of a host have no line break when its text has none
and the directory gives none.
-/

namespace FirewallPolicy

open Text

theorem IPVersion.isUnbroken_family (version : IPVersion) : Text.IsUnbroken version.family := by
  cases version <;> decide

/-! ## Literals -/

namespace Text

theorem subset_of_mem_splitAt {separator : Char} {cs part : List Char}
    (member : part ∈ splitAt separator cs) : part ⊆ cs := by
  induction cs generalizing part with
  | nil =>
      obtain rfl := List.mem_singleton.1 member
      exact List.nil_subset _
  | cons c rest inductionHypothesis =>
      unfold splitAt at member
      split at member
      · rcases List.mem_cons.1 member with rfl | later
        · exact List.nil_subset _
        · exact List.subset_cons_of_subset c (inductionHypothesis later)
      · split at member
        · obtain rfl := List.mem_singleton.1 member
          simp
        · next first parts split =>
            rw [split] at inductionHypothesis
            rcases List.mem_cons.1 member with rfl | later
            · exact List.cons_subset_cons c (inductionHypothesis (List.mem_cons_self ..))
            · exact List.subset_cons_of_subset c
                (inductionHypothesis (List.mem_cons_of_mem _ later))

theorem newline_notMem_joinWith {separator : Char} {parts : List (List Char)}
    (glue : separator ≠ '\n') (each : ∀ part ∈ parts, '\n' ∉ part) :
    '\n' ∉ joinWith separator parts := by
  intro member
  rcases mem_joinWith member with isSeparator | ⟨part, isPart, isBreak⟩
  · exact glue isSeparator.symm
  · exact each part isPart isBreak

end Text

theorem IPv4.newline_notMem_text (number : Nat) : '\n' ∉ IPv4.text number := by
  refine newline_notMem_joinWith (by decide) fun part member => ?_
  obtain ⟨shift, _, rfl⟩ := List.mem_map.1 member
  exact newline_notMem_toDigits 10 _

theorem IPv6.newline_notMem_text (number : Nat) : '\n' ∉ IPv6.text number := by
  have colons (groups : List Nat) : '\n' ∉ IPv6.colonText groups := by
    refine newline_notMem_joinWith (by decide) fun part member => ?_
    obtain ⟨group, _, rfl⟩ := List.mem_map.1 member
    exact newline_notMem_toDigits 16 _
  unfold IPv6.text
  extract_lets groups run
  split <;> simp [colons]

namespace Address

/-- The zone of the address, if it has one, has no line break. -/
def IsUnbroken (address : Address) : Prop :=
  ∀ zone, address.zone = some zone → '\n' ∉ zone

theorem IsUnbroken.text {address : Address} (unbroken : address.IsUnbroken) :
    '\n' ∉ address.text := by
  unfold Address.text
  split
  · exact IPv4.newline_notMem_text _
  · split
    · next zone isZone => simp [IPv6.newline_notMem_text, unbroken zone isZone]
    · exact IPv6.newline_notMem_text _

theorem IsUnbroken.networkOf {address : Address} (unbroken : address.IsUnbroken) (length : Nat) :
    (address.networkOf length).IsUnbroken := by
  unfold Address.networkOf
  split
  · exact unbroken
  · rintro _ ⟨⟩

end Address

theorem IPv6.isUnbroken_of_address? {cs : List Char} {address : Address} (unbroken : '\n' ∉ cs)
    (read : IPv6.address? cs = some address) : address.IsUnbroken := by
  unfold IPv6.address? at read
  split at read
  · obtain ⟨_, -, rfl⟩ := Option.map_eq_some_iff.1 read
    rintro _ ⟨⟩
  · next body zone cut =>
      split at read
      · simp at read
      · obtain ⟨_, -, rfl⟩ := Option.map_eq_some_iff.1 read
        rintro _ ⟨⟩
        rw [eq_append_of_cutAt? cut] at unbroken
        simp_all

theorem Address.isUnbroken_of_ofText? {cs : List Char} {address : Address} (unbroken : '\n' ∉ cs)
    (read : Address.ofText? cs = some address) : address.IsUnbroken := by
  unfold Address.ofText? at read
  split at read
  · obtain rfl := Option.some.inj read
    rintro _ ⟨⟩
  · exact IPv6.isUnbroken_of_address? unbroken read

namespace Literal

theorem isUnbroken_of_ofText? {cs : List Char} {literal : Literal} (unbroken : '\n' ∉ cs)
    (read : Literal.ofText? cs = some literal) : literal.address.IsUnbroken := by
  have part {part : List Char} (member : part ∈ splitAt '/' cs) : '\n' ∉ part :=
    fun isBreak => unbroken (subset_of_mem_splitAt member isBreak)
  unfold Literal.ofText? at read
  split at read
  · next body isBody =>
      obtain ⟨address, isAddress, rfl⟩ := Option.map_eq_some_iff.1 read
      exact Address.isUnbroken_of_ofText? (part (isBody ▸ List.mem_singleton_self body)) isAddress
  · next body length isBody =>
      rcases Option.or_eq_some_iff.1 read with isInet | ⟨-, isInet6⟩
      · simp only [network4?, Option.bind_eq_bind, Option.bind_eq_some_iff, Option.pure_def,
          Option.some.injEq] at isInet
        obtain ⟨number, -, size, -, rfl⟩ := isInet
        refine Address.IsUnbroken.networkOf ?_ size
        rintro _ ⟨⟩
      · simp only [network6?, Option.bind_eq_bind, Option.bind_eq_some_iff, Option.pure_def,
          Option.some.injEq] at isInet6
        obtain ⟨address, isAddress, size, -, rfl⟩ := isInet6
        exact (IPv6.isUnbroken_of_address? (part (isBody ▸ List.mem_cons_self ..))
          isAddress).networkOf size
  · simp at read

theorem newline_notMem_text {literal : Literal} (unbroken : literal.address.IsUnbroken) :
    '\n' ∉ literal.text := by
  cases literal with
  | host address => exact unbroken.text
  | network address length =>
      have isAddress : address.IsUnbroken := unbroken
      simp [Literal.text, isAddress.text, newline_notMem_toDigits]

end Literal

/-! ## Answers -/

/-- Neither the family nor the address has a line break. -/
def FamilyAddress.IsUnbroken (entry : FamilyAddress) : Prop :=
  Text.IsUnbroken entry.family ∧ Text.IsUnbroken entry.address

theorem Literal.isUnbroken_of_parse? {text : String} {entry : FamilyAddress}
    (unbroken : Text.IsUnbroken text) (read : Literal.parse? text = some entry) :
    entry.IsUnbroken := by
  obtain ⟨literal, isLiteral, rfl⟩ := Option.map_eq_some_iff.1 read
  refine ⟨literal.address.version.isUnbroken_family, ?_⟩
  · rw [Literal.familyAddress, Text.isUnbroken_ofList]
    exact newline_notMem_text (isUnbroken_of_ofText? unbroken isLiteral)

namespace HostBook

/-- The directory gives no address with a line break. -/
def IsUnbroken (book : HostBook) : Prop :=
  ∀ host entries, book.directory host = some entries → ∀ entry ∈ entries, entry.IsUnbroken

/-- An answer in order has no entry that was not given. -/
theorem subset_of_ordered? {entries ordered : List FamilyAddress}
    (isOrdered : ordered? entries = some ordered) : ordered ⊆ entries := by
  simp only [ordered?, Option.bind_eq_bind, Option.bind_eq_some_iff] at isOrdered
  obtain ⟨keyed, isKeyed, sorted⟩ := isOrdered
  split at sorted
  · obtain rfl := Option.some.inj sorted
    intro entry member
    obtain ⟨pair, isPair, rfl⟩ := List.mem_map.1 member
    obtain ⟨given, isGiven, isKey⟩ := exists_of_mem_mapM? isKeyed (List.mem_mergeSort.1 isPair)
    obtain ⟨_, -, rfl⟩ := Option.map_eq_some_iff.1 isKey
    exact List.mem_eraseDups.1 isGiven
  · simp at sorted

theorem IsUnbroken.answer {book : HostBook} {text : String} {entries : List FamilyAddress}
    (unbroken : book.IsUnbroken) (isText : Text.IsUnbroken text)
    (answers : book.answer text = .addresses entries) : ∀ entry ∈ entries, entry.IsUnbroken := by
  unfold HostBook.answer at answers
  split at answers
  · next literal isLiteral =>
      obtain rfl := Answer.addresses.inj answers
      simpa using Literal.isUnbroken_of_parse? isText isLiteral
  · split at answers
    · simp at answers
    · split at answers
      · simp at answers
      · next given isGiven =>
          split at answers
          · simp at answers
          · simp at answers
          · next list isOrdered =>
              obtain rfl := Answer.addresses.inj answers
              exact fun entry member =>
                unbroken text given isGiven entry (subset_of_ordered? isOrdered member)

end HostBook

/-! ## Masks -/

namespace Mask

theorem isUnbroken_inet (length : Int) : Text.IsUnbroken (inet length) := by
  refine isUnbroken_intercalate (by decide) fun part member => ?_
  obtain ⟨start, _, rfl⟩ := List.mem_map.1 member
  exact isUnbroken_natRepr _

theorem newline_notMem_nibbles (length : Nat) : '\n' ∉ nibbles length := by
  fun_induction nibbles length with
  | case1 => exact List.not_mem_nil
  | case2 length _ inductionHypothesis =>
      simp [(digitChar_ne_newline _).symm, inductionHypothesis]

theorem newline_notMem_of_mem_groups {digits group : List Char} (unbroken : '\n' ∉ digits)
    (member : group ∈ groups digits) : '\n' ∉ group := by
  fun_induction groups digits with
  | case1 => exact absurd member List.not_mem_nil
  | case2 digits _ inductionHypothesis =>
      rcases List.mem_cons.1 member with rfl | later
      · exact fun isBreak => unbroken (List.mem_of_mem_take isBreak)
      · exact inductionHypothesis (fun isBreak => unbroken (List.mem_of_mem_drop isBreak)) later

theorem isUnbroken_inet6 (length : Int) : Text.IsUnbroken (inet6 length) := by
  have digits : '\n' ∉ padded (nibbles length.toNat) := by
    simp [padded, newline_notMem_nibbles]
  unfold inet6
  extract_lets full parts
  have each : ∀ part ∈ parts, '\n' ∉ part := by
    unfold parts
    split
    · decide
    · exact fun part member => newline_notMem_of_mem_groups digits member
  have listed : Text.IsUnbroken (":".intercalate (parts.map String.ofList)) := by
    refine isUnbroken_intercalate (by decide) fun part member => ?_
    obtain ⟨group, isGroup, rfl⟩ := List.mem_map.1 member
    exact Text.isUnbroken_ofList.2 (each group isGroup)
  rw [Text.isUnbroken_append]
  refine ⟨listed, ?_⟩
  split <;> decide

theorem isUnbroken_ofFamily (family : String) (length : Int) :
    Text.IsUnbroken (ofFamily family length) := by
  unfold ofFamily
  split
  · exact isUnbroken_inet length
  · exact isUnbroken_inet6 length

end Mask

end FirewallPolicy
