import FirewallPolicy.Proofs.Address.Notation
import FirewallPolicy.Proofs.Run.Outcome

/-!
# The normal form of literals

A text is a literal exactly when it is written as an address, or as an address and the length of a
prefix.  Its normal form is written so again and stands for itself, a network with all bits behind
the prefix cleared and the length in decimal digits.  Texts of one address or of one network have
one normal form, so rules cannot tell them apart.
-/

namespace FirewallPolicy

open Text Numeral

/-! ## Addresses -/

/-- The text is an IPv4 address, or an IPv6 address with or without the zone of its scope. -/
inductive Address.IsWritten : List Char → Address → Prop where
  | inet {cs : List Char} {number : Nat} :
      IPv4.IsWritten cs number → Address.IsWritten cs ⟨.v4, number, none⟩
  | inet6 {cs : List Char} {number : Nat} :
      IPv6.IsWritten cs number → Address.IsWritten cs ⟨.v6, number, none⟩
  | zoned {cs zone : List Char} {number : Nat} :
      IPv6.IsWritten cs number → zone ≠ [] → '%' ∉ zone → '/' ∉ zone →
      Address.IsWritten (cs ++ '%' :: zone) ⟨.v6, number, some zone⟩

theorem IPv6.address?_eq_some_iff {cs : List Char} {address : Address} :
    IPv6.address? cs = some address ↔ address.version = .v6 ∧ address.IsWritten cs := by
  constructor
  · intro read
    unfold IPv6.address? at read
    split at read
    · obtain ⟨number, isNumber, rfl⟩ := Option.map_eq_some_iff.1 read
      exact ⟨rfl, .inet6 (number?_eq_some_iff.1 isNumber)⟩
    · next body zone cut =>
        split at read
        · cases read
        · next named =>
            obtain ⟨number, isNumber, rfl⟩ := Option.map_eq_some_iff.1 read
            simp only [Bool.or_eq_true, List.isEmpty_iff, List.contains_iff_mem, not_or] at named
            rw [eq_append_of_cutAt? cut]
            exact ⟨rfl, .zoned (number?_eq_some_iff.1 isNumber) named.1.1 named.1.2 named.2⟩
  · rintro ⟨isInet6, written⟩
    cases written with
    | inet _ => cases isInet6
    | inet6 written =>
        have unscoped := written.notMem (c := '%') (by decide) (by decide) (by decide) (by decide)
        simp [IPv6.address?, cutAt?_of_notMem unscoped, number?_eq_some_iff.2 written]
    | zoned written named single within =>
        have unscoped := written.notMem (c := '%') (by decide) (by decide) (by decide) (by decide)
        simp [IPv6.address?, cutAt?_append unscoped, number?_eq_some_iff.2 written, named, single,
          within]

namespace Address

variable {cs : List Char} {address : Address}

theorem IsWritten.mem_colon (written : address.IsWritten cs) (isInet6 : address.version = .v6) :
    ':' ∈ cs := by
  cases written with
  | inet _ => cases isInet6
  | inet6 written => exact written.mem_colon
  | zoned written _ _ _ => exact List.mem_append_left _ written.mem_colon

theorem IsWritten.exists_inet
    (written : address.IsWritten cs) (isInet : address.version = .v4) :
    ∃ number, address = ⟨.v4, number, none⟩ ∧ IPv4.IsWritten cs number := by
  cases written with
  | inet written => exact ⟨_, rfl, written⟩
  | inet6 _ => cases isInet
  | zoned _ _ _ _ => cases isInet

theorem IsWritten.notMem_slash (written : address.IsWritten cs) : '/' ∉ cs := by
  cases written with
  | inet written => exact written.notMem (by decide) (by decide)
  | inet6 written => exact written.notMem (by decide) (by decide) (by decide) (by decide)
  | zoned written _ _ within =>
      simp [written.notMem (c := '/') (by decide) (by decide) (by decide) (by decide), within]

theorem IsWritten.lt (written : address.IsWritten cs) :
    address.number < 2 ^ address.version.bits := by
  cases written with
  | inet written => exact written.lt
  | inet6 written => exact written.lt
  | zoned written _ _ _ => exact written.lt

/-- No text is an address of both versions. -/
theorem IsWritten.number?_eq_none
    (written : address.IsWritten cs) (isInet6 : address.version = .v6) :
    IPv4.number? cs = none := by
  by_contra found
  obtain ⟨number, isNumber⟩ := Option.ne_none_iff_exists'.1 found
  have isInet := IPv4.number?_eq_some_iff.1 isNumber
  exact isInet.notMem (by decide) (by decide) (written.mem_colon isInet6)

theorem ofText?_eq_some_iff : ofText? cs = some address ↔ address.IsWritten cs := by
  unfold ofText?
  constructor
  · intro read
    split at read
    · next number isNumber =>
        obtain rfl := Option.some.inj read
        exact .inet (IPv4.number?_eq_some_iff.1 isNumber)
    · exact (IPv6.address?_eq_some_iff.1 read).2
  · intro written
    cases version : address.version with
    | v4 =>
        obtain ⟨number, rfl, isInet⟩ := written.exists_inet version
        rw [IPv4.number?_eq_some_iff.2 isInet]
    | v6 =>
        rw [written.number?_eq_none version]
        exact IPv6.address?_eq_some_iff.2 ⟨version, written⟩

end Address

/-! ## Prefix lengths -/

/-- The text is the length of a prefix: a number, zeros before it or not, or for IPv4 the mask of the
network or the mask of its hosts.  The two masks that could be either are masks of networks. -/
inductive IsPrefixLength : IPVersion → List Char → Nat → Prop where
  | number {version : IPVersion} {cs : List Char} {length : Nat} :
      cs.length ≤ maxNumeralLength → IsNumeral 10 cs length → length ≤ version.bits →
      IsPrefixLength version cs length
  | netmask {cs : List Char} {length : Nat} :
      length ≤ 32 → IPv4.IsWritten cs (2 ^ 32 - 2 ^ (32 - length)) → IsPrefixLength .v4 cs length
  | hostmask {cs : List Char} {length : Nat} :
      0 < length → length < 32 → IPv4.IsWritten cs (2 ^ (32 - length) - 1) →
      IsPrefixLength .v4 cs length

namespace IPv4

variable {cs : List Char} {mask length : Nat}

theorem lengthOfMask?_eq_some_iff :
    lengthOfMask? mask = some length ↔ length ≤ 32 ∧ mask = 2 ^ 32 - 2 ^ (32 - length) := by
  have sound {length : Nat} (found : lengthOfMask? mask = some length) :
      length ≤ 32 ∧ mask = 2 ^ 32 - 2 ^ (32 - length) := by
    have isLength := List.mem_range.1 (List.mem_of_find?_eq_some found)
    exact ⟨by omega, by simpa using List.find?_some found⟩
  refine ⟨sound, fun ⟨small, isMask⟩ => ?_⟩
  have isFound : (lengthOfMask? mask).isSome := by
    rw [lengthOfMask?, List.find?_isSome]
    exact ⟨length, List.mem_range.2 (by omega), by simpa using isMask⟩
  obtain ⟨other, found⟩ := Option.isSome_iff_exists.1 isFound
  obtain ⟨otherSmall, otherMask⟩ := sound found
  -- Masks of different lengths are different.
  have bound : 2 ^ (32 - length) ≤ 2 ^ 32 := Nat.pow_le_pow_right (by decide) (Nat.sub_le _ _)
  have otherBound : 2 ^ (32 - other) ≤ 2 ^ 32 := Nat.pow_le_pow_right (by decide) (Nat.sub_le _ _)
  have same : 2 ^ (32 - other) = 2 ^ (32 - length) := by omega
  have sameLength := Nat.pow_right_injective (le_refl 2) same
  rw [found, show other = length by omega]

/-- Only the masks without any zero or without any one could be masks of networks and of hosts. -/
theorem hostmask_ne_netmask {other : Nat} (positive : 0 < length) (proper : length < 32)
    (small : other ≤ 32) : 2 ^ (32 - length) - 1 ≠ 2 ^ 32 - 2 ^ (32 - other) := by
  intro same
  have even : 2 ^ (32 - length) = 2 * 2 ^ (31 - length) := by
    rw [← Nat.pow_succ']
    congr 1
    omega
  have bound : 2 ^ (31 - length) ≤ 2 ^ 30 := Nat.pow_le_pow_right (by decide) (by omega)
  rcases Nat.lt_or_eq_of_le small with isBelow | rfl
  · have otherEven : 2 ^ (32 - other) = 2 * 2 ^ (31 - other) := by
      rw [← Nat.pow_succ']
      congr 1
      omega
    have otherBound : 2 ^ (31 - other) ≤ 2 ^ 31 := Nat.pow_le_pow_right (by decide) (by omega)
    have otherPositive : 0 < 2 ^ (31 - length) := by positivity
    omega
  · omega

theorem IsWritten.upTo?_eq_none {number most : Nat} (written : IsWritten cs number) :
    upTo? most cs = none := by
  by_contra found
  obtain ⟨read, isNumber⟩ := Option.ne_none_iff_exists'.1 found
  obtain ⟨-, ⟨zeros, rfl⟩, -⟩ := upTo?_eq_some_iff.1 isNumber
  have point := written.mem_point
  simp [notMem_toDigits] at point

/-- A number is tried first, then the mask of a network, and the mask of hosts at last. -/
theorem prefixLength?_cases :
    prefixLength? cs = some length ↔ upTo? 32 cs = some length ∨
      upTo? 32 cs = none ∧ ∃ mask, number? cs = some mask ∧ (lengthOfMask? mask = some length ∨
        lengthOfMask? mask = none ∧ lengthOfMask? (2 ^ 32 - 1 - mask) = some length) := by
  unfold prefixLength?
  cases upTo? 32 cs with
  | some number => simp
  | none => simp [Option.bind_eq_some_iff, Option.or_eq_some_iff]

theorem isPrefixLength_of_prefixLength? (read : prefixLength? cs = some length) :
    IsPrefixLength .v4 cs length := by
  rcases prefixLength?_cases.1 read with
    isNumber | ⟨-, mask, isMask, netmask | ⟨noNetmask, hostmask⟩⟩
  · obtain ⟨short, isNumeral, small⟩ := upTo?_eq_some_iff.1 isNumber
    exact .number short isNumeral small
  · obtain ⟨small, rfl⟩ := lengthOfMask?_eq_some_iff.1 netmask
    exact .netmask small (number?_eq_some_iff.1 isMask)
  · have written := number?_eq_some_iff.1 isMask
    have isBelow := written.lt
    have positive : 0 < 2 ^ (32 - length) := by positivity
    have isBound : 2 ^ (32 - length) ≤ 2 ^ 32 :=
      Nat.pow_le_pow_right (by decide) (Nat.sub_le _ _)
    obtain ⟨small, inverted⟩ := lengthOfMask?_eq_some_iff.1 hostmask
    obtain rfl : mask = 2 ^ (32 - length) - 1 := by omega
    have isOther {other : Nat} (isOther : other ≤ 32) :
        2 ^ (32 - length) - 1 ≠ 2 ^ 32 - 2 ^ (32 - other) := by
      intro same
      rw [lengthOfMask?_eq_some_iff.2 ⟨isOther, same⟩] at noNetmask
      cases noNetmask
    -- The masks with zeros or ones alone are read as those of networks.
    refine .hostmask ?_ ?_ written
    · apply Nat.pos_of_ne_zero
      rintro rfl
      exact isOther (le_refl 32) rfl
    · apply Nat.lt_of_le_of_ne small
      rintro rfl
      exact isOther (Nat.zero_le 32) rfl

theorem prefixLength?_of_isPrefixLength (isLength : IsPrefixLength .v4 cs length) :
    prefixLength? cs = some length := by
  refine prefixLength?_cases.2 ?_
  cases isLength with
  | number short isNumeral small => exact .inl (upTo?_eq_some_iff.2 ⟨short, isNumeral, small⟩)
  | netmask small written =>
      exact .inr ⟨written.upTo?_eq_none, _, number?_eq_some_iff.2 written,
        .inl (lengthOfMask?_eq_some_iff.2 ⟨small, rfl⟩)⟩
  | hostmask positive proper written =>
      have isPositive : 0 < 2 ^ (32 - length) := by positivity
      have isBound : 2 ^ (32 - length) ≤ 2 ^ 32 :=
        Nat.pow_le_pow_right (by decide) (Nat.sub_le _ _)
      refine .inr ⟨written.upTo?_eq_none, _, number?_eq_some_iff.2 written, .inr ⟨?_, ?_⟩⟩
      · by_contra found
        obtain ⟨other, isOther⟩ := Option.ne_none_iff_exists'.1 found
        obtain ⟨small, same⟩ := lengthOfMask?_eq_some_iff.1 isOther
        exact hostmask_ne_netmask positive proper small same
      · exact lengthOfMask?_eq_some_iff.2 ⟨proper.le, by omega⟩

theorem prefixLength?_eq_some_iff :
    prefixLength? cs = some length ↔ IsPrefixLength .v4 cs length :=
  ⟨isPrefixLength_of_prefixLength?, prefixLength?_of_isPrefixLength⟩

end IPv4

theorem IsPrefixLength.notMem_slash {version : IPVersion} {cs : List Char} {length : Nat}
    (isLength : IsPrefixLength version cs length) : '/' ∉ cs := by
  cases isLength with
  | number _ isNumeral _ =>
      obtain ⟨zeros, rfl⟩ := isNumeral
      simp [notMem_toDigits]
  | netmask _ written => exact written.notMem (by decide) (by decide)
  | hostmask _ _ written => exact written.notMem (by decide) (by decide)

theorem IsPrefixLength.le {version : IPVersion} {cs : List Char} {length : Nat}
    (isLength : IsPrefixLength version cs length) : length ≤ version.bits := by
  cases isLength with
  | number _ _ small => exact small
  | netmask small _ => exact small
  | hostmask _ proper _ => exact proper.le

theorem isPrefixLength_inet6_iff {cs : List Char} {length : Nat} :
    IsPrefixLength .v6 cs length ↔ upTo? 128 cs = some length := by
  rw [upTo?_eq_some_iff]
  constructor
  · rintro ⟨short, isNumeral, small⟩
    exact ⟨short, isNumeral, small⟩
  · rintro ⟨short, isNumeral, small⟩
    exact .number short isNumeral small

/-! ## Literals -/

namespace Literal

/-- The text is an address, or an address and the length of a prefix with a slash between them. -/
inductive IsWritten : List Char → Literal → Prop where
  | host {cs : List Char} {address : Address} :
      address.IsWritten cs → IsWritten cs (.host address)
  | network {cs size : List Char} {address : Address} {length : Nat} :
      address.IsWritten cs → IsPrefixLength address.version size length →
      IsWritten (cs ++ '/' :: size) (.network address length)

/-- The literal that is read: a network with its host bits cleared. -/
def normal : Literal → Literal
  | host address => .host address
  | network address length => .network (address.networkOf length) length

variable {cs : List Char} {literal : Literal}

theorem network_eq_some_iff {size : List Char} :
    (network4? cs size).or (network6? cs size) = some literal ↔ ∃ (address : Address) (length : Nat),
      address.IsWritten cs ∧ IsPrefixLength address.version size length ∧
        .network (address.networkOf length) length = literal := by
  have inet : network4? cs size = some literal ↔ ∃ number, IPv4.IsWritten cs number ∧
      ∃ length, IsPrefixLength .v4 size length ∧
        .network (Address.networkOf ⟨.v4, number, none⟩ length) length = literal := by
    simp only [network4?, Option.bind_eq_bind, Option.bind_eq_some_iff,
      IPv4.number?_eq_some_iff, IPv4.prefixLength?_eq_some_iff, Option.pure_def,
      Option.some.injEq]
  have inet6 : network6? cs size = some literal ↔ ∃ address : Address,
      (address.version = .v6 ∧ address.IsWritten cs) ∧ ∃ length, IsPrefixLength .v6 size length ∧
        .network (address.networkOf length) length = literal := by
    simp only [network6?, Option.bind_eq_bind, Option.bind_eq_some_iff,
      IPv6.address?_eq_some_iff, ← isPrefixLength_inet6_iff, Option.pure_def,
      Option.some.injEq]
  constructor
  · intro read
    rcases Option.or_eq_some_iff.1 read with isInet | ⟨-, isInet6⟩
    · obtain ⟨number, written, length, isLength, isNetwork⟩ := inet.1 isInet
      exact ⟨_, length, .inet written, isLength, isNetwork⟩
    · obtain ⟨address, ⟨version, written⟩, length, isLength, isNetwork⟩ := inet6.1 isInet6
      exact ⟨address, length, written, version ▸ isLength, isNetwork⟩
  · rintro ⟨address, length, written, isLength, isNetwork⟩
    cases version : address.version with
    | v4 =>
        obtain ⟨number, rfl, isInet⟩ := written.exists_inet version
        rw [inet.2 ⟨number, isInet, length, isLength, isNetwork⟩, Option.some_or]
    | v6 =>
        have noInet : network4? cs size = none := by
          simp [network4?, written.number?_eq_none version]
        rw [noInet, Option.none_or]
        exact inet6.2 ⟨address, ⟨version, written⟩, length, version ▸ isLength, isNetwork⟩

theorem ofText?_eq_some_iff :
    ofText? cs = some literal ↔ ∃ given : Literal, given.IsWritten cs ∧ given.normal = literal := by
  unfold ofText?
  constructor
  · intro read
    rw [← joinWith_splitAt '/' cs]
    split at read
    · next body isSplit =>
        obtain ⟨address, isAddress, rfl⟩ := Option.map_eq_some_iff.1 read
        rw [isSplit]
        exact ⟨.host address, .host (Address.ofText?_eq_some_iff.1 isAddress), rfl⟩
    · next body size isSplit =>
        obtain ⟨address, length, written, isLength, rfl⟩ := network_eq_some_iff.1 read
        rw [isSplit]
        exact ⟨.network address length, .network written isLength, rfl⟩
    · cases read
  · rintro ⟨given, written, rfl⟩
    cases written with
    | host written =>
        rw [splitAt_of_notMem written.notMem_slash]
        simp [Address.ofText?_eq_some_iff.2 written, normal]
    | network written isLength =>
        rw [splitAt_append_cons, splitAt_of_notMem written.notMem_slash,
          splitAt_of_notMem isLength.notMem_slash]
        exact network_eq_some_iff.2 ⟨_, _, written, isLength, rfl⟩

end Literal

/-! ## Writing -/

theorem IPv4.isWritten_text {number : Nat} (small : number < 2 ^ 32) :
    IPv4.IsWritten (IPv4.text number) number := by
  have value := ofDigitValues_places 8 4 number
  rw [Nat.mod_eq_of_lt small] at value
  refine ⟨_, by simp, ?_, ?_, value.symm⟩
  · intro octet member
    obtain ⟨place, -, rfl⟩ := List.mem_map.1 member
    exact Nat.mod_lt _ (by decide)
  · rw [List.map_map]
    rfl

namespace IPv6

variable {groups : List Nat}

theorem areGroups_toDigits (small : ∀ group ∈ groups, group < groupSize) :
    List.Forall₂ IsGroup (groups.map (Nat.toDigits 16)) groups := by
  rw [List.forall₂_map_left_iff, List.forall₂_same]
  exact fun group member => isGroup_toDigits (small group member)

/-- The run, given by its start and its length, is made of zeros. -/
def IsZeroRun (groups : List Nat) (run : Nat × Nat) : Prop :=
  groups.take run.1 ++ List.replicate run.2 0 ++ groups.drop (run.1 + run.2) = groups

theorem isZeroRun_zeroRun (groups : List Nat) (start : Nat) :
    IsZeroRun groups (start, zeroRun (groups.drop start)) := by
  have areZeros : (groups.drop start).takeWhile (· == 0) =
      List.replicate (zeroRun (groups.drop start)) 0 := by
    apply List.eq_replicate_of_mem
    intro group member
    exact beq_iff_eq.1 (List.all_eq_true.1 List.all_takeWhile group member)
  have isRest : groups.drop (start + zeroRun (groups.drop start)) =
      (groups.drop start).dropWhile (· == 0) := by
    rw [← List.drop_drop]
    nth_rewrite 2 [← @List.takeWhile_append_dropWhile _ (· == 0) (groups.drop start)]
    exact List.drop_left
  unfold IsZeroRun
  dsimp only
  rw [isRest, ← areZeros, List.append_assoc, List.takeWhile_append_dropWhile,
    List.take_append_drop]

theorem isZeroRun_longestZeroRun (groups : List Nat) :
    IsZeroRun groups (longestZeroRun groups) := by
  have step (starts : List Nat) (best : Nat × Nat) (isRun : IsZeroRun groups best) :
      IsZeroRun groups (starts.foldl (fun best start =>
        let length := zeroRun (groups.drop start)
        if best.2 < length then (start, length) else best) best) := by
    induction starts generalizing best with
    | nil => exact isRun
    | cons start rest inductionHypothesis =>
        rw [List.foldl_cons]
        apply inductionHypothesis
        dsimp only
        split
        · exact isZeroRun_zeroRun groups start
        · exact isRun
  exact step _ _ (by simp [IsZeroRun])

theorem isWritten_text {number : Nat} (small : number < 2 ^ 128) : IsWritten (text number) number := by
  have value : ofDigitValues groupSize (groupsOf number) = number := by
    have places := ofDigitValues_places 16 8 number
    rw [Nat.mod_eq_of_lt small] at places
    exact places
  have areSmall : ∀ group ∈ groupsOf number, group < groupSize := by
    intro group member
    obtain ⟨shift, -, rfl⟩ := List.mem_map.1 member
    exact Nat.mod_lt _ (by decide)
  unfold text
  extract_lets groups run
  have isRun : IsZeroRun groups run := isZeroRun_longestZeroRun groups
  have eight : groups.length = 8 := rfl
  split
  · have length := congrArg List.length isRun
    simp only [List.length_append, List.length_replicate] at length
    have missing : 8 - ((groups.take run.1).length + (groups.drop (run.1 + run.2)).length) = run.2 := by
      omega
    have highSmall : ∀ group ∈ groups.take run.1, group < groupSize :=
      fun group member => areSmall group (List.mem_of_mem_take member)
    have lowSmall : ∀ group ∈ groups.drop (run.1 + run.2), group < groupSize :=
      fun group member => areSmall group (List.mem_of_mem_drop member)
    have written := IsWritten.gapped (areGroups_toDigits highSmall)
      (.plain (areGroups_toDigits lowSmall)) (by omega)
    rw [missing, isRun, value] at written
    simpa [colonText] using written
  · have written := IsWritten.full (.plain (areGroups_toDigits areSmall)) eight
    rwa [value] at written

end IPv6

/-! ## Networks -/

namespace Address

variable {cs : List Char} {address base : Address} {length : Nat}

/-- The number is one of the version, and only an IPv6 address has a zone, which a text can name. -/
structure IsProper (address : Address) : Prop where
  small : address.number < 2 ^ address.version.bits
  zoned : ∀ zone ∈ address.zone, address.version = .v6 ∧ zone ≠ [] ∧ '%' ∉ zone ∧ '/' ∉ zone

theorem IsWritten.isProper (written : address.IsWritten cs) : address.IsProper := by
  refine ⟨written.lt, ?_⟩
  cases written with
  | inet _ => simp
  | inet6 _ => simp
  | zoned _ named single within =>
      intro zone isZone
      obtain rfl := Option.some.inj isZone
      exact ⟨rfl, named, single, within⟩

theorem IsProper.isWritten_text (proper : address.IsProper) : address.IsWritten address.text := by
  obtain ⟨version, number, zone⟩ := address
  cases version with
  | v4 =>
      cases zone with
      | none => exact .inet (IPv4.isWritten_text proper.small)
      | some zone => cases (proper.zoned zone rfl).1
  | v6 =>
      have written := IPv6.isWritten_text proper.small
      cases zone with
      | none => exact .inet6 written
      | some zone =>
          obtain ⟨-, named, single, within⟩ := proper.zoned zone rfl
          exact .zoned written named single within

theorem networkOf_eq (address : Address) (length : Nat) :
    address.networkOf length = ⟨address.version, address.cleared length,
      if address.cleared length = address.number then address.zone else none⟩ := by
  unfold networkOf
  split
  · next kept => rw [kept]
  · rfl

theorem cleared_le (address : Address) (length : Nat) : address.cleared length ≤ address.number :=
  Nat.div_mul_le_self _ _

theorem testBit_cleared (address : Address) (length i : Nat) :
    (address.cleared length).testBit i =
      (decide (address.version.bits - length ≤ i) && address.number.testBit i) := by
  change (address.number / 2 ^ _ * 2 ^ _).testBit i = _
  rw [Nat.testBit_mul_two_pow, Nat.testBit_div_two_pow]
  by_cases isKept : address.version.bits - length ≤ i
  · rw [Nat.sub_add_cancel isKept]
  · simp [isKept]

theorem cleared_networkOf (address : Address) (length : Nat) :
    (address.networkOf length).cleared length = address.cleared length := by
  rw [networkOf_eq]
  change address.number / 2 ^ _ * 2 ^ _ / 2 ^ _ * 2 ^ _ = address.number / 2 ^ _ * 2 ^ _
  rw [Nat.mul_div_cancel _ (by positivity)]

@[simp]
theorem networkOf_networkOf (address : Address) (length : Nat) :
    (address.networkOf length).networkOf length = address.networkOf length := by
  have isCleared : (address.networkOf length).number = address.cleared length := by
    rw [networkOf_eq]
  rw [networkOf, cleared_networkOf, isCleared, if_pos rfl]

theorem IsProper.networkOf (proper : address.IsProper) (length : Nat) :
    (address.networkOf length).IsProper := by
  rw [networkOf_eq]
  refine ⟨(address.cleared_le length).trans_lt proper.small, ?_⟩
  intro zone isZone
  split at isZone
  · exact proper.zoned zone isZone
  · cases isZone

/-- The first address is the other one with all bits behind the prefix cleared.  The zone of an
address that had bits there is lost. -/
structure IsBaseOf (base address : Address) (length : Nat) : Prop where
  version : base.version = address.version
  bits : ∀ i, base.number.testBit i =
    (decide (address.version.bits - length ≤ i) && address.number.testBit i)
  zone : base.zone = if base.number = address.number then address.zone else none

theorem isBaseOf_iff : base.IsBaseOf address length ↔ base = address.networkOf length := by
  constructor
  · intro isBase
    have number : base.number = address.cleared length := by
      apply Nat.eq_of_testBit_eq
      intro i
      rw [isBase.bits, testBit_cleared]
    rw [networkOf_eq, ← number, ← isBase.zone, ← isBase.version]
  · rintro rfl
    rw [networkOf_eq]
    exact ⟨rfl, address.testBit_cleared length, rfl⟩

end Address

/-! ## Normal forms -/

namespace Literal

variable {cs others : List Char} {given literal : Literal} {text : String} {entry : FamilyAddress}

theorem isPrefixLength_toDigits {version : IPVersion} {length : Nat}
    (small : length ≤ version.bits) : IsPrefixLength version (Nat.toDigits 10 length) length := by
  refine .number ?_ (isNumeral_toDigits 10 length) small
  have isBelow : length < 10 ^ 3 := by
    apply small.trans_lt
    cases version <;> decide
  have short := (Nat.length_toDigits_le_iff (b := 10) (by decide) (by decide)).2 isBelow
  exact short.trans (by decide)

/-- The text is the address, or the base of the network and then the length of its prefix in decimal
digits. -/
inductive IsNormalForm : List Char → Literal → Prop where
  | host {cs : List Char} {address : Address} :
      address.IsWritten cs → IsNormalForm cs (.host address)
  | network {cs : List Char} {base address : Address} {length : Nat} :
      base.IsWritten cs → base.IsBaseOf address length →
      IsNormalForm (cs ++ '/' :: Nat.toDigits 10 length) (.network address length)

theorem normal_normal (given : Literal) : given.normal.normal = given.normal := by
  cases given with
  | host address => rfl
  | network address length => rw [normal, normal, Address.networkOf_networkOf]

theorem version_normal (given : Literal) :
    given.normal.address.version = given.address.version := by
  cases given with
  | host address => rfl
  | network given length => rw [normal, address, address, Address.networkOf_eq]

theorem IsWritten.isWritten_normal (written : given.IsWritten cs) :
    given.normal.IsWritten given.normal.text := by
  cases written with
  | host written => exact .host written.isProper.isWritten_text
  | @network _ _ address length written isLength =>
      have sameVersion : (address.networkOf length).version = address.version := by
        rw [Address.networkOf_eq]
      have small := isLength.le
      rw [← sameVersion] at small
      exact .network (written.isProper.networkOf length).isWritten_text
        (isPrefixLength_toDigits small)

theorem IsWritten.isNormalForm (written : given.IsWritten cs) :
    IsNormalForm given.normal.text given := by
  cases written with
  | host written => exact .host written.isProper.isWritten_text
  | network written isLength =>
      exact .network (written.isProper.networkOf _).isWritten_text (Address.isBaseOf_iff.2 rfl)

theorem IsWritten.mem_slash_iff (written : given.IsWritten cs) :
    '/' ∈ cs ↔ ∃ address length, given = .network address length := by
  cases written with
  | host written => simp [written.notMem_slash]
  | network _ _ => simp

theorem IsWritten.mem_slash_text_iff (written : given.IsWritten cs) :
    '/' ∈ given.normal.text ↔ '/' ∈ cs := by
  rw [written.isWritten_normal.mem_slash_iff, written.mem_slash_iff]
  cases given <;> simp [normal]

theorem ofText?_text (read : ofText? cs = some literal) :
    ofText? literal.text = some literal := by
  obtain ⟨given, written, rfl⟩ := ofText?_eq_some_iff.1 read
  exact ofText?_eq_some_iff.2 ⟨given.normal, written.isWritten_normal, given.normal_normal⟩

theorem parse?_eq_some_iff : parse? text = some entry ↔
    ∃ literal, ofText? text.toList = some literal ∧ literal.familyAddress = entry :=
  Option.map_eq_some_iff

/-- The family and the text of a literal tell which literal it is. -/
theorem parse?_eq_some_familyAddress_iff (read : ofText? cs = some literal) :
    parse? text = some literal.familyAddress ↔ ofText? text.toList = some literal := by
  rw [parse?_eq_some_iff]
  constructor
  · rintro ⟨other, otherRead, same⟩
    have sameText : other.text = literal.text := String.ofList_injective (congrArg (·.address) same)
    have again := ofText?_text otherRead
    rw [sameText, ofText?_text read] at again
    rw [otherRead, again]
  · intro isSame
    exact ⟨literal, isSame, rfl⟩

/-! ### Texts of one literal -/

/-- The texts are of the same address, or of networks with the same base and the same length. -/
inductive AreAlike : List Char → List Char → Prop where
  | host {cs others : List Char} {address : Address} :
      address.IsWritten cs → address.IsWritten others → AreAlike cs others
  | network {cs others size otherSize : List Char} {base address other : Address} {length : Nat} :
      address.IsWritten cs → IsPrefixLength address.version size length →
      other.IsWritten others → IsPrefixLength other.version otherSize length →
      base.IsBaseOf address length → base.IsBaseOf other length →
      AreAlike (cs ++ '/' :: size) (others ++ '/' :: otherSize)

theorem areAlike_iff :
    AreAlike cs others ↔ ∃ literal, ofText? cs = some literal ∧ ofText? others = some literal := by
  simp only [ofText?_eq_some_iff]
  constructor
  · intro alike
    cases alike with
    | host written otherWritten =>
        exact ⟨_, ⟨_, .host written, rfl⟩, ⟨_, .host otherWritten, rfl⟩⟩
    | network written isLength otherWritten otherLength isBase otherBase =>
        refine ⟨_, ⟨_, .network written isLength, rfl⟩, ⟨_, .network otherWritten otherLength, ?_⟩⟩
        rw [normal, normal, ← Address.isBaseOf_iff.1 isBase, ← Address.isBaseOf_iff.1 otherBase]
  · rintro ⟨_, ⟨given, written, rfl⟩, ⟨other, otherWritten, same⟩⟩
    cases written with
    | host written =>
        cases otherWritten with
        | host otherWritten =>
            obtain rfl := Literal.host.inj same
            exact .host written otherWritten
        | network _ _ => cases same
    | network written isLength =>
        cases otherWritten with
        | host _ => cases same
        | network otherWritten otherLength =>
            obtain ⟨sameBase, rfl⟩ := Literal.network.inj same
            exact .network written isLength otherWritten otherLength
              (Address.isBaseOf_iff.2 rfl) (Address.isBaseOf_iff.2 sameBase.symm)

end Literal

/-! ## Rules -/

namespace Run

theorem resolveHost_of_parse? {text : String} {entry : FamilyAddress}
    (read : Literal.parse? text = some entry) (location : String) :
    resolveHost location text = pure [entry] := by
  funext before
  rw [resolveHost_apply]
  simp [HostBook.answer, HostBook.noting, HostBook.isName, read, answering]

theorem gather_exchange {α β : Type} {results : α → Run (List β)} {given other : α}
    (same : results given = results other) (before after : List α) :
    gather results (before ++ given :: after) = gather results (before ++ other :: after) := by
  induction before with
  | nil => rw [List.nil_append, List.nil_append, gather, gather, same]
  | cons first rest inductionHypothesis =>
      rw [List.cons_append, List.cons_append, gather, gather, inductionHypothesis]

end Run

namespace Literal

/-- The text is a literal with the entry as its normal form, which it shares with the texts that are
alike and with no others. -/
structure HasNormalForm (text : String) (entry : FamilyAddress) : Prop where
  isLiteral : ∃ given : Literal, given.IsWritten text.toList
  family : ∀ given : Literal, given.IsWritten text.toList →
    entry.family = given.address.version.family
  normalForm : ∀ given : Literal, given.IsWritten text.toList →
    IsNormalForm entry.address.toList given
  slash : '/' ∈ entry.address.toList ↔ '/' ∈ text.toList
  again : parse? entry.address = some entry
  alike : ∀ other : String, parse? other = some entry ↔ AreAlike text.toList other.toList

theorem IsWritten.hasNormalForm {given : Literal} {text : String}
    (written : given.IsWritten text.toList) :
    HasNormalForm text given.normal.familyAddress := by
  have read := ofText?_eq_some_iff.2 ⟨given, written, rfl⟩
  have unique {other : Literal} (otherWritten : other.IsWritten text.toList) :
      other.normal = given.normal := by
    have otherRead := ofText?_eq_some_iff.2 ⟨other, otherWritten, rfl⟩
    rw [read] at otherRead
    exact (Option.some.inj otherRead).symm
  have address : given.normal.familyAddress.address.toList = given.normal.text :=
    String.toList_ofList
  constructor
  · exact ⟨given, written⟩
  · intro other otherWritten
    rw [← version_normal other, unique otherWritten]
    rfl
  · intro other otherWritten
    rw [address, ← unique otherWritten]
    exact otherWritten.isNormalForm
  · rw [address, written.mem_slash_text_iff]
  · rw [parse?_eq_some_familyAddress_iff read, address, ofText?_text read]
  · intro other
    rw [parse?_eq_some_familyAddress_iff read, areAlike_iff, read]
    simp

/-- A literal has one normal form: reading it gives it again, and the texts of the same address or
network are read alike, so that they match the same in rules. -/
theorem hasNormalForm_of_parse? {text : String} {entry : FamilyAddress}
    (read : parse? text = some entry) :
    HasNormalForm text entry ∧ ∀ other : String, AreAlike text.toList other.toList →
      ∀ location, Run.resolveHost location other = Run.resolveHost location text ∧
        ∀ option before after,
          Run.hostFragments location option (before ++ .text other :: after) =
            Run.hostFragments location option (before ++ .text text :: after) := by
  obtain ⟨literal, isLiteral, rfl⟩ := parse?_eq_some_iff.1 read
  obtain ⟨given, written, rfl⟩ := ofText?_eq_some_iff.1 isLiteral
  have hasNormalForm := written.hasNormalForm
  refine ⟨hasNormalForm, fun other alike location => ?_⟩
  have resolved : Run.resolveHost location other = Run.resolveHost location text := by
    rw [Run.resolveHost_of_parse? read,
      Run.resolveHost_of_parse? ((hasNormalForm.alike other).2 alike)]
  refine ⟨resolved, fun option before after => Run.gather_exchange ?_ before after⟩
  change Run.resolveHost location other >>= _ = Run.resolveHost location text >>= _
  rw [resolved]

/-- A host mask and a netmask of one length, on addresses of one network. -/
theorem hasNormalForm_masks :
    parse? "10.1.2.3/0.0.255.255" = some ⟨"inet", "10.1.0.0/16"⟩ ∧
      AreAlike "10.1.2.3/0.0.255.255".toList "10.1.77.0/255.255.0.0".toList ∧
      Run.resolveHost "zone office" "10.1.77.0/255.255.0.0" =
        Run.resolveHost "zone office" "10.1.2.3/0.0.255.255" := by
  have read : parse? "10.1.2.3/0.0.255.255" = some ⟨"inet", "10.1.0.0/16"⟩ := by decide
  obtain ⟨hasNormalForm, resolvesAlike⟩ := hasNormalForm_of_parse? read
  have alike := (hasNormalForm.alike "10.1.77.0/255.255.0.0").1 (by decide)
  exact ⟨read, alike, (resolvesAlike _ alike "zone office").1⟩

example : parse? "2001:DB8:0:0:01::192.0.2.1%eth0" =
    some ⟨"inet6", "2001:db8::1:0:c000:201%eth0"⟩ := by decide

end Literal

end FirewallPolicy
