import FirewallPolicy.Proofs.Policy.Options
import FirewallPolicy.Proofs.Run.Basic
import Mathlib.Data.List.TakeWhile

/-!
# Answers to options

Options are taken over, or they are refused with a message.  Two kinds of options are answered in
neither way: a count that is checked to be digits and then has no number to be read, and a value
that is refused with a message that cannot be written.
-/

namespace FirewallPolicy

/-! ## Digits that write no number -/

namespace Text

/-- The text passes for digits between blanks, and no number is read from it: one of the blanks
separates records, one of the digits has no place value, or there are too many of them. -/
structure IsMisread (s : String) : Prop where
  digits : isDigits (trim s) = true
  unread : (∃ c ∈ s.toList, isBlank c = true ∧ isMargin c = false) ∨
    (∃ c ∈ (trim s).toList, decimalValue? c = none) ∨ maxNumeralLength < (trim s).toList.length

theorem decimalValue?_of_not_isMargin
    {c : Char} (blank : isBlank c = true) (noMargin : isMargin c = false) :
    decimalValue? c = none := by
  have separates : 0x1c ≤ c.toNat ∧ c.toNat ≤ 0x1f := by simpa [isMargin, blank] using noMargin
  have above : ∀ start ∈ decimalZeros, 0x30 ≤ start := by decide
  rw [decimalValue?, Option.map_eq_none_iff, List.find?_eq_none]
  intro start member
  have := above start member
  simp only [Bool.and_eq_true, decide_eq_true_eq]
  omega

theorem mapM_decimalValue?_eq_none_iff {cs : List Char} :
    cs.mapM decimalValue? = none ↔ ∃ c ∈ cs, decimalValue? c = none := by
  induction cs with
  | nil => simp
  | cons c rest inductionHypothesis =>
      rw [List.exists_mem_cons_iff, ← inductionHypothesis, List.mapM_cons]
      cases decimalValue? c <;> cases rest.mapM decimalValue? <;> simp

/-- Only margins are taken away. -/
theorem mem_withoutMargins
    {cs : List Char} {c : Char} (member : c ∈ cs) (noMargin : isMargin c = false) :
    c ∈ withoutMargins cs := by
  have kept {cs : List Char} (member : c ∈ cs) : c ∈ cs.dropWhile isMargin := by
    rw [← List.takeWhile_append_dropWhile (p := isMargin) (l := cs), List.mem_append] at member
    refine member.resolve_left fun dropped => ?_
    rw [List.mem_takeWhile_imp dropped] at noMargin
    cases noMargin
  rw [withoutMargins, List.mem_reverse]
  exact kept (List.mem_reverse.2 (kept member))

theorem withoutMargins_eq
    {cs : List Char} (margins : ∀ c ∈ cs, isBlank c = true → isMargin c = true) :
    withoutMargins cs = dropBlanksRight (cs.dropWhile isBlank) := by
  have same {cs : List Char} (margins : ∀ c ∈ cs, isBlank c = true → isMargin c = true) :
      cs.dropWhile isMargin = cs.dropWhile isBlank := by
    induction cs with
    | nil => rfl
    | cons c rest inductionHypothesis =>
        obtain ⟨first, others⟩ := List.forall_mem_cons.1 margins
        have sameFirst : isMargin c = isBlank c := by
          cases blank : isBlank c with
          | true => exact first blank
          | false => simp [isMargin, blank]
        rw [List.dropWhile_cons, List.dropWhile_cons, sameFirst, inductionHypothesis others]
  rw [withoutMargins, dropBlanksRight, same margins, same]
  exact fun c member => margins c ((List.dropWhile_sublist _).subset (List.mem_reverse.1 member))

/-- Of digits between blanks, a number is read unless they are misread. -/
theorem decimalNumber?_eq_none_iff {s : String} (digits : isDigits (trim s) = true) :
    decimalNumber? (withoutMargins s.toList) = none ↔ IsMisread s := by
  by_cases separated : ∃ c ∈ s.toList, isBlank c = true ∧ isMargin c = false
  · refine iff_of_true ?_ ⟨digits, Or.inl separated⟩
    obtain ⟨c, member, blank, noMargin⟩ := separated
    unfold decimalNumber?
    split
    · rfl
    · rw [Option.map_eq_none_iff, mapM_decimalValue?_eq_none_iff]
      exact ⟨c, mem_withoutMargins member noMargin, decimalValue?_of_not_isMargin blank noMargin⟩
  · -- Where every blank is a margin, the reader takes away what the check takes away.
    have trimmed : withoutMargins s.toList = (trim s).toList := by
      rw [trim, String.toList_ofList]
      refine withoutMargins_eq fun c member blank => ?_
      by_contra noMargin
      exact separated ⟨c, member, blank, Bool.eq_false_iff.2 noMargin⟩
    have nonempty : (trim s).toList.isEmpty = false := by
      rw [isDigits, Bool.and_eq_true, Bool.not_eq_true'] at digits
      exact digits.1
    have unread : IsMisread s ↔
        (∃ c ∈ (trim s).toList, decimalValue? c = none) ∨
          maxNumeralLength < (trim s).toList.length :=
      ⟨fun misread => misread.unread.resolve_left separated, fun unread => ⟨digits, Or.inr unread⟩⟩
    rw [unread, trimmed]
    simp only [decimalNumber?, nonempty, Bool.false_or, decide_eq_true_eq]
    split
    · next long => exact iff_of_true rfl (Or.inr long)
    · next short => rw [Option.map_eq_none_iff, mapM_decimalValue?_eq_none_iff, or_iff_left short]

end Text

/-! ## Values that cannot be shown -/

namespace Value

mutual

/-- Has every whole number in the value a text?  The collections around it are known by their
marks; in its own place, a collection is shown as dots. -/
def isShowableWithin (marks : List Nat) : Value → Bool
  | .scalar s => s.isShowable
  | .list items => itemsShowable marks items
  | .map entries => entriesShowable marks entries
  | .set members => members.all Scalar.isShowable
  | .pair first second => first.isShowableWithin marks && second.isShowableWithin marks
  | .loop mark body => marks.contains mark || body.isShowableWithin (mark :: marks)
  | .again _ => true
  | .log .. => true

/-- Has every whole number in the items a text? -/
def itemsShowable (marks : List Nat) : List Value → Bool
  | [] => true
  | item :: rest => item.isShowableWithin marks && itemsShowable marks rest

/-- Has every whole number in the entries a text? -/
def entriesShowable (marks : List Nat) : List (Scalar × Value) → Bool
  | [] => true
  | (key, value) :: rest =>
    key.isShowable && value.isShowableWithin marks && entriesShowable marks rest

end

/-- Has every whole number in the value a text? -/
def isShowable (value : Value) : Bool :=
  value.isShowableWithin []

end Value

/-- The text shows a gap. -/
def Text.HasGap (text : String) : Prop :=
  gap.toList <:+: text.toList

namespace Text

theorem HasGap.append_left {text : String} (hasGap : HasGap text) (before : String) :
    HasGap (before ++ text) := by
  rw [HasGap, String.toList_append]
  exact hasGap.trans (List.suffix_append ..).isInfix

theorem HasGap.append_right {text : String} (hasGap : HasGap text) (after : String) :
    HasGap (text ++ after) := by
  rw [HasGap, String.toList_append]
  exact hasGap.trans (List.prefix_append ..).isInfix

theorem HasGap.intercalate
    {part : String} {parts : List String} (hasGap : HasGap part) (member : part ∈ parts)
    (separator : String) : HasGap (separator.intercalate parts) := by
  induction parts with
  | nil => cases member
  | cons first rest inductionHypothesis =>
      cases rest with
      | nil =>
          obtain rfl := List.mem_singleton.1 member
          simpa using hasGap
      | cons second others =>
          rw [String.intercalate_cons_cons]
          rcases List.mem_cons.1 member with rfl | later
          · exact (hasGap.append_right _).append_right _
          · exact (inductionHypothesis later).append_left _

end Text

theorem Scalar.hasGap_quoted {s : Scalar} (unshown : s.isShowable = false) :
    Text.HasGap s.quoted := by
  cases s with
  | int i =>
      have same : (Scalar.int i).quoted = Text.gap := if_neg (Bool.eq_false_iff.1 unshown)
      rw [same]
      exact List.infix_refl _
  | _ => cases unshown

namespace Value

mutual

/-- A whole number that has no text leaves a gap in the text of the value around it. -/
theorem hasGap_quotedWithin
    (loops : List (Nat × String)) (value : Value)
    (unshown : value.isShowableWithin (loops.map (·.1)) = false) :
    Text.HasGap (quotedWithin loops value) := by
  match value with
  | .scalar s =>
      rw [quotedWithin]
      rw [isShowableWithin] at unshown
      exact Scalar.hasGap_quoted unshown
  | .list items =>
      rw [isShowableWithin] at unshown
      obtain ⟨part, member, hasGap⟩ := exists_hasGap_quotedItems loops items unshown
      rw [quotedWithin]
      exact ((hasGap.intercalate member _).append_left _).append_right _
  | .map entries =>
      rw [isShowableWithin] at unshown
      obtain ⟨part, member, hasGap⟩ := exists_hasGap_quotedEntries loops entries unshown
      rw [quotedWithin]
      exact ((hasGap.intercalate member _).append_left _).append_right _
  | .set members =>
      rw [isShowableWithin, List.all_eq_false] at unshown
      obtain ⟨s, member, isUnshown⟩ := unshown
      have hasGap := Scalar.hasGap_quoted (Bool.eq_false_iff.2 isUnshown)
      have nonempty : members.isEmpty = false := by
        cases members with
        | nil => cases member
        | cons => rfl
      rw [quotedWithin, quotedMembers, nonempty]
      exact ((hasGap.intercalate (List.mem_map_of_mem member) _).append_left _).append_right _
  | .pair first second =>
      rw [isShowableWithin, Bool.and_eq_false_iff] at unshown
      rw [quotedWithin]
      rcases unshown with isFirst | isSecond
      · exact (((hasGap_quotedWithin loops first isFirst).append_left _).append_right _
          |>.append_right _).append_right _
      · exact ((hasGap_quotedWithin loops second isSecond).append_left _).append_right _
  | .loop mark body =>
      rw [isShowableWithin, Bool.or_eq_false_iff] at unshown
      -- The collection is not one around it, so what it holds is shown.
      have absent : loops.lookup mark = none := by
        have isNew : mark ∉ loops.map (·.1) := by simpa using unshown.1
        refine List.lookup_eq_none_iff.2 fun loop member => ?_
        rw [bne_iff_ne]
        exact fun same => isNew (List.mem_map.2 ⟨loop, member, same.symm⟩)
      rw [quotedWithin, absent]
      exact hasGap_quotedWithin ((mark, body.ellipsis) :: loops) body unshown.2
  | .again _ =>
      rw [isShowableWithin] at unshown
      cases unshown
  | .log .. =>
      rw [isShowableWithin] at unshown
      cases unshown

theorem exists_hasGap_quotedItems
    (loops : List (Nat × String)) (items : List Value)
    (unshown : itemsShowable (loops.map (·.1)) items = false) :
    ∃ part ∈ quotedItems loops items, Text.HasGap part := by
  match items with
  | [] =>
      rw [itemsShowable] at unshown
      cases unshown
  | item :: rest =>
      rw [itemsShowable, Bool.and_eq_false_iff] at unshown
      rw [quotedItems, List.exists_mem_cons_iff]
      exact unshown.imp (hasGap_quotedWithin loops item) (exists_hasGap_quotedItems loops rest)

theorem exists_hasGap_quotedEntries
    (loops : List (Nat × String)) (entries : List (Scalar × Value))
    (unshown : entriesShowable (loops.map (·.1)) entries = false) :
    ∃ part ∈ quotedEntries loops entries, Text.HasGap part := by
  match entries with
  | [] =>
      rw [entriesShowable] at unshown
      cases unshown
  | (key, value) :: rest =>
      rw [entriesShowable, Bool.and_eq_false_iff, Bool.and_eq_false_iff] at unshown
      rw [quotedEntries, List.exists_mem_cons_iff]
      refine unshown.imp ?_ (exists_hasGap_quotedEntries loops rest)
      rintro (isKey | isValue)
      · exact ((Scalar.hasGap_quoted isKey).append_right _).append_right _
      · exact (hasGap_quotedWithin loops value isValue).append_left _

end

theorem hasGap_quoted {value : Value} (unshown : value.isShowable = false) :
    Text.HasGap value.quoted :=
  hasGap_quotedWithin [] value unshown

end Value

/-! ## Options one by one -/

namespace Settings

variable {settings : Settings} {name : String} {value : Value} {option : Scalar × Value}
  {options : Entries}

/-- The kinds of values that options have. -/
inductive OptionKind where
  | family
  | count
  | text

/-- The kind of the option of that name. -/
def optionKind? : String → Option OptionKind
  | "ipv4" | "ipv6" => some .family
  | "recent_max_count" => some .count
  | "filter_chain_policy" | "log_mode" | "log_level" => some .text
  | _ => none

/-- An option of the kind may be set to the value: a family to a truth value or a word for one, a
count to a whole number or a numeral. -/
inductive OptionKind.Takes : OptionKind → Value → Prop
  | flag {value : Value} {enabled : Bool} (read : readFlag? value = some enabled) :
      family.Takes value
  | int (i : Int) : count.Takes (.int i)
  | numeral {s : String} (digits : Text.isDigits (Text.trim s) = true)
      (read : ¬ Text.IsMisread s) : count.Takes (.text s)
  | text (s : String) : text.Takes (.text s)

/-- The value passes for a count, and no number is read from it. -/
inductive OptionKind.Misreads : OptionKind → Value → Prop
  | digits {s : String} (misread : Text.IsMisread s) : count.Misreads (.text s)

/-- The option is refused with that failure. -/
inductive Refuses : String → Value → Failure → Prop
  | unknown {name : String} {value : Value} (isUnknown : optionKind? name = none) :
      Refuses name value (.fault "options" (.unknownOption name))
  | misread {name : String} {value : Value} {kind : OptionKind}
      (isKind : optionKind? name = some kind) (misread : kind.Misreads value) :
      Refuses name value .unusable
  | unfit {name : String} {value : Value} {kind : OptionKind}
      (isKind : optionKind? name = some kind) (unfit : ¬ kind.Takes value)
      (unread : ¬ kind.Misreads value) :
      Refuses name value (.fault "options" (.invalidOption name value))

/-- What may be set freely is set to a value of the kind that its default has. -/
structure IsTyped (settings : Settings) : Prop where
  recentMaxCount : ∃ i, settings.recentMaxCount = some (.int i)
  logMode : ∃ s, settings.logMode = .text s
  logLevel : ∃ s, settings.logLevel = .text s

/-- The value of an option is taken as one of its kind, or the option is refused, whatever was set
before. -/
inductive Assigns (settings : Settings) (name : String) (value : Value) : Prop
  | taken {kind : OptionKind} {next : Settings} (isKind : optionKind? name = some kind)
      (takes : kind.Takes value) (run : settings.assign name value = .ok next)
      (keeps : settings.IsTyped → next.IsTyped)
  | refused {failure : Failure} (refuses : Refuses name value failure)
      (run : settings.assign name value = .error failure)

theorem assigns_family
    {set : Bool → Settings} (isFamily : optionKind? name = some .family)
    (isAssigned : settings.assign name value =
      match readFlag? value with
      | some enabled => .ok (set enabled)
      | none => .error (.fault "options" (.invalidOption name value)))
    (keeps : ∀ enabled, settings.IsTyped → (set enabled).IsTyped) :
    settings.Assigns name value := by
  cases read : readFlag? value with
  | some enabled =>
      rw [read] at isAssigned
      exact .taken isFamily (.flag read) isAssigned (keeps enabled)
  | none =>
      rw [read] at isAssigned
      refine .refused (.unfit isFamily ?_ nofun) isAssigned
      rintro ⟨found⟩
      rw [read] at found
      cases found

theorem assigns_text
    {set : String → Settings} (isText : optionKind? name = some .text)
    (isAssigned : settings.assign name value =
      match value with
      | .text s => .ok (set s)
      | _ => .error (.fault "options" (.invalidOption name value)))
    (keeps : ∀ s, settings.IsTyped → (set s).IsTyped) :
    settings.Assigns name value := by
  split at isAssigned
  · next s => exact .taken isText (.text s) isAssigned (keeps s)
  · next noText =>
      refine .refused (.unfit isText (fun takes => ?_) nofun) isAssigned
      cases takes with
      | text s => exact noText s rfl

theorem assigns_count
    (isAssigned : settings.assign "recent_max_count" value =
      match value with
      | .int i => .ok { settings with recentMaxCount := some (.int i) }
      | .text s =>
        if Text.isDigits (Text.trim s) then
          match Text.decimalNumber? (Text.withoutMargins s.toList) with
          | some n => .ok { settings with recentMaxCount := some (.int n) }
          | none => .error .unusable
        else .error (.fault "options" (.invalidOption "recent_max_count" value))
      | _ => .error (.fault "options" (.invalidOption "recent_max_count" value))) :
    settings.Assigns "recent_max_count" value := by
  have isCount : optionKind? "recent_max_count" = some .count := rfl
  split at isAssigned
  · next i =>
      exact .taken isCount (.int i) isAssigned fun typed => ⟨⟨i, rfl⟩, typed.logMode, typed.logLevel⟩
  · next s =>
      split_ifs at isAssigned with digits
      · cases read : Text.decimalNumber? (Text.withoutMargins s.toList) with
        | some n =>
            rw [read] at isAssigned
            have numeral : ¬ Text.IsMisread s := fun misread => by
              rw [(Text.decimalNumber?_eq_none_iff digits).2 misread] at read
              cases read
            exact .taken isCount (.numeral digits numeral) isAssigned fun typed =>
              ⟨⟨n, rfl⟩, typed.logMode, typed.logLevel⟩
        | none =>
            rw [read] at isAssigned
            have misread := (Text.decimalNumber?_eq_none_iff digits).1 read
            exact .refused (.misread isCount (.digits misread)) isAssigned
      · refine .refused (.unfit isCount ?_ ?_) isAssigned
        · rintro (_ | _ | ⟨isDigits, -⟩)
          exact digits isDigits
        · rintro ⟨misread⟩
          exact digits misread.digits
  · next noInt noText =>
      refine .refused (.unfit isCount ?_ ?_) isAssigned
      · rintro (_ | i | _)
        · exact noInt i rfl
        · exact noText _ rfl
      · rintro ⟨_⟩
        exact noText _ rfl

theorem assigns (settings : Settings) (name : String) (value : Value) :
    settings.Assigns name value := by
  cases isKind : optionKind? name with
  | none =>
      refine .refused (.unknown isKind) ?_
      unfold assign
      dsimp only
      split
      iterate 6 · cases isKind
      · rfl
  | some kind =>
      unfold optionKind? at isKind
      split at isKind
      · exact assigns_family rfl rfl fun _ typed => ⟨typed.recentMaxCount, typed.logMode, typed.logLevel⟩
      · exact assigns_family rfl rfl fun _ typed => ⟨typed.recentMaxCount, typed.logMode, typed.logLevel⟩
      · exact assigns_count rfl
      · exact assigns_text rfl rfl fun _ typed => ⟨typed.recentMaxCount, typed.logMode, typed.logLevel⟩
      · exact assigns_text rfl rfl fun s typed => ⟨typed.recentMaxCount, ⟨s, rfl⟩, typed.logLevel⟩
      · exact assigns_text rfl rfl fun s typed => ⟨typed.recentMaxCount, typed.logMode, ⟨s, rfl⟩⟩
      · cases isKind

/-! ## All options -/

/-- The option is known and may be set to its value. -/
inductive Fits : Scalar × Value → Prop
  | taken {name : String} {value : Value} {kind : OptionKind}
      (isKind : optionKind? name = some kind) (takes : kind.Takes value) : Fits (.text name, value)

/-- The option is one that cannot be answered: a count is misread, or it does not fit, or is not
known, and the message that says so cannot be written.  Names that are written as texts have no
gaps. -/
inductive IsMute : Scalar × Value → Prop
  | misread {name : String} {value : Value} {kind : OptionKind}
      (isKind : optionKind? name = some kind) (misread : kind.Misreads value) :
      IsMute (.text name, value)
  | unshown {name : String} {value : Value} {kind : OptionKind}
      (isKind : optionKind? name = some kind) (unfit : ¬ kind.Takes value)
      (unshown : value.isShowable = false) : IsMute (.text name, value)
  | unnamed {name : String} {value : Value} (isUnknown : optionKind? name = none)
      (hasGap : Text.HasGap name) : IsMute (.text name, value)

/-- Options are refused for that cause, and its message can be written. -/
def IsTold : Cause → Prop
  | .unknownOption name => ¬ Text.HasGap name
  | .invalidOption _ value => value.isShowable = true
  | .noFamily => True
  | _ => False

/-- The options give settings of the declared kinds with a family enabled, or they are refused as
options with a message. -/
inductive IsAnswered (options : Entries) : Prop
  | taken {settings : Settings} (run : ofOptions options = .ok settings) (typed : settings.IsTyped)
      (enabled : settings.families ≠ [])
  | refused {cause : Cause} (run : ofOptions options = .error (.fault "options" cause))
      (told : IsTold cause)

theorem OptionKind.Misreads.not_takes
    {kind : OptionKind} (misreads : kind.Misreads value) : ¬ kind.Takes value := by
  rintro takes
  cases misreads with
  | digits misread =>
      cases takes with
      | numeral digits read => exact read misread

theorem Refuses.not_fits {failure : Failure} (refuses : Refuses name value failure) :
    ¬ Fits (.text name, value) := by
  rintro ⟨isKind, takes⟩
  cases refuses with
  | unknown isUnknown =>
      rw [isUnknown] at isKind
      cases isKind
  | misread isOther misread =>
      obtain rfl := Option.some.inj (isOther.symm.trans isKind)
      exact misread.not_takes takes
  | unfit isOther unfit _ =>
      obtain rfl := Option.some.inj (isOther.symm.trans isKind)
      exact unfit takes

/-- What refuses an option is a cause that can be told, unless the option is mute. -/
theorem Refuses.told_iff {failure : Failure} (refuses : Refuses name value failure) :
    (∃ cause, failure = .fault "options" cause ∧ IsTold cause) ↔ ¬ IsMute (.text name, value) := by
  cases refuses with
  | unknown isUnknown =>
      refine ⟨?_, fun notMute => ⟨_, rfl, fun hasGap => notMute (.unnamed isUnknown hasGap)⟩⟩
      rintro ⟨cause, same, told⟩ mute
      cases same
      cases mute with
      | misread isKind _ | unshown isKind _ _ =>
          rw [isUnknown] at isKind
          cases isKind
      | unnamed _ hasGap => exact told hasGap
  | misread isKind misread =>
      refine ⟨?_, fun notMute => absurd (.misread isKind misread) notMute⟩
      rintro ⟨cause, same, -⟩
      cases same
  | unfit isKind unfit unread =>
      refine ⟨?_, fun notMute => ⟨_, rfl, ?_⟩⟩
      · rintro ⟨cause, same, told⟩ mute
        cases same
        cases mute with
        | misread isOther misread =>
            obtain rfl := Option.some.inj (isOther.symm.trans isKind)
            exact unread misread
        | unshown _ _ unshown =>
            rw [show value.isShowable = true from told] at unshown
            cases unshown
        | unnamed isUnknown _ =>
            rw [isUnknown] at isKind
            cases isKind
      · show value.isShowable = true
        by_contra unshown
        exact notMute (.unshown isKind unfit (Bool.eq_false_iff.2 unshown))

/-- Options that fit are set one after the other. -/
theorem exists_assignAll_of_fits
    (fits : ∀ option ∈ options, Fits option) (typed : settings.IsTyped) :
    ∃ next, assignAll settings options = .ok next ∧ next.IsTyped := by
  unfold assignAll
  induction options generalizing settings with
  | nil => exact ⟨settings, rfl, typed⟩
  | cons option rest inductionHypothesis =>
      obtain ⟨fitsFirst, fitsRest⟩ := List.forall_mem_cons.1 fits
      cases fitsFirst with
      | @taken name value _ isKind takes =>
          cases settings.assigns name value with
          | taken _ _ run keeps =>
              rw [List.foldlM_cons, Scalar.written, run]
              exact inductionHypothesis fitsRest (keeps typed)
          | refused refuses _ => exact absurd (.taken isKind takes) refuses.not_fits

theorem isTyped_default : ({} : Settings).IsTyped :=
  ⟨⟨20, rfl⟩, ⟨"log", rfl⟩, ⟨"", rfl⟩⟩

/-- The first option that does not fit decides why options are refused. -/
theorem exists_refuses_of_ofOptions
    {before after : Entries} (isFirst : migrate options = before ++ (.text name, value) :: after)
    (fits : ∀ earlier ∈ before, Fits earlier) (unfit : ¬ Fits (.text name, value)) :
    ∃ failure, Refuses name value failure ∧ ofOptions options = .error failure := by
  obtain ⟨middle, isMiddle, -⟩ := exists_assignAll_of_fits fits isTyped_default
  cases middle.assigns name value with
  | taken isKind takes _ _ => exact absurd (.taken isKind takes) unfit
  | @refused failure refuses run =>
      refine ⟨failure, refuses, ?_⟩
      have refused : assignAll middle ((.text name, value) :: after) = .error failure := by
        rw [assignAll, List.foldlM_cons, Scalar.written, run]
        rfl
      have answer : assignAll {} (migrate options) = .error failure := by
        unfold assignAll at isMiddle refused ⊢
        rw [isFirst, List.foldlM_append, isMiddle]
        exact refused
      rw [ofOptions, answer]
      rfl

theorem isAnswered_of_fits (fits : ∀ option ∈ migrate options, Fits option) :
    IsAnswered options := by
  obtain ⟨settings, run, typed⟩ := exists_assignAll_of_fits fits isTyped_default
  have answer : ofOptions options =
      if settings.families.isEmpty then .error (.fault "options" .noFamily) else .ok settings := by
    rw [ofOptions, run]
    rfl
  split_ifs at answer with none
  · exact .refused answer trivial
  · exact .taken answer typed fun same => none (List.isEmpty_iff.2 same)

theorem IsMute.not_fits (mute : IsMute option) : ¬ Fits option := by
  rintro ⟨isKind, takes⟩
  cases mute with
  | misread isOther misread =>
      obtain rfl := Option.some.inj (isOther.symm.trans isKind)
      exact misread.not_takes takes
  | unshown isOther unfit _ =>
      obtain rfl := Option.some.inj (isOther.symm.trans isKind)
      exact unfit takes
  | unnamed isUnknown _ =>
      rw [isUnknown] at isKind
      cases isKind

/-- Of options that do not all fit, one is the first that does not. -/
theorem exists_first_unfit (unfit : ¬ ∀ option ∈ options, Fits option) :
    ∃ before option after, options = before ++ option :: after ∧
      (∀ earlier ∈ before, Fits earlier) ∧ ¬ Fits option := by
  induction options with
  | nil => exact absurd nofun unfit
  | cons option rest inductionHypothesis =>
      by_cases fits : Fits option
      · have unfitRest : ¬ ∀ other ∈ rest, Fits other := fun fitsRest =>
          unfit (List.forall_mem_cons.2 ⟨fits, fitsRest⟩)
        obtain ⟨before, first, after, rfl, fitsBefore, unfitFirst⟩ := inductionHypothesis unfitRest
        exact ⟨option :: before, first, after, rfl, List.forall_mem_cons.2 ⟨fits, fitsBefore⟩,
          unfitFirst⟩
      · exact ⟨[], option, rest, rfl, nofun, fits⟩

/-- Options are answered, unless the first of them that does not fit is mute. -/
theorem isAnswered_iff :
    IsAnswered options ↔
      ∀ before option after, migrate options = before ++ option :: after →
        (∀ earlier ∈ before, Fits earlier) → ¬ IsMute option := by
  constructor
  · intro answered before option after isFirst fits mute
    obtain ⟨name, value, rfl⟩ : ∃ name value, option = (.text name, value) := by
      cases mute <;> exact ⟨_, _, rfl⟩
    obtain ⟨failure, refuses, run⟩ := exists_refuses_of_ofOptions isFirst fits mute.not_fits
    cases answered with
    | taken answer _ _ =>
        rw [run] at answer
        cases answer
    | refused answer told =>
        obtain rfl := Except.error.inj (run.symm.trans answer)
        exact refuses.told_iff.1 ⟨_, rfl, told⟩ mute
  · intro notMute
    by_cases fits : ∀ option ∈ migrate options, Fits option
    · exact isAnswered_of_fits fits
    · obtain ⟨before, ⟨key, value⟩, after, isFirst, fitsBefore, unfit⟩ := exists_first_unfit fits
      obtain ⟨name, rfl⟩ : ∃ name, key = .text name :=
        (areNamed_migrate options).textual (key, value) (by simp [isFirst])
      obtain ⟨failure, refuses, run⟩ := exists_refuses_of_ofOptions isFirst fitsBefore unfit
      obtain ⟨cause, rfl, told⟩ := refuses.told_iff.2 (notMute _ _ _ isFirst fitsBefore)
      exact .refused run told

/-- A superscript digit is a digit, but writes no number. -/
theorem not_isAnswered_of_superscript :
    ¬ IsAnswered [(.text "recent_max_count", .text "²")] := by
  have run : ofOptions [(.text "recent_max_count", .text "²")] = .error .unusable := by
    rfl
  intro answered
  cases answered with
  | taken answer _ _ =>
      rw [run] at answer
      cases answer
  | refused answer _ =>
      rw [run] at answer
      cases answer

end Settings

end FirewallPolicy
