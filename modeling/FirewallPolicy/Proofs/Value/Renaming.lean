import FirewallPolicy.Proofs.Value.Written

/-!
# Renaming log classes

The log classes that stand in values are known by serial numbers.  Where these are renamed, a value
is read and written as before: no view of a value looks at a serial number.
-/

namespace FirewallPolicy

/-! ## Changing the values of mappings -/

namespace Entries

variable {α β : Type}

/-- The mapping with each value changed. -/
def mapped (change : α → β) (entries : List (Scalar × α)) : List (Scalar × β) :=
  entries.map fun entry => (entry.1, change entry.2)

variable {change : α → β} {entries : List (Scalar × α)}

@[simp]
theorem keys_mapped : (mapped change entries).map (·.1) = entries.map (·.1) := by
  simp [mapped]

theorem mapped_id (entries : List (Scalar × α)) : mapped (fun value => value) entries = entries := by
  simp [mapped]

@[simp]
theorem get?_mapped (key : Scalar) :
    get? (mapped change entries) key = (get? entries key).map change := by
  simp only [get?, mapped, List.find?_map, Option.map_map]
  rfl

theorem insert_mapped (key : Scalar) (value : α) :
    insert (mapped change entries) key (change value) = mapped change (insert entries key value) := by
  induction entries with
  | nil => rfl
  | cons entry rest inductionHypothesis =>
      obtain ⟨known, old⟩ := entry
      unfold mapped at inductionHypothesis ⊢
      rw [List.map_cons, insert, insert]
      split
      · rfl
      · rw [inductionHypothesis, List.map_cons]

end Entries

namespace Named

variable {α β : Type}

/-- The things with each one changed. -/
def mapped (change : α → β) (entries : Named α) : Named β :=
  entries.map fun entry => (entry.1, change entry.2)

variable {change : α → β} {entries : Named α}

@[simp]
theorem lookup_mapped (name : String) :
    List.lookup name (mapped change entries) = (List.lookup name entries).map change := by
  induction entries with
  | nil => rfl
  | cons entry rest inductionHypothesis =>
      obtain ⟨known, value⟩ := entry
      unfold mapped at inductionHypothesis ⊢
      rw [List.map_cons, List.lookup_cons, List.lookup_cons, inductionHypothesis]
      cases name == known <;> rfl

theorem set_mapped (name : String) (value : α) :
    set (mapped change entries) name (change value) = mapped change (set entries name value) := by
  induction entries with
  | nil => rfl
  | cons entry rest inductionHypothesis =>
      obtain ⟨known, old⟩ := entry
      unfold mapped at inductionHypothesis ⊢
      rw [List.map_cons, set, set]
      split
      · rfl
      · rw [inductionHypothesis, List.map_cons]

theorem setAll_mapped (changes : Named α) :
    setAll (mapped change entries) (mapped change changes) = mapped change (setAll entries changes) := by
  induction changes generalizing entries with
  | nil => rfl
  | cons first rest inductionHypothesis =>
      change setAll (set (mapped change entries) first.1 (change first.2)) (mapped change rest) = _
      rw [set_mapped]
      exact inductionHypothesis

end Named

/-! ## Values -/

namespace Value

mutual

/-- The value with the serial numbers of log classes renamed. -/
def renamed (rename : Nat → Nat) : Value → Value
  | .scalar s => .scalar s
  | .list items => .list (renamedItems rename items)
  | .map entries => .map (renamedEntries rename entries)
  | .set members => .set members
  | .pair first second => .pair (renamed rename first) (renamed rename second)
  | .loop mark body => .loop mark (renamed rename body)
  | .again mark => .again mark
  | .log serial location key attributes =>
    .log (rename serial) location key (renamedFields rename attributes)

/-- The items of a list with the serial numbers of log classes renamed. -/
def renamedItems (rename : Nat → Nat) : List Value → List Value
  | [] => []
  | item :: rest => renamed rename item :: renamedItems rename rest

/-- The entries of a mapping with the serial numbers of log classes renamed. -/
def renamedEntries (rename : Nat → Nat) : List (Scalar × Value) → List (Scalar × Value)
  | [] => []
  | (key, value) :: rest => (key, renamed rename value) :: renamedEntries rename rest

/-- The attributes of a log class with the serial numbers of log classes renamed. -/
def renamedFields (rename : Nat → Nat) : List (String × Value) → List (String × Value)
  | [] => []
  | (name, value) :: rest => (name, renamed rename value) :: renamedFields rename rest

end

variable {rename : Nat → Nat}

@[simp]
theorem renamedItems_eq_map (items : List Value) :
    renamedItems rename items = items.map (renamed rename) := by
  induction items with
  | nil => rfl
  | cons item rest inductionHypothesis => rw [renamedItems, inductionHypothesis, List.map_cons]

@[simp]
theorem renamedEntries_eq_mapped (entries : Entries) :
    renamedEntries rename entries = Entries.mapped (renamed rename) entries := by
  induction entries with
  | nil => rfl
  | cons entry rest inductionHypothesis =>
      obtain ⟨key, value⟩ := entry
      rw [renamedEntries, inductionHypothesis]
      rfl

@[simp]
theorem renamedFields_eq_mapped (fields : Record) :
    renamedFields rename fields = Named.mapped (renamed rename) fields := by
  induction fields with
  | nil => rfl
  | cons field rest inductionHypothesis =>
      obtain ⟨name, value⟩ := field
      rw [renamedFields, inductionHypothesis]
      rfl

@[simp]
theorem renamed_scalar (s : Scalar) : renamed rename (.scalar s) = .scalar s := by
  rw [renamed]

@[simp]
theorem renamed_map (entries : Entries) :
    renamed rename (.map entries) = .map (Entries.mapped (renamed rename) entries) := by
  rw [renamed, renamedEntries_eq_mapped]

@[simp]
theorem renamed_list (items : List Value) :
    renamed rename (.list items) = .list (items.map (renamed rename)) := by
  rw [renamed, renamedItems_eq_map]

/-- A value that may be missing, in the place of which a scalar stands. -/
@[simp]
theorem getD_map_renamed (value : Option Value) (s : Scalar) :
    (value.map (renamed rename)).getD (.scalar s) = (value.getD (.scalar s)).renamed rename := by
  cases value <;> simp

/-! ### Values that stay as they are -/

mutual

theorem renamed_id (value : Value) : renamed id value = value := by
  match value with
  | .list items => rw [renamed, renamedItems_id items]
  | .map entries => rw [renamed, renamedEntries_id entries]
  | .pair first second => rw [renamed, renamed_id first, renamed_id second]
  | .loop mark body => rw [renamed, renamed_id body]
  | .log serial location key attributes =>
      rw [renamed, renamedFields_id attributes]
      rfl
  | .scalar s => rw [renamed]
  | .set members => rw [renamed]
  | .again mark => rw [renamed]

theorem renamedItems_id (items : List Value) : renamedItems id items = items := by
  match items with
  | [] => rfl
  | item :: rest => rw [renamedItems, renamed_id item, renamedItems_id rest]

theorem renamedEntries_id (entries : List (Scalar × Value)) :
    renamedEntries id entries = entries := by
  match entries with
  | [] => rfl
  | (key, value) :: rest => rw [renamedEntries, renamed_id value, renamedEntries_id rest]

theorem renamedFields_id (fields : List (String × Value)) : renamedFields id fields = fields := by
  match fields with
  | [] => rfl
  | (name, value) :: rest => rw [renamedFields, renamed_id value, renamedFields_id rest]

end

mutual

/-- A value that holds no log class stays as it is. -/
theorem renamed_of_isWritten (value : Value) (written : value.isWritten = true) :
    renamed rename value = value := by
  match value with
  | .list items =>
      rw [isWritten] at written
      rw [renamed, renamedItems_of_itemsWritten items written]
  | .map entries =>
      rw [isWritten] at written
      rw [renamed, renamedEntries_of_entriesWritten entries written]
  | .pair first second =>
      rw [isWritten, Bool.and_eq_true] at written
      rw [renamed, renamed_of_isWritten first written.1, renamed_of_isWritten second written.2]
  | .loop mark body =>
      rw [isWritten] at written
      rw [renamed, renamed_of_isWritten body written]
  | .log serial location key attributes => simp [isWritten] at written
  | .scalar s => rw [renamed]
  | .set members => rw [renamed]
  | .again mark => rw [renamed]

theorem renamedItems_of_itemsWritten (items : List Value) (written : itemsWritten items = true) :
    renamedItems rename items = items := by
  match items with
  | [] => rfl
  | item :: rest =>
      rw [itemsWritten, Bool.and_eq_true] at written
      rw [renamedItems, renamed_of_isWritten item written.1,
        renamedItems_of_itemsWritten rest written.2]

theorem renamedEntries_of_entriesWritten
    (entries : List (Scalar × Value)) (written : entriesWritten entries = true) :
    renamedEntries rename entries = entries := by
  match entries with
  | [] => rfl
  | (key, value) :: rest =>
      rw [entriesWritten, Bool.and_eq_true] at written
      rw [renamedEntries, renamed_of_isWritten value written.1,
        renamedEntries_of_entriesWritten rest written.2]

end

/-! ### Unfolding -/

mutual

theorem renamed_substitute (mark : Nat) (whole value : Value) :
    renamed rename (substitute mark whole value) =
      substitute mark (renamed rename whole) (renamed rename value) := by
  match value with
  | .list items =>
      rw [substitute, renamed, renamed, substitute, renamedItems_substitute mark whole items]
  | .map entries =>
      rw [substitute, renamed, renamed, substitute, renamedEntries_substitute mark whole entries]
  | .pair first second =>
      rw [substitute, renamed, renamed, substitute, renamed_substitute mark whole first,
        renamed_substitute mark whole second]
  | .loop other body =>
      rw [substitute, renamed, renamed, substitute, renamed_substitute mark whole body]
  | .again other =>
      rw [substitute, renamed, substitute]
      split
      · rfl
      · rw [renamed]
  | .scalar s => simp [substitute]
  | .set members => simp [substitute, renamed]
  | .log serial location key attributes => simp [substitute, renamed]

theorem renamedItems_substitute (mark : Nat) (whole : Value) (items : List Value) :
    renamedItems rename (substituteItems mark whole items) =
      substituteItems mark (renamed rename whole) (renamedItems rename items) := by
  match items with
  | [] => rfl
  | item :: rest =>
      rw [substituteItems, renamedItems, renamedItems, substituteItems,
        renamed_substitute mark whole item, renamedItems_substitute mark whole rest]

theorem renamedEntries_substitute (mark : Nat) (whole : Value) (entries : List (Scalar × Value)) :
    renamedEntries rename (substituteEntries mark whole entries) =
      substituteEntries mark (renamed rename whole) (renamedEntries rename entries) := by
  match entries with
  | [] => rfl
  | (key, value) :: rest =>
      rw [substituteEntries, renamedEntries, renamedEntries, substituteEntries,
        renamed_substitute mark whole value, renamedEntries_substitute mark whole rest]

end

@[simp]
theorem opened_renamed (value : Value) :
    (renamed rename value).opened = renamed rename value.opened := by
  cases value with
  | loop mark body =>
      change substitute mark (.loop mark (renamed rename body)) (renamed rename body) = _
      rw [opened, renamed_substitute, renamed]
  | _ => rfl

/-! ### Views -/

@[simp]
theorem isNull_renamed (value : Value) : (renamed rename value).isNull = value.isNull := by
  cases value <;> rfl

@[simp]
theorem isText_renamed (value : Value) (s : String) :
    (renamed rename value).isText s = value.isText s := by
  cases value <;> rfl

@[simp]
theorem isTruthy_renamed (value : Value) :
    (renamed rename value).isTruthy = value.isTruthy := by
  match value with
  | .list items => cases items <;> rfl
  | .map entries => cases entries <;> rfl
  | .loop mark body =>
      rw [renamed, isTruthy, isTruthy, isTruthy_renamed body]
  | .scalar _ | .set _ | .pair .. | .again _ | .log .. => rfl

@[simp]
theorem isHashable_renamed (value : Value) :
    (renamed rename value).isHashable = value.isHashable := by
  match value with
  | .pair first second =>
      rw [renamed, isHashable, isHashable, isHashable_renamed first, isHashable_renamed second]
  | .loop mark body =>
      rw [renamed, isHashable, isHashable, isHashable_renamed body]
  | .scalar _ | .set _ | .list _ | .map _ | .again _ | .log .. => rfl

@[simp]
theorem entries?_renamed (value : Value) :
    (renamed rename value).entries? = value.entries?.map (Entries.mapped (renamed rename)) := by
  unfold entries?
  rw [opened_renamed]
  cases value.opened <;> simp [renamed]

@[simp]
theorem toItems_renamed (value : Value) :
    (renamed rename value).toItems = value.toItems.map (renamed rename) := by
  unfold toItems
  rw [opened_renamed]
  cases value.opened with
  | scalar s => cases s <;> simp
  | _ => simp [renamed]

/-! ### Texts -/

theorem ellipsis_renamed (value : Value) : (renamed rename value).ellipsis = value.ellipsis := by
  cases value <;> rfl

mutual

theorem quotedWithin_renamed (loops : List (Nat × String)) (value : Value) :
    quotedWithin loops (renamed rename value) = quotedWithin loops value := by
  match value with
  | .list items => rw [renamed, quotedWithin, quotedWithin, quotedItems_renamed loops items]
  | .map entries => rw [renamed, quotedWithin, quotedWithin, quotedEntries_renamed loops entries]
  | .pair first second =>
      rw [renamed, quotedWithin, quotedWithin, quotedWithin_renamed loops first,
        quotedWithin_renamed loops second]
  | .loop mark body =>
      rw [renamed, quotedWithin, quotedWithin, ellipsis_renamed,
        quotedWithin_renamed ((mark, body.ellipsis) :: loops) body]
  | .log serial location key attributes => rw [renamed, quotedWithin, quotedWithin]
  | .scalar s => rw [renamed]
  | .set members => rw [renamed]
  | .again mark => rw [renamed]

theorem quotedItems_renamed (loops : List (Nat × String)) (items : List Value) :
    quotedItems loops (renamedItems rename items) = quotedItems loops items := by
  match items with
  | [] => rfl
  | item :: rest =>
      rw [renamedItems, quotedItems, quotedItems, quotedWithin_renamed loops item,
        quotedItems_renamed loops rest]

theorem quotedEntries_renamed (loops : List (Nat × String)) (entries : List (Scalar × Value)) :
    quotedEntries loops (renamedEntries rename entries) = quotedEntries loops entries := by
  match entries with
  | [] => rfl
  | (key, value) :: rest =>
      rw [renamedEntries, quotedEntries, quotedEntries, quotedWithin_renamed loops value,
        quotedEntries_renamed loops rest]

end

@[simp]
theorem written_renamed (value : Value) : (renamed rename value).written = value.written := by
  cases value with
  | scalar s => rw [renamed]
  | _ => exact quotedWithin_renamed [] _

@[simp]
theorem amountText_renamed (value : Value) :
    (renamed rename value).amountText = value.amountText := by
  have sameText := @written_renamed rename value
  cases value with
  | scalar s => rw [renamed]
  | _ => exact sameText

end Value

/-! ## Records -/

namespace Record

variable {rename : Nat → Nat}

/-- The attributes with the serial numbers of log classes renamed. -/
abbrev renamed (rename : Nat → Nat) (record : Record) : Record :=
  Named.mapped (Value.renamed rename) record

@[simp]
theorem get_renamed (record : Record) (name : String) :
    get (renamed rename record) name = (get record name).renamed rename := by
  rw [get, get, Named.lookup_mapped, Value.getD_map_renamed]

@[simp]
theorem has_renamed (record : Record) (name : String) :
    has (renamed rename record) name = has record name := by
  rw [has, has, get_renamed, Value.isNull_renamed]

@[simp]
theorem flag_renamed (record : Record) (name : String) :
    flag (renamed rename record) name = flag record name := by
  rw [flag, flag, get_renamed, Value.isTruthy_renamed]

theorem set_renamed (record : Record) (name : String) (value : Value) :
    set (renamed rename record) name (value.renamed rename) = renamed rename (set record name value) :=
  Named.set_mapped name value

theorem setDefault_renamed (record : Record) (name : String) (value : Value) :
    setDefault (renamed rename record) name (value.renamed rename) =
      renamed rename (setDefault record name value) := by
  unfold setDefault
  rw [Named.lookup_mapped, Option.isSome_map]
  split
  · rfl
  · exact set_renamed record name value

theorem set_renamed_scalar (record : Record) (name : String) (s : Scalar) :
    set (renamed rename record) name (.scalar s) = renamed rename (set record name (.scalar s)) := by
  rw [← set_renamed, Value.renamed_scalar]

theorem setDefault_renamed_scalar (record : Record) (name : String) (s : Scalar) :
    setDefault (renamed rename record) name (.scalar s) =
      renamed rename (setDefault record name (.scalar s)) := by
  rw [← setDefault_renamed, Value.renamed_scalar]

theorem toEntries_renamed (record : Record) :
    toEntries (renamed rename record) = Entries.mapped (Value.renamed rename) (toEntries record) := by
  simp [toEntries, Named.mapped, Entries.mapped]

theorem renamed_id (record : Record) : renamed id record = record := by
  rw [renamed, ← Value.renamedFields_eq_mapped, Value.renamedFields_id]

end Record

section Attributes

variable {rename : Nat → Nat}

@[simp]
theorem unknownKeys_renamed (allowed : List String) (entries : Entries) :
    unknownKeys allowed (Entries.mapped (Value.renamed rename) entries) =
      unknownKeys allowed entries := by
  simp only [unknownKeys, Entries.mapped, List.filter_map, List.map_map]
  rfl

@[simp]
theorem recordOf_renamed (entries : Entries) :
    recordOf (Entries.mapped (Value.renamed rename) entries) =
      Record.renamed rename (recordOf entries) := by
  simp only [recordOf, Entries.mapped, Named.mapped, List.filterMap_map, List.map_filterMap]
  refine congrArg (List.filterMap · entries) (funext fun entry => ?_)
  obtain ⟨key, value⟩ := entry
  cases key <;> rfl

end Attributes

end FirewallPolicy
