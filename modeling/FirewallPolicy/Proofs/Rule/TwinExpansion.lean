import FirewallPolicy.Proofs.Rule.TwinActions

/-!
# Expanding rules in twin contexts

In twin contexts a rule expands, with all rules that are derived from it, to the same fragments, of
which those of the kept families are left.
-/

namespace FirewallPolicy.Rule

open Stateful Run Context Fragment

variable {rename : Nat → Nat} {keep : String → Bool} {rule : Rule}
  {expand : Rule → Run (List Fragment)}

/-! ## Deriving rules -/

/-- The expansion gives the same fragments in twin contexts, of which those of the kept families are
left. -/
def ExpandsAlike (rename : Nat → Nat) (keep : String → Bool) (expand : Rule → Run (List Fragment)) :
    Prop :=
  ∀ rule : Rule, rule.IsSteady keep →
    Lockstep (Twin rename keep) (Becomes (narrow keep)) (expand rule) (expand (rule.renamed rename))

/-- A derived rule has no limits. -/
theorem isSteady_of_declare
    {source : Record} {derivation : Derivation} (plain : derivation.IsPlain) {kind : RuleKind}
    {location : String} {derived : Rule} {before after : Context}
    (run : Rule.declare kind location
      (.raw (.map (Record.toEntries (derivedAttributes source derivation)))) before =
        (.ok derived, after)) :
    derived.IsSteady keep := by
  refine .inr fun _ => limitsSingly_of_declare ?_ rfl run
  rw [recordOf_toEntries]
  intro name isLimit stated
  rw [plain.has_eq_false isLimit] at stated
  exact absurd stated Bool.false_ne_true

theorem lockstep_derive
    (alike : ExpandsAlike rename keep expand) (source : Record) {derivation : Derivation}
    (plain : derivation.IsPlain) :
    Lockstep (Twin rename keep) (Becomes (narrow keep)) (derive expand rule source derivation)
      (derive expand (rule.renamed rename) (source.renamed rename) (derivation.renamed rename)) := by
  intro first second fragments after twin run
  obtain ⟨kind, derived, middle, isKind, declares, expands⟩ := derive_eq_ok run
  obtain ⟨_, otherMiddle, otherDeclares, rfl, middleTwin⟩ :=
    lockstep_declare kind _ _ _ _ _ _ twin declares
  obtain ⟨_, otherAfter, otherExpands, rfl, afterTwin⟩ :=
    alike derived (isSteady_of_declare plain declares) _ _ _ _ middleTwin expands
  refine ⟨_, otherAfter, ?_, rfl, afterTwin⟩
  rw [Entry.renamed, Value.renamed_map, ← Record.toEntries_renamed, ← derivedAttributes_renamed]
    at otherDeclares
  have isOtherKind : (derivation.renamed rename).kind = .rule kind := isKind
  unfold derive
  rw [isOtherKind]
  exact bind_eq_ok.2 ⟨_, otherMiddle, bind_eq_ok.2 ⟨_, _, otherDeclares, rfl⟩, otherExpands⟩

theorem lockstep_derive_of_names
    (alike : ExpandsAlike rename keep expand) (source : Record) {derivation : Derivation}
    (named : ∀ change ∈ derivation.changes, change.1 ∈ plainNames) :
    Lockstep (Twin rename keep) (Becomes (narrow keep)) (derive expand rule source derivation)
      (derive expand (rule.renamed rename) (source.renamed rename) (derivation.renamed rename)) :=
  lockstep_derive alike source (Derivation.isPlain_of_names named)

theorem lockstep_sectionKind (name : String) :
    Lockstep (Twin rename keep) Eq (rule.sectionKind name)
      ((rule.renamed rename).sectionKind name) := by
  refine lockstep_get_bind fun first second twin => ?_
  have sameKind : second.sectionKind? name = first.sectionKind? name := by
    unfold sectionKind?
    rw [twin.sections]
  rw [sameKind]
  split
  · exact lockstep_pure rfl
  · exact lockstep_report

/-! ## What filter rules derive -/

theorem lockstep_updateFragments (alike : ExpandsAlike rename keep expand) :
    Lockstep (Twin rename keep) (Becomes (narrow keep)) (updateFragments expand rule)
      (updateFragments expand (rule.renamed rename)) := by
  unfold updateFragments
  simp only [attributes_renamed, Record.get_renamed, Value.isNull_renamed, updateMapping_renamed,
    Entries.get?_mapped, location_renamed]
  split
  · exact lockstep_pure rfl
  · cases Entries.get? (updateMapping (rule.attributes.get "update-limit")) (.text "name") with
    | none => exact lockstep_report
    | some name =>
        have sameOptions : (["measure", "addr"].filterMap fun option =>
            ((Entries.get? (updateMapping (rule.attributes.get "update-limit")) (.text option)).map
              (Value.renamed rename)).map fun value => (option, value)) =
            Record.renamed rename (["measure", "addr"].filterMap fun option =>
              (Entries.get? (updateMapping (rule.attributes.get "update-limit"))
                (.text option)).map fun value => (option, value)) := by
          simp only [Record.renamed, Named.mapped, List.map_filterMap, Option.map_map]
          rfl
        simp only [Option.map_some, sameOptions]
        exact lockstep_derive_of_names alike rule.attributes mem_plainNames_updateChanges

theorem lockstep_dnatFragments (alike : ExpandsAlike rename keep expand) :
    Lockstep (Twin rename keep) (Becomes (narrow keep)) (dnatFragments expand rule)
      (dnatFragments expand (rule.renamed rename)) := by
  unfold dnatFragments
  simp only [attributes_renamed, Record.flag_renamed, action_renamed, location_renamed,
    dnatField_renamed]
  split
  · exact lockstep_pure rfl
  · split
    · exact lockstep_report_bind
    · split
      · exact lockstep_report_bind
      · split
        · exact lockstep_report_bind
        · refine (lockstep_dnatAddress rule).bind_same fun address => ?_
          refine (lockstep_recording (follows_map _)).bind ?_
          rintro port _ rfl
          refine (lockstep_sectionKind "dnat").bind_same fun kind => ?_
          exact lockstep_derive_of_names alike rule.attributes (by simp [plainNames])

theorem lockstep_untrackedFragments (alike : ExpandsAlike rename keep expand) :
    Lockstep (Twin rename keep) (Becomes (narrow keep)) (untrackedFragments expand rule)
      (untrackedFragments expand (rule.renamed rename)) := by
  unfold untrackedFragments
  rw [attributes_renamed, Record.flag_renamed, action_renamed]
  split
  · exact (lockstep_sectionKind "no-track").bind_same fun kind =>
      lockstep_derive_of_names alike rule.attributes (by simp)
  · exact lockstep_pure rfl

theorem lockstep_finalFragments (alike : ExpandsAlike rename keep expand) :
    Lockstep (Twin rename keep) (Becomes (narrow keep)) (finalFragments expand rule)
      (finalFragments expand (rule.renamed rename)) := by
  unfold finalFragments
  rw [limitName?_renamed, log?_renamed, LogClass.optionValue_renamed]
  refine (lockstep_recording_same rfl).bind_same fun limitName => ?_
  split
  · exact lockstep_derive alike rule.attributes (isPlain_finalDerivation rule)
  · exact lockstep_pure rfl

theorem lockstep_listedRelated
    (alike : ExpandsAlike rename keep expand) (index : Nat) (items : List Value) :
    Lockstep (Twin rename keep) (Becomes (narrow keep)) (listedRelated expand rule index items)
      (listedRelated expand (rule.renamed rename) index (items.map (Value.renamed rename))) := by
  induction items generalizing index with
  | nil => exact lockstep_pure rfl
  | cons item rest inductionHypothesis =>
      have derived (source : Record) : Lockstep (Twin rename keep) (Becomes (narrow keep))
          (derive expand rule source
              { label := "related " ++ toString index, kind := .rule .related,
                changes := [("service", rule.attributes.get "service")] } >>= fun first =>
            listedRelated expand rule (index + 1) rest >>= fun others => pure (first ++ others))
          (derive expand (rule.renamed rename) (source.renamed rename)
              { label := "related " ++ toString index, kind := .rule .related,
                changes := [("service", (rule.attributes.get "service").renamed rename)] } >>=
            fun first => listedRelated expand (rule.renamed rename) (index + 1)
                (rest.map (Value.renamed rename)) >>= fun others => pure (first ++ others)) := by
        have named := @lockstep_derive_of_names rename keep rule expand alike source
          { label := "related " ++ toString index, kind := .rule .related,
            changes := [("service", rule.attributes.get "service")] } (by simp [plainNames])
        refine named.bind ?_
        rintro first _ rfl
        refine (inductionHypothesis (index + 1)).bind ?_
        rintro others _ rfl
        exact lockstep_pure (narrow_append ..).symm
      rw [List.map_cons]
      unfold listedRelated
      rw [Value.isNull_renamed, offered_renamed, attributes_renamed, Record.get_renamed]
      split
      · exact derived rule.attributes
      · refine (lockstep_lift (follows_map _)).bind ?_
        rintro source _ rfl
        exact derived source

theorem lockstep_relatedFragments (alike : ExpandsAlike rename keep expand) :
    Lockstep (Twin rename keep) (Becomes (narrow keep)) (relatedFragments expand rule)
      (relatedFragments expand (rule.renamed rename)) := by
  unfold relatedFragments
  simp only [attributes_renamed, Record.get_renamed, Value.isNull_renamed, Value.toItems_renamed]
  split
  · have forward := @lockstep_derive_of_names rename keep rule expand alike rule.attributes
      { label := "related", kind := .rule .related } (by simp)
    refine forward.bind ?_
    rintro forward _ rfl
    have reply := @lockstep_derive_of_names rename keep rule expand alike rule.attributes
      { label := "related-reply", kind := .rule .related, changes := [("reverse", .bool true)] }
      (by simp [plainNames])
    refine reply.bind ?_
    rintro reply _ rfl
    exact lockstep_pure (narrow_append ..).symm
  · exact lockstep_listedRelated alike 0 _

theorem lockstep_replyFragments
    (alike : ExpandsAlike rename keep expand) (related : List Fragment) :
    Lockstep (Twin rename keep) (Becomes (narrow keep)) (replyFragments expand rule related)
      (replyFragments expand (rule.renamed rename) (narrow keep related)) := by
  have reversed (kind : ObjectKind) (label : String) :=
    @lockstep_derive_of_names rename keep rule expand alike rule.attributes
      { label, kind, changes := [("reverse", .bool true)] } (by simp [plainNames])
  unfold replyFragments
  simp only [attributes_renamed, Record.flag_renamed, location_renamed]
  split
  · exact lockstep_pure rfl
  · cases related with
    | cons first rest => exact lockstep_report_bind
    | nil =>
        refine (lockstep_sectionKind "no-track").bind_same fun kind => ?_
        refine (reversed kind "no-track-reply").bind ?_
        rintro untracked _ rfl
        refine (lockstep_sectionKind "filter").bind_same fun kind => ?_
        refine (reversed kind "reply").bind ?_
        rintro reply _ rfl
        exact lockstep_pure (narrow_append ..).symm

theorem lockstep_followingFragments (alike : ExpandsAlike rename keep expand) :
    Lockstep (Twin rename keep) (Becomes (narrow keep)) (followingFragments expand rule)
      (followingFragments expand (rule.renamed rename)) := by
  unfold followingFragments
  rw [action_renamed]
  refine (lockstep_dnatFragments alike).bind ?_
  rintro redirected _ rfl
  refine (lockstep_untrackedFragments alike).bind ?_
  rintro untracked _ rfl
  split
  · refine (lockstep_finalFragments alike).bind ?_
    rintro final _ rfl
    refine (lockstep_relatedFragments alike).bind ?_
    rintro related _ rfl
    refine (lockstep_replyFragments alike related).bind ?_
    rintro reply _ rfl
    exact lockstep_pure (by simp [Becomes])
  · exact lockstep_pure (narrow_append ..).symm

/-! ## Expanding -/

theorem expandsAlike_fragmentsWith
    (selection : IsSelection keep) (alike : ExpandsAlike rename keep expand) :
    ExpandsAlike rename keep (fragmentsWith expand) := by
  intro rule steady
  have own := @lockstep_ownFragments rename keep rule selection steady
  unfold fragmentsWith
  rw [kind_renamed]
  split
  · refine (lockstep_updateFragments alike).bind ?_
    rintro update _ rfl
    refine own.bind ?_
    rintro own _ rfl
    refine (lockstep_followingFragments alike).bind ?_
    rintro following _ rfl
    exact lockstep_pure (by simp [Becomes])
  · exact own

/-- The induction is on how deep derived rules are nested. -/
theorem expandsAlike_expandTo (selection : IsSelection keep) (depth : Nat) :
    ExpandsAlike rename keep (expandTo depth) := by
  induction depth with
  | zero => exact fun _ _ => lockstep_unusable
  | succ depth inductionHypothesis => exact expandsAlike_fragmentsWith selection inductionHypothesis

theorem lockstep_fragments (selection : IsSelection keep) (steady : rule.IsSteady keep) :
    Lockstep (Twin rename keep) (Becomes (narrow keep)) rule.fragments
      (rule.renamed rename).fragments :=
  expandsAlike_expandTo selection 4 rule steady

end FirewallPolicy.Rule
