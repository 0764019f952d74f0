import FirewallPolicy.Proofs.Fragment.Choices
import FirewallPolicy.Proofs.Rule.Hooks

/-!
# Rules at the hooks, part by part

At a hook a rule stands with one fragment from each of its dimensions: the zone names the hook, the
tokens are those of all fragments in order, and the family is one that none of them excludes.
-/

namespace FirewallPolicy

open Context Fragment Run Stateful

namespace Rule

variable {rule : Rule} {directory : Directory} {before after : Context}
  {matched own : List Fragment} {hook family goal : String}

/-! ## Dimensions -/

/-- What each dimension of a rule gives. -/
structure Parts (rule : Rule) (directory : Directory) where
  zones : List Fragment
  sources : Option (List Fragment)
  destinations : Option (List Fragment)
  sets : Option (List Fragment)
  services : Option (List Fragment)
  position : String
  zonesRun : outcome directory rule.zoneFragments = .ok zones
  sourcesRun : outcome directory rule.sourceFragments = .ok sources
  destinationsRun : outcome directory rule.destinationFragments = .ok destinations
  setsRead : rule.setFragments = .ok sets
  servicesRead : rule.serviceMatches = .ok services
  positionRead : rule.position = .ok position

/-- The lists that are multiplied. -/
def Parts.lists (parts : rule.Parts directory) : List (Option (List Fragment)) :=
  [some parts.zones, parts.sources, parts.destinations, parts.sets, parts.services,
    some [{ position := some parts.position }]]

theorem exists_parts
    (hosts : before.hosts.directory = directory)
    (run : rule.dimensions before = (.ok matched, after)) :
    ∃ parts : rule.Parts directory, matched = combine parts.lists := by
  subst hosts
  simp only [dimensions, bind_eq_ok, pure_eq_ok, recording_eq_ok] at run
  obtain ⟨zones, c₁, zonesRun, sources, c₂, sourcesRun, destinations, c₃, destinationsRun,
    sets, _, ⟨setsRead, rfl⟩, services, _, servicesRun, position, _, ⟨read, rfl⟩, rfl, rfl⟩ := run
  have first : Notes before c₁ := notes_zoneFragments.of_eq zonesRun
  have second : Notes before c₂ := first.trans (notes_addressFragments.of_eq sourcesRun)
  have isZones := determined_zoneFragments.outcome_eq zonesRun
  have isSources := determined_addressFragments.outcome_eq sourcesRun
  have isDestinations := determined_destinationFragments.outcome_eq destinationsRun
  have isServices := computes_serviceFragments.determined.outcome_eq servicesRun
  rw [computes_serviceFragments.outcome_eq] at isServices
  rw [first.directory] at isSources
  rw [second.directory] at isDestinations
  exact ⟨⟨zones, sources, destinations, sets, services, position, isZones, isSources,
    isDestinations, setsRead, isServices, read⟩, rfl⟩

/-! ## Choices -/

/-- A fragment from each dimension. -/
structure Choice (parts : rule.Parts directory) where
  zone : Fragment
  source : Fragment
  destination : Fragment
  set : Fragment
  service : Fragment
  isZone : zone ∈ parts.zones
  isSource : source ∈ orAny parts.sources
  isDestination : destination ∈ orAny parts.destinations
  isSet : set ∈ orAny parts.sets
  isService : service ∈ orAny parts.services

namespace Choice

variable {parts : rule.Parts directory} (choice : Choice parts)

/-- The chosen fragments in order. -/
def fragments : List Fragment :=
  [choice.zone, choice.source, choice.destination, choice.set, choice.service]

/-- The tokens of the chosen fragments. -/
def tokens : List String :=
  choice.fragments.flatMap (·.tokens)

/-- The zone stands at the hook, and all fragments may be of the family. -/
structure FitsAt (hook family : String) : Prop where
  hook : choice.zone.chain = some hook
  family : ∀ part ∈ choice.fragments, Allows part.family family

/-- The rule that the chosen fragments make up at a hook. -/
def placed (hook family goal : String) : Fragment where
  family := some family
  table := some rule.kind.table
  chain := some hook
  tokens := choice.tokens
  target := some goal
  position := some parts.position

theorem isMatch_zone : choice.zone.IsMatch rule.kind.hookChains :=
  yields_zoneFragments.of_eq (Prod.ext parts.zonesRun rfl) choice.zone choice.isZone

theorem isMatch_orAny
    {given : Option (List Fragment)} (areMatches : AreMatches [] given) {part : Fragment}
    (member : part ∈ orAny given) : part.IsMatch [] := by
  cases given with
  | none =>
      obtain rfl := List.mem_singleton.1 member
      exact isMatch_empty
  | some list => exact areMatches list rfl part member

/-- All fragments but the zone match in any chain. -/
theorem isMatch_others :
    ∀ part ∈ [choice.source, choice.destination, choice.set, choice.service], part.IsMatch [] := by
  have services : outcome directory rule.serviceFragments = .ok parts.services := by
    rw [computes_serviceFragments.outcome_eq]
    exact parts.servicesRead
  simp only [List.forall_mem_cons, List.not_mem_nil, false_implies, implies_true, and_true]
  refine ⟨?_, ?_, ?_, ?_⟩
  · exact isMatch_orAny ((yields_addressFragments []).of_eq (Prod.ext parts.sourcesRun rfl))
      choice.isSource
  · exact isMatch_orAny
      ((yields_destinationFragments []).of_eq (Prod.ext parts.destinationsRun rfl))
      choice.isDestination
  · exact isMatch_orAny (areMatches_setFragments [] parts.setsRead) choice.isSet
  · exact isMatch_orAny ((yields_serviceFragments []).of_eq (Prod.ext services rfl))
      choice.isService

/-- The chosen fragments and the position, one from each of the lists. -/
theorem forall₂_lists :
    List.Forall₂ (fun part list => part ∈ orAny list)
      (choice.fragments ++ [{ position := some parts.position }]) parts.lists :=
  .cons choice.isZone (.cons choice.isSource (.cons choice.isDestination (.cons choice.isSet
    (.cons choice.isService (.cons (List.mem_singleton_self _) .nil)))))

end Choice

/-- A member of the product is made up by a choice. -/
theorem Parts.exists_choice
    {parts : rule.Parts directory} {origin : Fragment} (member : origin ∈ combine parts.lists) :
    ∃ choice : Choice parts,
      mergeAll {} (choice.fragments ++ [{ position := some parts.position }]) = some origin := by
  have given : ∃ list, some list ∈ parts.lists := ⟨parts.zones, List.mem_cons_self ..⟩
  obtain ⟨chosen, isChoice, merges⟩ := (mem_combine_iff given).1 member
  obtain _ | ⟨isZone, _ | ⟨isSource, _ | ⟨isDestination, _ | ⟨isSet, _ | ⟨isService,
    _ | ⟨isPosition, _ | _⟩⟩⟩⟩⟩⟩ := isChoice
  rw [List.mem_singleton.1 isPosition] at merges
  exact ⟨⟨_, _, _, _, _, isZone, isSource, isDestination, isSet, isService⟩, merges⟩

namespace Choice

variable {parts : rule.Parts directory} {choice : Choice parts} {origin : Fragment}

/-- The merge of a choice has its tokens and, at a hook, its place. -/
theorem placedAs_eq
    (isMatch : MatchAt parts.position origin)
    (merges : mergeAll {} (choice.fragments ++ [{ position := some parts.position }]) =
      some origin)
    (stands : origin.chain = some hook) :
    origin.placedAs family rule.kind.table goal = choice.placed hook family goal := by
  have tokens : origin.tokens = choice.tokens := by
    rw [tokens_of_mergeAll merges]
    simp [Choice.tokens]
  simp only [placedAs, placed, tokens, stands, isMatch.position, isMatch.index]

/-- What is made up at a hook in a family fits there. -/
theorem fitsAt_of_mergeAll
    (merges : mergeAll {} (choice.fragments ++ [{ position := some parts.position }]) =
      some origin)
    (stands : origin.chain = some hook) (fits : Compatible origin.family (some family)) :
    choice.FitsAt hook family := by
  constructor
  · rcases exists_chain_of_mergeAll merges stands with none | ⟨part, isPart, partStands⟩
    · cases none
    · rcases List.mem_append.1 isPart with isChosen | isPosition
      · rcases List.mem_cons.1 isChosen with rfl | isOther
        · exact partStands
        · exact absurd ((choice.isMatch_others part isOther).chain hook partStands)
            List.not_mem_nil
      · rw [List.mem_singleton.1 isPosition] at partStands
        cases partStands
  · intro part isPart own stated
    have upper := (extends_of_mergeAll merges).2 part (List.mem_append_left _ isPart)
    exact fits own (upper.family own stated) family rfl

/-- What fits at a hook makes up a rule there. -/
theorem exists_mergeAll_of_fitsAt (fits : choice.FitsAt hook family) :
    ∃ origin, mergeAll {} (choice.fragments ++ [{ position := some parts.position }]) =
        some origin ∧ origin.chain = some hook ∧ Compatible origin.family (some family) := by
  let assignment : Assignment :=
    { family, table := "", chain := hook, target := "", position := parts.position, index := 0,
      holds := fun _ => True }
  have satisfied {chains : List String} {part : Fragment} (isMatch : part.IsMatch chains)
      (ofFamily : Allows part.family family) (inHook : Allows part.chain hook) :
      Satisfied part assignment := by
    refine ⟨ofFamily, ?_, inHook, ?_, ?_, ?_, fun _ _ => trivial⟩
    all_goals simp [Allows, isMatch.table, isMatch.target, isMatch.position, isMatch.index]
  have each : ∀ part ∈ choice.fragments ++ [{ position := some parts.position }],
      Satisfied part assignment := by
    intro part isPart
    rcases List.mem_append.1 isPart with isChosen | isPosition
    · have ofFamily := fits.family part isChosen
      rcases List.mem_cons.1 isChosen with rfl | isOther
      · apply satisfied choice.isMatch_zone ofFamily
        intro chain stands
        exact Option.some.inj (stands.symm.trans fits.hook)
      · have isMatch := choice.isMatch_others part isOther
        apply satisfied isMatch ofFamily
        intro chain stands
        exact absurd (isMatch.chain chain stands) List.not_mem_nil
    · rw [List.mem_singleton.1 isPosition]
      constructor <;> simp [Allows, assignment]
  have anything : Satisfied {} assignment := by constructor <;> simp [Allows]
  obtain ⟨origin, merges, isSatisfied⟩ := exists_mergeAll anything each
  have isPart : choice.zone ∈ choice.fragments ++ [{ position := some parts.position }] :=
    List.mem_cons_self ..
  refine ⟨origin, merges, ((extends_of_mergeAll merges).2 _ isPart).chain hook fits.hook, ?_⟩
  rintro own stated _ ⟨⟩
  exact isSatisfied.family own stated

/-- What the rule matches reaches the families that its choices fit in. -/
theorem reach_of_fitsAt (fits : choice.FitsAt hook family) :
    Reach (combine parts.lists) family := by
  have given : ∃ list, some list ∈ parts.lists := ⟨parts.zones, List.mem_cons_self ..⟩
  obtain ⟨origin, merges, _, agrees⟩ := choice.exists_mergeAll_of_fitsAt fits
  have isOrigin : origin ∈ combine parts.lists :=
    (mem_combine_iff given).2 ⟨_, choice.forall₂_lists, merges⟩
  exact Or.inr ⟨origin, isOrigin, fun own stated => agrees own stated family rfl⟩

end Choice

/-! ## At the hooks -/

/-- The rules at the hooks are those that the choices make up, in the families of the rule. -/
def StandsByChoices (rule : Rule) (parts : rule.Parts directory) (own : List Fragment)
    (families : List String) (goal : String) : Prop :=
  ∀ hook ∈ hookNames, ∀ part, part.chain = some hook →
    (part ∈ own ↔ ∃ choice : Choice parts, ∃ family ∈ families,
      choice.FitsAt hook family ∧ part = choice.placed hook family goal)

/-- The rule goes on from what it matches at a position, in its families and its table. -/
structure IsFinished (rule : Rule) (position : String) (matched finished own : List Fragment)
    (after : Context) (goal : String) : Prop where
  isMatched : ∀ part ∈ matched, MatchAt position part
  goesOn : GoesOnTo rule matched after finished goal
  spread : own = combine [some finished, some ((rule.families after.settings).map ofFamily),
    some [.ofTable rule.kind.table]]

theorem exists_standsByChoices
    {target : String} (read : rule.target = .ok (some target))
    (sound : Context.Sound before) (ruleSound : rule.Sound before.logBook)
    (hosts : before.hosts.directory = directory)
    (run : rule.ownFragments before = (.ok own, after)) :
    ∃ (parts : rule.Parts directory) (finished : List Fragment) (goal : String),
      rule.IsFinished parts.position (combine parts.lists) finished own after goal ∧
        rule.StandsByChoices parts own (rule.families after.settings) goal := by
  obtain ⟨matched, middle, finished, goal, dimensions, goesOn, spread, stands⟩ :=
    exists_standsAtHooks read sound ruleSound run
  obtain ⟨position, isPosition, isMatched⟩ := dimensions_eq_ok dimensions
  obtain ⟨parts, rfl⟩ := exists_parts hosts dimensions
  obtain rfl : parts.position = position :=
    Except.ok.inj (parts.positionRead.symm.trans isPosition)
  have given : ∃ list, some list ∈ parts.lists := ⟨parts.zones, List.mem_cons_self ..⟩
  refine ⟨parts, finished, goal, ⟨isMatched, goesOn, spread⟩, fun hook isHook part inHook => ?_⟩
  rw [stands hook isHook part inHook]
  constructor
  · rintro ⟨origin, isOrigin, family, isFamily, fits, rfl⟩
    obtain ⟨choice, merges⟩ := parts.exists_choice isOrigin
    exact ⟨choice, family, isFamily, choice.fitsAt_of_mergeAll merges inHook fits,
      choice.placedAs_eq (isMatched origin isOrigin) merges inHook⟩
  · rintro ⟨choice, family, isFamily, fits, rfl⟩
    obtain ⟨origin, merges, stands, agrees⟩ := choice.exists_mergeAll_of_fitsAt fits
    have isOrigin : origin ∈ combine parts.lists :=
      (mem_combine_iff given).2 ⟨_, choice.forall₂_lists, merges⟩
    exact ⟨origin, isOrigin, family, isFamily, agrees,
      (choice.placedAs_eq (isMatched origin isOrigin) merges stands).symm⟩

end Rule

end FirewallPolicy
