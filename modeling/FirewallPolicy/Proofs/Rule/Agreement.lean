import FirewallPolicy.Proofs.Rule.Parts
import FirewallPolicy.Proofs.Rule.Projection
import FirewallPolicy.Proofs.Rule.Taken

/-!
# Dimensions that rules share

Rules with the same attribute for a dimension, and with the same direction, match the same by it:
where a host or a service is declared matters for messages only.
-/

namespace FirewallPolicy

open Fragment Run Stateful

namespace Rule

variable {rule derived : Rule} {directory : Directory} {names : List String} {part : Fragment}

/-! ## Addresses -/

/-- The fragment matches an address that the attribute lists, if there is one. -/
def MatchesHosts (rule : Rule) (directory : Directory) (name : String) (direction : Direction)
    (part : Fragment) : Prop :=
  if rule.attributes.has name then
    ∃ host ∈ (rule.attributes.get name).toItems, ∃ addresses,
      Resolves directory host.written addresses ∧
        ∃ entry ∈ addresses, hostFragment (rule.side direction).addressOption entry = part
  else part = {}

theorem mem_addressFragments_iff
    {name : String} {direction : Direction} {given : Option (List Fragment)}
    (run : outcome directory (rule.addressFragments name direction) = .ok given) :
    part ∈ orAny given ↔ rule.MatchesHosts directory name direction part := by
  unfold addressFragments at run
  unfold MatchesHosts
  by_cases listed : rule.attributes.has name = true
  · rw [if_pos listed] at run ⊢
    rw [(determined_hostFragments _ _ _).outcome_bind fun _ => determined_pure _] at run
    obtain ⟨found, isFound, same⟩ := except_bind_eq_ok.1 run
    obtain rfl := Except.ok.inj same
    exact (outcome_hostFragments_eq_ok isFound).2 part
  · rw [if_neg listed] at run ⊢
    obtain rfl := Except.ok.inj run
    exact List.mem_singleton

/-- Rules with the same attribute and direction match the same addresses. -/
theorem matchesHosts_congr
    {name : String} (sameHosts : derived.attributes.get name = rule.attributes.get name)
    (sameSide : derived.reverse = rule.reverse) (direction : Direction) :
    derived.MatchesHosts directory name direction part ↔
      rule.MatchesHosts directory name direction part := by
  unfold MatchesHosts Record.has side
  rw [sameHosts, sameSide]

/-! ## Address sets -/

theorem setFragments_congr
    (sameSet : derived.attributes.get "ipset" = rule.attributes.get "ipset")
    (sameSide : derived.reverse = rule.reverse) :
    derived.setFragments = rule.setFragments := by
  unfold setFragments setFlags
  rw [sameSet, sameSide]

/-! ## Services -/

theorem follows_selectorFragments
    {one two : ServiceSelector} (alike : one.Alike two) (reverse : Bool) :
    Follows Eq (selectorFragments reverse one) (selectorFragments reverse two) := by
  cases alike with
  | service definitions =>
      have each := definitions.imp fun _ _ alike => alike.fragments reverse
      refine (Follows.mapM_forall₂ each).bind fun lists others same => Follows.ok ?_
      rw [List.forall₂_eq_eq_eq] at same
      exact congrArg List.flatten same
  | definition alike => exact alike.fragments reverse
  | other => exact Follows.error

/-- Services with the same definitions match the same. -/
theorem follows_namedServiceFragments
    (alike : ServicesAlike rule.services derived.services)
    (sameSide : derived.reverse = rule.reverse) :
    Follows Eq rule.namedServiceFragments derived.namedServiceFragments := by
  unfold namedServiceFragments
  rw [sameSide]
  revert alike
  generalize rule.services = services
  generalize derived.services = others
  intro alike
  cases alike with
  | none => exact Follows.ok rfl
  | some selectors =>
      have each := selectors.imp fun _ _ alike => follows_selectorFragments alike rule.reverse
      refine (Follows.mapM_forall₂ each).bind fun lists others same => Follows.ok ?_
      rw [List.forall₂_eq_eq_eq] at same
      exact congrArg (fun lists => some lists.flatten) same

/-- Where the destination stays as it is, the services are matched as they are named. -/
theorem serviceMatches_of_plain
    (isFilter : rule.kind = .filter) (plain : rule.attributes.flag "dnat" = false) :
    rule.serviceMatches = rule.namedServiceFragments := by
  have same : rule.serviceMatches = rule.dnatServiceMatches := by
    unfold serviceMatches
    rw [isFilter]
  rw [same, dnatServiceMatches_of_plain plain]

theorem serviceMatches_of_not_redirects
    (plain : rule.kind.redirects = false) :
    rule.serviceMatches = rule.namedServiceFragments := by
  unfold serviceMatches
  cases isKind : rule.kind <;> first | rfl | (rw [isKind] at plain; cases plain)

/-! ## Parts -/

namespace Parts

variable {parts : rule.Parts directory} {others : derived.Parts directory}

/-- On the same sides a rule has the zones of the filter rule, as the chains for the hooks see
them. -/
theorem projects_zones
    (isFilter : rule.kind = .filter) (sameSide : derived.reverse = rule.reverse)
    (sameIn : derived.zonesIn = rule.zonesIn) (sameOut : derived.zonesOut = rule.zonesOut) :
    derived.kind.Projects parts.zones others.zones := by
  have inFilter : rule.kind.table = "filter" := by
    rw [isFilter]
    rfl
  have sameSides : derived.sidePairs = rule.sidePairs := by
    unfold sidePairs
    rw [sameSide, sameIn, sameOut]
  obtain ⟨placed, placedRun, -, projects⟩ :=
    exists_projected_zoneFragments inFilter sameSides parts.zonesRun
  obtain rfl : others.zones = placed := Except.ok.inj (others.zonesRun.symm.trans placedRun)
  exact projects

theorem mem_sources_iff
    (sameSources : derived.attributes.get "src" = rule.attributes.get "src")
    (sameSide : derived.reverse = rule.reverse) :
    part ∈ orAny others.sources ↔ part ∈ orAny parts.sources := by
  rw [mem_addressFragments_iff others.sourcesRun, mem_addressFragments_iff parts.sourcesRun]
  exact matchesHosts_congr sameSources sameSide _

theorem sets_eq
    (sameSet : derived.attributes.get "ipset" = rule.attributes.get "ipset")
    (sameSide : derived.reverse = rule.reverse) : others.sets = parts.sets := by
  have same := setFragments_congr sameSet sameSide
  rw [others.setsRead, parts.setsRead] at same
  exact Except.ok.inj same

/-- A rule that leaves the destination as it is matches the named services. -/
theorem services_eq
    {named : Option (List Fragment)} (notRedirecting : derived.kind.redirects = false)
    (alike : ServicesAlike rule.services derived.services)
    (sameSide : derived.reverse = rule.reverse) (isNamed : rule.namedServiceFragments = .ok named) :
    others.services = named := by
  have read := others.servicesRead
  rw [serviceMatches_of_not_redirects notRedirecting,
    (follows_namedServiceFragments alike sameSide).eq_ok isNamed] at read
  exact (Except.ok.inj read).symm

end Parts

end Rule

end FirewallPolicy
