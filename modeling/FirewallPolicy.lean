import FirewallPolicy.Main
import FirewallPolicy.Storage.Tree
import FirewallPolicy.Proofs.Fragment.Meaning
import FirewallPolicy.Proofs.Section.Order
import FirewallPolicy.Proofs.Insertion.Lookups
import FirewallPolicy.Proofs.Rule.Selection
import FirewallPolicy.Proofs.Compile.Layout
import FirewallPolicy.Proofs.Compile.Completeness
import FirewallPolicy.Proofs.Compile.LogChains
import FirewallPolicy.Proofs.Rule.Decides
import FirewallPolicy.Proofs.Fragment.Correspondence
import FirewallPolicy.Proofs.Run.Simulation
import FirewallPolicy.Proofs.Rule.Projection
import FirewallPolicy.Proofs.Rule.Dimensions
import FirewallPolicy.Proofs.Fragment.Mirror
import FirewallPolicy.Proofs.Rule.ReplyZones
import FirewallPolicy.Proofs.Rule.Reply
import FirewallPolicy.Proofs.Rule.Hooks
import FirewallPolicy.Proofs.Rule.Selected
import FirewallPolicy.Proofs.Fragment.Choices
import FirewallPolicy.Proofs.Rule.Parts
import FirewallPolicy.Proofs.Rule.Taken
import FirewallPolicy.Proofs.Rule.Agreement
import FirewallPolicy.Proofs.Rule.Untracked
import FirewallPolicy.Proofs.Rule.Tokens
import FirewallPolicy.Proofs.Rule.Destination
import FirewallPolicy.Proofs.Rule.Translated
import FirewallPolicy.Proofs.Rule.Redirected
import FirewallPolicy.Proofs.Context.Faults
import FirewallPolicy.Proofs.Compile.Usage
import FirewallPolicy.Proofs.Section.Requests
import FirewallPolicy.Proofs.Compile.CoreSections
import FirewallPolicy.Proofs.Insertion.Undefined
import FirewallPolicy.Proofs.Compile.ChainNames
import FirewallPolicy.Proofs.Compile.EntryOrder
import FirewallPolicy.Proofs.Policy.Options
import FirewallPolicy.Proofs.Compile.Locations
import FirewallPolicy.Proofs.Output.Reading
import FirewallPolicy.Proofs.Compile.Unbroken
import FirewallPolicy.Proofs.Limit.Rate
import FirewallPolicy.Proofs.Limit.Recent
import FirewallPolicy.Proofs.Rule.Helpers
import FirewallPolicy.Proofs.Rule.Splitting
import FirewallPolicy.Proofs.Insertion.Arrangement
import FirewallPolicy.Proofs.Section.Ties
import FirewallPolicy.Proofs.Rule.ZoneLists
import FirewallPolicy.Proofs.Service.Ports
import FirewallPolicy.Proofs.Rule.Hairpin
import FirewallPolicy.Proofs.Limit.Numbers
import FirewallPolicy.Proofs.Rule.SetReplies
import FirewallPolicy.Proofs.Rule.Redeclaration
import FirewallPolicy.Proofs.Compile.Referrers
import FirewallPolicy.Proofs.Address.Resolution
import FirewallPolicy.Proofs.Address.NormalForm
import FirewallPolicy.Proofs.Policy.Answers
import FirewallPolicy.Proofs.Compile.Assignments
