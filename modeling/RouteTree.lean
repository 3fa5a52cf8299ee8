import RouteTree.Main
import RouteTree.Form.UrlEncoded
import RouteTree.Route.Params
import RouteTree.Proofs.NormalForm
import RouteTree.Proofs.Table
import RouteTree.Proofs.TwoSources
import RouteTree.Proofs.Descent
import RouteTree.Proofs.PagesFound
import RouteTree.Proofs.Quoting
import RouteTree.Proofs.Lockstep
import RouteTree.Proofs.Regeneration
import RouteTree.Proofs.NetChange
import RouteTree.Proofs.Batches
import RouteTree.Proofs.LastEvent
import RouteTree.Artifact.Runtime
import RouteTree.Proofs.Markers
import RouteTree.Proofs.Runtime
import RouteTree.Proofs.Acceptance
import RouteTree.Proofs.HostNotation
import RouteTree.Proofs.Filling
import RouteTree.Proofs.Rendering
import RouteTree.Proofs.Literals
import RouteTree.Proofs.Declarations
import RouteTree.Proofs.Outcomes
import RouteTree.Proofs.Upkeep
import RouteTree.Proofs.StatusLines
import RouteTree.Proofs.Rebuilding
import RouteTree.Proofs.WakingUp
import RouteTree.Proofs.CatchallPages
import RouteTree.Proofs.Overlooked
import RouteTree.Proofs.RegistryForms
import RouteTree.Proofs.Substitution
import RouteTree.Proofs.Fields
import RouteTree.Proofs.Tails
import RouteTree.Proofs.Queries
import RouteTree.Proofs.Scanning
import RouteTree.Proofs.UnknownKeys
import RouteTree.Proofs.Display
import RouteTree.Proofs.Searching
import RouteTree.Proofs.Comparing
