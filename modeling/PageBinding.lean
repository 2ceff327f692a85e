import PageBinding.Main
import PageBinding.Proofs.Command.Load
import PageBinding.Proofs.Command.Named
import PageBinding.Proofs.Command.Outcome
import PageBinding.Proofs.Edit.Accepted
import PageBinding.Proofs.Expression.Arithmetic
import PageBinding.Proofs.Expression.Callback
import PageBinding.Proofs.Expression.Continuation
import PageBinding.Proofs.Expression.Dependence
import PageBinding.Proofs.Expression.Identifiers
import PageBinding.Proofs.Expression.Indexing
import PageBinding.Proofs.Expression.Json
import PageBinding.Proofs.Expression.NumberKey
import PageBinding.Proofs.Expression.Reference
import PageBinding.Proofs.Expression.Rendering
import PageBinding.Proofs.Expression.Separation
import PageBinding.Proofs.Expression.Splice
import PageBinding.Proofs.Project.Inherited
import PageBinding.Proofs.Project.Saved
import PageBinding.Proofs.Service.Deletability
import PageBinding.Proofs.Service.Footprint
import PageBinding.Proofs.Service.References
import PageBinding.Proofs.Service.Resources
import PageBinding.Proofs.Service.Seats
import PageBinding.Proofs.Service.Tracking
import PageBinding.Proofs.Session
import PageBinding.Proofs.Session.Untouched
import PageBinding.Proofs.Significand
import PageBinding.Proofs.Store.Delivery
import PageBinding.Proofs.Store.Registrations
import PageBinding.Proofs.Store.Repeated
import PageBinding.Proofs.Usage.Union
import PageBinding.Proofs.Workspace.Slots
import PageBinding.VariableList
