import StrongAuth.Json.Answers
import StrongAuth.Json.Reports
import StrongAuth.Proofs.Access
import StrongAuth.Proofs.Aggregation
import StrongAuth.Proofs.Cancellation
import StrongAuth.Proofs.CodeCheck
import StrongAuth.Proofs.Configuration
import StrongAuth.Proofs.Confirmation
import StrongAuth.Proofs.Evidence
import StrongAuth.Proofs.Execution
import StrongAuth.Proofs.Finality
import StrongAuth.Proofs.Footprint
import StrongAuth.Proofs.Independence
import StrongAuth.Proofs.Json.StandingOrders
import StrongAuth.Proofs.Materialisation
import StrongAuth.Proofs.Membership
import StrongAuth.Proofs.Ownership
import StrongAuth.Proofs.Prediction
import StrongAuth.Proofs.RecordShape
import StrongAuth.Proofs.Refusals
import StrongAuth.Proofs.Responses
import StrongAuth.Proofs.Retries
import StrongAuth.Proofs.Secrecy
import StrongAuth.Proofs.Signatures
import StrongAuth.Proofs.SingleGrant
import StrongAuth.Proofs.Starting
import StrongAuth.Proofs.Store.Columns
import StrongAuth.Proofs.Store.Equivalence
import StrongAuth.Proofs.Store.PsuLists
import StrongAuth.Proofs.Store.Updates
import StrongAuth.Samples
import StrongAuth.Proofs.Store.Transactions
import StrongAuth.Proofs.Store.Rollback
import StrongAuth.Proofs.Quorum
import StrongAuth.Proofs.Growth
