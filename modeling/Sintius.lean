import Sintius.Lib.Rounding
import Sintius.Lib.Digits
import Sintius.Lib.Radix
import Sintius.Lib.Double
import Sintius.Lib.Date
import Sintius.Lib.CivilDate
import Sintius.Lib.Text
import Sintius.Lib.Except
import Sintius.Lib.LargestRemainder
import Sintius.Lib.Counting
import Sintius.Lib.Table
import Sintius.Lib.Log
import Sintius.Lib.Transaction
import Sintius.Lib.Agreement
import Sintius.Lib.Utf16
import Sintius.Lib.NumberText
import Sintius.Lib.Uri
import Sintius.Lib.OrderedMap
import Sintius.Lib.Json
import Sintius.Lib.JsonValue
import Sintius.Spec.Problem
import Sintius.Spec.Canonical
import Sintius.Spec.Decimal
import Sintius.Spec.Money
import Sintius.Spec.Approval
import Sintius.Spec.Queue
import Sintius.Spec.Relay
import Sintius.Spec.Dispatch
import Sintius.Spec.TenantContext
import Sintius.Spec.Authentication
import Sintius.Spec.Cache
import Sintius.Spec.Idempotency
import Sintius.Spec.EventEnvelope
import Sintius.Spec.AuditRecorder
import Sintius.Spec.Tenant
import Sintius.Spec.Roles
import Sintius.Spec.Payload
import Sintius.Spec.DeadLetters
import Sintius.Spec.ApprovalStore
import Sintius.Spec.ApprovalCommands
import Sintius.Spec.Stored
import Sintius.Spec.Authorization
import Sintius.Spec.Ingress
import Sintius.Spec.Uuid7
import Sintius.Spec.Redaction
import Sintius.Spec.Boundary
import Sintius.Spec.DefinitionOfDone
import Sintius.Sanity.Identity
import Sintius.Sanity.ApprovalStore
import Sintius.Sanity.Queue
import Sintius.Sanity.Dispatch
import Sintius.Sanity.Approval
import Sintius.Sanity.Idempotency
import Sintius.Sanity.Ledger
import Sintius.Proofs.Canonical
import Sintius.Proofs.Evidence
import Sintius.Proofs.Decimal
import Sintius.Proofs.DecimalText
import Sintius.Proofs.Money
import Sintius.Proofs.Allocation
import Sintius.Proofs.Proration
import Sintius.Proofs.Calendar
import Sintius.Proofs.Queue
import Sintius.Proofs.Relay
import Sintius.Proofs.Dispatch
import Sintius.Proofs.Leases
import Sintius.Proofs.Skip
import Sintius.Proofs.Resolution
import Sintius.Proofs.Approval
import Sintius.Proofs.Completion
import Sintius.Proofs.Authentication
import Sintius.Proofs.Idempotency
import Sintius.Proofs.Identity
import Sintius.Proofs.Isolation
import Sintius.Proofs.Lifecycle
import Sintius.Proofs.Roles
import Sintius.Proofs.Scan
import Sintius.Proofs.Cache
import Sintius.Proofs.DeadLetters
import Sintius.Proofs.Stored
import Sintius.Proofs.StoredApprovals
import Sintius.Proofs.Recency
import Sintius.Proofs.Expiry
import Sintius.Proofs.Ingress
import Sintius.Proofs.Limits
import Sintius.Proofs.Uuid7
import Sintius.Proofs.Redaction
import Sintius.Proofs.Boundary
import Sintius.Proofs.DefinitionOfDone
import Sintius.Lib.Progress
import Sintius.Lib.Programs
import Sintius.Lib.AsyncLocal
import Sintius.Spec.Pass
import Sintius.Proofs.Pass
import Sintius.Proofs.Drain
import Sintius.Spec.Csv
import Sintius.Proofs.Csv
import Sintius.Spec.FoundationProof
import Sintius.Proofs.FoundationProof
import Sintius.Sanity.Writes
import Sintius.Spec.TenantAuthorizer
import Sintius.Proofs.TenantAuthorizer
import Sintius.Spec.AuditPolicy
import Sintius.Proofs.AuditEvidence
import Sintius.Spec.Migrations
import Sintius.Spec.Server
import Sintius.Spec.ProofRoute
import Sintius.Spec.Propagation
import Sintius.Proofs.Migrations
import Sintius.Proofs.Server
import Sintius.Proofs.ProofRoute
import Sintius.Proofs.Propagation
