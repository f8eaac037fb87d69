import DigitalColleagues.Lib.Transition
import DigitalColleagues.Runtime.Conservation
import DigitalColleagues.Runtime.WakeClosure
import DigitalColleagues.Runtime.Fairness
import DigitalColleagues.Runtime.BoundedDispatch
import DigitalColleagues.Governance.Approvals
import DigitalColleagues.Governance.Rbac
import DigitalColleagues.Core.Builder
import DigitalColleagues.Core.Serialization
import DigitalColleagues.Store.Tenant
import DigitalColleagues.Store.Changes
import DigitalColleagues.Store.Credentials
import DigitalColleagues.Core.DraftDiff
import DigitalColleagues.Store.Builder
import DigitalColleagues.Application.DraftService
import DigitalColleagues.Governance.System
import DigitalColleagues.Governance.Moves
import DigitalColleagues.Governance.Provenance
import DigitalColleagues.Governance.TwoPersons
import DigitalColleagues.Runtime.Discovery
import DigitalColleagues.Runtime.Materialization
import DigitalColleagues.Runtime.ExactApproval
import DigitalColleagues.Governance.Configuration
import DigitalColleagues.Governance.Lineage
import DigitalColleagues.Governance.Confirmation
import DigitalColleagues.Core.Work
import DigitalColleagues.Governance.Policy
import DigitalColleagues.Store.Admission
import DigitalColleagues.Studio.Moves
import DigitalColleagues.Studio.Budget
import DigitalColleagues.Studio.Resume
import DigitalColleagues.Studio.Resubmission
import DigitalColleagues.Studio.Admitted
import DigitalColleagues.Studio.Processes
import DigitalColleagues.Studio.Stops
import DigitalColleagues.Studio.Dispatch
import DigitalColleagues.Lib.Fencing
import DigitalColleagues.Runtime.Fencing
import DigitalColleagues.Runtime.Generations
import DigitalColleagues.Runtime.DispatchBindings
import DigitalColleagues.Core.Intelligence
import DigitalColleagues.Application.Boundaries
import DigitalColleagues.Core.WireJson
import DigitalColleagues.Intelligence.Adapters
import DigitalColleagues.Intelligence.Replies
import DigitalColleagues.Intelligence.Failures
import DigitalColleagues.Intelligence.Authority
import DigitalColleagues.Lib.Process
import DigitalColleagues.Runtime.Worker
import DigitalColleagues.Runtime.Quiescence
import DigitalColleagues.Runtime.Containment
import DigitalColleagues.Runtime.Isolation
import DigitalColleagues.Studio.NoOps
import DigitalColleagues.Application.DiffCoverage
import DigitalColleagues.Core.AgentPackage
import DigitalColleagues.Core.Deployment
import DigitalColleagues.Deployments.Tables
import DigitalColleagues.Deployments.Packages
import DigitalColleagues.Deployments.Drafts
import DigitalColleagues.Deployments.Lifecycles
import DigitalColleagues.Deployments.Services
import DigitalColleagues.Deployments.System
import DigitalColleagues.Deployments.Moves
import DigitalColleagues.Deployments.Rows
import DigitalColleagues.Deployments.Activation
import DigitalColleagues.Deployments.Persistence
import DigitalColleagues.Deployments.LifecycleLaw
import DigitalColleagues.Deployments.AuditTrail
import DigitalColleagues.Governance.WorkingHours
import DigitalColleagues.Core.WorkGraph
import DigitalColleagues.Core.Workflow
import DigitalColleagues.Runtime.Recovery
import DigitalColleagues.Lib.Connection
import DigitalColleagues.Store.Migrations
import DigitalColleagues.Core.Timestamps
import DigitalColleagues.Store.ClaimQueries
import DigitalColleagues.Governance.Permits
import DigitalColleagues.Application.ChangeService
import DigitalColleagues.Governance.Proposals
import DigitalColleagues.Governance.Staleness
import DigitalColleagues.Application.Evaluation
import DigitalColleagues.Application.Readout
import DigitalColleagues.Operations.BackupRestore
import DigitalColleagues.Deployments.Selection
import DigitalColleagues.Deployments.SessionRuns
import DigitalColleagues.Runtime.DispatchOrder
import DigitalColleagues.Deployments.Controller
import DigitalColleagues.Channel.HttpJson
import DigitalColleagues.Channel.Provided
import DigitalColleagues.Lib.JsonText
import DigitalColleagues.Packages.CanonicalJson
import DigitalColleagues.Packages.Format
import DigitalColleagues.Packages.Archive
import DigitalColleagues.Packages.Storage
import DigitalColleagues.Deployments.Replays
import DigitalColleagues.Deployments.AuditLaw
