import Deadbolt.Agent.Completion
import Deadbolt.Agent.Lease
import Deadbolt.Agent.Logs
import Deadbolt.Agent.Stop
import Deadbolt.Artifacts.Collector
import Deadbolt.Auth.Rotation
import Deadbolt.Contracts.Equality
import Deadbolt.Contracts.Guarantees
import Deadbolt.Dashboard.Layout
import Deadbolt.Inspect.Redaction
import Deadbolt.Lifecycle.Admission
import Deadbolt.Lifecycle.Ambiguity
import Deadbolt.Lifecycle.Backoff
import Deadbolt.Lifecycle.Deduplication
import Deadbolt.Lifecycle.Endurance
import Deadbolt.Lifecycle.Fixpoint
import Deadbolt.Lifecycle.History
import Deadbolt.Lifecycle.Idempotency
import Deadbolt.Lifecycle.Journal
import Deadbolt.Lifecycle.Pause
import Deadbolt.Lifecycle.Rate
import Deadbolt.Lifecycle.Selection
import Deadbolt.Lifecycle.Settled
import Deadbolt.Runner.Redaction
import Deadbolt.Scheduling.Evaluator
import Deadbolt.Scheduling.Reconciler
import Deadbolt.Sdk.Bundle
import Deadbolt.Sdk.Pointers
import Deadbolt.Tenant.Keys
import Deadbolt.Tenant.Membership
import Deadbolt.Tenant.Replays
import Deadbolt.Worker.Revocation
