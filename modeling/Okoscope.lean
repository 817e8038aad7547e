import Okoscope.Agent.ContainerLifecycle
import Okoscope.Agent.DnsParsing
import Okoscope.Agent.DnsRuns
import Okoscope.Agent.ExecEvidence
import Okoscope.Agent.ObservationGaps
import Okoscope.Agent.PollTick
import Okoscope.Agent.ReleaseStream
import Okoscope.Agent.ResourceFlush
import Okoscope.Agent.ResourceLimits
import Okoscope.Agent.ResourceStream
import Okoscope.Agent.ThreadBootstrap
import Okoscope.Agent.ThreadIndex
import Okoscope.Agent.ThreadTimes
import Okoscope.Server.EventAccounting
import Okoscope.Server.FiniteMetrics
import Okoscope.Server.Idempotency
import Okoscope.Server.Navigation
import Okoscope.Server.OrganizationOwners
import Okoscope.Server.OutboxCompletion
import Okoscope.Server.PlatformAuthority
import Okoscope.Server.PolicyListings
import Okoscope.Server.Readiness
import Okoscope.Server.ResourceHistory
import Okoscope.Server.RetentionFairness
import Okoscope.Server.RoleChanges
import Okoscope.Server.RuntimeGroups
import Okoscope.Server.WebhookTargets
