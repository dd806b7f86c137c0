import NfOrchestrator.Deploy.Evidence
import NfOrchestrator.Deploy.Paging
import NfOrchestrator.Deploy.Routes
import NfOrchestrator.Deploy.Freshness
import NfOrchestrator.Deploy.Attribution
import NfOrchestrator.Reconciler.Satisfied
import NfOrchestrator.Reconciler.Waiting
import NfOrchestrator.Reconciler.Session
import NfOrchestrator.Reconciler.Teardowns
import NfOrchestrator.Metrics.Batched
import NfOrchestrator.Metrics.Reachable
import NfOrchestrator.Metrics.HostFaults
import NfOrchestrator.Metrics.Blame
import NfOrchestrator.Metrics.Budget
import NfOrchestrator.Metrics.Waves
import NfOrchestrator.Scripts.Hits
import NfOrchestrator.Scripts.Redaction
import NfOrchestrator.Chart.Names
import NfOrchestrator.Translate.Ambiguity
import NfOrchestrator.Translate.Fragments
import NfOrchestrator.Translate.Guard
import NfOrchestrator.Api.Counted
import NfOrchestrator.Api.Sessions
import NfOrchestrator.Api.Counters
import NfOrchestrator.Api.Progress
import NfOrchestrator.Api.Versions
import NfOrchestrator.Api.Arguments
import NfOrchestrator.Monitoring.Silence
