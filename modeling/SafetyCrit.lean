import SafetyCrit.SharedMemory.RingMachine
import SafetyCrit.SharedMemory.RingProgress
import SafetyCrit.Observability.TornTail
import SafetyCrit.Observability.SharedLog
import SafetyCrit.Observability.DaemonCounters
import SafetyCrit.Observability.HttpSegments
import SafetyCrit.Supervisor.MonitorProtocol
import SafetyCrit.SharedMemory.Attachability
import SafetyCrit.SharedMemory.InitializeOnce
import SafetyCrit.Supervisor.OutputWitness
import SafetyCrit.SharedMemory.RingView
import SafetyCrit.Supervisor.Recovery
import SafetyCrit.Supervisor.Failover
import SafetyCrit.Workers.WorkerEntry
import SafetyCrit.Supervisor.Takeover
import SafetyCrit.Supervisor.SingleWriter
import SafetyCrit.Supervisor.Promotion
import SafetyCrit.Supervisor.Degradation
import SafetyCrit.SharedMemory.Checksum
import SafetyCrit.SharedMemory.Corruption
import SafetyCrit.Monitors.MonitorLoop
import SafetyCrit.SharedMemory.DeriveState
import SafetyCrit.SharedMemory.AbandonedClaim
import SafetyCrit.SharedMemory.LiveAudit
import SafetyCrit.Supervisor.Announcements
import SafetyCrit.Supervisor.Escalation
import SafetyCrit.Supervisor.StallEpisodes
import SafetyCrit.Workers.WorkLoop
import SafetyCrit.Observability.AppendOutcomes
import SafetyCrit.Observability.Resume
import SafetyCrit.Observability.HttpGrammar
import SafetyCrit.Observability.HttpTable
import SafetyCrit.Workers.Workload
import SafetyCrit.Perturb.ReplayVersions
import SafetyCrit.Perturb.ReplayRoundTrip
import SafetyCrit.Perturb.ReplaySpacing
import SafetyCrit.Perturb.ReplayTargets
import SafetyCrit.Perturb.ReplayRecords
import SafetyCrit.Observability.MetricsOrder
import SafetyCrit.Observability.Exposition
import SafetyCrit.Observability.EndpointJson
import SafetyCrit.Observability.StatusTruth
import SafetyCrit.Observability.DaemonArgs
import SafetyCrit.Workers.Pipeline
import SafetyCrit.Monitors.PidfileLiveness
import SafetyCrit.Workers.SlotLifecycle
import SafetyCrit.Monitors.CrashVerdict
import SafetyCrit.Observability.EventFields
import SafetyCrit.Supervisor.WitnessEvents
import SafetyCrit.Workers.LifecycleEvents
import SafetyCrit.Monitors.EventMirror
import SafetyCrit.Fleet.Accounting
import SafetyCrit.Observability.LatencyGauge
import SafetyCrit.Observability.DaemonExport
import SafetyCrit.Observability.RegionCurrency
import SafetyCrit.Perturb.Invocation
import SafetyCrit.Perturb.Campaign
import SafetyCrit.App.Configurations
