import NervOS.Guarantees.KeyRotation
import NervOS.Guarantees.ToolAuthority
import NervOS.Guarantees.CatalogVerdicts
import NervOS.Guarantees.LoopBudgets
import NervOS.Guarantees.Continuations
import NervOS.Guarantees.SignatureIsolation
import NervOS.Guarantees.Agreement
import NervOS.Guarantees.Timeline
import NervOS.Guarantees.Stranding
import NervOS.Guarantees.Dispatch
import NervOS.Guarantees.Reclamation
import NervOS.Guarantees.Replay
import NervOS.Guarantees.Authority
import NervOS.Guarantees.Ceilings
import NervOS.Guarantees.Capacity
import NervOS.Guarantees.SingleFlight
import NervOS.Guarantees.Budgets
import NervOS.Guarantees.Mediation
import NervOS.Guarantees.PackageSessions
import NervOS.Guarantees.Settlements
import NervOS.Guarantees.Deadlocks
import NervOS.Guarantees.GatewaySessions
import NervOS.Guarantees.InstallTickets
import NervOS.Guarantees.SignalReadability
import NervOS.Guarantees.DirectiveExclusivity
import NervOS.Guarantees.InitialFire
import NervOS.Guarantees.DaylightSaving
import NervOS.Guarantees.CronDialect
import NervOS.Guarantees.WorkConservation
import NervOS.Guarantees.StateCodec
import NervOS.Guarantees.WorkflowDeadlines
import NervOS.Guarantees.PackageContents
import NervOS.Guarantees.Observations
import NervOS.Guarantees.LoopUsage
import NervOS.Guarantees.DueProgress
import NervOS.Guarantees.DeliveredPayloads
import NervOS.Guarantees.ConfigConformance
import NervOS.Guarantees.ContextAssembly
import NervOS.Guarantees.MemoryRetention
import NervOS.Guarantees.ScanCursor
import NervOS.Guarantees.PackageVersions
import NervOS.Guarantees.CatalogPages
import NervOS.Guarantees.PackagePaths
import NervOS.Guarantees.ContentManifests
import NervOS.Package.WheelVersion
import NervOS.Mcp.Discovery
import NervOS.Guarantees.JsonTransform
import NervOS.Mcp.GmailMessages
import NervOS.Mcp.Egress
