import SentinelAgent.Core.DefaultRules
import SentinelAgent.Core.IncidentDelivery
import SentinelAgent.Core.IncidentProgress
import SentinelAgent.Core.Incidents
import SentinelAgent.Core.InventoryConverges
import SentinelAgent.Core.InventoryUpload
import SentinelAgent.Core.LogAnalysis
import SentinelAgent.Core.LogStream
import SentinelAgent.Core.OperatorRespected
import SentinelAgent.Core.RuleInstallation
import SentinelAgent.Core.RuleTexts
import SentinelAgent.Core.UpdateManifest
import SentinelAgent.Edr.IpBlock
import SentinelAgent.Edr.IpBlockRuns
import SentinelAgent.Edr.PfAtomicity
import SentinelAgent.Edr.PfBlocklist
import SentinelAgent.Edr.ProcessIdentity
import SentinelAgent.Edr.Quarantine
import SentinelAgent.Edr.QuarantineInverse
import SentinelAgent.Fim.Baseline
import SentinelAgent.Fim.Canary
import SentinelAgent.Fim.CanaryReported
import SentinelAgent.Fim.ContentDiff
import SentinelAgent.Fim.Copies
import SentinelAgent.Fim.Created
import SentinelAgent.Fim.Delivery
import SentinelAgent.Fim.EventLoop
import SentinelAgent.Fim.PolicyChange
import SentinelAgent.Fim.Replay
import SentinelAgent.Fim.SameFiles
import SentinelAgent.Fim.ScanLaws
import SentinelAgent.Fim.Walk
import SentinelAgent.Library.Arranged
import SentinelAgent.Library.AutoTable
import SentinelAgent.Library.Base64
import SentinelAgent.Library.Batches
import SentinelAgent.Library.Bursts
import SentinelAgent.Library.Calendar
import SentinelAgent.Library.Captures
import SentinelAgent.Library.Deadlines
import SentinelAgent.Library.EcmaScript
import SentinelAgent.Library.Escaped
import SentinelAgent.Library.Expressions
import SentinelAgent.Library.Globs
import SentinelAgent.Library.Greatest
import SentinelAgent.Library.HalfEscaped
import SentinelAgent.Library.Inside
import SentinelAgent.Library.Json
import SentinelAgent.Library.JsonRead
import SentinelAgent.Library.Lines
import SentinelAgent.Library.Maps
import SentinelAgent.Library.Oldest
import SentinelAgent.Library.Ordered
import SentinelAgent.Library.Padded
import SentinelAgent.Library.Paged
import SentinelAgent.Library.Places
import SentinelAgent.Library.Ranges
import SentinelAgent.Library.Ranked
import SentinelAgent.Library.Runs
import SentinelAgent.Library.Search
import SentinelAgent.Library.Spaced
import SentinelAgent.Library.Sql
import SentinelAgent.Library.Utf8
import SentinelAgent.Network.AddressParsed
import SentinelAgent.Network.AddressTexts
import SentinelAgent.Network.BeaconingDetector
import SentinelAgent.Network.BeaconsKept
import SentinelAgent.Network.Connection
import SentinelAgent.Network.KernelLines
import SentinelAgent.Network.Recognised
import SentinelAgent.Network.SecurityDetector
import SentinelAgent.Network.SnapshotDelta
import SentinelAgent.Network.ThreatFeed
import SentinelAgent.Response.AccountLocks
import SentinelAgent.Response.Accounts
import SentinelAgent.Response.AddressBlocks
import SentinelAgent.Response.Allowlist
import SentinelAgent.Response.Authorized
import SentinelAgent.Response.DetectionRules
import SentinelAgent.Response.EdrActions
import SentinelAgent.Response.Escalation
import SentinelAgent.Response.HitMemory
import SentinelAgent.Response.HostIsolation
import SentinelAgent.Response.IsolationCleanUp
import SentinelAgent.Response.IsolationConfines
import SentinelAgent.Response.IsolationFailures
import SentinelAgent.Response.IsolationFilter
import SentinelAgent.Response.LastAdministrator
import SentinelAgent.Response.LockRaces
import SentinelAgent.Response.ManualActions
import SentinelAgent.Response.ObservationsReported
import SentinelAgent.Response.PfTokens
import SentinelAgent.Response.Playbook
import SentinelAgent.Response.PlaybookSimulated
import SentinelAgent.Response.PlaybookTargets
import SentinelAgent.Response.Triage
import SentinelAgent.Scanner.AccountChanges
import SentinelAgent.Scanner.AllModifier
import SentinelAgent.Scanner.CommandWords
import SentinelAgent.Scanner.ConditionGrammar
import SentinelAgent.Scanner.ConditionRoundTrip
import SentinelAgent.Scanner.Correlation
import SentinelAgent.Scanner.CountedOnce
import SentinelAgent.Scanner.CountedTwice
import SentinelAgent.Scanner.DebianVersion
import SentinelAgent.Scanner.DesktopPackages
import SentinelAgent.Scanner.DpkgOrder
import SentinelAgent.Scanner.EngineBuild
import SentinelAgent.Scanner.EngineRuns
import SentinelAgent.Scanner.EventCounts
import SentinelAgent.Scanner.FeedCopies
import SentinelAgent.Scanner.HostReads
import SentinelAgent.Scanner.Inventory
import SentinelAgent.Scanner.LanguagePackages
import SentinelAgent.Scanner.LateEvents
import SentinelAgent.Scanner.LinuxPackages
import SentinelAgent.Scanner.LoadedRules
import SentinelAgent.Scanner.LogRuleEngine
import SentinelAgent.Scanner.MissedLookups
import SentinelAgent.Scanner.Networks
import SentinelAgent.Scanner.OffsetVariants
import SentinelAgent.Scanner.OneGroup
import SentinelAgent.Scanner.OrderedRuns
import SentinelAgent.Scanner.OsvAdvisory
import SentinelAgent.Scanner.OsvAnswers
import SentinelAgent.Scanner.OsvClient
import SentinelAgent.Scanner.OsvComplete
import SentinelAgent.Scanner.OsvPages
import SentinelAgent.Scanner.ParseCorrelation
import SentinelAgent.Scanner.RegistryMonitor
import SentinelAgent.Scanner.RegistryReported
import SentinelAgent.Scanner.Reordering
import SentinelAgent.Scanner.RepeatedReferences
import SentinelAgent.Scanner.RootcheckSweep
import SentinelAgent.Scanner.RpmKernels
import SentinelAgent.Scanner.RuleOrder
import SentinelAgent.Scanner.Sca
import SentinelAgent.Scanner.ScaTwoHosts
import SentinelAgent.Scanner.SearchNames
import SentinelAgent.Scanner.ShippedRules
import SentinelAgent.Scanner.SigmaValues
import SentinelAgent.Scanner.SlidingWindow
import SentinelAgent.Scanner.ValueCountFires
import SentinelAgent.Scanner.ValuePatterns
import SentinelAgent.Scanner.VulnerabilityReport
import SentinelAgent.Scanner.VulnerabilityScan
import SentinelAgent.Siem.BsdTime
import SentinelAgent.Siem.Cef
import SentinelAgent.Siem.Collector
import SentinelAgent.Siem.Decode
import SentinelAgent.Siem.Event
import SentinelAgent.Siem.EventCorrelation
import SentinelAgent.Siem.Leef
import SentinelAgent.Siem.LogFile
import SentinelAgent.Siem.LogFileRuns
import SentinelAgent.Siem.SshdForged
import SentinelAgent.Siem.SshdLines
import SentinelAgent.Siem.SshdPeers
import SentinelAgent.Siem.SudoRead
import SentinelAgent.Siem.SudoRecovered
import SentinelAgent.Siem.Unforged
import SentinelAgent.Storage.CheckResults
import SentinelAgent.Storage.Evidence
import SentinelAgent.Storage.Grc
import SentinelAgent.Storage.KeyManager
import SentinelAgent.Storage.QueueEviction
import SentinelAgent.Storage.ResultQueries
import SentinelAgent.Storage.Retention
import SentinelAgent.Storage.RetryBackoff
import SentinelAgent.Storage.SoftwareInventory
import SentinelAgent.Storage.SyncQueue
import SentinelAgent.Sync.AuthenticatedClient
import SentinelAgent.Sync.CircuitBreaker
import SentinelAgent.Sync.ClientOnRecord
import SentinelAgent.Sync.ConfigDecided
import SentinelAgent.Sync.GrcSync
import SentinelAgent.Sync.InventoryFitted
import SentinelAgent.Sync.LastEdit
import SentinelAgent.Sync.NoStranded
import SentinelAgent.Sync.RequestAuth
import SentinelAgent.Sync.ResultUpload
import SentinelAgent.Sync.ResultsReach
import SentinelAgent.Sync.RuleSync
import SentinelAgent.Sync.RulesApplied
import SentinelAgent.Sync.Tombstones
