import AgentRunner.PyValue
import AgentRunner.IsoTime
import AgentRunner.Dict
import AgentRunner.Events
import AgentRunner.Throttle
import AgentRunner.RoundVerdicts
import AgentRunner.ServePolicy
import AgentRunner.Streak
import AgentRunner.GiveUpLaw
import AgentRunner.ThrottleViews
import AgentRunner.ThrottleCoherence
import AgentRunner.MonitorThrottle
import AgentRunner.Breadcrumbs
import AgentRunner.BreadcrumbLaw
import AgentRunner.RoundFold
import AgentRunner.MemoThrottle
import AgentRunner.PoisonedTail
import AgentRunner.BackOff
import AgentRunner.RecoveryTiming
import AgentRunner.EarlyRecovery
import AgentRunner.Episodes
import AgentRunner.Treadmill
import AgentRunner.TreadmillRun
import AgentRunner.TreadmillAlarm
import AgentRunner.TreadmillLaw
import AgentRunner.RoundScoping
import AgentRunner.Utf8
import AgentRunner.TextLines
import AgentRunner.JsonText
import AgentRunner.JsonFraming
import AgentRunner.EventFile
import AgentRunner.EmittedEvents
import AgentRunner.Shards
import AgentRunner.MonthOrder
import AgentRunner.MonthFiles
import AgentRunner.MemLoopRestarts
import AgentRunner.MidRound
import AgentRunner.MemoryFloor
import AgentRunner.SoftBrake
import AgentRunner.Toml
import AgentRunner.Validators
import AgentRunner.ConfigModels
import AgentRunner.ConfigParsers
import AgentRunner.LoadConfig
import AgentRunner.PromptAssembly
import AgentRunner.MigrationEdits
import AgentRunner.Migrations
import AgentRunner.MigrationAgreement
import AgentRunner.MigrationSilence
import AgentRunner.UpgradeGate
import AgentRunner.RewriteProgress
import AgentRunner.HintedErrors
import AgentRunner.AcceptedDocuments
import AgentRunner.DetectorGaps
import AgentRunner.MigrateComplete
import AgentRunner.TornTail
import AgentRunner.Tailing
import AgentRunner.RemoteTail
import AgentRunner.RelayLoop
import AgentRunner.RelayGaps
import AgentRunner.Runs
import AgentRunner.Schedule
import AgentRunner.PhaseSelect
import AgentRunner.Doorbell
import AgentRunner.DoorbellRace
import AgentRunner.MonitorAlerts
import AgentRunner.AlertEpisodes
import AgentRunner.Backtracking
import AgentRunner.Redaction
import AgentRunner.ExcerptLeak
import AgentRunner.ReplayHandoff
import AgentRunner.MigrationLines
import AgentRunner.AssignedLines
import AgentRunner.RelocatedLines
import AgentRunner.RewriteOnce
import AgentRunner.Effects
import AgentRunner.Upgrade
import AgentRunner.UpgradeLaw
import AgentRunner.RoundEnv
import AgentRunner.SessionRounds
import AgentRunner.IntText
import AgentRunner.ContainerRun
import AgentRunner.Metered
import AgentRunner.AgentRun
import AgentRunner.DirtyTree
import AgentRunner.RoundCeiling
import AgentRunner.ConfigLimits
import AgentRunner.CeilingLaw
import AgentRunner.AgentIsolation
import AgentRunner.RoundLogs
import AgentRunner.RoundNumbers
import AgentRunner.WeekMinutes
import AgentRunner.PhaseOverlap
import AgentRunner.WindowText
import AgentRunner.StreamSearch
import AgentRunner.MarkerScan
import AgentRunner.RepetitiveTool
import AgentRunner.JsonTail
import AgentRunner.GitOutput
import AgentRunner.PorcelainPaths
import AgentRunner.StashReuse
import AgentRunner.BlankLines
import AgentRunner.Masking
import AgentRunner.GoalLedger
import AgentRunner.ServiceUnit
import AgentRunner.HostHealth
import AgentRunner.CrashDelay
import AgentRunner.PluginRegistry
import AgentRunner.RelayText
import AgentRunner.RelayOutage
import AgentRunner.InterruptibleSleep
import AgentRunner.JsonRoundTrip
import AgentRunner.EventLog
import AgentRunner.AtomicFile
import AgentRunner.ContextStore
import AgentRunner.ConfigDigest
import AgentRunner.Triples
import AgentRunner.Serve
import AgentRunner.ServeStages
import AgentRunner.ServeGates
import AgentRunner.ServeLaw
import AgentRunner.JsonAscii
import AgentRunner.LockRecord
import AgentRunner.ServicePids
import AgentRunner.SignalLaw
import AgentRunner.Interleaving
import AgentRunner.RoundRun
import AgentRunner.RoundStages
import AgentRunner.RoundExit
import AgentRunner.RoundLaw
