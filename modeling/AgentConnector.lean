import AgentConnector.EndOfStream
import AgentConnector.OrphanedTasks
import AgentConnector.CancelOutcome
import AgentConnector.CallerAccess
import AgentConnector.InputOutcome
import AgentConnector.ActiveEntries
import AgentConnector.StreamedLog
import AgentConnector.Continuation
import AgentConnector.SessionOrder
import AgentConnector.DriverStart
import AgentConnector.StatusAgreement
import AgentConnector.MemoryIntegrity
import AgentConnector.StoreEquivalence
import AgentConnector.IdempotentInvoke
import AgentConnector.SseChunking
import AgentConnector.SseReconnects
import AgentConnector.WireAgreement
import AgentConnector.A2aCancel
import AgentConnector.AnpSchema
import AgentConnector.DockerOwnership
import AgentConnector.InstalledConfig
import AgentConnector.McpToolCall
import AgentConnector.StdioReader
import AgentConnector.StdioRouting
import AgentConnector.AcpHistory
import AgentConnector.StreamMonotonicity
import AgentConnector.SettledStream
import AgentConnector.FinishedReplay
import AgentConnector.UnknownTasks
import AgentConnector.RetentionSuffix
import AgentConnector.SlotSaturation
import AgentConnector.LeaseExclusion
import AgentConnector.UpgradeFailure
import AgentConnector.A2aClientCodec
import AgentConnector.AcpMapper
import AgentConnector.AcpClient
import AgentConnector.McpArguments
import AgentConnector.McpDiscovery
import AgentConnector.AnpMapper
