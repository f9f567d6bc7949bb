import EdgeLink.OtaSafety
import EdgeLink.TrialBoots
import EdgeLink.PowerLoss
import EdgeLink.JournalWriters
import EdgeLink.Downgrade
import EdgeLink.VerifyBoot
import EdgeLink.PreparePayload
import EdgeLink.OtaTaskLaws
import EdgeLink.Resync
import EdgeLink.ControlCommands
import EdgeLink.Binary32
import EdgeLink.ReportLoop
import EdgeLink.CommandLaws
import EdgeLink.OtaGuards
import EdgeLink.OtaCancel
import EdgeLink.OtaOrphans
import EdgeLink.TransportFailover
import EdgeLink.CachedUploader
import EdgeLink.StorageTask
import EdgeLink.CacheRing
import EdgeLink.CacheFifo
import EdgeLink.EventJournal
import EdgeLink.ReportTask
import EdgeLink.DeviceRoutes
import EdgeLink.AckedReports
import EdgeLink.ReportCache
import EdgeLink.JsonLaws
import EdgeLink.NodeCommand
import EdgeLink.CommandRequest
import EdgeLink.CommandLines
import EdgeLink.CommandAgreement
import EdgeLink.TcpBinary
import EdgeLink.TcpFrames
import EdgeLink.WifiBridge
import EdgeLink.UartTask
import EdgeLink.BridgeResync
import EdgeLink.TcpPump
import EdgeLink.PyText
import EdgeLink.BatchRollout
import EdgeLink.RolloutSteps
import EdgeLink.RolloutGate
import EdgeLink.RolloutTermination
import EdgeLink.RolloutMirror
import EdgeLink.FrameReplies
import EdgeLink.AckedData
import EdgeLink.Ring
import EdgeLink.RxDma
import EdgeLink.RxDelivery
import EdgeLink.MemberSearch
import EdgeLink.Manifest
import EdgeLink.FirmwareStore
import EdgeLink.NetworkTask
import EdgeLink.Watchdog
import EdgeLink.MqttUploader
import EdgeLink.Alerts
import EdgeLink.Holders
import EdgeLink.Decisions
import EdgeLink.DecisionLaws
import EdgeLink.ApprovalCalls
import EdgeLink.MemoryReview
import EdgeLink.JsonEvents
import EdgeLink.Stm32Ota
import EdgeLink.Stm32Session
import EdgeLink.Stm32Laws
import EdgeLink.Stm32Outcome
import EdgeLink.GivenUp
import EdgeLink.HttpRequest
import EdgeLink.Substring
import EdgeLink.ConfigLines
import EdgeLink.ConfigLoader
import EdgeLink.BatchPlan
import EdgeLink.BatchCoverage
import EdgeLink.JsonStrings
import EdgeLink.MemoryMerge
import EdgeLink.Uplink
import EdgeLink.Esp32Ota
import EdgeLink.BootUart
import EdgeLink.BootFrames
import EdgeLink.FlashPieces
import EdgeLink.RxBuffer
import EdgeLink.PageWrites
import EdgeLink.TextSplitter
import EdgeLink.Monitor
import EdgeLink.ThreadSafeQueue
import EdgeLink.SerialPipeline
import EdgeLink.IdTable
import EdgeLink.HistoryStore
import EdgeLink.HomeTasks
import EdgeLink.HomeOutputs
import EdgeLink.HomeEvents
import EdgeLink.OtaWire
import EdgeLink.DeviceLink
import EdgeLink.AgentApprovals
import EdgeLink.DeviceRegistry
import EdgeLink.DeviceLiveness
import EdgeLink.JsonFields
import EdgeLink.MemberFields
import EdgeLink.NodeLink
import EdgeLink.OtaShutdown
import EdgeLink.FrameStream
import EdgeLink.OtaRelay
import EdgeLink.OtaAnswers
import EdgeLink.Counter
import EdgeLink.SignedInputs
import EdgeLink.KnowledgeIndex
import EdgeLink.KnowledgeRuns
import EdgeLink.Greedy
import EdgeLink.Retriever
