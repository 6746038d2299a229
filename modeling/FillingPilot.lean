import FillingPilot.Runs
import FillingPilot.AssocMap
import FillingPilot.RustStd
import FillingPilot.ReportEviction
import FillingPilot.ReportTasks
import FillingPilot.ReportLoop
import FillingPilot.ReportUpdates
import FillingPilot.ReportContent
import FillingPilot.ReportAcks
import FillingPilot.ReportStore
import FillingPilot.S7Pool
import FillingPilot.S7Live
import FillingPilot.DeployPanic
import FillingPilot.DeployRoundTrip
import FillingPilot.DeployWrite
import FillingPilot.PlcInfo
import FillingPilot.PlcInfoRace
import FillingPilot.MonitorRuns
import FillingPilot.CommandText
import FillingPilot.Splice
import FillingPilot.BlockIsolation
import FillingPilot.DataBlockRoundTrip
import FillingPilot.DeployAllOrNothing
import FillingPilot.IntegerCodecs
import FillingPilot.ReportShape
import FillingPilot.StatusRuns
import FillingPilot.PlcCommands
import FillingPilot.HttpApi
import FillingPilot.Registration
import FillingPilot.FieldsApart
import FillingPilot.DecodeFields
import FillingPilot.BlockSize
import FillingPilot.ReportPolling
import FillingPilot.MonitorPass
import FillingPilot.WString
import FillingPilot.TimeText
import FillingPilot.S7String
import FillingPilot.BlockFaults
import FillingPilot.MetaStore
import FillingPilot.DayCount
import FillingPilot.ReportFaults
import FillingPilot.NestedCalls
import FillingPilot.ProcessLocks
import FillingPilot.ReportLifetime
import FillingPilot.Simulation
import FillingPilot.Replica
import FillingPilot.StatusView
import FillingPilot.Durable
import FillingPilot.MetaRuns
import FillingPilot.MonitorBoot
import FillingPilot.Callback
import FillingPilot.LocalPost
import FillingPilot.LocalRequest
import FillingPilot.RegistrationEnd
import FillingPilot.CellMemory
import FillingPilot.PlcTransfers
import FillingPilot.PlcClients
import FillingPilot.WriteBack
import FillingPilot.BlockTransfer
import FillingPilot.Context
import FillingPilot.LoopIntervals
import FillingPilot.CommandHandler
import FillingPilot.CommandRuns
import FillingPilot.LocalDeploy
import FillingPilot.Stamp
import FillingPilot.NumbersSent
import FillingPilot.Batches
import FillingPilot.PlcStatuses
import FillingPilot.Signatures
import FillingPilot.MonitorEpochs
