import NoiContest.Lib.SerialTable
import NoiContest.Lib.Runs
import NoiContest.Lib.Sha256
import NoiContest.Lib.JsonText
import NoiContest.Lib.PyText
import NoiContest.Store.Contest
import NoiContest.Outbox.Rows
import NoiContest.HydroPlugin.Exclusion
import NoiContest.HydroPlugin.FailedReservation
import NoiContest.HydroPlugin.Journal
import NoiContest.HydroPlugin.Process
import NoiContest.HydroPlugin.ReceiptInvariant
import NoiContest.HydroPlugin.Receipts
import NoiContest.HydroPlugin.Resolution
import NoiContest.HydroPlugin.SingleRecord
import NoiContest.Lib.OrderedLog
import NoiContest.Outbox.Fifo
import NoiContest.Lib.Flow
import NoiContest.Lib.IPv4
import NoiContest.Pipeline.AnswerIsolation
import NoiContest.Pipeline.FinishRetry
import NoiContest.Pipeline.ScheduleSync
import NoiContest.Desktop.Access
import NoiContest.Desktop.FailClosed
import NoiContest.Pipeline.TimelyRelease
import NoiContest.SeatPool.Replay
import NoiContest.SeatPool.Representation
import NoiContest.Lib.Threads
import NoiContest.Materials.Handlers
import NoiContest.Materials.Provenance
import NoiContest.Outbox.ContestBook
import NoiContest.Outbox.Leases
import NoiContest.Outbox.Window
import NoiContest.Lib.JsonParse
import NoiContest.Materials.Approval
import NoiContest.Materials.JobLifeCycle
import NoiContest.Materials.SavedPreflight
import NoiContest.LivePool.Agreement
import NoiContest.LivePool.Commits
import NoiContest.LivePool.Prepare
import NoiContest.LivePool.PoolRuns
import NoiContest.LivePool.CapacityRepair
import NoiContest.LivePool.Credentials
import NoiContest.InputDigest.Streaming
import NoiContest.HydroPlugin.CountedOnce
import NoiContest.HydroPlugin.MaterialFailure
import NoiContest.HydroPlugin.Notifications
import NoiContest.HydroPlugin.Pruning
import NoiContest.InstallTransaction.TerminalReceipts
import NoiContest.SourceRelease.Ownership
import NoiContest.SourceRelease.ReleaseReuse
import NoiContest.Pipeline.GatewayAgreement
import NoiContest.Pipeline.AnswersKept
import NoiContest.ProblemMapping.Naming
import NoiContest.Retention.FirstFailure
import NoiContest.SampleInputs.Coverage
import NoiContest.Maintenance.Coverage
import NoiContest.SeatNotices.Health
import NoiContest.ClosedFrontend.SubmitRoute
import NoiContest.Noictl.Refusals
import NoiContest.TeacherSso.RoundTrip
import NoiContest.TestdataUpload.ContentAddressed
import NoiContest.Collection.Calls
import NoiContest.Collection.Closing
import NoiContest.Collection.FinishSafeWait
import NoiContest.Collection.KeptEvidence
import NoiContest.Collection.SendOrder
import NoiContest.DockerArchive.Chain
import NoiContest.HydroPlugin.RecordNames
import NoiContest.HydroPlugin.RecordRuns
import NoiContest.Outbox.Delivery
import NoiContest.Outbox.Draining
import NoiContest.Outbox.ExchangeRuns
import NoiContest.Outbox.Ensuring
