import RecordLog.RecordBuffer
import RecordLog.ShutdownFlag
import RecordLog.Signals
import RecordLog.LogStore.Calls
import RecordLog.LogStore.Turns
import RecordLog.Connection.Serve
import RecordLog.Timestamp
import RecordLog.Settings
import RecordLog.Settings.Spelling
import RecordLog.Writer
import RecordLog.Annotator.Course
import RecordLog.Annotator.Station
import RecordLog.LogLines
import RecordLog.Launch
import RecordLog.Server.Clients
import RecordLog.Proofs.Connection.ClosedForm
import RecordLog.Proofs.LogStore.Linearization
import RecordLog.Proofs.Server.Shutdown
import RecordLog.Proofs.Server.Waiting
import RecordLog.Proofs.Server.LastCalls
import RecordLog.Proofs.Server.Echoes
import RecordLog.Proofs.Crew.Registry
import RecordLog.Proofs.Crew.Undisturbed
import RecordLog.Proofs.Connection.Fragmentation
import RecordLog.Proofs.LogStore.Failing
import RecordLog.Proofs.LogStore.TornAppends
import RecordLog.Proofs.Launch.Attempt
import RecordLog.Proofs.Launch.FailedStart
import RecordLog.Proofs.Settings.Reading
import RecordLog.Proofs.RecordBuffer
import RecordLog.Proofs.Settings.Precedence
import RecordLog.Proofs.Timestamp.Reading
import RecordLog.Proofs.Annotator.Cadence
import RecordLog.Proofs.FileSystem.Trail
import RecordLog.LogStore.Handles
import RecordLog.Proofs.FileSystem.Sites
import RecordLog.Proofs.LogStore.Handles
import RecordLog.Proofs.Settings.Arrangement
import RecordLog.Proofs.Launch.ServerStart
import RecordLog.Proofs.Launch.FirstFiring
import RecordLog.Proofs.Launch.ExitStatus
import RecordLog.Proofs.Settings.Sections
import RecordLog.Proofs.Toml.Tidy
import RecordLog.Proofs.Settings.KnownKeys
import RecordLog.Proofs.ShutdownFlag.Triggers
import RecordLog.Proofs.Annotator.Station
import RecordLog.Proofs.Connection.Status
import RecordLog.Proofs.LogStore.Turns
import RecordLog.Proofs.Server.Clients
import RecordLog.Proofs.Writer
