import CheckIn.Config.Json
import CheckIn.LoggingCollaborators
import CheckIn.Main
import CheckIn.PollClient
import CheckIn.Proofs.ClosedForm
import CheckIn.Proofs.Run
import CheckIn.Proofs.Step
import CheckIn.Proofs.TunnelSafety
import CheckIn.Proofs.Reaping
import CheckIn.Proofs.CadenceAgreement
import CheckIn.Proofs.Arming
import CheckIn.Proofs.FetchTiming
import CheckIn.Proofs.Execution
import CheckIn.Proofs.Liveness
import CheckIn.Proofs.Stages
import CheckIn.Proofs.CycleLaw
import CheckIn.Proofs.DirectedWork
import CheckIn.Proofs.Grid
import CheckIn.Proofs.ReaperRun
import CheckIn.Proofs.ReaperHistory
import CheckIn.Proofs.TunnelBlind
import CheckIn.Proofs.RedundantCommands
import CheckIn.Proofs.Envelope
import CheckIn.Proofs.WireFormat
import CheckIn.Proofs.SavedConfig
import CheckIn.Proofs.Base64
import CheckIn.Proofs.Credentials
import CheckIn.Proofs.TunnelDecision
import CheckIn.Proofs.Resolution
import CheckIn.Proofs.ActivityReports
import CheckIn.Proofs.Reopening
import CheckIn.Proofs.Adoption
import CheckIn.Proofs.ScheduleFields
import CheckIn.Proofs.FailureReports
import CheckIn.Proofs.SavedValidity
import CheckIn.Proofs.ControllerUrl
import CheckIn.Proofs.PartialConfig
import CheckIn.Proofs.FileFrame
import CheckIn.Proofs.StackRecord
