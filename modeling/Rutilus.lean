import Rutilus.Proofs.ArtifactMisfit
import Rutilus.Proofs.ArtifactRace
import Rutilus.Proofs.BackupRestore
import Rutilus.Proofs.BackupRetention
import Rutilus.Proofs.BatchStates
import Rutilus.Proofs.BatchSubmission
import Rutilus.Proofs.BindingTable
import Rutilus.Proofs.CapabilityReads
import Rutilus.Proofs.ClaimRuns
import Rutilus.Proofs.ConnectVerdicts
import Rutilus.Proofs.CredentialRotation
import Rutilus.Proofs.CursorText
import Rutilus.Proofs.DeadLetters
import Rutilus.Proofs.DedupKeys
import Rutilus.Proofs.Dispatch
import Rutilus.Proofs.EndpointListing
import Rutilus.Proofs.EngineRace
import Rutilus.Proofs.EventStream
import Rutilus.Proofs.FingerprintText
import Rutilus.Proofs.FlushProgress
import Rutilus.Proofs.FrameCodec
import Rutilus.Proofs.GroupRefinement
import Rutilus.Proofs.ImportAudit
import Rutilus.Proofs.InventoryListing
import Rutilus.Proofs.LoginRace
import Rutilus.Proofs.OfferSettlement
import Rutilus.Proofs.OfferSite
import Rutilus.Proofs.OfferTargets
import Rutilus.Proofs.PayloadTexts
import Rutilus.Proofs.RateCalls
import Rutilus.Proofs.RecoveryScan
import Rutilus.Proofs.RefreshGates
import Rutilus.Proofs.RefreshReports
import Rutilus.Proofs.ReplayProjection
import Rutilus.Proofs.ReplyConvergence
import Rutilus.Proofs.ReportScan
import Rutilus.Proofs.RestoreHealing
import Rutilus.Proofs.Revocation
import Rutilus.Proofs.RoleScope
import Rutilus.Proofs.RouteGuard
import Rutilus.Proofs.RowTimelines
import Rutilus.Proofs.RunSeeding
import Rutilus.Proofs.SampleOrder
import Rutilus.Proofs.SessionAck
import Rutilus.Proofs.SessionGenerations
import Rutilus.Proofs.SessionRows
import Rutilus.Proofs.SiteIdentity
import Rutilus.Proofs.SiteIsolation
import Rutilus.Proofs.SnapshotPayloads
import Rutilus.Proofs.StreamHandles
import Rutilus.Proofs.Success
import Rutilus.Proofs.TagReads
import Rutilus.Proofs.TargetKeys
import Rutilus.Proofs.TotpCodes
import Rutilus.Proofs.TotpSteps
import Rutilus.Proofs.UnknownOutcomes
import Rutilus.Proofs.UsernameKeys
