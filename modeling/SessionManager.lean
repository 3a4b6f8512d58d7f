import SessionManager.TokenRotation
import SessionManager.TtlRefresh
import SessionManager.ConcurrentPatches
import SessionManager.KeyLifetimes
import SessionManager.ReadableSessions
import SessionManager.SessionSpecs
import SessionManager.AbstractSession
import SessionManager.PatchedSessions
import SessionManager.SessionEffects
import SessionManager.RejectedPatches
import SessionManager.KeptReference
import SessionManager.PatchAlgebra
import SessionManager.Routes
import SessionManager.Exceptions
import SessionManager.TokenRule
import SessionManager.LifeCycle
import SessionManager.SavedTurns
import SessionManager.SessionRefinement
import SessionManager.Instants
import SessionManager.TimedCoherence
import SessionManager.CoherentRuns
import SessionManager.TokenOwnership
import SessionManager.TokenWindow
import SessionManager.IssuedTokens
import SessionManager.ClosedSessions
import SessionManager.SoleMappings
import SessionManager.RevokedTokens
import SessionManager.GoneSessions
import SessionManager.FieldsKept
import SessionManager.OwnProfiles
import SessionManager.CustomerNumbers
import SessionManager.ProfileSeparation
import SessionManager.CreatedSessions
import SessionManager.Interaction.Failure
import SessionManager.FailedCommands
import SessionManager.EventLog
import SessionManager.LogAgreement
import SessionManager.KeyRenewals
import SessionManager.OutlivedSessions
import SessionManager.Python.Text
import SessionManager.BatchProfile.ObjectStore
import SessionManager.BatchProfile.Utils
import SessionManager.BatchProfile.Retrieve
import SessionManager.BatchProfile.Directory
import SessionManager.BatchProfile.Lookup
import SessionManager.BatchProfile.Decrypted
import SessionManager.BatchProfile.Fields
import SessionManager.BatchProfile.UndecryptableFields
import SessionManager.Python.Base64
import SessionManager.BatchProfile.FieldEncryption
import SessionManager.BatchProfile.ColumnMapping
import SessionManager.BatchProfile.Scan
import SessionManager.BatchProfile.Unreliable
import SessionManager.BatchProfile.Candidates
import SessionManager.BatchProfile.Shapes
import SessionManager.BatchProfile.JsonLines
import SessionManager.BatchProfile.ExactLookups
import SessionManager.BatchProfile.OneDirectory
import SessionManager.BatchProfile.MalformedData
import SessionManager.BatchProfile.NewestPartition
import SessionManager.BatchProfile.IndexLookups
import SessionManager.BatchProfile.FoundDocuments
import SessionManager.BatchProfile.StaleIndexes
import SessionManager.Logging.LoggerConfig
import SessionManager.Logging.SealedPayloads
import SessionManager.Logging.SharedNonces
import SessionManager.Logging.OneLineErrorFormatter
import SessionManager.BatchProfile.Repository
import SessionManager.OwnBatchProfiles
import SessionManager.Api.App
import SessionManager.Api.Refinement
import SessionManager.Api.Refusals
import SessionManager.Api.ServerErrors
import SessionManager.Tenants
import SessionManager.Python.IsoFormat
import SessionManager.Python.JsonKeyOrder
import SessionManager.Python.JsonLoaded
import SessionManager.StoredText.Refinement
import SessionManager.Interaction.Checked
import SessionManager.StoredText.Sent
