import NotificationPlatform.Lib.Run
import NotificationPlatform.Lib.Program
import NotificationPlatform.Lib.Table
import NotificationPlatform.Lib.Uuid
import NotificationPlatform.Lib.Sql
import NotificationPlatform.Conservation
import NotificationPlatform.NoLoss
import NotificationPlatform.NoResend
import NotificationPlatform.RetryBudget
import NotificationPlatform.Solo
import NotificationPlatform.RetryCycle
import NotificationPlatform.Idempotency
import NotificationPlatform.SendAtomicity
import NotificationPlatform.RouteOnce
import NotificationPlatform.SchedulerDrain
import NotificationPlatform.Gates
import NotificationPlatform.Providers
import NotificationPlatform.Stopping
import NotificationPlatform.LiveMessages
import NotificationPlatform.Permissions
import NotificationPlatform.Roles
import NotificationPlatform.TenantWrites
import NotificationPlatform.TenantReads
import NotificationPlatform.Pagination
import NotificationPlatform.Lib.StableSort
import NotificationPlatform.TableSort
import NotificationPlatform.TablePages
import NotificationPlatform.SettingLists
import NotificationPlatform.NotificationDetail
import NotificationPlatform.Lib.Index
import NotificationPlatform.WsSessions
import NotificationPlatform.Lib.Ticket
import NotificationPlatform.Revocation
import NotificationPlatform.CredentialFaults
import NotificationPlatform.Sessions
import NotificationPlatform.RefreshOnce
import NotificationPlatform.OneTimeTokens
import NotificationPlatform.WsUpgrade
import NotificationPlatform.ProviderSecrets
import NotificationPlatform.FixedWindow
import NotificationPlatform.Quotas
import NotificationPlatform.ChannelLimits
import NotificationPlatform.Pool
import NotificationPlatform.AdminUi
import NotificationPlatform.QueueHistory
import NotificationPlatform.FeatureCatalog
import NotificationPlatform.Campaigns
import NotificationPlatform.LinkTables
import NotificationPlatform.ProvisioningFaults
import NotificationPlatform.StatusTracking
import NotificationPlatform.AuditTrail
import NotificationPlatform.AuditOwners
import NotificationPlatform.AuditedRequests
import NotificationPlatform.AuditFaults
import NotificationPlatform.LoginLockout
import NotificationPlatform.ParallelGuesses
import NotificationPlatform.APIKeyLifetime
import NotificationPlatform.Lib.JsonObject
import NotificationPlatform.ProviderForms
import NotificationPlatform.ClientTab
import NotificationPlatform.TokenRotation
import NotificationPlatform.LogoutFinality
import NotificationPlatform.Lib.Tally
import NotificationPlatform.Metrics
import NotificationPlatform.ShownResponses
import NotificationPlatform.Lib.Placeholders
import NotificationPlatform.BuiltStatements
import NotificationPlatform.StatementHandlers
import NotificationPlatform.AttemptNumbers
import NotificationPlatform.RetryCounts
import NotificationPlatform.Lib.SharedEdits
import NotificationPlatform.SettingEditors
import NotificationPlatform.Lib.ReadCommitted
import NotificationPlatform.PermissionSets
import NotificationPlatform.Lib.TextTemplates
import NotificationPlatform.Lib.JsonTokens
import NotificationPlatform.Lib.Binary64
import NotificationPlatform.Lib.JsonTemplates
import NotificationPlatform.JsonReader
import NotificationPlatform.SmsGateway
import NotificationPlatform.Backoff
import NotificationPlatform.Lib.Fallback
import NotificationPlatform.PermissionChains
import NotificationPlatform.Lib.Words
import NotificationPlatform.SlugForm
import NotificationPlatform.Lib.Cells
import NotificationPlatform.RedactedMaps
import NotificationPlatform.RequestBounds
import NotificationPlatform.Lib.InsertAbsent
import NotificationPlatform.QueueControls
import NotificationPlatform.Lib.Rfc3339
import NotificationPlatform.PickedTimes
import NotificationPlatform.CrashRecovery
import NotificationPlatform.TokenProvenance
import NotificationPlatform.Lib.RoutePatterns
import NotificationPlatform.Lib.Threads
import NotificationPlatform.Gateway
import NotificationPlatform.TokenRequests
import NotificationPlatform.Lib.MailText
import NotificationPlatform.SmtpMail
import NotificationPlatform.Lib.Mutex
import NotificationPlatform.FcmTokens
