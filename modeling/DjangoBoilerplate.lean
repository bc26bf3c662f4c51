import DjangoBoilerplate.Machine
import DjangoBoilerplate.FireAndForget
import DjangoBoilerplate.FireAndForgetStop
import DjangoBoilerplate.ApiKey
import DjangoBoilerplate.FireAndForgetBound
import DjangoBoilerplate.FireAndForgetDrain
import DjangoBoilerplate.TokenRotation
import DjangoBoilerplate.ApiKeyLifecycle
import DjangoBoilerplate.ApiKeyWriters
import DjangoBoilerplate.Cascade
import DjangoBoilerplate.CascadeWalk
import DjangoBoilerplate.CascadeDelete
import DjangoBoilerplate.CascadeConcurrent
import DjangoBoilerplate.Json
import DjangoBoilerplate.LogSanitization
import DjangoBoilerplate.Sanitizers
import DjangoBoilerplate.MultipartRedaction
import DjangoBoilerplate.FireAndForgetConservation
import DjangoBoilerplate.StructuredRedaction
import DjangoBoilerplate.Repr
import DjangoBoilerplate.ApiLogRows
import DjangoBoilerplate.ErrorRows
import DjangoBoilerplate.Settings
import DjangoBoilerplate.AuditAttribution
import DjangoBoilerplate.ApiKeyCreation
import DjangoBoilerplate.RowLock
import DjangoBoilerplate.ApiKeyUpdates
import DjangoBoilerplate.Memo
import DjangoBoilerplate.Permissions
import DjangoBoilerplate.RbacBackend
import DjangoBoilerplate.Lowercase
import DjangoBoilerplate.ModulePerms
import DjangoBoilerplate.ExceptionHandler
import DjangoBoilerplate.ExceptionRegistry
import DjangoBoilerplate.StatusMapCache
import DjangoBoilerplate.ValidationErrors
import DjangoBoilerplate.AuditDispatch
import DjangoBoilerplate.Savepoints
import DjangoBoilerplate.BestEffortAtomic
import DjangoBoilerplate.OutboundFailures
import DjangoBoilerplate.Caps
import DjangoBoilerplate.MultipartSummary
import DjangoBoilerplate.NulFree
import DjangoBoilerplate.RowAcceptance
import DjangoBoilerplate.LogInjection
import DjangoBoilerplate.ObjectGraph
import DjangoBoilerplate.ApiKeyErrors
import DjangoBoilerplate.TokenEndpoints
import DjangoBoilerplate.ProfileUpdate
import DjangoBoilerplate.ServiceList
import DjangoBoilerplate.ServiceListRuns
import DjangoBoilerplate.BulkCreate
import DjangoBoilerplate.CreatePaths
import DjangoBoilerplate.Paging
import DjangoBoilerplate.ClientIp
import DjangoBoilerplate.DomainContext
import DjangoBoilerplate.EmailLookup
import DjangoBoilerplate.LogDuration
import DjangoBoilerplate.ObjectKeys
import DjangoBoilerplate.DbUrl
import DjangoBoilerplate.Imports
import DjangoBoilerplate.Layering
import DjangoBoilerplate.SourceLines
import DjangoBoilerplate.DormantImports
import DjangoBoilerplate.DormantGate
import DjangoBoilerplate.Outlines
import DjangoBoilerplate.EngineCache
import DjangoBoilerplate.EngineAccounting
import DjangoBoilerplate.EngineLookups
import DjangoBoilerplate.ApiLogFactory
import DjangoBoilerplate.ResourceThreads
import DjangoBoilerplate.Scripts
import DjangoBoilerplate.SettingsModules
import DjangoBoilerplate.BaseSettings
import DjangoBoilerplate.Startup
import DjangoBoilerplate.AuthRegistry
import DjangoBoilerplate.ApiKeyEndpoints
import DjangoBoilerplate.ApiKeyOutcomes
import DjangoBoilerplate.AwsClients
import DjangoBoilerplate.Decimals
import DjangoBoilerplate.JsonText
import DjangoBoilerplate.JsonRoundTrip
import DjangoBoilerplate.JsonEditor
import DjangoBoilerplate.S3Store
import DjangoBoilerplate.IpAddress
import DjangoBoilerplate.MetricsAccess
import DjangoBoilerplate.SettingsSchema
