import Werrss.Machinery.Run
import Werrss.Machinery.Std
import Werrss.Domain.Job
import Werrss.Domain.JobStep
import Werrss.Domain.JobRun
import Werrss.Machinery.Url
import Werrss.Domain.UrlPolicy
import Werrss.Machinery.Register
import Werrss.Domain.Article
import Werrss.Persistence.ArticleUpsert
import Werrss.Machinery.Scan
import Werrss.Machinery.Selection
import Werrss.Machinery.HashMap
import Werrss.Archive.Sanitizer
import Werrss.Archive.UrlRewriter
import Werrss.Archive.RewriteTree
import Werrss.Machinery.Markup
import Werrss.Archive.ImageTags
import Werrss.Rss.Renderer
import Werrss.Application.FeedService
import Werrss.Application.FeedDelivery
import Werrss.Persistence.FeedCache
import Werrss.Persistence.JobRepository
import Werrss.Application.FeedRebuild
import Werrss.Application.FeedConsistency
import Werrss.Application.FeedEligibility
import Werrss.Application.QrLogin
import Werrss.Application.QrSingleUse
import Werrss.Machinery.Transaction
import Werrss.Archive.AssetStore
import Werrss.Persistence.AssetTables
import Werrss.Persistence.AssetRepository
import Werrss.Persistence.AssetUnitOfWork
import Werrss.Machinery.Weight
import Werrss.Persistence.AssetEviction
import Werrss.Persistence.AssetCap
import Werrss.Persistence.AssetEvolution
import Werrss.Persistence.AssetIdentity
import Werrss.Persistence.AssetSurvival
import Werrss.Persistence.AssetLinks
import Werrss.Application.SyncService
import Werrss.Application.ArticlePersistence
import Werrss.Application.LocalImages
import Werrss.Machinery.Rows
import Werrss.Domain.Credentials
import Werrss.Persistence.SourceRepository
import Werrss.Persistence.CredentialRepository
import Werrss.Application.AuthService
import Werrss.Application.SourceSync
import Werrss.Persistence.ConfigTransfer
import Werrss.Persistence.Scheduler
import Werrss.Application.RiskGate
import Werrss.Application.CredentialWakeup
import Werrss.Application.CredentialReport
import Werrss.Application.CredentialFence
import Werrss.Persistence.MemoryJobRepository
import Werrss.Persistence.JobStoreContract
import Werrss.Persistence.JobRow
import Werrss.Persistence.JobRefinement
import Werrss.Persistence.JobTableRefinement
import Werrss.Persistence.JobEnqueue
import Werrss.Application.JobHandlers
import Werrss.Machinery.Fencing
import Werrss.Application.StaleClaims
import Werrss.Application.ContentHashes
import Werrss.Application.ConfigTransfer
import Werrss.Persistence.ConfigImport
import Werrss.Persistence.ImportPreview
import Werrss.Persistence.ImportRepeat
import Werrss.Archive.SafeHtml
import Werrss.Machinery.Tenure
import Werrss.Persistence.LeaseRepository
import Werrss.Persistence.LeaseExclusion
import Werrss.Persistence.LeaseHistory
import Werrss.Persistence.LeaseStores
import Werrss.Acquisition.WeRead
import Werrss.Acquisition.ArticlePage
import Werrss.Rss.Renderable
import Werrss.Application.FeedAcceptance
import Werrss.Machinery.Base64
import Werrss.Domain.FeedToken
import Werrss.Persistence.FeedTokenRepository
import Werrss.Application.FeedTokenService
import Werrss.Application.CommitReport
import Werrss.Domain.Pacing
import Werrss.Application.QuietDeferral
import Werrss.Machinery.Cidr
import Werrss.Application.AssetArchiveService
import Werrss.Application.ScheduleOnce
import Werrss.Application.PersistenceAgreement
import Werrss.Persistence.DeduplicatedRuns
import Werrss.Machinery.Versions
import Werrss.Domain.QuietEnd
import Werrss.Persistence.SourceEdits
import Werrss.Machinery.Cookies
import Werrss.Acquisition.QrSession
import Werrss.Application.BackfillJobs
import Werrss.Application.RetryDelay
import Werrss.Persistence.AssetAccounting
import Werrss.Application.PreservedHtml
import Werrss.Application.AssetFetch
import Werrss.Application.SyncAccounting
import Werrss.Persistence.RepairCircuit
import Werrss.Application.AssetCover
import Werrss.Acquisition.Pacing
import Werrss.Web.Auth
import Werrss.Acquisition.Identity
import Werrss.Acquisition.PageFallback
import Werrss.Application.FeedBytes
import Werrss.Persistence.BlobDeletion
import Werrss.Machinery.Regex
import Werrss.Acquisition.PageIdentity
import Werrss.Persistence.FtpBlobCrash
import Werrss.Persistence.BlobUploads
import Werrss.Persistence.RecoveryRuns
import Werrss.Persistence.BlobOwnership
