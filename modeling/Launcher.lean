import Launcher.Lib.Table
import Launcher.Lib.Coroutines
import Launcher.Lib.Overtaking
import Launcher.Lib.Programs
import Launcher.Lib.Serial
import Launcher.Lib.Ranges
import Launcher.Lib.Plans
import Launcher.Lib.Utf8
import Launcher.Lib.TokenBucket
import Launcher.Lib.PrefixCodes
import Launcher.Lib.Json
import Launcher.Lib.JsonReader
import Launcher.Lib.JsonStrings
import Launcher.Lib.Cuts
import Launcher.Lib.LineEndings
import Launcher.Lib.Numerals
import Launcher.Lib.Paths
import Launcher.Lib.Conninfo
import Launcher.Lib.Words
import Launcher.Lib.Patterns
import Launcher.Lib.Base64
import Launcher.Lib.Uris
import Launcher.Lib.Observations
import Launcher.Lib.Admissions
import Launcher.Lib.Hosting
import Launcher.Common.Basic
import Launcher.Common.ClientAddress
import Launcher.Common.AddressRanges
import Launcher.Common.RateLimiter
import Launcher.Common.RetryAfter
import Launcher.Common.JsonCpp
import Launcher.Common.Signature
import Launcher.Domain.Manifest
import Launcher.Domain.JsonStrings
import Launcher.Domain.ManifestIdentity
import Launcher.Domain.Catalog
import Launcher.Domain.Validation
import Launcher.Domain.Delta
import Launcher.Domain.DeltaPlans
import Launcher.Domain.Updates
import Launcher.Domain.Publishing
import Launcher.Domain.Slugs
import Launcher.Domain.CrashReport
import Launcher.Domain.Fingerprints
import Launcher.Domain.Versions
import Launcher.Domain.VersionGrammar
import Launcher.Domain.LauncherRelease
import Launcher.Migrations.Plan
import Launcher.Migrations.Prefix
import Launcher.Migrations.Runner
import Launcher.Migrations.NumericOrder
import Launcher.Migrations.Convergence
import Launcher.Storage.BlobStore
import Launcher.Storage.Base64Url
import Launcher.Database.Schema
import Launcher.Database.Statements
import Launcher.Database.Frame
import Launcher.Database.Timestamptz
import Launcher.Database.Instants
import Launcher.Domain.Paths
import Launcher.Services.Upload
import Launcher.Services.Retention
import Launcher.Services.Catalog
import Launcher.Services.SmtpMailSender
import Launcher.Services.MailTemplates
import Launcher.Services.CrashReports
import Launcher.Services.CrashGroups
import Launcher.Services.TokenService
import Launcher.Filters.Gate
import Launcher.Filters.Rates
import Launcher.Filters.Admitted
import Launcher.Server.System
import Launcher.Invariants.Integrity
import Launcher.Invariants.Quota
import Launcher.Invariants.ContentAddress
import Launcher.Invariants.BlobFiles
import Launcher.Invariants.StoredSize
import Launcher.Invariants.Reservation
import Launcher.Invariants.Resuming
import Launcher.Invariants.HandedOut
import Launcher.Invariants.Finalizing
import Launcher.Invariants.Grace
import Launcher.Invariants.Staging
import Launcher.Invariants.StagingSpace
import Launcher.Invariants.Answers
import Launcher.Invariants.BuildHistory
import Launcher.Invariants.ReadyBuild
import Launcher.Invariants.StoredManifest
import Launcher.Invariants.Installs
import Launcher.Accounts.Schema
import Launcher.Accounts.Statements
import Launcher.Accounts.Frame
import Launcher.Accounts.Auth
import Launcher.Accounts.Administration
import Launcher.Accounts.System
import Launcher.Accounts.Tokens
import Launcher.Accounts.Links
import Launcher.Accounts.Sessions
import Launcher.Accounts.Rotation
import Launcher.Accounts.Revocation
import Launcher.Accounts.Passwords
import Launcher.Accounts.Administrators
import Launcher.Accounts.Erasable
import Launcher.Accounts.NewestLink
import Launcher.Accounts.AuditTrail
import Launcher.Accounts.Spellings
import Launcher.Common.JsonBody
import Launcher.Accounts.UserPatch
import Launcher.Accounts.AccessTokens
import Launcher.Storefront.Schema
import Launcher.Storefront.Statements
import Launcher.Storefront.Frame
import Launcher.Storefront.Catalog
import Launcher.Storefront.Devlog
import Launcher.Storefront.Downloads
import Launcher.Storefront.SignedUrls
import Launcher.Storefront.System
import Launcher.Storefront.Lookups
import Launcher.Storefront.InstallPlans
import Launcher.Storefront.InstallChecks
import Launcher.Storefront.TransferCost
import Launcher.Storefront.HiddenBuilds
import Launcher.Storefront.Permissions
import Launcher.Storefront.Drafts
import Launcher.Storefront.Rows
import Launcher.Storefront.Ownership
import Launcher.Storefront.Gallery
import Launcher.Storefront.Artwork
import Launcher.Storefront.ArtworkKeys
import Launcher.Storefront.Pictures
import Launcher.Storefront.Snapshots
import Launcher.Storefront.Versions
import Launcher.Storefront.Identifiers
import Launcher.Storefront.SlugLookups
import Launcher.Deployment.System
import Launcher.Deployment.Erasure
import Launcher.Deployment.TextLengths
import Launcher.Controllers.Handlers
import Launcher.Controllers.Server
import Launcher.Controllers.Authority
import Launcher.Controllers.Refusals
import Launcher.Releases.Document
import Launcher.Releases.Statements
import Launcher.Releases.Publish
import Launcher.Releases.Records
import Launcher.Releases.Newest
import Launcher.Releases.Completion
import Launcher.Releases.Columns
import Launcher.Releases.Signed
import Launcher.Common.EnvScan
import Launcher.Storefront.Analytics
import Launcher.Deployment.TitleSearch
import Launcher.Controllers.Numbers
import Launcher.App.Config
import Launcher.App.Fields
import Launcher.App.Values
import Launcher.App.Placeholders
import Launcher.App.Integers
import Launcher.App.ConnectionString
