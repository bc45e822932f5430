import ApexChainx.Lib.Transition
import ApexChainx.Lib.Table
import ApexChainx.Lib.HashChain
import ApexChainx.Lib.Json
import ApexChainx.Core.Error
import ApexChainx.Core.DateTime
import ApexChainx.Sla.Policy
import ApexChainx.Sla.Calculator
import ApexChainx.Sla.Repository
import ApexChainx.Sla.Latest
import ApexChainx.Sla.Rows
import ApexChainx.Sla.Publish
import ApexChainx.Sla.PublishOrder
import ApexChainx.Sla.PolicyCache
import ApexChainx.Payment.SingleUseToken
import ApexChainx.Payment.Status
import ApexChainx.Payment.Interleaving
import ApexChainx.Settlement.Outage
import ApexChainx.Settlement.Requests
import ApexChainx.Settlement.Recompute
import ApexChainx.Settlement.Payments
import ApexChainx.Auth.Sessions
import ApexChainx.Auth.OAuthState
import ApexChainx.Auth.Refresh
import ApexChainx.Webhooks.Delivery
import ApexChainx.Webhooks.Recovery
import ApexChainx.Webhooks.NetworkValidation
import ApexChainx.Webhooks.AttemptNetwork
import ApexChainx.Webhooks.RegistrationCap
import ApexChainx.Webhooks.SecretRotation
import ApexChainx.Webhooks.Attempts
import ApexChainx.Webhooks.OneAttempt
import ApexChainx.Webhooks.SwitchedOff
import ApexChainx.Audit.Log
import ApexChainx.Audit.Chain
import ApexChainx.Audit.Tamper
import ApexChainx.Audit.Archive
import ApexChainx.Ledger.BlockPoller
import ApexChainx.Ledger.HardenedPoller
import ApexChainx.Core.IsoFormat
import ApexChainx.Core.Timedelta
import ApexChainx.Webhooks.Signing
import ApexChainx.Lib.Base64
import ApexChainx.Lib.JsonReader
import ApexChainx.Lib.Paging
import ApexChainx.Outages.Cursor
import ApexChainx.Outages.Pagination
import ApexChainx.Ledger.HorizonRecord
import ApexChainx.Ledger.TxIndexer
import ApexChainx.Auth.RefreshAtomic
import ApexChainx.Idempotency.Middleware
import ApexChainx.Idempotency.Interleaving
import ApexChainx.Jobs.Interleaving
import ApexChainx.Auth.Access
import ApexChainx.Auth.Revocation
import ApexChainx.Auth.Lockout
import ApexChainx.Auth.CredentialStuffing
import ApexChainx.Auth.SprayDetection
import ApexChainx.Auth.CurrentUser
import ApexChainx.Settlement.Replay
import ApexChainx.Settlement.StatusCopy
import ApexChainx.Settlement.Locks
import ApexChainx.Import.Endpoint
import ApexChainx.Import.Atomic
import ApexChainx.Import.DryRun
import ApexChainx.Import.Validate
import ApexChainx.Import.Export
import ApexChainx.Import.Edit
import ApexChainx.Import.RoundTrip
import ApexChainx.Payment.ReadBack
import ApexChainx.Payment.Callback
import ApexChainx.Lib.SlidingWindow
import ApexChainx.Lib.Url
import ApexChainx.RateLimit.Limiters
import ApexChainx.RateLimit.Distributed
import ApexChainx.RateLimit.AttemptLedger
import ApexChainx.Middleware.ETag
import ApexChainx.Lib.GroupBy
import ApexChainx.Sla.Amounts
import ApexChainx.Sla.Analytics
import ApexChainx.Sla.Snapshot
import ApexChainx.Sla.History
import ApexChainx.Import.Lifecycle
import ApexChainx.Lib.BatchDelete
import ApexChainx.Jobs.Retention
import ApexChainx.Jobs.Retry
import ApexChainx.Jobs.FinishedAt
import ApexChainx.Jobs.Enqueue
import ApexChainx.Jobs.Convergence
import ApexChainx.Jobs.Dedup
import ApexChainx.Sla.DeviceSla
import ApexChainx.Lib.Coverage
import ApexChainx.Sla.Periods
import ApexChainx.Sla.Availability
import ApexChainx.Sla.Disputes
import ApexChainx.Lib.ReadThrough
import ApexChainx.Wallets.Repository
import ApexChainx.Wallets.Registry
import ApexChainx.Wallets.Coherence
import ApexChainx.Middleware.PayloadSize
import ApexChainx.Lib.JsonOrder
import ApexChainx.Sla.ConfigHistory
import ApexChainx.Lib.Keyed
import ApexChainx.Webhooks.Breaker
import ApexChainx.Webhooks.RetryBudget
import ApexChainx.Lib.Like
import ApexChainx.Lib.JsonStrings
import ApexChainx.Webhooks.Subscribers
import ApexChainx.Outages.Search
import ApexChainx.Lib.Chunks
import ApexChainx.Import.Stream
import ApexChainx.Import.Elements
import ApexChainx.Import.Bulk
import ApexChainx.Lib.OffsetPaging
import ApexChainx.Listing.Offset
import ApexChainx.Lib.KeysetPaging
import ApexChainx.Listing.RetryQueue
import ApexChainx.Listing.Jobs
import ApexChainx.Payment.CallbackReplay
import ApexChainx.Idempotency.CompletedCap
import ApexChainx.Ledger.TxMemo
import ApexChainx.Ledger.SettlementMemo
import ApexChainx.Ledger.Stroops
import ApexChainx.Ledger.IndexQuery
import ApexChainx.Ledger.RetryPolicy
import ApexChainx.Payment.IndexSearch
import ApexChainx.Sla.IntervalMerge
import ApexChainx.Audit.Roots
import ApexChainx.Wallets.Address
import ApexChainx.Wallets.Checksum
import ApexChainx.Audit.Scrub
import ApexChainx.Ledger.HorizonSource
import ApexChainx.Lib.JsonNesting
import ApexChainx.Outages.CursorCodec
import ApexChainx.RateLimit.EventLocal
import ApexChainx.RateLimit.EventRedis
import ApexChainx.Jobs.BulkSla
import ApexChainx.Ledger.PayloadSize
import ApexChainx.Ledger.PayloadChecks
import ApexChainx.Ledger.SanitizedBlock
import ApexChainx.Ledger.SanitizeAgain
import ApexChainx.Outages.StreamExport
import ApexChainx.Lib.Dict
import ApexChainx.Lib.Expiring
import ApexChainx.Cache.Ttl
import ApexChainx.Lib.Cooldown
import ApexChainx.Cache.EventListener
import ApexChainx.Webhooks.FanOut
import ApexChainx.Auth.ApiKeys
import ApexChainx.Lib.Semaphore
import ApexChainx.Webhooks.DispatchLimiter
import ApexChainx.Middleware.ApiVersion
import ApexChainx.Lib.Polling
import ApexChainx.Core.AdvisoryLock
