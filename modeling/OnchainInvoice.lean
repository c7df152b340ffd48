import OnchainInvoice.Identity.Provenance
import OnchainInvoice.Identity.Replay
import OnchainInvoice.Identity.Completion
import OnchainInvoice.Identity.SuperWallet
import OnchainInvoice.Wallet.Acceptance
import OnchainInvoice.Wallet.Owners
import OnchainInvoice.Wallet.Lockout
import OnchainInvoice.Wallet.KeyCounts
import OnchainInvoice.Wallet.Timelock
import OnchainInvoice.Wallet.Lockstep
import OnchainInvoice.Factory.Binding
import OnchainInvoice.Invoice.Payments
import OnchainInvoice.Commerce.Splitting
import OnchainInvoice.Server.BodyBinding
import OnchainInvoice.Server.Replay
import OnchainInvoice.Server.Leases
import OnchainInvoice.Server.Creation
import OnchainInvoice.Worker.PaidInFull
import OnchainInvoice.Worker.Accounting
import OnchainInvoice.Worker.Recording
import OnchainInvoice.Worker.Rounds
import OnchainInvoice.Persist.Durability
import OnchainInvoice.Session.TokenKinds
import OnchainInvoice.Session.IdentityOnChain
import OnchainInvoice.Session.IdentityRoutes
import OnchainInvoice.Session.RouteFrames
import OnchainInvoice.Session.Possession
import OnchainInvoice.Session.MethodIndex
import OnchainInvoice.Persist.InvoiceReplay
import OnchainInvoice.Persist.WalletReplay
import OnchainInvoice.Recovery.Cancelling
import OnchainInvoice.Recovery.OneActive
import OnchainInvoice.Recovery.Waiting
import OnchainInvoice.Recovery.Codes
import OnchainInvoice.Recovery.Records
import OnchainInvoice.Node.LogScan
import OnchainInvoice.Transfers.Completeness
import OnchainInvoice.Proposals.SignedOperation
import OnchainInvoice.Bundler.Broadcasts
import OnchainInvoice.Bundler.FeePaid
import OnchainInvoice.Identity.Malformed
import OnchainInvoice.Wallet.Migration
import OnchainInvoice.WebAuthn.Es256
import OnchainInvoice.WebAuthn.CredentialLookups
import OnchainInvoice.Node.Moved
import OnchainInvoice.Node.Reported
import OnchainInvoice.Node.Overlap
import OnchainInvoice.Node.Examined
import OnchainInvoice.Lib.Ranking
import OnchainInvoice.WebServer.InvoiceStore
import OnchainInvoice.WebServer.Scan
import OnchainInvoice.Lib.Utf8
import OnchainInvoice.WebAuthn.OnChainVerify
import OnchainInvoice.WebAuthn.EncodeAssertion
import OnchainInvoice.WebAuthn.VerifyAssertion
import OnchainInvoice.WebAuthn.Readings
import OnchainInvoice.WebAuthn.Relayed
import OnchainInvoice.Wallet.OwnerList
import OnchainInvoice.Lib.TokenBucket
import OnchainInvoice.Server.RateLimit
import OnchainInvoice.Lib.Decimals
import OnchainInvoice.Lib.Trimming
import OnchainInvoice.Shared.Amounts
import OnchainInvoice.Recovery.OtpLimits
import OnchainInvoice.Identity.StoreTimelock
import OnchainInvoice.Identity.ParameterChanges
import OnchainInvoice.Lib.Recency
import OnchainInvoice.WebServer.Retention
import OnchainInvoice.Solana.CommerceInvoice
import OnchainInvoice.Solana.TokenProgram
import OnchainInvoice.Solana.Settlement
import OnchainInvoice.Lib.UrlEncoding
import OnchainInvoice.Shared.PayLink
import OnchainInvoice.Shared.PayLinkRoundTrip
import OnchainInvoice.Lib.Awaits
import OnchainInvoice.Recovery.JobOrigins
import OnchainInvoice.Deployer.WalletDeployer
import OnchainInvoice.Deployer.Actions
import OnchainInvoice.Deployer.Effects
import OnchainInvoice.Deployer.Warrants
import OnchainInvoice.Deployer.Outcomes
import OnchainInvoice.Deployer.Once
import OnchainInvoice.Evm.Checksum
import OnchainInvoice.Evm.TypedData
import OnchainInvoice.Signing.Requests
import OnchainInvoice.Signing.Digests
import OnchainInvoice.Signing.ClientDigests
import OnchainInvoice.Signing.Authorizations
import OnchainInvoice.Signing.Accepted
import OnchainInvoice.Signing.Recovering
import OnchainInvoice.Proposals.PackedSignatures
import OnchainInvoice.Proposals.AcceptedOperation
