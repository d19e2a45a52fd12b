import Scoopdope.Soroban.Listing
import Scoopdope.Soroban.Pages
import Scoopdope.Soroban.ScVal
import Scoopdope.Async.Process
import Scoopdope.Async.Pool
import Scoopdope.Async.Protocol
import Scoopdope.Async.CheckThenAct
import Scoopdope.Database.Repository
import Scoopdope.Database.Schema
import Scoopdope.Market.SharePool
import Scoopdope.Market.Proportions
import Scoopdope.Token.Authority
import Scoopdope.Token.Allowance
import Scoopdope.Token.RewardLock
import Scoopdope.Token.VestingV2
import Scoopdope.Token.Vesting
import Scoopdope.Token.AirdropClaims
import Scoopdope.Token.MerkleProof
import Scoopdope.Token.Staking
import Scoopdope.Token.StakeDeposits
import Scoopdope.Token.StakeRewards
import Scoopdope.LiquidityPool.Contract
import Scoopdope.LiquidityPool.SquareRoot
import Scoopdope.LiquidityPool.Steps
import Scoopdope.LiquidityPool.ShareValue
import Scoopdope.LiquidityPool.Shares
import Scoopdope.LiquidityPool.Reserves
import Scoopdope.Governance.Contract
import Scoopdope.Governance.Polls
import Scoopdope.Governance.Tally
import Scoopdope.Governance.Execution
import Scoopdope.Governance.TokenVotes
import Scoopdope.Grants.Records
import Scoopdope.Grants.Payouts
import Scoopdope.Grants.Paths
import Scoopdope.ScholarshipFund.Contract
import Scoopdope.ScholarshipFund.Disbursement
import Scoopdope.RoyaltyDistribution.Contract
import Scoopdope.RoyaltyDistribution.Solvency
import Scoopdope.Nft.Contract
import Scoopdope.Nft.Ownership
import Scoopdope.Nft.Access
import Scoopdope.Badges.Contract
import Scoopdope.Analytics.Contract
import Scoopdope.Analytics.ProgressIndex
import Scoopdope.Buyback.Contract
import Scoopdope.Buyback.Reserve
import Scoopdope.Reputation.Contract
import Scoopdope.Reputation.Total
import Scoopdope.Reputation.Scores
import Scoopdope.Shared.Authority
import Scoopdope.Shared.Upgrades
import Scoopdope.Shared.Multisig
import Scoopdope.Server.Http
import Scoopdope.Users.Service
import Scoopdope.Users.LostUpdates
import Scoopdope.Auth.Database
import Scoopdope.Auth.Tokens
import Scoopdope.Auth.Mfa
import Scoopdope.Auth.Service
import Scoopdope.Auth.StellarAuth
import Scoopdope.Auth.SingleUse
import Scoopdope.Auth.BackupCodes
import Scoopdope.Auth.MfaGuard
import Scoopdope.Auth.WalletLink
import Scoopdope.Auth.Admission
import Scoopdope.Stellar.Invocations
import Scoopdope.Stellar.Submission
import Scoopdope.Indexer.Service
import Scoopdope.Indexer.Stages
import Scoopdope.Indexer.Cursor
import Scoopdope.Indexer.Events
import Scoopdope.Learning.Entities
import Scoopdope.Learning.Requests
import Scoopdope.Learning.Runs
import Scoopdope.Enrollments.Service
import Scoopdope.Enrollments.Admission
import Scoopdope.Enrollments.AllOrNothing
import Scoopdope.Waitlist.Service
import Scoopdope.Enrollments.Anchoring
import Scoopdope.Learning.Achievements
import Scoopdope.Progress.Service
import Scoopdope.Progress.Recording
import Scoopdope.Progress.Completion
import Scoopdope.Progress.CourseProgress
import Scoopdope.Progress.LessonProgress
import Scoopdope.Credentials.Stages
import Scoopdope.Credentials.IssuedOnce
import Scoopdope.Certificates.SingleMint
import Scoopdope.Reviews.Service
import Scoopdope.AccessControl.Service
import Scoopdope.AccessControl.Agreement
import Scoopdope.Subscriptions.Service
import Scoopdope.Subscriptions.Tier
import Scoopdope.Kyc.Service
import Scoopdope.Kyc.Approval
import Scoopdope.Graph.Acyclic
import Scoopdope.Courses.Prerequisites
import Scoopdope.Payouts.Service
import Scoopdope.Payouts.PaidOnce
import Scoopdope.Payouts.Counting
import Scoopdope.Waitlist.Queue
import Scoopdope.Progress.ReferralReward
import Scoopdope.Waitlist.Capacity
import Scoopdope.Payments.CouponLimit
import Scoopdope.Webhooks.Service
import Scoopdope.Async.Custody
import Scoopdope.Webhooks.Holdings
import Scoopdope.Webhooks.Deliveries
import Scoopdope.Market.Release
import Scoopdope.Token.VestingCurves
import Scoopdope.Token.StepTranches
import Scoopdope.LiquidityPool.Deposits
import Scoopdope.Database.Statements
import Scoopdope.Moderation.Service
import Scoopdope.Moderation.Correction
import Scoopdope.ApiKeys.Encryption
import Scoopdope.RateLimit.Service
import Scoopdope.Server.Windows
import Scoopdope.RateLimit.Limits
import Scoopdope.Async.Turns
import Scoopdope.Frontend.SyncProgress
import Scoopdope.Frontend.KeptUpdates
import Scoopdope.Email.Queue
import Scoopdope.Email.DeliveredOnce
import Scoopdope.ImportExport.Service
import Scoopdope.Database.Insertions
import Scoopdope.ImportExport.Strategies
import Scoopdope.ImportExport.RoundTrip
import Scoopdope.LiquidityPool.NoProfit
import Scoopdope.Token.AirdropRecovery
import Scoopdope.Histories.Paged
import Scoopdope.Shared.Pausable
import Scoopdope.RoyaltyDistribution.Distribution
import Scoopdope.Reputation.DecayPath
import Scoopdope.Reputation.Reads
import Scoopdope.Analytics.Milestones
import Scoopdope.Server.ConsecutiveRuns
import Scoopdope.Streaks.History
import Scoopdope.Batch.OnePass
import Scoopdope.Assignments.Service
import Scoopdope.Assignments.Reviewers
import Scoopdope.Assignments.Grades
import Scoopdope.Forums.Votes
import Scoopdope.Server.Grouping
import Scoopdope.ImportExport.CsvModules
import Scoopdope.ImportExport.ScormItems
import Scoopdope.ImportExport.ScormPaths
import Scoopdope.ImportExport.ScormFolders
import Scoopdope.Quizzes.Scores
import Scoopdope.RateLimit.Lockouts
import Scoopdope.Courses.DripScheduler
import Scoopdope.Webhooks.Signatures
import Scoopdope.Courses.Versions
import Scoopdope.Programmes.Completions
import Scoopdope.Programmes.Credentials
import Scoopdope.Certificate.Contract
import Scoopdope.CredentialMetadata.Contract
import Scoopdope.TokenRestrictions.Contract
import Scoopdope.Governance.WeightedVoting
import Scoopdope.Pdf.Format
import Scoopdope.Auth.Recovery
import Scoopdope.Auth.MailedLinks
import Scoopdope.ApiKeys.Authentication
import Scoopdope.Certificates.Pdf
import Scoopdope.Pdf.Content
