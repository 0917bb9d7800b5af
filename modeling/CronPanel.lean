import CronPanel.Library.Strings
import CronPanel.Library.Words
import CronPanel.Library.Utf8
import CronPanel.Library.Ranges
import CronPanel.Library.Fallible
import CronPanel.Library.Run
import CronPanel.Library.Tables
import CronPanel.Library.Sessions
import CronPanel.Library.WriteBack
import CronPanel.Library.Renaming
import CronPanel.Library.Paging
import CronPanel.Cron.Validator
import CronPanel.Cron.Elements
import CronPanel.Cron.Grammar
import CronPanel.Cron.Tokens
import CronPanel.Cron.Documented
import CronPanel.Cron.Meaning
import CronPanel.Cron.Expansion
import CronPanel.Cron.Normalized
import CronPanel.Cron.Describe
import CronPanel.Cron.Displayable
import CronPanel.Cron.Wordings
import CronPanel.Cron.ClockPhrases
import CronPanel.Cron.DayPhrases
import CronPanel.Cron.Identification
import CronPanel.Cron.Interpreters
import CronPanel.Scheduler.Triggers
import CronPanel.Scheduler.Apscheduler
import CronPanel.Scheduler.Agreement
import CronPanel.Library.JsonData
import CronPanel.Core.Permissions
import CronPanel.Data.Records
import CronPanel.Data.Repositories
import CronPanel.Services.Audit
import CronPanel.Schemas.Bodies
import CronPanel.Services.CronJobs
import CronPanel.Execution.Policy
import CronPanel.Execution.Executor
import CronPanel.Execution.Captured
import CronPanel.Services.Scripts
import CronPanel.Scheduler.Service
import CronPanel.Api.Errors
import CronPanel.Api.CronJobs
import CronPanel.Api.Display
import CronPanel.Api.Operations
import CronPanel.Api.Stages
import CronPanel.Scheduler.Eligibility
import CronPanel.Scheduler.Agenda
import CronPanel.Scheduler.JobStore
import CronPanel.Scheduler.Concurrency
import CronPanel.Services.Executions
import CronPanel.Services.Trail
import CronPanel.Api.Frames
import CronPanel.Api.Executions
import CronPanel.Api.Pages
import CronPanel.Scheduler.Jobs
import CronPanel.Scheduler.Pipeline
import CronPanel.Scheduler.SingleRun
import CronPanel.Scheduler.Abandoned
import CronPanel.Scheduler.Chronicle
import CronPanel.Scheduler.Traces
import CronPanel.Scheduler.Timetable
import CronPanel.Scheduler.Occurrences
import CronPanel.Core.PasswordPolicy
import CronPanel.Core.Security
import CronPanel.Schemas.Accounts
import CronPanel.Services.Auth
import CronPanel.Services.Users
import CronPanel.Api.Accounts
import CronPanel.Api.Requests
import CronPanel.Core.RateLimit
import CronPanel.Services.Snapshots
import CronPanel.Services.RowSnapshots
import CronPanel.Sessions.Machine
import CronPanel.Sessions.Changes
import CronPanel.Sessions.Consistency
import CronPanel.Sessions.Revocation
import CronPanel.Sessions.Identity
import CronPanel.Access.Panel
import CronPanel.Access.Reads
import CronPanel.Access.Writes
import CronPanel.Access.Launches
import CronPanel.Access.Administrators
import CronPanel.Access.LoginAttempts
import CronPanel.Access.Ledger
import CronPanel.Access.References
import CronPanel.Access.Owners
import CronPanel.Access.ScriptPaths
import CronPanel.Access.Rejections
import CronPanel.Access.Redaction
import CronPanel.Sessions.Edits
import CronPanel.Library.Transactions
import CronPanel.Services.Transactions
import CronPanel.Api.Transactions
import CronPanel.Access.Durability
import CronPanel.Access.Attribution
import CronPanel.Library.Files
import CronPanel.Execution.Allowlist
import CronPanel.Access.Validation
import CronPanel.Library.Windows
import CronPanel.Services.Columns
import CronPanel.Access.Columns
import CronPanel.Access.Limits
import CronPanel.Access.Updates
import CronPanel.Access.Interleaved
import CronPanel.Access.Drift
import CronPanel.Access.Replay
import CronPanel.Access.Pages
import CronPanel.Access.Dangling
import CronPanel.Access.Listing
import CronPanel.Access.Classification
import CronPanel.Access.Credentials
import CronPanel.Frontend.Cronjobs
import CronPanel.Frontend.Controls
import CronPanel.Data.InitDb
import CronPanel.Access.Deployment
import CronPanel.Api.TokensApart
import CronPanel.Sessions.Purge
import CronPanel.Access.Permanence
import CronPanel.Access.Confinement
import CronPanel.Frontend.Auth
import CronPanel.Frontend.JobDialog
import CronPanel.Frontend.Resaved
import CronPanel.Library.Trimming
import CronPanel.Access.HistoryView
import CronPanel.Core.SlidingWindow
import CronPanel.Core.StoreEntries
import CronPanel.Core.RetryAfter
import CronPanel.Access.RateBuckets
import CronPanel.Access.Outcomes
import CronPanel.Library.PythonJson
import CronPanel.Services.Details
