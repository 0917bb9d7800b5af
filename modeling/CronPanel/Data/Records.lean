import CronPanel.Library.JsonData
import CronPanel.Core.Permissions

namespace CronPanel.Data.Records

open Library.Strings Library.JsonData Core.Permissions

/-- Microseconds since the epoch, in UTC. -/
abbrev Instant := ℕ

structure User where
  username : Text
  email : Text
  hashedPassword : Text
  isActive : Bool
  role : Role
  createdAt : Instant
  updatedAt : Instant
  lastLoginAt : Option Instant
  tokensInvalidBefore : Option Instant
  deriving DecidableEq

structure CronJob where
  name : Text
  description : Option Text
  command : Text
  scheduleExpression : Text
  minute : Text
  hour : Text
  dayOfMonth : Text
  month : Text
  dayOfWeek : Text
  isActive : Bool
  isDeleted : Bool
  ownerId : ℕ
  scriptId : Option ℕ
  createdAt : Instant
  updatedAt : Instant
  deriving DecidableEq

inductive HistoryAction
  | created | updated | enabled | disabled | deleted
  deriving DecidableEq, Repr

structure Change where
  field : Text
  before : Json
  after : Json

structure CronJobHistory where
  cronJobId : ℕ
  userId : Option ℕ
  username : Option Text
  action : HistoryAction
  changes : Option Text
  timestamp : Instant

structure Script where
  name : Text
  description : Option Text
  path : Text
  isEnabled : Bool
  isDeleted : Bool
  createdBy : Option ℕ
  createdAt : Instant
  updatedAt : Instant
  deriving DecidableEq

inductive Status
  | running | success | failed | timedOut
  deriving DecidableEq, Repr

def Status.name : Status → Text
  | running => "running".toList
  | success => "success".toList
  | failed => "failed".toList
  | timedOut => "timed_out".toList

inductive Trigger
  | manual | scheduled
  deriving DecidableEq, Repr

def Trigger.name : Trigger → Text
  | manual => "manual".toList
  | scheduled => "scheduled".toList

structure Execution where
  cronJobId : Option ℕ
  scriptId : Option ℕ
  trigger : Trigger
  status : Status
  exitCode : Option ℤ
  stdout : Option Text
  stderr : Option Text
  error : Option Text
  durationMs : Option ℕ
  username : Option Text
  ipAddress : Option Text
  startedAt : Instant
  finishedAt : Option Instant
  deriving DecidableEq

inductive AuditAction
  | loginSuccess | loginFailed | logout | tokenRevoked
  | passwordChange | passwordChangeFailed | passwordReset
  | userCreate | userUpdate | userDelete | roleChange | userDeactivate | userActivate
  | cronJobCreated | cronJobUpdated | cronJobEnabled | cronJobDisabled | cronJobDeleted
  | scriptCreated | scriptUpdated | scriptEnabled | scriptDisabled | scriptDeleted
  | executionStarted | executionSucceeded | executionFailed | executionTimedOut | executionSkipped
  deriving DecidableEq, Repr

structure AuditLog where
  userId : Option ℕ
  username : Option Text
  action : AuditAction
  resource : Option Text
  resourceId : Option Text
  ipAddress : Option Text
  details : Option Json
  timestamp : Instant

structure RevokedToken where
  jti : Text
  userId : Option ℕ
  revokedAt : Instant
  expiresAt : Instant
  deriving DecidableEq

end CronPanel.Data.Records
