import CronPanel.Data.Repositories

namespace CronPanel.Services.Audit

open Library.Strings Library.JsonData Library.Tables Data.Records Data.Repositories

def sensitiveKeyMarkers : List Text :=
  ["password".toList, "token".toList, "secret".toList, "credential".toList, "hash".toList]

def isSensitive (key : Text) : Bool := sensitiveKeyMarkers.any fun marker ↦ marker <:+: lower key

mutual

def sanitizeValue : Json → Json
  | .object entries => .object (sanitizeEntries entries)
  | .list items => .list (sanitizeItems items)
  | value => value
termination_by structural value => value

def sanitizeEntries : List (Text × Json) → List (Text × Json)
  | [] => []
  | entry :: entries => sanitizeEntry entry :: sanitizeEntries entries
termination_by structural entries => entries

def sanitizeEntry : Text × Json → Text × Json
  | (key, item) => (key, if isSensitive key then .text "[REDACTED]".toList else sanitizeValue item)
termination_by structural entry => entry

def sanitizeItems : List Json → List Json
  | [] => []
  | item :: items => sanitizeValue item :: sanitizeItems items
termination_by structural items => items

end

def sanitizeDetails (details : List (Text × Json)) : Option Json :=
  if details.isEmpty then none else some (sanitizeValue (.object details))

/-- The keyword arguments of `record_event`. -/
structure Event where
  action : AuditAction
  userId : Option ℕ := none
  username : Option Text := none
  resource : Option Text := none
  resourceId : Option Text := none
  ipAddress : Option Text := none
  details : List (Text × Json) := []

def Event.entry (event : Event) (now : Instant) : AuditLog :=
  { userId := event.userId
    username := event.username
    action := event.action
    resource := event.resource
    resourceId := event.resourceId
    ipAddress := event.ipAddress
    details := sanitizeDetails event.details
    timestamp := now }

def recordEvent (now : Instant) (event : Event) (db : Database) : Database :=
  { db with auditLogs := (db.auditLogs.insert (event.entry now)).2 }

section

variable (now : Instant) (event : Event) (db : Database)

@[simp] theorem recordEvent_roles : (recordEvent now event db).roles = db.roles := rfl

@[simp] theorem recordEvent_users : (recordEvent now event db).users = db.users := rfl

@[simp] theorem recordEvent_cronJobs : (recordEvent now event db).cronJobs = db.cronJobs := rfl

@[simp] theorem recordEvent_scripts : (recordEvent now event db).scripts = db.scripts := rfl

@[simp] theorem recordEvent_executions :
    (recordEvent now event db).executions = db.executions := rfl

@[simp] theorem recordEvent_revokedTokens :
    (recordEvent now event db).revokedTokens = db.revokedTokens := rfl

end

end CronPanel.Services.Audit
