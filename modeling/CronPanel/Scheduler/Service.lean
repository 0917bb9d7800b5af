import CronPanel.Data.Repositories
import CronPanel.Scheduler.Triggers

namespace CronPanel.Scheduler.Service

open Library.Strings Library.Tables Data.Records Data.Repositories Cron.Validator Triggers

variable {A : Apscheduler}

/-- The process-wide `CronScheduler` behind the registry, running or not. -/
structure CronScheduler (A : Apscheduler) where
  running : Bool
  agenda : Agenda A

def CronScheduler.new : CronScheduler A := ⟨false, .empty⟩

/-- The first loop of `sync_from_db`, with the exception that ends it early, if any. -/
def armAll : List (ℕ × CronJob) → Agenda A → Agenda A × Except PyError Unit
  | [], agenda => (agenda, .ok ())
  | (id, job) :: jobs, agenda =>
    match addOrReplace A agenda id job.scheduleExpression with
    | .ok (_, agenda) => armAll jobs agenda
    | .error e => (agenda, .error e)

def removeStale (desiredIds : List ℕ) (agenda : Agenda A) : Agenda A :=
  (agenda.keys.filter (· ∉ desiredIds)).foldl Table.erase agenda

def syncFromDb (db : Database) (s : CronScheduler A) : CronScheduler A × Except PyError ℕ :=
  if s.running then
    let eligible := db.listEligibleForScheduling
    match armAll eligible s.agenda with
    | (agenda, .error e) => ({ s with agenda }, .error e)
    | (agenda, .ok ()) =>
      ({ s with agenda := removeStale (eligible.map Prod.fst) agenda }, .ok eligible.length)
  else (s, .ok 0)

def start (db : Database) (s : CronScheduler A) : CronScheduler A :=
  if s.running then s else (syncFromDb db { s with running := true }).1

def removeIfArmed (id : ℕ) (s : CronScheduler A) : CronScheduler A :=
  { s with agenda := s.agenda.erase id }

def CronScheduler.addOrReplace (id : ℕ) (expression : Text) (s : CronScheduler A) :
    CronScheduler A × Except PyError Bool :=
  match Triggers.addOrReplace A s.agenda id expression with
  | .ok (armed, agenda) => ({ s with agenda }, .ok armed)
  | .error e => (s, .error e)

def addOrReplaceFromDb (db : Database) (id : ℕ) (s : CronScheduler A) :
    CronScheduler A × Except PyError Bool :=
  match db.liveJob id with
  | none => (removeIfArmed id s, .ok false)
  | some job =>
    if !job.isActive then (removeIfArmed id s, .ok false)
    else if id ∉ db.listEligibleForScheduling.map Prod.fst then (removeIfArmed id s, .ok false)
    else s.addOrReplace id job.scheduleExpression

def notifyJobChanged (db : Database) (id : ℕ)
    (s : CronScheduler A) : CronScheduler A × Except PyError Unit :=
  if s.running then
    let (s, outcome) := addOrReplaceFromDb db id s
    (s, discard outcome)
  else (s, .ok ())

def notifyJobRemoved (id : ℕ) (s : CronScheduler A) : CronScheduler A :=
  if s.running then removeIfArmed id s else s

def resync (db : Database) (s : CronScheduler A) : CronScheduler A × Except PyError Unit :=
  if s.running then
    let (s, outcome) := syncFromDb db s
    (s, discard outcome)
  else (s, .ok ())

end CronPanel.Scheduler.Service
