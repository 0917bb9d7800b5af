import CronPanel.Library.Run
import CronPanel.Api.Executions
import CronPanel.Api.Operations
import CronPanel.Api.Requests
import CronPanel.Scheduler.Jobs

namespace CronPanel.Access.Panel

open Library.Run Core.Permissions Core.Security Data.Records Data.Repositories
open Services.CronJobs Services.Executions Scheduler.Jobs Api.Errors Api.Operations Api.Executions Api.Requests

/-- The requests that write, and the calls of the scheduler, each served as a whole. -/
inductive Request
  | account (r : AccountRequest)
  | edit (op : Operation)
  | execute (env : Environment) (sender : Sender) (jobId : ℕ)
  | fire (env : Environment) (jobId : ℕ)

variable (bcrypt : Bcrypt) (settings : Settings)

def Request.serve (db : Database) : Request → Database × Except HttpError Unit
  | account r => r.serve bcrypt settings db
  | edit op => answer db (Prod.fst <$> op.commit db)
  | execute env sender jobId =>
    let (db, outcome) := executeCronJob env sender jobId db
    (db, outcome.map fun _ ↦ ())
  | fire env jobId => (runScheduledJob env jobId db, .ok ())

def step (db : Database) (r : Request) : Option Database := some (r.serve bcrypt settings db).1

theorem requirePermission_ok {db : Database} {sender : Sender} {permission : Permission}
    {call : Call}
    (h : requirePermission db sender permission = .ok call) :
    ∃ user, db.users.get? sender.userId = some user ∧ user.isActive ∧
      hasPermission user.role permission ∧
      call = ⟨⟨sender.userId, user⟩, sender.now, sender.ipAddress⟩ := by
  unfold requirePermission at h
  cases hload : loadUser db sender.userId with
  | none =>
    rw [hload] at h
    cases h
  | some user =>
    rw [hload] at h
    dsimp only at h
    split_ifs at h with hp
    · obtain ⟨hget, hactive⟩ := Option.filter_eq_some_iff.mp hload
      exact ⟨user, hget, hactive, hp, (Except.ok.inj h).symm⟩

end CronPanel.Access.Panel
