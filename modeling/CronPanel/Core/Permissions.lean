import CronPanel.Library.Strings

namespace CronPanel.Core.Permissions

open Library.Strings

inductive Permission
  | usersRead | usersCreate | usersUpdate | usersDelete
  | cronJobsRead | cronJobsCreate | cronJobsUpdate | cronJobsEnable | cronJobsDelete
  | tasksRead | tasksCreate | tasksUpdate | tasksDelete | tasksExecute
  | scriptsRead | scriptsCreate | scriptsUpdate | scriptsDelete | scriptsExecute
  | executionsRead | executionsExecute
  | auditRead
  | schedulerRead
  | settingsRead | settingsUpdate
  deriving DecidableEq, Repr

namespace Permission

def all : List Permission :=
  [usersRead, usersCreate, usersUpdate, usersDelete,
    cronJobsRead, cronJobsCreate, cronJobsUpdate, cronJobsEnable, cronJobsDelete,
    tasksRead, tasksCreate, tasksUpdate, tasksDelete, tasksExecute,
    scriptsRead, scriptsCreate, scriptsUpdate, scriptsDelete, scriptsExecute,
    executionsRead, executionsExecute, auditRead, schedulerRead, settingsRead, settingsUpdate]

end Permission

open Permission

inductive Role
  | admin | operator | viewer
  deriving DecidableEq, Repr

def Role.name : Role → Text
  | admin => "admin".toList
  | operator => "operator".toList
  | viewer => "viewer".toList

def getRolePermissions : Role → List Permission
  | .admin => Permission.all
  | .operator =>
    [cronJobsRead, cronJobsCreate, cronJobsUpdate, cronJobsEnable, tasksRead, tasksCreate,
      tasksUpdate, tasksDelete, tasksExecute, scriptsRead, executionsRead, executionsExecute]
  | .viewer => [cronJobsRead, tasksRead, scriptsRead, executionsRead]

def hasPermission (role : Role) (permission : Permission) : Bool :=
  permission ∈ getRolePermissions role

def isFullAccessRole (role : Role) : Bool := Permission.all.all (hasPermission role)

end CronPanel.Core.Permissions
