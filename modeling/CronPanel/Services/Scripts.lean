import CronPanel.Services.CronJobs
import CronPanel.Execution.Policy

namespace CronPanel.Services.Scripts

open Library.Strings Library.JsonData Library.Tables Library.Fallible
open Core.Permissions Data.Records Data.Repositories Schemas.Bodies Execution.Policy Audit CronJobs

/-- The errors of the service; the integrity error is that of the unique path. -/
inductive ScriptError
  | notFound
  | nameConflict
  | inUse
  | path (error : PathError)
  | integrity
  deriving DecidableEq, Repr

def recordScriptEvent (call : Call) (action : AuditAction) (scriptId : ℕ)
    (details : List (Text × Json))
    (db : Database) : Database :=
  recordEvent call.now
    { action
      userId := some call.actor.id
      username := some call.actor.user.username
      resource := some "script".toList
      resourceId := some (decimal scriptId)
      ipAddress := call.ipAddress
      details } db

def getScript (db : Database) (scriptId : ℕ) : Except ScriptError Script :=
  (db.liveScript scriptId).elim (.error .notFound) .ok

/-- The unique constraint on `scripts.path`, as a flush of the row checks it. -/
def pathTaken (db : Database) (scriptId : ℕ) (path : Text) : Bool :=
  db.scripts.rows.any fun r ↦ r.1 ≠ scriptId ∧ r.2.path = path

def canonicalize (host : Host) (path : Text) : Except ScriptError Path :=
  match canonicalizeScriptPath host path with
  | .ok path => .ok path
  | .error e => .error (.path e)

def createScript (call : Call) (host : Host) (body : ScriptCreate) (db : Database) :
    Except ScriptError (ℕ × Database) := do
  let validated ← canonicalize host body.path
  if (db.scriptByName body.name).isSome then .error .nameConflict
  else
    let script : Script :=
      { name := body.name
        description := body.description
        path := validated.text
        isEnabled := true
        isDeleted := false
        createdBy := some call.actor.id
        createdAt := call.now
        updatedAt := call.now }
    if pathTaken db db.scripts.nextId script.path then .error .integrity
    else
      let (id, scripts) := db.scripts.insert script
      .ok (id, recordScriptEvent call .scriptCreated id
        [("name".toList, .text script.name), ("path".toList, .text script.path)] { db with scripts })

def setName (db : Database) (scriptId : ℕ) (new : Option Text) (old : Text) :
    Except ScriptError (Text × List Change) :=
  let taken := new.bind fun name ↦ if name = old then none else db.scriptByName name
  if taken.any fun other ↦ other.1 ≠ scriptId then .error .nameConflict
  else .ok (setField "name".toList .text new old)

/-- The path of `update_script`; the text of the body is compared as it is, and the
resolved one is stored. -/
def setPath (host : Host) (new : Option Text)
    (old : Text) : Except ScriptError (Text × List Change) :=
  match new with
  | none => .ok (old, [])
  | some path =>
    if path = old then .ok (old, [])
    else do
      let validated ← canonicalize host path
      .ok (validated.text, [⟨"path".toList, .text old, .text validated.text⟩])

/-- The row after `update_script`, and what changed. -/
def editScript (db : Database) (host : Host) (scriptId : ℕ) (body : ScriptUpdate)
    (script : Script) :
    Except ScriptError (Script × List Change) := do
  let (name, onName) ← setName db scriptId body.name script.name
  let description :=
    setField "description".toList (ofOption .text) (body.description.map some) script.description
  let (path, onPath) ← setPath host body.path script.path
  let isEnabled := setField "is_enabled".toList .bool body.isEnabled script.isEnabled
  .ok ({ script with name, description := description.1, path, isEnabled := isEnabled.1 },
    onName ++ description.2 ++ onPath ++ isEnabled.2)

def recordScriptUpdate (call : Call) (scriptId : ℕ) (old new : Script) (changes : List Change)
    (db : Database) : Database :=
  let db := recordScriptEvent call .scriptUpdated scriptId
    [("name".toList, .text new.name), ("changed_fields".toList, changedFields changes)] db
  if old.isEnabled = new.isEnabled then db
  else
    recordScriptEvent call (if new.isEnabled then .scriptEnabled else .scriptDisabled) scriptId
      [("name".toList, .text new.name), ("is_enabled".toList, .bool new.isEnabled)] db

def updateScript (call : Call) (host : Host) (scriptId : ℕ) (body : ScriptUpdate) (db : Database) :
    Except ScriptError Database := do
  let script ← getScript db scriptId
  let (edited, changes) ← editScript db host scriptId body script
  if changes = [] then .ok db
  else if pathTaken db scriptId edited.path then .error .integrity
  else
    let stored := if edited = script then script else { edited with updatedAt := call.now }
    .ok (recordScriptUpdate call scriptId script edited changes
      { db with scripts := db.scripts.set scriptId stored })

def deleteScript (call : Call) (scriptId : ℕ) (db : Database) : Except ScriptError Database := do
  let script ← getScript db scriptId
  if db.isReferencedByActiveJob scriptId then .error .inUse
  else
    let deleted := { script with isDeleted := true, updatedAt := call.now }
    .ok (recordScriptEvent call .scriptDeleted scriptId
      [("name".toList, .text script.name), ("path".toList, .text script.path)]
      { db with scripts := db.scripts.set scriptId deleted })

section

variable {call : Call} {host : Host} {db db' : Database} {id : ℕ}

theorem getScript_ok {script : Script} (h : getScript db id = .ok script) :
    db.liveScript id = some script := by
  unfold getScript at h
  cases hl : db.liveScript id with
  | none =>
    rw [hl] at h
    cases h
  | some script' =>
    rw [hl] at h
    cases h
    rfl

theorem recordScriptUpdate_cronJobs (old new : Script) (changes : List Change) :
    (recordScriptUpdate call id old new changes db).cronJobs = db.cronJobs := by
  unfold recordScriptUpdate
  split_ifs <;> rfl

theorem recordScriptUpdate_scripts (old new : Script) (changes : List Change) :
    (recordScriptUpdate call id old new changes db).scripts = db.scripts := by
  unfold recordScriptUpdate
  split_ifs <;> rfl

theorem createScript_ok {body : ScriptCreate} (h : createScript call host body db = .ok (id, db')) :
    id = db.scripts.nextId ∧ db'.cronJobs = db.cronJobs ∧
      ∃ script, db'.scripts = db.scripts.set id script := by
  obtain ⟨validated, -, h⟩ := bind_eq_ok.mp h
  dsimp only at h
  split_ifs at h
  cases h
  exact ⟨rfl, rfl, _, rfl⟩

theorem updateScript_ok {body : ScriptUpdate} (h : updateScript call host id body db = .ok db') :
    db'.cronJobs = db.cronJobs ∧
      ∃ script stored, db.liveScript id = some script ∧ db'.scripts = db.scripts.set id stored := by
  obtain ⟨script, hscript, h⟩ := bind_eq_ok.mp h
  have hlive := getScript_ok hscript
  obtain ⟨⟨edited, changes⟩, -, h⟩ := bind_eq_ok.mp h
  dsimp only at h
  split_ifs at h with hnil htaken
  · cases h
    exact ⟨rfl, script, script, hlive, (Table.set_get? (Database.liveScript_eq_some.mp hlive).1).symm⟩
  all_goals
    cases h
    refine ⟨recordScriptUpdate_cronJobs script edited changes, script, ?_⟩
    rw [recordScriptUpdate_scripts]
    exact ⟨_, hlive, rfl⟩

theorem deleteScript_ok (h : deleteScript call id db = .ok db') :
    db'.cronJobs = db.cronJobs ∧ db.isReferencedByActiveJob id = false ∧
      ∃ script stored, db.liveScript id = some script ∧ db'.scripts = db.scripts.set id stored := by
  obtain ⟨script, hscript, h⟩ := bind_eq_ok.mp h
  split_ifs at h with hused
  cases h
  exact ⟨rfl, Bool.eq_false_iff.mpr hused, script, _, getScript_ok hscript, rfl⟩

end

end CronPanel.Services.Scripts
