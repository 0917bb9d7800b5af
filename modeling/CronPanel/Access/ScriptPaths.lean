import CronPanel.Access.Writes
import CronPanel.Scheduler.Eligibility

namespace CronPanel.Access.ScriptPaths

open Library.Strings Library.JsonData Library.Tables Library.Fallible Library.Run
open Core.Permissions Core.Security Data.Records Data.Repositories Schemas.Bodies Execution.Policy
open Services.Audit Services.CronJobs Services.Scripts Services.Executions Scheduler.Jobs
open Api.Errors Api.Operations Api.Executions Api.Frames Api.Requests Scheduler.Eligibility Panel
open Writes

/-- The table `scripts` as the models define it, and as the migrations do, whose column `path`
has no unique constraint. -/
inductive Schema
  | createAll | migrations
  deriving DecidableEq, Repr

def Schema.rejects (schema : Schema) (db : Database) (scriptId : ℕ) (path : Text) : Bool :=
  match schema with
  | createAll => pathTaken db scriptId path
  | migrations => false

/-- `create_script` on a schema. -/
def createScriptOn (schema : Schema) (call : Call) (host : Host) (body : ScriptCreate)
    (db : Database) : Except ScriptError (ℕ × Database) := do
  let validated ← canonicalize host body.path
  if (db.scriptByName body.name).isSome then .error .nameConflict
  else
    let script : Script :=
      { name := body.name
        description := body.description
        path := validated.text
        isEnabled := true
        isDeleted := false
        createdBy := some call.actor.id
        createdAt := call.now
        updatedAt := call.now }
    if schema.rejects db db.scripts.nextId script.path then .error .integrity
    else
      let (id, scripts) := db.scripts.insert script
      .ok (id, recordScriptEvent call .scriptCreated id
        [("name".toList, .text script.name), ("path".toList, .text script.path)] { db with scripts })

/-- `update_script` on a schema. -/
def updateScriptOn (schema : Schema) (call : Call) (host : Host) (scriptId : ℕ)
    (body : ScriptUpdate) (db : Database) : Except ScriptError Database := do
  let script ← getScript db scriptId
  let (edited, changes) ← editScript db host scriptId body script
  if changes = [] then .ok db
  else if schema.rejects db scriptId edited.path then .error .integrity
  else
    let stored := if edited = script then script else { edited with updatedAt := call.now }
    .ok (recordScriptUpdate call scriptId script edited changes
      { db with scripts := db.scripts.set scriptId stored })

theorem createScriptOn_createAll : createScriptOn .createAll = Services.Scripts.createScript := rfl

theorem updateScriptOn_createAll : updateScriptOn .createAll = Services.Scripts.updateScript := rfl

/-- A request for a script that is let through, with its body. -/
def scriptCall {α : Type} (db : Database) (sender : Sender) (permission : Permission)
    (body : Except (List FieldError) α) : Except HttpError (Call × α) := do
  let call ← requirePermission db sender permission
  let body ← checkBody body
  .ok (call, body)

def commitOn (schema : Schema) (db : Database) : Operation → Except HttpError Database
  | .createScript sender host body => do
    let r ← scriptCall db sender .scriptsCreate body.validate
    (Prod.snd <$> createScriptOn schema r.1 host r.2 db).mapError ofScriptError
  | .updateScript sender host id body => do
    let r ← scriptCall db sender .scriptsUpdate body.validate
    (updateScriptOn schema r.1 host id r.2 db).mapError ofScriptError
  | op => Prod.fst <$> op.commit db

theorem commitOn_createAll (db : Database) (op : Operation) :
    commitOn .createAll db op = Prod.fst <$> op.commit db := by
  cases op with
  | createScript sender host body =>
    simp only [commitOn, Operation.commit, Api.Operations.createScript, scriptCall,
      createScriptOn_createAll]
    cases hcall : requirePermission db sender .scriptsCreate with
    | error e => rfl
    | ok call =>
      cases hbody : checkBody body.validate with
      | error e => rfl
      | ok checked =>
        simp only [ok_bind]
        cases Services.Scripts.createScript call host checked db <;> rfl
  | updateScript sender host id body =>
    simp only [commitOn, Operation.commit, Api.Operations.updateScript, scriptCall,
      updateScriptOn_createAll]
    cases hcall : requirePermission db sender .scriptsUpdate with
    | error e => rfl
    | ok call =>
      cases hbody : checkBody body.validate with
      | error e => rfl
      | ok checked =>
        simp only [ok_bind]
        cases Services.Scripts.updateScript call host id checked db <;> rfl
  | _ => rfl

variable (bcrypt : Bcrypt) (settings : Settings) (schema : Schema)

/-- The requests of the panel on a database with a schema. -/
def serveOn (db : Database) : Request → Database × Except HttpError Unit
  | .edit op => answer db (commitOn schema db op)
  | r => r.serve bcrypt settings db

def stepOn (db : Database) (r : Request) : Option Database :=
  some (serveOn bcrypt settings schema db r).1

theorem stepOn_createAll : stepOn bcrypt settings .createAll = step bcrypt settings := by
  funext db r
  cases r with
  | edit op =>
    change some (answer db (commitOn .createAll db op)).1 = _
    rw [commitOn_createAll]
    rfl
  | _ => rfl

/-- What the service makes of a request to register or change a script that is let through. -/
def scriptResult (db : Database) : Request → Option (Except ScriptError Database)
  | .edit (.createScript sender host body) =>
    (scriptCall db sender .scriptsCreate body.validate).toOption.map fun r ↦
      Prod.snd <$> createScriptOn schema r.1 host r.2 db
  | .edit (.updateScript sender host id body) =>
    (scriptCall db sender .scriptsUpdate body.validate).toOption.map fun r ↦
      updateScriptOn schema r.1 host id r.2 db
  | _ => none

/-- A request that passes every check of the service, with a path that resolves to the path of
another script. -/
def Duplicates (db : Database) : Request → Prop
  | .edit (.createScript sender host body) => ∃ call checked path,
      scriptCall db sender .scriptsCreate body.validate = .ok (call, checked) ∧
      canonicalizeScriptPath host checked.path = .ok path ∧ db.scriptByName checked.name = none ∧
      pathTaken db db.scripts.nextId path.text
  | .edit (.updateScript sender host id body) => ∃ call checked script raw path,
      scriptCall db sender .scriptsUpdate body.validate = .ok (call, checked) ∧
      db.liveScript id = some script ∧ Succeeds (setName db id checked.name script.name) ∧
      checked.path = some raw ∧ raw ≠ script.path ∧
      canonicalizeScriptPath host raw = .ok path ∧ pathTaken db id path.text
  | _ => False

/-- No two scripts, deleted or not, have one path. -/
def DistinctPaths (db : Database) : Prop := (db.scripts.rows.map fun r ↦ r.2.path).Nodup

instance (db : Database) : Decidable (DistinctPaths db) :=
  inferInstanceAs (Decidable (List.Nodup _))

/-- The scripts keep their paths. -/
def SamePaths (db db' : Database) : Prop :=
  ∀ k, (db'.scripts.get? k).map (fun script ↦ script.path) =
    (db.scripts.get? k).map fun script ↦ script.path

/-- What a flush of one script with a path comes to on a schema. -/
def Flushed (schema : Schema) (db : Database) (id : ℕ) (path : Text)
    (result : Except ScriptError Database) : Prop :=
  if schema.rejects db id path then result = .error .integrity
  else ∃ db' stored, result = .ok db' ∧ db'.scripts = db.scripts.set id stored ∧ stored.path = path

section

variable {schema : Schema} {db db' : Database} {call : Call} {host : Host} {id : ℕ}

theorem pathTaken_iff {path : Text} : pathTaken db id path ↔
    ∃ j script, j ≠ id ∧ db.scripts.get? j = some script ∧ script.path = path := by
  simp only [pathTaken, List.any_eq_true, Prod.exists, Table.mem_rows, decide_eq_true_eq]
  constructor
  · intro h
    obtain ⟨j, script, hget, hj, hpath⟩ := h
    exact ⟨j, script, hj, hget, hpath⟩
  · intro h
    obtain ⟨j, script, hj, hget, hpath⟩ := h
    exact ⟨j, script, hget, hj, hpath⟩

theorem SamePaths.of_scripts (h : db'.scripts = db.scripts) : SamePaths db db' := fun _ ↦ by rw [h]

theorem DistinctPaths.of_same (h : DistinctPaths db) (hsame : SamePaths db db') :
    DistinctPaths db' := by
  apply Table.nodup_map_iff.mpr
  intro j k a b ha hb hpath
  have hj := hsame j
  have hk := hsame k
  rw [ha] at hj
  rw [hb] at hk
  obtain ⟨a', ha', hpatha⟩ := Option.map_eq_some_iff.mp hj.symm
  obtain ⟨b', hb', hpathb⟩ := Option.map_eq_some_iff.mp hk.symm
  exact Table.nodup_map_iff.mp h j k a' b' ha' hb' (hpatha.trans (hpath.trans hpathb.symm))

theorem DistinctPaths.own (h : DistinctPaths db) {script : Script}
    (hget : db.scripts.get? id = some script) : ¬pathTaken db id script.path := by
  intro htaken
  obtain ⟨j, other, hj, hother, hpath⟩ := pathTaken_iff.mp htaken
  exact hj (Table.nodup_map_iff.mp h j id other script hother hget hpath)

theorem distinctPaths_set (h : DistinctPaths db) {stored : Script}
    (hscripts : db'.scripts = db.scripts.set id stored) :
    DistinctPaths db' ↔ ¬pathTaken db id stored.path := by
  constructor
  · intro h' htaken
    obtain ⟨j, other, hj, hother, hpath⟩ := pathTaken_iff.mp htaken
    refine hj (Table.nodup_map_iff.mp h' j id other stored ?_ ?_ hpath)
    · rw [hscripts, Table.get?_set_ne _ _ hj, hother]
    · rw [hscripts, Table.get?_set_self]
  · intro hfree
    apply Table.nodup_map_iff.mpr
    intro j k a b ha hb hpath
    rw [hscripts, Table.get?_set] at ha hb
    split_ifs at ha hb with hj hk hk
    · exact hj.trans hk.symm
    · obtain rfl := Option.some.inj ha
      exact absurd (pathTaken_iff.mpr ⟨k, b, hk, hb, hpath.symm⟩) hfree
    · obtain rfl := Option.some.inj hb
      exact absurd (pathTaken_iff.mpr ⟨j, a, hj, ha, hpath⟩) hfree
    · exact Table.nodup_map_iff.mp h j k a b ha hb hpath

theorem rejects_of_free {path : Text} (h : ¬pathTaken db id path) :
    schema.rejects db id path = false := by
  cases schema with
  | createAll => exact Bool.eq_false_iff.mpr h
  | migrations => rfl

theorem Flushed.kept {path : Text} {result : Except ScriptError Database}
    (h : Flushed schema db id path result) (hdb : DistinctPaths db)
    (hfree : ¬pathTaken db id path) :
    ∃ db', result = .ok db' ∧ DistinctPaths db' := by
  unfold Flushed at h
  rw [rejects_of_free hfree, if_neg Bool.false_ne_true] at h
  obtain ⟨db', stored, hresult, hscripts, rfl⟩ := h
  exact ⟨db', hresult, (distinctPaths_set hdb hscripts).mpr hfree⟩

theorem Flushed.broken {path : Text} {result : Except ScriptError Database}
    (h : Flushed schema db id path result) (hdb : DistinctPaths db)
    (htaken : pathTaken db id path) :
    result = .error .integrity ∨ ∃ db', result = .ok db' ∧ ¬DistinctPaths db' := by
  unfold Flushed at h
  split_ifs at h
  · exact .inl h
  · obtain ⟨db', stored, hresult, hscripts, rfl⟩ := h
    exact .inr ⟨db', hresult, fun hdistinct ↦ (distinctPaths_set hdb hscripts).mp hdistinct htaken⟩

theorem canonicalize_cases (host : Host) (raw : Text) :
    (∃ path, canonicalizeScriptPath host raw = .ok path ∧ canonicalize host raw = .ok path) ∨
      ∃ e, canonicalize host raw = .error (.path e) := by
  unfold canonicalize
  cases canonicalizeScriptPath host raw with
  | error e => exact .inr ⟨e, rfl⟩
  | ok path => exact .inl ⟨path, rfl, rfl⟩

/-- Registering a script under a name that is free flushes the path it resolved. -/
theorem createScriptOn_path {body : ScriptCreate} {path : Path}
    (hpath : canonicalizeScriptPath host body.path = .ok path)
    (hname : db.scriptByName body.name = none) :
    Flushed schema db db.scripts.nextId path.text
      (Prod.snd <$> createScriptOn schema call host body db) := by
  have hcanonical : canonicalize host body.path = .ok path := by
    unfold canonicalize
    rw [hpath]
  unfold createScriptOn Flushed
  rw [hcanonical, ok_bind, hname, Option.isSome_none, if_neg Bool.false_ne_true]
  dsimp only
  split_ifs
  · rfl
  · exact ⟨_, _, rfl, rfl, rfl⟩

theorem createScriptOn_cases (schema : Schema) (call : Call) (host : Host) (body : ScriptCreate)
    (db : Database) :
    (∃ e, createScriptOn schema call host body db = .error e ∧ e ≠ .integrity) ∨
      ∃ path, canonicalizeScriptPath host body.path = .ok path ∧
        db.scriptByName body.name = none := by
  obtain ⟨path, hpath, hcanonical⟩ | ⟨e, hcanonical⟩ := canonicalize_cases host body.path
  · cases hname : db.scriptByName body.name with
    | some other =>
      left
      refine ⟨.nameConflict, ?_, by simp⟩
      unfold createScriptOn
      rw [hcanonical, ok_bind, hname]
      rfl
    | none => exact .inr ⟨path, hpath, rfl⟩
  · left
    refine ⟨.path e, ?_, by simp⟩
    unfold createScriptOn
    rw [hcanonical]
    rfl

theorem stored_path {call : Call} {script edited : Script} :
    (if edited = script then script else { edited with updatedAt := call.now }).path =
      edited.path := by
  split_ifs with h
  · rw [h]
  · rfl

theorem setPath_cases (host : Host) (new : Option Text) (old : Text) :
    setPath host new old = .ok (old, []) ∨ (∃ e, setPath host new old = .error (.path e)) ∨
      ∃ raw path, new = some raw ∧ raw ≠ old ∧ canonicalizeScriptPath host raw = .ok path := by
  cases new with
  | none => exact .inl rfl
  | some raw =>
    unfold setPath
    dsimp only
    split_ifs with hsame
    · exact .inl rfl
    · obtain ⟨path, hpath, -⟩ | ⟨e, hcanonical⟩ := canonicalize_cases host raw
      · exact .inr (.inr ⟨raw, path, rfl, hsame, hpath⟩)
      · rw [hcanonical]
        exact .inr (.inl ⟨e, rfl⟩)

theorem updateScriptOn_edit {body : ScriptUpdate} {script : Script}
    (hlive : db.liveScript id = some script) :
    updateScriptOn schema call host id body db = (editScript db host id body script).bind fun r ↦
      if r.2 = [] then .ok db
      else if schema.rejects db id r.1.path then .error .integrity
      else .ok (recordScriptUpdate call id script r.1 r.2
        { db with scripts := db.scripts.set id
                    (if r.1 = script then script else { r.1 with updatedAt := call.now }) }) := by
  have hget : getScript db id = .ok script := by
    unfold getScript
    rw [hlive]
    rfl
  unfold updateScriptOn
  rw [hget, ok_bind]
  rfl

theorem updateScriptOn_flushed {body : ScriptUpdate} {script edited : Script}
    {changes : List Change}
    (hlive : db.liveScript id = some script)
    (hedit : editScript db host id body script = .ok (edited, changes)) (hchanges : changes ≠ []) :
    Flushed schema db id edited.path (updateScriptOn schema call host id body db) := by
  rw [updateScriptOn_edit hlive, hedit]
  change Flushed _ _ _ _ (if changes = [] then _ else _)
  rw [if_neg hchanges]
  unfold Flushed
  by_cases hrejects : schema.rejects db id edited.path
  · rw [if_pos hrejects, if_pos hrejects]
  · rw [if_neg hrejects, if_neg hrejects]
    exact ⟨_, _, rfl, recordScriptUpdate_scripts _ _ _, stored_path⟩

/-- An update that gets as far as a new path flushes the path it resolved. -/
theorem updateScriptOn_path {body : ScriptUpdate} {script : Script} {raw : Text} {path : Path}
    (hlive : db.liveScript id = some script)
    (hname : Succeeds (setName db id body.name script.name))
    (hraw : body.path = some raw) (hne : raw ≠ script.path)
    (hpath : canonicalizeScriptPath host raw = .ok path) :
    Flushed schema db id path.text (updateScriptOn schema call host id body db) := by
  obtain ⟨named, hnamed⟩ := hname
  have hset : setPath host body.path script.path =
      .ok (path.text, [⟨"path".toList, .text script.path, .text path.text⟩]) := by
    rw [hraw]
    unfold setPath canonicalize
    dsimp only
    rw [if_neg hne, hpath]
    rfl
  have hedit : ∃ edited changes, editScript db host id body script = .ok (edited, changes) ∧
      edited.path = path.text ∧ changes ≠ [] := by
    unfold editScript
    rw [hnamed, hset]
    exact ⟨_, _, rfl, rfl, by simp⟩
  obtain ⟨edited, changes, hedit, hstored, hchanges⟩ := hedit
  rw [← hstored]
  exact updateScriptOn_flushed hlive hedit hchanges

/-- An update fails for a reason of its own, leaves the script or its path as they were, or gets
as far as a new path. -/
theorem updateScriptOn_cases (schema : Schema) (call : Call) (host : Host) (id : ℕ)
    (body : ScriptUpdate) (db : Database) :
    (∃ e, updateScriptOn schema call host id body db = .error e ∧ e ≠ .integrity) ∨
      updateScriptOn schema call host id body db = .ok db ∨
      ∃ script, db.liveScript id = some script ∧
        (Flushed schema db id script.path (updateScriptOn schema call host id body db) ∨
          Succeeds (setName db id body.name script.name) ∧ ∃ raw path, body.path = some raw ∧
            raw ≠ script.path ∧ canonicalizeScriptPath host raw = .ok path) := by
  cases hlive : db.liveScript id with
  | none =>
    left
    refine ⟨.notFound, ?_, by simp⟩
    unfold updateScriptOn getScript
    rw [hlive]
    rfl
  | some script =>
    cases hname : setName db id body.name script.name with
    | error e =>
      left
      refine ⟨.nameConflict, ?_, by simp⟩
      have he : e = .nameConflict := by
        unfold setName at hname
        dsimp only at hname
        split_ifs at hname
        exact (Except.error.inj hname).symm
      rw [updateScriptOn_edit hlive]
      unfold editScript
      rw [hname, he]
      rfl
    | ok named =>
      obtain hsame | ⟨e, herror⟩ | hresolved := setPath_cases host body.path script.path
      · have hedit : ∃ edited changes, editScript db host id body script = .ok (edited, changes) ∧
            edited.path = script.path := by
          unfold editScript
          rw [hname, hsame]
          exact ⟨_, _, rfl, rfl⟩
        obtain ⟨edited, changes, hedit, hpath⟩ := hedit
        by_cases hchanges : changes = []
        · right
          left
          rw [updateScriptOn_edit hlive, hedit, hchanges]
          rfl
        · exact .inr (.inr ⟨script, rfl, .inl (hpath ▸ updateScriptOn_flushed hlive hedit hchanges)⟩)
      · left
        refine ⟨.path e, ?_, by simp⟩
        rw [updateScriptOn_edit hlive]
        unfold editScript
        rw [hname, herror]
        rfl
      · exact .inr (.inr ⟨script, rfl, .inr ⟨⟨named, hname⟩, hresolved⟩⟩)

/-- A request that does not give a script the path of another keeps the paths distinct, and ends in
no integrity error. -/
theorem scriptResult_kept (hdb : DistinctPaths db) {r : Request}
    {result : Except ScriptError Database}
    (h : scriptResult schema db r = some result) (hfree : ¬Duplicates db r) :
    (∃ e, result = .error e ∧ e ≠ .integrity) ∨ ∃ db', result = .ok db' ∧ DistinctPaths db' := by
  cases r with
  | edit op =>
    cases op with
    | createScript sender host body =>
      obtain ⟨⟨call, checked⟩, hcall, rfl⟩ := Option.map_eq_some_iff.mp h
      obtain ⟨e, herror, hne⟩ | ⟨path, hpath, hname⟩ :=
        createScriptOn_cases schema call host checked db
      · exact .inl ⟨e, by rw [herror]; rfl, hne⟩
      · refine .inr ((createScriptOn_path hpath hname).kept hdb ?_)
        intro htaken
        exact hfree ⟨call, checked, path, toOption_eq_some.mp hcall, hpath, hname, htaken⟩
    | updateScript sender host id body =>
      obtain ⟨⟨call, checked⟩, hcall, rfl⟩ := Option.map_eq_some_iff.mp h
      obtain herror | hsame | ⟨script, hlive, hflushed | ⟨hname, raw, path, hraw, hne, hpath⟩⟩ :=
        updateScriptOn_cases schema call host id checked db
      · exact .inl herror
      · exact .inr ⟨db, hsame, hdb⟩
      · exact .inr (hflushed.kept hdb (hdb.own (Database.liveScript_eq_some.mp hlive).1))
      · refine .inr ((updateScriptOn_path hlive hname hraw hne hpath).kept hdb ?_)
        intro htaken
        exact hfree ⟨call, checked, script, raw, path, toOption_eq_some.mp hcall, hlive, hname,
          hraw, hne, hpath, htaken⟩
    | _ => cases h
  | _ => cases h

theorem scriptResult_broken (schema : Schema) (hdb : DistinctPaths db) {r : Request}
    (h : Duplicates db r) : ∃ result, scriptResult schema db r = some result ∧
      (result = .error .integrity ∨ ∃ db', result = .ok db' ∧ ¬DistinctPaths db') := by
  cases r with
  | edit op =>
    cases op with
    | createScript sender host body =>
      obtain ⟨call, checked, path, hcall, hpath, hname, htaken⟩ := h
      exact ⟨_, by rw [scriptResult, hcall]; rfl,
        (createScriptOn_path hpath hname).broken hdb htaken⟩
    | updateScript sender host id body =>
      obtain ⟨call, checked, script, raw, path, hcall, hlive, hname, hraw, hne, hpath, htaken⟩ := h
      exact ⟨_, by rw [scriptResult, hcall]; rfl,
        (updateScriptOn_path hlive hname hraw hne hpath).broken hdb htaken⟩
    | _ => cases h
  | _ => cases h

end

section Runs

variable {schema : Schema} {db db' : Database}

theorem scriptCall_result {α : Type} {sender : Sender} {permission : Permission}
    {body : Except (List FieldError) α} {service : Call × α → Except ScriptError Database}
    {result : Except ScriptError Database}
    (h : (scriptCall db sender permission body).toOption.map service = some result) :
    (do
      let r ← scriptCall db sender permission body
      (service r).mapError ofScriptError) = result.mapError ofScriptError := by
  obtain ⟨r, hr, rfl⟩ := Option.map_eq_some_iff.mp h
  rw [toOption_eq_some.mp hr]
  rfl

theorem serveOn_result {r : Request} {result : Except ScriptError Database}
    (h : scriptResult schema db r = some result) :
    (serveOn bcrypt settings schema db r).1 = (answer db (result.mapError ofScriptError)).1 := by
  cases r with
  | edit op =>
    cases op with
    | createScript sender host body =>
      change (answer db (commitOn schema db _)).1 = _
      rw [commitOn, scriptCall_result h]
    | updateScript sender host id body =>
      change (answer db (commitOn schema db _)).1 = _
      rw [commitOn, scriptCall_result h]
    | _ => cases h
  | _ => cases h

theorem answer_same {result : Except HttpError Database}
    (h : ∀ db', result = .ok db' → SamePaths db db') : SamePaths db (answer db result).1 := by
  cases result with
  | error e => exact .of_scripts rfl
  | ok db' => exact h db' rfl

theorem account_same (db : Database) (r : AccountRequest) :
    SamePaths db (r.serve bcrypt settings db).1 := by
  intro k
  have hscripts := (serve_frame bcrypt settings db r).scripts
  have hget := congrArg (fun t ↦ (t.get? k).map fun script ↦ script.path) hscripts
  simp only [Table.get?_map, Option.map_map] at hget
  exact hget

theorem deleteScript_paths {call : Call} {id : ℕ}
    (h : Services.Scripts.deleteScript call id db = .ok db') : SamePaths db db' := by
  obtain ⟨script, hscript, h⟩ := bind_eq_ok.mp h
  have hget := (Database.liveScript_eq_some.mp (getScript_ok hscript)).1
  split_ifs at h
  cases h
  intro k
  change ((db.scripts.set id _).get? k).map _ = _
  rw [Table.get?_set]
  split_ifs with hk
  · rw [hk, hget]
    rfl
  · rfl

/-- An edit that does not get as far as registering or changing a script keeps every path. -/
theorem commitOn_same {op : Operation} (hnone : scriptResult schema db (.edit op) = none)
    (h : commitOn schema db op = .ok db') : SamePaths db db' := by
  cases op with
  | createCronJob sender body =>
    obtain ⟨⟨db₁, n⟩, hc, rfl⟩ := map_eq_ok.mp h
    obtain ⟨⟨id, db₂⟩, hcreate, hr⟩ := bind_eq_ok.mp hc
    cases hr
    obtain ⟨s, -, -, -, hscripts, -⟩ := createCronJob_commit hcreate
    exact .of_scripts hscripts
  | updateCronJob sender id body =>
    obtain ⟨⟨db₁, n⟩, hc, rfl⟩ := map_eq_ok.mp h
    obtain ⟨db₂, hupdate, hr⟩ := bind_eq_ok.mp hc
    cases hr
    obtain ⟨-, hscripts, -⟩ := updateCronJob_commit hupdate
    exact .of_scripts hscripts
  | updateCronJobStatus sender id isActive =>
    obtain ⟨⟨db₁, n⟩, hc, rfl⟩ := map_eq_ok.mp h
    obtain ⟨call, -, hc⟩ := commit_ok hc
    exact .of_scripts (updateCronJobStatus_ok hc).1
  | deleteCronJob sender id =>
    obtain ⟨⟨db₁, n⟩, hc, rfl⟩ := map_eq_ok.mp h
    obtain ⟨call, -, hc⟩ := commit_ok hc
    exact .of_scripts (deleteCronJob_ok hc).1
  | createScript sender host body =>
    obtain ⟨r, hr, -⟩ := bind_eq_ok.mp h
    rw [scriptResult, hr] at hnone
    cases hnone
  | updateScript sender host id body =>
    obtain ⟨r, hr, -⟩ := bind_eq_ok.mp h
    rw [scriptResult, hr] at hnone
    cases hnone
  | deleteScript sender id =>
    obtain ⟨⟨db₁, n⟩, hc, rfl⟩ := map_eq_ok.mp h
    obtain ⟨call, -, hc⟩ := commit_ok hc
    exact deleteScript_paths hc

/-- A request that does not get as far as the service of the scripts keeps every path. -/
theorem serveOn_same {r : Request} (h : scriptResult schema db r = none) :
    SamePaths db (serveOn bcrypt settings schema db r).1 := by
  cases r with
  | account r => exact account_same bcrypt settings db r
  | edit op =>
    apply answer_same
    intro db' hc
    exact commitOn_same h hc
  | execute env sender jobId => exact .of_scripts (execute_frame env sender jobId db).scripts
  | fire env jobId => exact .of_scripts (runScheduledJob_frame env jobId db).scripts

theorem serveOn_kept (hdb : DistinctPaths db) {r : Request} (hfree : ¬Duplicates db r) :
    DistinctPaths (serveOn bcrypt settings schema db r).1 ∧
      scriptResult schema db r ≠ some (.error .integrity) := by
  cases hr : scriptResult schema db r with
  | none => exact ⟨hdb.of_same (serveOn_same bcrypt settings hr), by simp⟩
  | some result =>
    rw [serveOn_result bcrypt settings hr]
    obtain ⟨e, rfl, hne⟩ | ⟨db', rfl, hdistinct⟩ := scriptResult_kept hdb hr hfree
    · exact ⟨hdb, by simpa using hne⟩
    · exact ⟨hdistinct, by simp⟩

/-- On either schema the paths stay distinct along a run, and no request to register or change a
script ends in an integrity error, exactly when no such request that passes the checks of the
service has a path that resolves to the path of another script. -/
theorem distinct_paths_iff (schema : Schema) {db : Database} (hdb : DistinctPaths db)
    (rs : List Request) :
    Always (stepOn bcrypt settings schema) DistinctPaths db rs ∧
        Guarded (stepOn bcrypt settings schema)
          (fun db r ↦ scriptResult schema db r ≠ some (.error .integrity)) db rs ↔
      Guarded (stepOn bcrypt settings schema) (fun db r ↦ ¬Duplicates db r) db rs := by
  refine always_and_guarded_iff ?_ ?_ ?_ rs hdb
  · intro s r t hs hfree hstep
    obtain rfl := Option.some.inj hstep
    exact (serveOn_kept bcrypt settings hs hfree).1
  · intro s r hs hfree
    exact (serveOn_kept bcrypt settings hs hfree).2
  · intro s r hs hduplicates
    obtain ⟨result, hr, rfl | ⟨db', rfl, hnot⟩⟩ :=
        scriptResult_broken schema hs (not_not.mp hduplicates)
    · exact .inl fun hne ↦ hne hr
    · refine .inr ⟨_, rfl, ?_⟩
      rw [serveOn_result bcrypt settings hr]
      exact hnot

end Runs

section Sample

def sampleUser (username email : Text) (role : Role) : User :=
  { username
    email
    hashedPassword := []
    isActive := true
    role
    createdAt := 0
    updatedAt := 0
    lastLoginAt := none
    tokensInvalidBefore := none }

def sample : Database :=
  { Database.seeded with users := Table.empty.set 1 (sampleUser "ana".toList "ana@example.com".toList .admin) }

/-- The file system holds one script, which every path leads to. -/
def sampleHost : Host where
  win32 := false
  sysExecutable := "/usr/bin/python3".toList
  scriptsDir := ["scripts".toList]
  resolve _ := .ok ["scripts".toList, "backup.py".toList]
  isFile _ := true
  executable _ := true

def sampleBcrypt : Bcrypt := ⟨fun password salt ↦ .ok (salt ++ password), fun _ _ ↦ false⟩

/-- One file under two names, each written in its own way. -/
def sampleRequests : List Request :=
  [.edit (.createScript ⟨1, 0, none⟩ sampleHost
      { name := "backup".toList, description := none, path := "/scripts/backup.py".toList }),
    .edit (.createScript ⟨1, 1, none⟩ sampleHost
      { name := "again".toList, description := none, path := "/scripts/./backup.py".toList })]

theorem paths_not_distinct :
    ¬(Always (stepOn sampleBcrypt ⟨60, 10⟩ .migrations) DistinctPaths sample sampleRequests) ∧
      ¬(Guarded (stepOn sampleBcrypt ⟨60, 10⟩ .createAll)
        (fun db r ↦ scriptResult .createAll db r ≠ some (.error .integrity)) sample
        sampleRequests) := by
  constructor
  · intro h
    have hlast : (exec (stepOn sampleBcrypt ⟨60, 10⟩ .migrations) sample sampleRequests).map
        (fun db ↦ decide (DistinctPaths db)) = some false := by decide
    obtain ⟨db, hdb, hdata⟩ := Option.map_eq_some_iff.mp hlast
    exact of_decide_eq_false hdata (h.last hdb)
  · intro h
    obtain ⟨hsecond, -⟩ := h.2 _ rfl
    exact hsecond rfl

/-- The first of the two requests meets the condition. -/
theorem distinct_paths_sample :
    Always (stepOn sampleBcrypt ⟨60, 10⟩ .migrations) DistinctPaths sample (sampleRequests.take 1) ∧
      Guarded (stepOn sampleBcrypt ⟨60, 10⟩ .migrations)
        (fun db r ↦ scriptResult .migrations db r ≠ some (.error .integrity)) sample
        (sampleRequests.take 1) := by
  refine (distinct_paths_iff sampleBcrypt ⟨60, 10⟩ .migrations (by decide) _).mpr
    ⟨?_, fun _ _ ↦ trivial⟩
  intro hduplicates
  obtain ⟨call, checked, path, -, -, -, htaken⟩ := hduplicates
  cases htaken

end Sample

end CronPanel.Access.ScriptPaths
