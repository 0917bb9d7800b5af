import CronPanel.Services.Audit

namespace CronPanel.Services.Trail

open Library.Strings Library.JsonData Library.Tables Data.Records Data.Repositories Audit

def isExecutionAction : AuditAction → Bool
  | .executionStarted | .executionSucceeded | .executionFailed | .executionTimedOut => true
  | _ => false

/-- The entries with the actions of a kind, oldest first. -/
def logged (p : AuditAction → Bool) (db : Database) : List AuditLog :=
  (db.auditLogs.rows.map Prod.snd).filter fun entry ↦ p entry.action

def executionLog (db : Database) : List AuditLog := logged isExecutionAction db

def isFinal : AuditAction → Bool
  | .executionSucceeded | .executionFailed | .executionTimedOut => true
  | _ => false

def isAbout (k : ℕ) (entry : AuditLog) : Bool :=
  entry.resource = some "execution".toList && entry.resourceId = some (decimal k)

/-- The entries that say that an execution has started. -/
def startedEntries (k : ℕ) (db : Database) : List AuditLog :=
  (executionLog db).filter fun entry ↦ entry.action = .executionStarted && isAbout k entry

/-- The entries that say how an execution has ended. -/
def finalEntries (k : ℕ) (db : Database) : List AuditLog :=
  (executionLog db).filter fun entry ↦ isFinal entry.action && isAbout k entry

/-- What an entry holds under a key of its details. -/
def detail (key : Text) (entry : AuditLog) : Option Json :=
  match entry.details with
  | some (.object entries) => (entries.find? fun e ↦ e.1 = key).map Prod.snd
  | _ => none

theorem logged_recordEvent (p : AuditAction → Bool) (now : Instant) (event : Event)
    (db : Database) :
    logged p (recordEvent now event db) = logged p db ++
      if p event.action then [event.entry now] else [] := by
  unfold logged recordEvent
  rw [Table.rows_insert, List.map_append, List.filter_append]
  congr 1
  by_cases h : p event.action
  · rw [if_pos h]
    exact List.filter_cons_of_pos h
  · rw [if_neg h]
    exact List.filter_cons_of_neg h

theorem logged_other {p : AuditAction → Bool} {event : Event} (h : p event.action = false)
    (now : Instant)
    (db : Database) : logged p (recordEvent now event db) = logged p db := by
  rw [logged_recordEvent, h]
  exact List.append_nil _

/-- An entry counts for the execution it names, and for no other. -/
theorem isAbout_entry (now : Instant) {event : Event} {k : ℕ}
    (hr : event.resource = some "execution".toList)
    (hid : event.resourceId = some (decimal k)) (j : ℕ) :
    isAbout j (event.entry now) = decide (j = k) := by
  have hresource : (event.entry now).resource = some "execution".toList := hr
  have hresourceId : (event.entry now).resourceId = some (decimal k) := hid
  rw [isAbout, hresource, hresourceId, decide_eq_true rfl, Bool.true_and, decide_eq_decide,
    Option.some.injEq]
  constructor
  · intro h
    exact (decimal_inj h).symm
  · intro h
    rw [h]

/-- A new entry about an execution comes last in the trail of that execution. -/
theorem trail_recordEvent (event : Event) {k : ℕ} (he : isExecutionAction event.action)
    (hr : event.resource = some "execution".toList) (hid : event.resourceId = some (decimal k))
    (p : AuditAction → Bool) (now : Instant) (db : Database) (j : ℕ) :
    (executionLog (recordEvent now event db)).filter
      (fun entry ↦ p entry.action && isAbout j entry) =
      (executionLog db).filter (fun entry ↦ p entry.action && isAbout j entry) ++
        if p event.action ∧ j = k then [event.entry now] else [] := by
  have habout := isAbout_entry now hr hid j
  rw [executionLog, executionLog, logged_recordEvent, if_pos he, List.filter_append]
  congr 1
  by_cases h : p event.action ∧ j = k
  · rw [if_pos h]
    apply List.filter_cons_of_pos
    rw [habout, decide_eq_true h.2, Bool.and_true]
    exact h.1
  · rw [if_neg h]
    apply List.filter_cons_of_neg
    intro hboth
    rw [habout, Bool.and_eq_true, decide_eq_true_eq] at hboth
    exact h hboth

/-- The trail has grown by some entries, the oldest of them first. -/
def Appends (db db' : Database) (entries : List AuditLog) : Prop :=
  db'.auditLogs.rows.map Prod.snd = db.auditLogs.rows.map Prod.snd ++ entries

/-- The entries that are new. -/
def newEntries (db db' : Database) : List AuditLog :=
  (db'.auditLogs.rows.map Prod.snd).drop db.auditLogs.rows.length

section Appends

variable {db db₁ db₂ : Database} {entries entries' : List AuditLog}

theorem Appends.newEntries (h : Appends db db₁ entries) : newEntries db db₁ = entries := by
  unfold Trail.newEntries
  rw [h, List.drop_left' (List.length_map _)]

theorem Appends.of_same (h : db₁.auditLogs = db.auditLogs) : Appends db db₁ [] := by
  unfold Appends
  rw [h, List.append_nil]

theorem Appends.trans (h : Appends db db₁ entries) (h' : Appends db₁ db₂ entries') :
    Appends db db₂ (entries ++ entries') := by
  unfold Appends at h h' ⊢
  rw [h', h, List.append_assoc]

theorem appends_event (now : Instant) (event : Event) (db : Database) :
    Appends db (recordEvent now event db) [event.entry now] := by
  unfold Appends recordEvent
  rw [Table.rows_insert, List.map_append]
  rfl

/-- The trail has grown by entries of a kind. -/
def Grows (P : AuditLog → Prop) (db db' : Database) : Prop :=
  ∃ entries, Appends db db' entries ∧ ∀ entry ∈ entries, P entry

variable {P Q : AuditLog → Prop}

theorem Grows.of_same (h : db₁.auditLogs = db.auditLogs) : Grows P db db₁ :=
  ⟨[], .of_same h, fun _ hmem ↦ absurd hmem List.not_mem_nil⟩

theorem Grows.trans (h : Grows P db db₁) (h' : Grows P db₁ db₂) : Grows P db db₂ := by
  obtain ⟨entries, happends, hall⟩ := h
  obtain ⟨entries', happends', hall'⟩ := h'
  refine ⟨entries ++ entries', happends.trans happends', ?_⟩
  intro entry hmem
  rcases List.mem_append.mp hmem with hmem | hmem
  · exact hall entry hmem
  · exact hall' entry hmem

theorem Grows.mono (h : Grows P db db₁) (hPQ : ∀ entry, P entry → Q entry) : Grows Q db db₁ := by
  obtain ⟨entries, happends, hall⟩ := h
  exact ⟨entries, happends, fun entry hmem ↦ hPQ entry (hall entry hmem)⟩

theorem grows_event {now : Instant} {event : Event} (h : P (event.entry now)) (db : Database) :
    Grows P db (recordEvent now event db) :=
  ⟨_, appends_event now event db, fun _ hmem ↦ List.mem_singleton.mp hmem ▸ h⟩

theorem Grows.newEntries (h : Grows P db db₁) : ∀ entry ∈ newEntries db db₁, P entry := by
  obtain ⟨entries, happends, hall⟩ := h
  rw [happends.newEntries]
  exact hall

end Appends

end CronPanel.Services.Trail
