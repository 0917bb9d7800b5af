import CronPanel.Core.SlidingWindow
import CronPanel.Library.Run
import CronPanel.Services.Auth

namespace CronPanel.Access.RateBuckets

open Library.Strings Library.Tables Library.Run Core.Security Core.SlidingWindow
open Data.Records Data.Repositories Services.Auth

/-- What `get_client_ip` reads of a request. -/
structure Request where
  xForwardedFor : Option Text
  clientHost : Option Text

def getClientIp (request : Request) : Option Text :=
  match request.xForwardedFor.filter fun forwardedFor ↦ !forwardedFor.isEmpty with
  | some forwardedFor =>
    let firstHop := strip ((forwardedFor.splitOn ',').headD [])
    if firstHop.isEmpty then request.clientHost else some firstHop
  | none => request.clientHost

structure Attempt where
  request : Request
  username : Text
  password : Text

/-- The address and the name under which an attempt is made. -/
abbrev Identity := Option Text × Text

/-- Where an attempt to log in stands in `login`. -/
inductive Stage
  | arrived
  | blocked
  | admitted
  | checked (found : Option (ℕ × User))
  | answered

/-- The panel with the attempts under way, and what `is_blocked` has answered each so far. -/
structure World where
  db : Database
  limiter : Limiter
  stage : ℕ → Stage
  decisions : List (ℕ × Bool)

/-- An attempt makes its next step when the clock of the limiter and the time of day stand so. -/
structure Step where
  attempt : ℕ
  clock : ℚ
  now : Instant

variable (bcrypt : Bcrypt) (lower : Text → Text)

def Attempt.key (attempt : Attempt) : Text :=
  Core.RateLimit.loginRateKey lower (getClientIp attempt.request) attempt.username

def Attempt.identity (attempt : Attempt) : Identity :=
  (getClientIp attempt.request, lower (strip attempt.username))

/-- The steps of `login`, one for each use of the limiter or the database. -/
def step (attempts : ℕ → Attempt) (w : World) (s : Step) : World :=
  let attempt := attempts s.attempt
  match w.stage s.attempt with
  | .arrived =>
    let (blocked, limiter) := w.limiter.isBlocked (attempt.key lower) s.clock
    { w with
      limiter
      stage := Function.update w.stage s.attempt (if blocked then .blocked else .admitted)
      decisions := w.decisions ++ [(s.attempt, blocked)] }
  | .blocked =>
    { w with
      limiter := (w.limiter.secondsUntilUnblocked (attempt.key lower) s.clock).2
      stage := Function.update w.stage s.attempt .answered }
  | .admitted =>
    let (db, found) := authenticateUser bcrypt s.now (getClientIp attempt.request)
      attempt.username attempt.password w.db
    { w with db, stage := Function.update w.stage s.attempt (.checked found) }
  | .checked none =>
    { w with
      limiter := w.limiter.registerFailure (attempt.key lower) s.clock
      stage := Function.update w.stage s.attempt .answered }
  | .checked (some (id, user)) =>
    { w with
      db := { w.db with
        users := w.db.users.set id { user with lastLoginAt := some s.now, updatedAt := s.now } }
      limiter := w.limiter.resetKey (attempt.key lower)
      stage := Function.update w.stage s.attempt .answered }
  | .answered => w

def run (attempts : ℕ → Attempt) : World → List Step → World :=
  List.foldl (step bcrypt lower attempts)

def begin (maxEvents : ℤ) (windowSeconds : ℚ) (db : Database) : World :=
  ⟨db, .fresh maxEvents windowSeconds, fun _ ↦ .arrived, []⟩

/-- What the attempts of an identity were told, in order. -/
def decisionsFor (attempts : ℕ → Attempt) (identity : Identity) (w : World) : List (ℕ × Bool) :=
  w.decisions.filter fun d ↦ (attempts d.1).identity lower = identity

/-- No run of attempts, however their steps follow one another, decides otherwise for the second
identity when all attempts of the first are left out. -/
def Independent (maxEvents : ℤ) (windowSeconds : ℚ) (first second : Identity) : Prop :=
  ∀ (db : Database) (attempts : ℕ → Attempt) (steps : List Step),
    (steps.map Step.clock).Pairwise (· ≤ ·) →
      decisionsFor lower attempts second
          (run bcrypt lower attempts (begin maxEvents windowSeconds db) steps) =
        decisionsFor lower attempts second
          (run bcrypt lower attempts (begin maxEvents windowSeconds db)
            (steps.filter fun s ↦ (attempts s.attempt).identity lower ≠ first))

/-- What stands for an address in a key. -/
def host (ip : Option Text) : Text :=
  (ip.filter fun ip ↦ !ip.isEmpty).getD "unknown".toList

/-- The address of the first is that of the second with a colon and a text behind it, which the
name of the second has in front of a colon and the name of the first. -/
def Extends (first second : Identity) : Prop :=
  ∃ t, host first.1 = host second.1 ++ ':' :: t ∧ second.2 = t ++ ':' :: first.2

/-- Two identities of one bucket: their addresses and names are the same, where no address is
`unknown`, or one colon more is part of the address of one and of the name of the other. -/
def SameBucket (first second : Identity) : Prop :=
  (host first.1 = host second.1 ∧ first.2 = second.2) ∨ Extends first second ∨ Extends second first

section Keys

theorem key_eq_iff {lower : Text → Text} {first second : Attempt} :
    first.key lower = second.key lower ↔
      SameBucket (first.identity lower) (second.identity lower) := append_cons_inj

theorem key_of_identity {lower : Text → Text} {first second : Attempt}
    (h : first.identity lower = second.identity lower) : first.key lower = second.key lower := by
  obtain ⟨hip, hname⟩ := Prod.mk.inj h
  exact key_eq_iff.mpr (.inl ⟨congrArg host hip, hname⟩)

end Keys

section Simulation

/-- A user without the moments that a login changes. -/
def core (user : User) : User := { user with lastLoginAt := none, updatedAt := 0 }

def Stage.core : Stage → Stage
  | .checked found => .checked (found.map (Prod.map id RateBuckets.core))
  | stage => stage

/-- The users that were found are those of the table. -/
def Known (w : World) : Prop :=
  ∀ k id user, w.stage k = .checked (some (id, user)) →
    (w.db.users.map core).get? id = some (core user)

/-- Two limiters that differ in no entry but that of the bucket. -/
structure AlikeLimiters (bucket : Text) (limiter limiter' : Limiter) : Prop where
  maxEvents : limiter.maxEvents = limiter'.maxEvents
  windowSeconds : limiter.windowSeconds = limiter'.windowSeconds
  store : ∀ key, key ≠ bucket → limiter.store key = limiter'.store key

/-- Two worlds that differ in nothing that an attempt of another bucket can see. -/
structure Alike (attempts : ℕ → Attempt) (bucket : Text) (w w' : World) : Prop where
  limiter : AlikeLimiters bucket w.limiter w'.limiter
  users : w.db.users.map core = w'.db.users.map core
  stage : ∀ k, (attempts k).key lower ≠ bucket → (w.stage k).core = (w'.stage k).core
  decisions : (w.decisions.filter fun d ↦ (attempts d.1).key lower ≠ bucket) =
    w'.decisions.filter fun d ↦ (attempts d.1).key lower ≠ bucket
  left : Known w
  right : Known w'

variable {bcrypt lower} {attempts : ℕ → Attempt} {bucket key : Text} {w w' : World}
  {limiter limiter' : Limiter} {now : ℚ}

theorem AlikeLimiters.symm (h : AlikeLimiters bucket limiter limiter') :
    AlikeLimiters bucket limiter' limiter :=
  ⟨h.maxEvents.symm, h.windowSeconds.symm, fun key hkey ↦ (h.store key hkey).symm⟩

theorem AlikeLimiters.write_bucket (h : AlikeLimiters bucket limiter limiter')
    (entry : Option (List ℚ)) : AlikeLimiters bucket (limiter.write bucket entry) limiter' where
  maxEvents := h.maxEvents
  windowSeconds := h.windowSeconds
  store key hkey := by
    rw [store_write, if_neg hkey]
    exact h.store key hkey

theorem AlikeLimiters.write (h : AlikeLimiters bucket limiter limiter') (key : Text)
    (entry : Option (List ℚ)) :
    AlikeLimiters bucket (limiter.write key entry) (limiter'.write key entry) where
  maxEvents := h.maxEvents
  windowSeconds := h.windowSeconds
  store other hother := by
    rw [store_write, store_write]
    split_ifs
    · rfl
    · exact h.store other hother

theorem AlikeLimiters.deque (h : AlikeLimiters bucket limiter limiter') (hkey : key ≠ bucket) :
    limiter.deque key = limiter'.deque key := by
  rw [Limiter.deque, h.store key hkey]
  rfl

theorem AlikeLimiters.touch (h : AlikeLimiters bucket limiter limiter') (hkey : key ≠ bucket) :
    AlikeLimiters bucket (limiter.touch key) (limiter'.touch key) := by
  rw [Limiter.touch, Limiter.touch, h.deque hkey]
  exact h.write key _

theorem AlikeLimiters.purge (h : AlikeLimiters bucket limiter limiter') (hkey : key ≠ bucket) :
    AlikeLimiters bucket (limiter.purge key now) (limiter'.purge key now) := by
  rw [Limiter.purge, Limiter.purge, h.deque hkey, h.windowSeconds]
  exact h.write key _

theorem AlikeLimiters.isBlocked (h : AlikeLimiters bucket limiter limiter') (hkey : key ≠ bucket)
    (now : ℚ) :
    (limiter.isBlocked key now).1 = (limiter'.isBlocked key now).1 ∧
      AlikeLimiters bucket (limiter.isBlocked key now).2 (limiter'.isBlocked key now).2 := by
  have hpurge : AlikeLimiters bucket (limiter.purge key now) (limiter'.purge key now) :=
    h.purge hkey
  refine ⟨?_, hpurge.touch hkey⟩
  unfold Limiter.isBlocked
  dsimp only
  rw [hpurge.deque hkey, hpurge.maxEvents]

/-- What a login does to the table of users leaves all but the moments as it was. -/
theorem map_core_set {users : Table ℕ User} {id : ℕ} {user : User} (new : User)
    (h : (users.map core).get? id = some (core user)) (hnew : core new = core user) :
    (users.set id new).map core = users.map core := by
  refine Table.ext_get? fun j ↦ ?_
  rw [Table.get?_map, Table.get?_set]
  split_ifs with hj
  · rw [hj, h, Option.map_some, hnew]
  · exact (Table.get?_map core users j).symm

theorem authenticateUser_users (bcrypt : Bcrypt) (now : Instant) (ip : Option Text)
    (username password : Text) (db : Database) :
    (authenticateUser bcrypt now ip username password db).1.users = db.users := by
  unfold authenticateUser
  split
  · rfl
  · split_ifs <;> rfl

theorem authenticateUser_eq_filter (bcrypt : Bcrypt) (now : Instant) (ip : Option Text)
    (username password : Text) (db : Database) :
    (authenticateUser bcrypt now ip username password db).2 =
      (db.userByUsername username).filter fun found ↦
        verifyPassword bcrypt password found.2.hashedPassword && found.2.isActive := by
  unfold authenticateUser
  cases db.userByUsername username with
  | none => rfl
  | some found =>
    dsimp only
    rw [Option.filter_some]
    cases verifyPassword bcrypt password found.2.hashedPassword
    · rfl
    · cases found.2.isActive <;> rfl

theorem userByUsername_core (db : Database) (username : Text) :
    (db.userByUsername username).map (Prod.map id core) =
      (db.users.map core).rows.find? fun r ↦ r.2.username = username := by
  change _ = List.find? _ (db.users.rows.map fun r ↦ (r.1, core r.2))
  rw [List.find?_map]
  rfl

/-- Who is found depends on nothing that a login changes. -/
theorem authenticateUser_found {db db' : Database} (h : db.users.map core = db'.users.map core)
    (bcrypt : Bcrypt) (now : Instant) (ip : Option Text) (username password : Text) :
    (authenticateUser bcrypt now ip username password db).2.map (Prod.map id core) =
      (authenticateUser bcrypt now ip username password db').2.map (Prod.map id core) := by
  have hfilter : ∀ found : Option (ℕ × User),
      (found.filter fun r ↦ verifyPassword bcrypt password r.2.hashedPassword && r.2.isActive).map
        (Prod.map id core) = (found.map (Prod.map id core)).filter fun r ↦
          verifyPassword bcrypt password r.2.hashedPassword && r.2.isActive := by
    intro found
    cases found with
    | none => rfl
    | some found =>
      rw [Option.map_some, Option.filter_some, Option.filter_some]
      exact apply_ite (Option.map (Prod.map id core)) _ _ _
  rw [authenticateUser_eq_filter, authenticateUser_eq_filter, hfilter, hfilter,
    userByUsername_core, userByUsername_core, h]

theorem authenticateUser_known {db : Database} {now : Instant} {ip : Option Text}
    {username password : Text} {id : ℕ} {user : User}
    (h : (authenticateUser bcrypt now ip username password db).2 = some (id, user)) :
    (db.users.map core).get? id = some (core user) := by
  rw [authenticateUser_eq_filter, Option.filter_eq_some_iff] at h
  have hrow : db.users.get? id = some user := Table.mem_rows.mp (List.mem_of_find?_eq_some h.1)
  rw [Table.get?_map, hrow, Option.map_some]

variable (bcrypt lower attempts) in
/-- A step of an attempt keeps the users that were found and changes none but in its moments. -/
theorem step_known (h : Known w) (s : Step) :
    Known (step bcrypt lower attempts w s) ∧
      (step bcrypt lower attempts w s).db.users.map core = w.db.users.map core := by
  have hmove : ∀ (stage : Stage), (∀ id user, stage ≠ .checked (some (id, user))) →
      ∀ k id user, Function.update w.stage s.attempt stage k = .checked (some (id, user)) →
        (w.db.users.map core).get? id = some (core user) := by
    intro stage hstage k id user hk
    rw [Function.update_apply] at hk
    split_ifs at hk
    · exact absurd hk (hstage id user)
    · exact h k id user hk
  unfold step
  dsimp only
  split
  · refine ⟨hmove _ ?_, rfl⟩
    intro id user
    split_ifs <;> exact Stage.noConfusion
  · exact ⟨hmove _ fun _ _ ↦ Stage.noConfusion, rfl⟩
  · refine ⟨?_, congrArg (Table.map core) (authenticateUser_users ..)⟩
    intro k id user hk
    dsimp only at hk ⊢
    rw [authenticateUser_users]
    rw [Function.update_apply] at hk
    split_ifs at hk
    · exact authenticateUser_known (Stage.checked.inj hk)
    · exact h k id user hk
  · exact ⟨hmove _ fun _ _ ↦ Stage.noConfusion, rfl⟩
  · rename_i id user hstage
    have husers := map_core_set { user with lastLoginAt := some s.now, updatedAt := s.now }
      (h _ id user hstage) rfl
    refine ⟨?_, husers⟩
    intro k id user hk
    rw [husers]
    exact hmove _ (fun _ _ ↦ Stage.noConfusion) k id user hk
  · exact ⟨h, rfl⟩

theorem AlikeLimiters.trans {limiter'' : Limiter} (h : AlikeLimiters bucket limiter limiter')
    (h' : AlikeLimiters bucket limiter' limiter'') : AlikeLimiters bucket limiter limiter'' :=
  ⟨h.maxEvents.trans h'.maxEvents, h.windowSeconds.trans h'.windowSeconds,
    fun key hkey ↦ (h.store key hkey).trans (h'.store key hkey)⟩

/-- What is written under a key is seen under no other. -/
theorem alike_write (limiter : Limiter) (key : Text) (entry : Option (List ℚ)) :
    AlikeLimiters key (limiter.write key entry) limiter :=
  AlikeLimiters.write_bucket ⟨rfl, rfl, fun _ _ ↦ rfl⟩ entry

theorem alike_query (limiter : Limiter) (key : Text) (now : ℚ) :
    AlikeLimiters key ((limiter.purge key now).touch key) limiter :=
  (alike_write limiter key _).write_bucket _

/-- What a step tells its attempt. -/
def told (lower : Text → Text) (attempts : ℕ → Attempt) (w : World) (s : Step) :
    List (ℕ × Bool) :=
  match w.stage s.attempt with
  | .arrived => [(s.attempt, (w.limiter.isBlocked ((attempts s.attempt).key lower) s.clock).1)]
  | _ => []

theorem step_decisions (s : Step) :
    (step bcrypt lower attempts w s).decisions = w.decisions ++ told lower attempts w s := by
  unfold step told
  cases hstage : w.stage s.attempt with
  | arrived => rfl
  | checked found =>
    cases found with
    | none => exact (List.append_nil _).symm
    | some found => exact (List.append_nil _).symm
  | _ => exact (List.append_nil _).symm

theorem step_stage (s : Step) {k : ℕ} (hk : k ≠ s.attempt) :
    (step bcrypt lower attempts w s).stage k = w.stage k := by
  unfold step
  dsimp only
  split
  all_goals first | exact Function.update_of_ne hk _ _ | rfl

/-- A step changes no entry of the limiter but that of its key. -/
theorem step_limiter (s : Step) :
    AlikeLimiters ((attempts s.attempt).key lower) (step bcrypt lower attempts w s).limiter
      w.limiter := by
  unfold step
  dsimp only
  split
  · exact alike_query w.limiter _ s.clock
  · rw [secondsUntilUnblocked_store]
    exact alike_query w.limiter _ s.clock
  · exact ⟨rfl, rfl, fun _ _ ↦ rfl⟩
  · exact alike_write w.limiter _ _
  · exact alike_write w.limiter _ _
  · exact ⟨rfl, rfl, fun _ _ ↦ rfl⟩

theorem told_attempt {s : Step} {d : ℕ × Bool} (h : d ∈ told lower attempts w s) :
    d.1 = s.attempt := by
  unfold told at h
  split at h
  · exact congrArg Prod.fst (List.mem_singleton.mp h)
  · cases h

/-- A step in the bucket is not seen outside of it. -/
theorem Alike.left_step (h : Alike lower attempts bucket w w') {s : Step}
    (hs : (attempts s.attempt).key lower = bucket) :
    Alike lower attempts bucket (step bcrypt lower attempts w s) w' where
  limiter := (hs ▸ step_limiter s).trans h.limiter
  users := (step_known _ _ _ h.left s).2.trans h.users
  stage k hk := by
    have hne : k ≠ s.attempt := fun heq ↦ hk (heq ▸ hs)
    rw [step_stage s hne]
    exact h.stage k hk
  decisions := by
    have htold : (told lower attempts w s).filter
        (fun d ↦ (attempts d.1).key lower ≠ bucket) = [] := by
      rw [List.filter_eq_nil_iff]
      intro d hd
      rw [told_attempt hd, hs]
      simp
    rw [step_decisions, List.filter_append, htold, List.append_nil]
    exact h.decisions
  left := (step_known _ _ _ h.left s).1
  right := h.right

theorem Alike.symm (h : Alike lower attempts bucket w w') : Alike lower attempts bucket w' w :=
  ⟨h.limiter.symm, h.users.symm, fun k hk ↦ (h.stage k hk).symm, h.decisions.symm, h.right, h.left⟩

theorem Stage.core_cases {stage stage' : Stage} (h : stage.core = stage'.core) :
    (stage = stage' ∧ ∀ found, stage ≠ .checked found) ∨
      ∃ found found', stage = .checked found ∧ stage' = .checked found' ∧
        found.map (Prod.map id RateBuckets.core) = found'.map (Prod.map id RateBuckets.core) := by
  cases stage with
  | checked found =>
    cases stage' with
    | checked found' => exact .inr ⟨found, found', rfl, rfl, Stage.checked.inj h⟩
    | _ => cases h
  | _ =>
    refine .inl ⟨?_, fun _ ↦ Stage.noConfusion⟩
    cases stage' with
    | _ => first | rfl | cases h

variable (bcrypt) in
/-- A step outside of the bucket is the same in both worlds. -/
theorem Alike.same_step (h : Alike lower attempts bucket w w') {s : Step}
    (hs : (attempts s.attempt).key lower ≠ bucket) :
    AlikeLimiters bucket (step bcrypt lower attempts w s).limiter
        (step bcrypt lower attempts w' s).limiter ∧
      ((step bcrypt lower attempts w s).stage s.attempt).core =
        ((step bcrypt lower attempts w' s).stage s.attempt).core ∧
      told lower attempts w s = told lower attempts w' s := by
  unfold step told
  rcases Stage.core_cases (h.stage s.attempt hs) with ⟨hsame, hstage⟩ | ⟨found, found', hw, hw', hf⟩
  · rw [hsame] at hstage ⊢
    cases hw' : w'.stage s.attempt with
    | arrived =>
      obtain ⟨hblocked, hlimiter⟩ := h.limiter.isBlocked hs s.clock
      dsimp only
      rw [hblocked, Function.update_self, Function.update_self]
      exact ⟨hlimiter, rfl, rfl⟩
    | blocked =>
      dsimp only
      rw [secondsUntilUnblocked_store, secondsUntilUnblocked_store, Function.update_self,
        Function.update_self]
      exact ⟨(h.limiter.purge hs).touch hs, rfl, rfl⟩
    | admitted =>
      have hfound := authenticateUser_found h.users bcrypt s.now
        (getClientIp (attempts s.attempt).request) (attempts s.attempt).username
        (attempts s.attempt).password
      dsimp only
      rw [Function.update_self, Function.update_self]
      exact ⟨h.limiter, congrArg Stage.checked hfound, rfl⟩
    | checked found => exact absurd hw' (hstage found)
    | answered =>
      dsimp only
      rw [hsame]
      exact ⟨h.limiter, rfl, rfl⟩
  · rw [hw, hw']
    cases found with
    | none =>
      cases found' with
      | none =>
        dsimp only
        rw [Function.update_self, Function.update_self, Limiter.registerFailure,
          Limiter.registerFailure, h.limiter.deque hs]
        exact ⟨h.limiter.write _ _, rfl, rfl⟩
      | some found' => cases hf
    | some found =>
      cases found' with
      | none => cases hf
      | some found' =>
        dsimp only
        rw [Function.update_self, Function.update_self]
        exact ⟨h.limiter.write _ _, rfl, rfl⟩

theorem Alike.both_step (h : Alike lower attempts bucket w w') {s : Step}
    (hs : (attempts s.attempt).key lower ≠ bucket) :
    Alike lower attempts bucket (step bcrypt lower attempts w s)
      (step bcrypt lower attempts w' s) := by
  obtain ⟨hlimiter, hstage, htold⟩ := h.same_step bcrypt hs
  obtain ⟨hleft, husers⟩ := step_known bcrypt lower attempts h.left s
  obtain ⟨hright, husers'⟩ := step_known bcrypt lower attempts h.right s
  refine ⟨hlimiter, ?_, ?_, ?_, hleft, hright⟩
  · rw [husers, husers']
    exact h.users
  · intro k hk
    by_cases hattempt : k = s.attempt
    · rw [hattempt]
      exact hstage
    · rw [step_stage s hattempt, step_stage s hattempt]
      exact h.stage k hk
  · rw [step_decisions, step_decisions, List.filter_append, List.filter_append, h.decisions, htold]

variable (bcrypt) in
/-- The attempts of an identity can be left out of a run, and none of another bucket sees it. -/
theorem Alike.run (h : Alike lower attempts bucket w w') {first : Attempt}
    (hfirst : first.key lower = bucket) (steps : List Step) :
    Alike lower attempts bucket (run bcrypt lower attempts w steps)
      (run bcrypt lower attempts w'
        (steps.filter fun s ↦ (attempts s.attempt).identity lower ≠ first.identity lower)) := by
  refine related_foldl_filter (R := Alike lower attempts bucket) ?_ ?_ h steps
  · intro v v' s hv hs
    refine hv.left_step ?_
    simp only [ne_eq, decide_not, Bool.not_eq_false', decide_eq_true_eq] at hs
    rw [← hfirst]
    exact key_of_identity hs
  · intro v v' s hv _
    by_cases hs : (attempts s.attempt).key lower = bucket
    · exact ((hv.left_step hs).symm.left_step hs).symm
    · exact hv.both_step hs

end Simulation

section Exhaustion

variable {bcrypt : Bcrypt} {lower : Text → Text} {attempts : ℕ → Attempt} {key : Text} {w : World}
  {i : ℕ}

/-- The three steps of an attempt that fails, at the moment zero. -/
def failing (i : ℕ) : List Step := List.replicate 3 ⟨i, 0, 0⟩

/-- So many attempts have failed under a key, and those that are numbered higher wait. -/
structure Exhausted (maxEvents : ℤ) (windowSeconds : ℚ) (key : Text) (i : ℕ) (w : World) :
    Prop where
  users : w.db.users = .empty
  maxEvents : w.limiter.maxEvents = maxEvents
  windowSeconds : w.limiter.windowSeconds = windowSeconds
  deque : w.limiter.deque key = List.replicate i 0
  stage : ∀ k, i ≤ k → w.stage k = .arrived
  decisions : ∀ d ∈ w.decisions, d.1 < i

variable {maxEvents : ℤ} {windowSeconds : ℚ}

theorem Exhausted.purge (h : Exhausted maxEvents windowSeconds key i w)
    (hwindow : 0 ≤ windowSeconds) : (w.limiter.purge key 0).deque key = List.replicate i 0 := by
  have hkept : (List.replicate i (0 : ℚ)).dropWhile (· < 0 - windowSeconds) =
      List.replicate i 0 := by
    rw [List.dropWhile_replicate, if_neg]
    rw [decide_eq_true_eq]
    linarith
  rw [Limiter.purge, deque_write, if_pos rfl, h.deque, h.windowSeconds, hkept]
  split_ifs with hnil
  · exact hnil.symm
  · rfl

theorem Exhausted.isBlocked (h : Exhausted maxEvents windowSeconds key i w)
    (hwindow : 0 ≤ windowSeconds) :
    (w.limiter.isBlocked key 0).1 = decide (maxEvents ≤ i) := by
  have hmax : (w.limiter.purge key 0).maxEvents = maxEvents := h.maxEvents
  unfold Limiter.isBlocked
  dsimp only
  rw [h.purge hwindow, List.length_replicate, hmax]

theorem authenticateUser_empty {db : Database} (h : db.users = .empty) (now : Instant)
    (ip : Option Text) (username password : Text) :
    (authenticateUser bcrypt now ip username password db).2 = none := by
  rw [authenticateUser_eq_filter, Database.userByUsername, h]
  rfl

variable (bcrypt attempts) in
/-- While the limit is not reached one more attempt fails. -/
theorem Exhausted.failing (h : Exhausted maxEvents windowSeconds key i w)
    (hwindow : 0 ≤ windowSeconds) (hroom : (i : ℤ) < maxEvents)
    (hkey : (attempts i).key lower = key) :
    Exhausted maxEvents windowSeconds key (i + 1)
      (run bcrypt lower attempts w (RateBuckets.failing i)) := by
  have hfree : (w.limiter.isBlocked key 0).1 = false := by
    rw [h.isBlocked hwindow, decide_eq_false_iff_not, not_le]
    exact hroom
  have hdeque : (w.limiter.isBlocked key 0).2.deque key = List.replicate i 0 := by
    change ((w.limiter.purge key 0).touch key).deque key = _
    rw [deque_touch, h.purge hwindow]
  have hnone : ∀ (ip : Option Text) (username password : Text),
      (authenticateUser bcrypt 0 ip username password w.db).2 = none :=
    authenticateUser_empty h.users 0
  have hrun : run bcrypt lower attempts w (RateBuckets.failing i) =
      ⟨(authenticateUser bcrypt 0 (getClientIp (attempts i).request) (attempts i).username
          (attempts i).password w.db).1, (w.limiter.isBlocked key 0).2.registerFailure key 0,
        Function.update w.stage i .answered, w.decisions ++ [(i, false)]⟩ := by
    simp only [run, RateBuckets.failing, List.replicate, List.foldl_cons, List.foldl_nil]
    simp [step, h.stage i le_rfl, hkey, hfree, hnone]
  rw [hrun]
  refine ⟨(authenticateUser_users ..).trans h.users, h.maxEvents, h.windowSeconds, ?_, ?_, ?_⟩
  · rw [Limiter.registerFailure, deque_write, if_pos rfl, Option.getD_some, hdeque,
      List.replicate_succ']
  · intro k hk
    have hne : k ≠ i := by omega
    exact (Function.update_of_ne hne _ _).trans (h.stage k (by omega))
  · intro d hd
    rcases List.mem_append.mp hd with hd | hd
    · exact (h.decisions d hd).trans (Nat.lt_succ_self i)
    · rw [List.mem_singleton.mp hd]
      exact Nat.lt_succ_self i

variable (bcrypt attempts) in
theorem Exhausted.run (hwindow : 0 ≤ windowSeconds) {m : ℕ} (hmax : (m : ℤ) ≤ maxEvents)
    (hkey : ∀ k < m, (attempts k).key lower = key) :
    Exhausted maxEvents windowSeconds key m
      (RateBuckets.run bcrypt lower attempts (begin maxEvents windowSeconds .seeded)
        ((List.range m).flatMap RateBuckets.failing)) := by
  induction m with
  | zero => exact ⟨rfl, rfl, rfl, rfl, fun _ _ ↦ rfl, fun _ hd ↦ absurd hd List.not_mem_nil⟩
  | succ m ih =>
    have hshort := ih (by omega) fun k hk ↦ hkey k (by omega)
    have hlast := hshort.failing bcrypt attempts hwindow (by omega)
      (hkey m (Nat.lt_succ_self m))
    rw [List.range_succ, List.flatMap_append, List.flatMap_singleton]
    unfold RateBuckets.run at hlast ⊢
    rw [List.foldl_append]
    exact hlast

/-- The attempts of the first use up the limit, and the next is one of the second. -/
def attack (first second : Attempt) (m : ℕ) : ℕ → Attempt := fun k ↦ if k < m then first else second

def attackSteps (m : ℕ) : List Step := (List.range m).flatMap failing ++ [⟨m, 0, 0⟩]

theorem mem_attackSteps {m : ℕ} {s : Step} (h : s ∈ (List.range m).flatMap failing) :
    s.attempt < m ∧ s.clock = 0 := by
  obtain ⟨k, hk, hs⟩ := List.mem_flatMap.mp h
  rw [List.eq_of_mem_replicate hs]
  exact ⟨List.mem_range.mp hk, rfl⟩

theorem attackSteps_clock (m : ℕ) : ((attackSteps m).map Step.clock).Pairwise (· ≤ ·) := by
  have hzero : ∀ t ∈ (attackSteps m).map Step.clock, t = 0 := by
    intro t ht
    obtain ⟨s, hs, rfl⟩ := List.mem_map.mp ht
    rcases List.mem_append.mp hs with hs | hs
    · exact (mem_attackSteps hs).2
    · rw [List.mem_singleton.mp hs]
  refine List.pairwise_of_forall_mem_list ?_
  intro t ht u hu
  rw [hzero t ht, hzero u hu]

variable (bcrypt attempts) in
theorem decisions_attempt (h : Exhausted maxEvents windowSeconds key i w)
    (hwindow : 0 ≤ windowSeconds) {k : ℕ} (hk : i ≤ k) (hkey : (attempts k).key lower = key) :
    (step bcrypt lower attempts w ⟨k, 0, 0⟩).decisions =
      w.decisions ++ [(k, decide (maxEvents ≤ i))] := by
  rw [step_decisions, told]
  dsimp only
  rw [h.stage k hk, hkey]
  dsimp only
  rw [h.isBlocked hwindow]

/-- In one bucket the attempts of the first block the second. -/
theorem not_independent (hmax : 1 ≤ maxEvents) (hwindow : 0 ≤ windowSeconds)
    {first second : Attempt}
    (hne : first.identity lower ≠ second.identity lower)
    (hkey : first.key lower = second.key lower) :
    ¬Independent bcrypt lower maxEvents windowSeconds (first.identity lower)
      (second.identity lower) := by
  intro hall
  obtain ⟨m, rfl⟩ : ∃ m : ℕ, maxEvents = m := ⟨maxEvents.toNat, by omega⟩
  have hfirst : ∀ k, k < m → attack first second m k = first := fun k hk ↦ if_pos hk
  have hsecond : attack first second m m = second := if_neg (lt_irrefl m)
  have hrun : Exhausted m windowSeconds (second.key lower) m _ :=
    Exhausted.run bcrypt (attack first second m) hwindow le_rfl
      fun k hk ↦ (congrArg (Attempt.key lower) (hfirst k hk)).trans hkey
  have hbegin : Exhausted m windowSeconds (second.key lower) 0 (begin m windowSeconds .seeded) :=
    ⟨rfl, rfl, rfl, rfl, fun _ _ ↦ rfl, fun _ hd ↦ absurd hd List.not_mem_nil⟩
  have htold := decisions_attempt bcrypt (attack first second m) hrun
    hwindow le_rfl (congrArg (Attempt.key lower) hsecond)
  have htold' := decisions_attempt bcrypt (attack first second m) hbegin
    hwindow (Nat.zero_le m) (congrArg (Attempt.key lower) hsecond)
  have hleft : ((attackSteps m).filter fun s ↦
      (attack first second m s.attempt).identity lower ≠ first.identity lower) = [⟨m, 0, 0⟩] := by
    rw [attackSteps, List.filter_append, List.filter_eq_nil_iff.mpr, List.nil_append,
      List.filter_cons_of_pos]
    · rfl
    · simpa [hsecond] using hne.symm
    · intro s hs
      simp [hfirst _ (mem_attackSteps hs).1]
  have hlast : ∀ told : Bool, [(m, told)].filter
      (fun d ↦ (attack first second m d.1).identity lower = second.identity lower) =
        [(m, told)] := by
    intro told
    exact List.filter_cons_of_pos (by simp [hsecond])
  have hfull : decisionsFor lower (attack first second m) (second.identity lower)
      (run bcrypt lower (attack first second m) (begin m windowSeconds .seeded) (attackSteps m)) =
        [(m, true)] := by
    have hsplit : run bcrypt lower (attack first second m) (begin m windowSeconds .seeded)
        (attackSteps m) = step bcrypt lower (attack first second m)
          (run bcrypt lower (attack first second m) (begin m windowSeconds .seeded)
            ((List.range m).flatMap failing)) ⟨m, 0, 0⟩ := List.foldl_append
    rw [decisionsFor, hsplit, htold, List.filter_append, List.filter_eq_nil_iff.mpr,
      List.nil_append, hlast, decide_eq_true le_rfl]
    intro d hd
    simpa [hfirst _ (hrun.decisions d hd)] using hne
  have halone : decisionsFor lower (attack first second m) (second.identity lower)
      (run bcrypt lower (attack first second m) (begin m windowSeconds .seeded) [⟨m, 0, 0⟩]) =
        [(m, false)] := by
    have hzero : ¬(m : ℤ) ≤ (0 : ℕ) := by omega
    change List.filter _ (step bcrypt lower (attack first second m)
      (begin m windowSeconds .seeded) ⟨m, 0, 0⟩).decisions = _
    rw [htold', decide_eq_false hzero]
    exact hlast false
  have hsame := hall .seeded (attack first second m) (attackSteps m) (attackSteps_clock m)
  rw [hleft, hfull, halone] at hsame
  cases hsame

end Exhaustion

/-- The attempts under one identity never decide anything for another exactly when the two have
different buckets. -/
theorem buckets_independent_iff (bcrypt : Bcrypt) (lower : Text → Text) {maxEvents : ℤ}
    {windowSeconds : ℚ} (hmax : 1 ≤ maxEvents) (hwindow : 0 ≤ windowSeconds)
    (first second : Attempt) (hne : first.identity lower ≠ second.identity lower) :
    Independent bcrypt lower maxEvents windowSeconds (first.identity lower)
        (second.identity lower) ↔
      ¬SameBucket (first.identity lower) (second.identity lower) := by
  rw [← key_eq_iff]
  constructor
  · intro hindependent hkey
    exact not_independent hmax hwindow hne hkey hindependent
  · intro hkey db attempts steps _
    have hbegin : Alike lower attempts (first.key lower) (begin maxEvents windowSeconds db)
        (begin maxEvents windowSeconds db) :=
      ⟨⟨rfl, rfl, fun _ _ ↦ rfl⟩, rfl, fun _ _ ↦ rfl, rfl, fun _ _ _ ↦ Stage.noConfusion,
        fun _ _ _ ↦ Stage.noConfusion⟩
    have hrun := hbegin.run bcrypt rfl steps
    have hfilter : ∀ w : World, decisionsFor lower attempts (second.identity lower) w =
        (w.decisions.filter fun d ↦ (attempts d.1).key lower ≠ first.key lower).filter fun d ↦
          (attempts d.1).identity lower = second.identity lower := by
      intro w
      rw [List.filter_filter]
      refine List.filter_congr fun d _ ↦ ?_
      rw [Bool.eq_iff_iff, Bool.and_eq_true, decide_eq_true_eq, decide_eq_true_eq]
      refine ⟨fun hd ↦ ⟨hd, ?_⟩, And.left⟩
      rw [key_of_identity hd]
      exact Ne.symm hkey
    rw [hfilter, hfilter, hrun.decisions]

section Sample

def sampleBcrypt : Bcrypt := ⟨fun _ _ ↦ .ok [], fun _ _ ↦ false⟩

/-- Behind one proxy each, with an address of IPv6 and a name that has a colon in it. -/
def shortAddress : Attempt := ⟨⟨some "fe80:".toList, none⟩, "1:ana".toList, []⟩

def longAddress : Attempt := ⟨⟨some "fe80::1, 10.0.0.1".toList, none⟩, "ana".toList, []⟩

theorem ipv6_bucket_shared :
    ¬∀ (bcrypt : Bcrypt) (maxEvents : ℤ) (windowSeconds : ℚ) (first second : Attempt),
      1 ≤ maxEvents → 0 ≤ windowSeconds →
        first.identity Library.Strings.lower ≠ second.identity Library.Strings.lower →
          Independent bcrypt Library.Strings.lower maxEvents windowSeconds
            (first.identity Library.Strings.lower) (second.identity Library.Strings.lower) := by
  intro hall
  have hne : shortAddress.identity Library.Strings.lower ≠
      longAddress.identity Library.Strings.lower := by decide
  have hindependent := hall sampleBcrypt 5 300 shortAddress longAddress (by decide) (by decide) hne
  exact not_independent (by decide) (by decide) hne (by decide) hindependent

def firstProxy : Attempt := ⟨⟨some "10.0.0.1".toList, none⟩, "ana".toList, []⟩

def secondProxy : Attempt := ⟨⟨some "10.0.0.2".toList, none⟩, "ana".toList, []⟩

theorem buckets_independent_iff_proxies :
    Independent sampleBcrypt Library.Strings.lower 5 300
        (firstProxy.identity Library.Strings.lower)
        (secondProxy.identity Library.Strings.lower) ↔
      ¬SameBucket (firstProxy.identity Library.Strings.lower)
        (secondProxy.identity Library.Strings.lower) :=
  buckets_independent_iff sampleBcrypt Library.Strings.lower (by decide) (by decide) firstProxy
    secondProxy (by decide)

end Sample

end CronPanel.Access.RateBuckets
