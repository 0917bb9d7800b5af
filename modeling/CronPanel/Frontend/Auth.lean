import CronPanel.Library.Run
import CronPanel.Api.Accounts

namespace CronPanel.Frontend.Auth

open Library.Strings Library.Fallible Library.Run Core.Security Data.Records Data.Repositories
open Api.Errors Api.Accounts

inductive Page
  | index | login | dashboard | cronJobs | scripts | executions
  deriving DecidableEq

/-- What becomes of a `fetch`. -/
inductive Response
  | networkError
  | status (code : ℕ)
  deriving DecidableEq

/-- A page as it is loaded, the token in `localStorage`, and how often `/api/auth/me` has been
asked for. -/
structure Tab where
  page : Page
  token : Option Text
  asked : ℕ
  deriving DecidableEq

def isAuthenticated (token : Option Text) : Bool := token.any (· ≠ [])

/-- `response.ok`. -/
def Response.isOk : Response → Bool
  | .networkError => false
  | .status code => 200 ≤ code && code ≤ 299

/-- The token after `Api.request`, at a path other than that of the login. -/
def request (response : Response) (token : Option Text) : Option Text :=
  if response = .status 401 then none else token

/-- The page that replaces a loaded one, or `none` where it stays: the script of `index.html`, the
wiring of the login page and `requireAuthentication`. -/
def load (answers : ℕ → Response) (tab : Tab) (_ : Unit) : Option Tab :=
  match tab.page with
  | .index => some { tab with page := if isAuthenticated tab.token then .dashboard else .login }
  | .login => if isAuthenticated tab.token then some { tab with page := .dashboard } else none
  | .dashboard | .cronJobs | .scripts | .executions =>
    if !isAuthenticated tab.token then some { tab with page := .login }
    else if (answers tab.asked).isOk then none
    else some ⟨.login, request (answers tab.asked) tab.token, tab.asked + 1⟩

def statusCode : HttpError → ℕ
  | .detail status _ _ | .details status _ _ _ => status
  | .invalidBody _ => 422
  | .internal => 500

/-- What the panel answers to `GET /api/auth/me` with a token, which is decoded as the library of
tokens does. -/
def readCurrentUser (decode : Text → Option Payload) (now : Instant) (token : Text)
    (db : Database) : Response :=
  match decode token with
  | none => .status (statusCode notAuthenticated)
  | some payload =>
    match getCurrentUser now payload db with
    | .ok _ => .status 200
    | .error e => .status (statusCode e)

/-- The panel answers to a token, in whichever state it is at the moment. -/
def Answered (decode : Text → Option Payload) (token : Text) (response : Response) : Prop :=
  ∃ now db, response = readCurrentUser decode now token db

/-- The panel cannot be contacted, or fails. -/
def Unanswered (response : Response) : Prop :=
  response = .networkError ∨ ∃ code, response = .status code ∧ 500 ≤ code

def Rests (answers : ℕ → Response) (tab : Tab) : Prop := load answers tab () = none

/-- One page replaces the other until one stays. -/
def Settles (answers : ℕ → Response) (tab : Tab) : Prop :=
  ∃ rest, Reaches (load answers) () tab rest ∧ Rests answers rest

section

variable {answers : ℕ → Response} {decode : Text → Option Payload} {token : Text} {tab tab' : Tab}
variable {response : Response}

theorem getCurrentUser_error {now : Instant} {payload : Payload} {db : Database} {e : HttpError}
    (h : getCurrentUser now payload db = .error e) : e = notAuthenticated := by
  unfold getCurrentUser at h
  cases hpayload : getTokenPayload now payload db with
  | error e' =>
    rw [hpayload] at h
    obtain rfl := Except.error.inj h
    unfold getTokenPayload at hpayload
    split at hpayload
    · exact (Except.error.inj hpayload).symm
    · split_ifs at hpayload
      · exact (Except.error.inj hpayload).symm
      · exact (Except.error.inj hpayload).symm
  | ok payload =>
    rw [hpayload, ok_bind] at h
    split at h
    · exact (Except.error.inj h).symm
    · split_ifs at h
      exact (Except.error.inj h).symm

/-- The panel knows the user of a token, or says that there is none. -/
theorem Answered.cases (h : Answered decode token response) :
    response = .status 200 ∨ response = .status 401 := by
  obtain ⟨now, db, rfl⟩ := h
  unfold readCurrentUser
  split
  · exact .inr rfl
  · split
    · exact .inl rfl
    · rename_i e he
      rw [getCurrentUser_error he]
      exact .inr rfl

theorem Unanswered.not_ok (h : Unanswered response) : response.isOk = false := by
  rcases h with rfl | ⟨code, rfl, hcode⟩
  · rfl
  · simp only [Response.isOk, Bool.and_eq_false_iff, decide_eq_false_iff_not]
    omega

theorem Unanswered.request (h : Unanswered response) (token : Option Text) :
    request response token = token := by
  refine if_neg ?_
  rintro rfl
  rcases h with h | ⟨code, h, hcode⟩
  · cases h
  · cases h
    omega

theorem Settles.next (h : load answers tab () = some tab') (hsettles : Settles answers tab') :
    Settles answers tab := by
  obtain ⟨rest, hreaches, hrests⟩ := hsettles
  exact ⟨rest, hreaches.head h, hrests⟩

theorem Rests.settles (h : Rests answers tab) : Settles answers tab := ⟨tab, ⟨0, rfl⟩, h⟩

/-- A page rests at the form of the login without a token, or with a user it has been given. -/
theorem Rests.place (h : Rests answers tab) :
    tab.page = .login ∧ isAuthenticated tab.token = false ∨
      tab.page ≠ .login ∧ isAuthenticated tab.token ∧ (answers tab.asked).isOk := by
  obtain ⟨page, token, asked⟩ := tab
  cases hauth : isAuthenticated token with
  | false =>
    cases page with
    | login => exact .inl ⟨rfl, rfl⟩
    | index => cases h
    | dashboard | cronJobs | scripts | executions =>
      simp only [Rests, load, hauth, Bool.not_false, if_true] at h
      cases h
  | true =>
    cases page with
    | login =>
      simp only [Rests, load, hauth, if_true] at h
      cases h
    | index => cases h
    | dashboard | cronJobs | scripts | executions =>
      simp only [Rests, load, hauth, Bool.not_true, Bool.false_eq_true, if_false] at h
      split_ifs at h with hok
      exact .inr ⟨by simp, rfl, hok⟩

theorem settles_without_token (h : isAuthenticated tab.token = false) : Settles answers tab := by
  obtain ⟨page, token, asked⟩ := tab
  have hlogin : Rests answers ⟨.login, token, asked⟩ := by
    simp only [Rests, load]
    exact if_neg (by simp [h])
  cases page with
  | login => exact hlogin.settles
  | index =>
    refine Settles.next ?_ hlogin.settles
    simp only [load]
    rw [if_neg (by simp [h])]
  | dashboard | cronJobs | scripts | executions =>
    refine Settles.next ?_ hlogin.settles
    simp only [load]
    rw [if_pos (by simp [h])]

theorem load_inner (hindex : tab.page ≠ .index) (hlogin : tab.page ≠ .login)
    (hauth : isAuthenticated tab.token) :
    load answers tab () = if (answers tab.asked).isOk then none
      else some ⟨.login, request (answers tab.asked) tab.token, tab.asked + 1⟩ := by
  obtain ⟨page, token, asked⟩ := tab
  cases page with
  | index => exact absurd rfl hindex
  | login => exact absurd rfl hlogin
  | dashboard | cronJobs | scripts | executions => exact if_neg (by simpa using hauth)

theorem load_dashboard (hpage : tab.page = .index ∨ tab.page = .login)
    (hauth : isAuthenticated tab.token) :
    load answers tab () = some { tab with page := .dashboard } := by
  obtain ⟨page, token, asked⟩ := tab
  rcases hpage with rfl | rfl
  · simp only [load]
    rw [if_pos hauth]
  · exact if_pos hauth

/-- The question of a page brings it to rest, unless it is not answered. -/
theorem settles_inner
    (hanswer : Answered decode token (answers tab.asked) ∨ Unanswered (answers tab.asked))
    (hindex : tab.page ≠ .index) (hlogin : tab.page ≠ .login) (hauth : isAuthenticated tab.token)
    (hnext : Unanswered (answers tab.asked) →
      Settles answers ⟨.login, tab.token, tab.asked + 1⟩) : Settles answers tab := by
  have hload := @load_inner answers tab hindex hlogin hauth
  rcases hanswer with hanswered | hunanswered
  · rcases hanswered.cases with hok | hrefused
    · rw [hok] at hload
      exact Rests.settles hload
    · rw [hrefused] at hload
      exact Settles.next hload (settles_without_token rfl)
  · rw [hunanswered.not_ok, hunanswered.request] at hload
    exact Settles.next hload (hnext hunanswered)

theorem answered_not_unanswered (h : Answered decode token response) : ¬Unanswered response := by
  rintro (rfl | ⟨code, rfl, hcode⟩)
  · rcases h.cases with h | h <;> cases h
  · rcases h.cases with h | h <;> cases h <;> omega

/-- An answer, however late, brings the page to rest. -/
theorem settles_of_answered
    (hanswers : ∀ k, Answered decode token (answers k) ∨ Unanswered (answers k)) (n : ℕ)
    (h : Answered decode token (answers (tab.asked + n))) : Settles answers tab := by
  induction n generalizing tab with
  | zero =>
    cases hauth : isAuthenticated tab.token with
    | false => exact settles_without_token hauth
    | true =>
      have hnever : Unanswered (answers tab.asked) →
          Settles answers ⟨.login, tab.token, tab.asked + 1⟩ :=
        fun hno ↦ absurd hno (answered_not_unanswered h)
      by_cases hpage : tab.page = .index ∨ tab.page = .login
      · refine Settles.next (load_dashboard hpage hauth) ?_
        exact settles_inner (.inl h) (by simp) (by simp) hauth hnever
      · rw [not_or] at hpage
        exact settles_inner (.inl h) hpage.1 hpage.2 hauth hnever
  | succ n ih =>
    cases hauth : isAuthenticated tab.token with
    | false => exact settles_without_token hauth
    | true =>
      have hlater : Settles answers ⟨.login, tab.token, tab.asked + 1⟩ := by
        refine ih ?_
        rw [Nat.add_assoc, Nat.add_comm 1 n]
        exact h
      by_cases hpage : tab.page = .index ∨ tab.page = .login
      · refine Settles.next (load_dashboard hpage hauth) ?_
        exact settles_inner (hanswers _) (by simp) (by simp) hauth fun _ ↦ hlater
      · rw [not_or] at hpage
        exact settles_inner (hanswers _) hpage.1 hpage.2 hauth fun _ ↦ hlater

/-- Without an answer the pages keep replacing each other, and the token stays. -/
theorem load_unanswered (hanswers : ∀ k, tab.asked ≤ k → Unanswered (answers k))
    (hauth : isAuthenticated tab.token) {tab' : Tab} (h : load answers tab () = some tab') :
    isAuthenticated tab'.token ∧ tab.asked ≤ tab'.asked := by
  by_cases hpage : tab.page = .index ∨ tab.page = .login
  · rw [load_dashboard hpage hauth] at h
    obtain rfl := Option.some.inj h
    exact ⟨hauth, Nat.le_refl _⟩
  · rw [not_or] at hpage
    have hunanswered := hanswers tab.asked (Nat.le_refl _)
    rw [load_inner hpage.1 hpage.2 hauth, hunanswered.not_ok, hunanswered.request] at h
    obtain rfl := Option.some.inj h
    exact ⟨hauth, Nat.le_succ _⟩

theorem not_settles (hanswers : ∀ k, tab.asked ≤ k → Unanswered (answers k))
    (hauth : isAuthenticated tab.token) : ¬Settles answers tab := by
  rintro ⟨rest, ⟨n, hexec⟩, hrests⟩
  have hall : Always (load answers)
      (fun t ↦ isAuthenticated t.token ∧ tab.asked ≤ t.asked) tab (List.replicate n ()) := by
    refine always ?_ ⟨hauth, Nat.le_refl _⟩
    intro t _ t' ht hload
    have hkept := load_unanswered (fun k hk ↦ hanswers k (ht.2.trans hk)) ht.1 hload
    exact ⟨hkept.1, ht.2.trans hkept.2⟩
  obtain ⟨hrest, hasked⟩ := hall.last hexec
  rcases hrests.place with ⟨-, hnone⟩ | ⟨-, -, hok⟩
  · rw [hrest] at hnone
    cases hnone
  · rw [(hanswers _ hasked).not_ok] at hok
    cases hok

/-- A page hands on the token or drops it. -/
theorem load_token (h : load answers tab () = some tab') :
    tab'.token = tab.token ∨ tab'.token = none := by
  cases hauth : isAuthenticated tab.token with
  | false =>
    left
    obtain ⟨page, token, asked⟩ := tab
    cases page with
    | login =>
      simp only [load] at h
      rw [if_neg (by simpa using hauth)] at h
      cases h
    | index =>
      cases h
      rfl
    | dashboard | cronJobs | scripts | executions =>
      simp only [load] at h
      rw [if_pos (by simpa using hauth)] at h
      cases h
      rfl
  | true =>
    by_cases hpage : tab.page = .index ∨ tab.page = .login
    · rw [load_dashboard hpage hauth] at h
      obtain rfl := Option.some.inj h
      exact .inl rfl
    · rw [not_or] at hpage
      rw [load_inner hpage.1 hpage.2 hauth] at h
      split_ifs at h
      obtain rfl := Option.some.inj h
      unfold request
      split_ifs
      · exact .inr rfl
      · exact .inl rfl

theorem reaches_token {rest : Tab} (h : Reaches (load answers) () tab rest) :
    rest.token = tab.token ∨ rest.token = none := by
  obtain ⟨n, hexec⟩ := h
  have hall : Always (load answers) (fun t ↦ t.token = tab.token ∨ t.token = none) tab
      (List.replicate n ()) := by
    refine always ?_ (.inl rfl)
    intro t _ t' ht hload
    rcases load_token hload with hsame | hnone
    · rw [hsame]
      exact ht
    · exact .inr hnone
  exact hall.last hexec

end

/-- Loading a page comes to rest exactly when there is no token or one of the questions for the user
is answered; until then the login page and the dashboard replace each other. Where it rests, it is
at the form of the login without a token, or with a user that the panel has named. -/
theorem page_settles_iff {answers : ℕ → Response} {decode : Text → Option Payload} {token : Text}
    (hanswers : ∀ k, Answered decode token (answers k) ∨ Unanswered (answers k)) {tab : Tab}
    (htoken : ∀ t, tab.token = some t → t = token) :
    (Settles answers tab ↔ isAuthenticated tab.token = false ∨
      ∃ k, tab.asked ≤ k ∧ Answered decode token (answers k)) ∧
    ∀ rest, Reaches (load answers) () tab rest → Rests answers rest →
      rest.page = .login ∧ isAuthenticated rest.token = false ∨
        rest.page ≠ .login ∧ rest.token = some token ∧
          Answered decode token (answers rest.asked) := by
  constructor
  · constructor
    · intro hsettles
      by_contra hno
      rw [not_or, Bool.not_eq_false, not_exists] at hno
      refine not_settles (fun k hk ↦ ?_) hno.1 hsettles
      exact (hanswers k).resolve_left fun hanswered ↦ hno.2 k ⟨hk, hanswered⟩
    · rintro (hnone | ⟨k, hk, hanswered⟩)
      · exact settles_without_token hnone
      · refine settles_of_answered hanswers (k - tab.asked) ?_
        rw [Nat.add_sub_cancel' hk]
        exact hanswered
  · intro rest hreaches hrests
    refine hrests.place.imp_right ?_
    rintro ⟨hpage, hauth, hok⟩
    refine ⟨hpage, ?_, (hanswers rest.asked).resolve_right fun hno ↦ ?_⟩
    · cases hrest : rest.token with
      | none =>
        rw [hrest] at hauth
        cases hauth
      | some t =>
        rcases reaches_token hreaches with hsame | hnone
        · rw [htoken t (hsame.symm.trans hrest)]
        · rw [hrest] at hnone
          cases hnone
    · rw [hno.not_ok] at hok
      cases hok

section Sample

/-- The panel is away for two questions and then does not know the token. -/
def returning (k : ℕ) : Response := if k < 2 then .networkError else .status 401

theorem page_settles_iff_returning :
    exec (load returning) ⟨.index, some ['t'], 0⟩ (List.replicate 6 ()) =
      some ⟨.login, none, 3⟩ ∧
    (Settles returning ⟨.index, some ['t'], 0⟩ ↔ isAuthenticated (some ['t']) = false ∨
      ∃ k, 0 ≤ k ∧ Answered (fun _ ↦ none) ['t'] (returning k)) := by
  constructor
  · decide
  · refine (page_settles_iff (fun k ↦ ?_) fun t ht ↦ (Option.some.inj ht).symm).1
    unfold returning
    split_ifs
    · exact .inr (.inl rfl)
    · exact .inl ⟨0, Database.seeded, rfl⟩

end Sample

end CronPanel.Frontend.Auth
