import CronPanel.Library.Run

namespace CronPanel.Library.Paging

open Run

variable {σ ρ κ α β : Type}

/-- A store, and the pages of a listing that a reader has been given so far. -/
structure Reading (σ α : Type) where
  store : σ
  pages : List (List α)

/-- A request of another, or the reader asking for the next page. -/
inductive Event (ρ κ : Type)
  | act (request : ρ)
  | next (who : κ)

/-- The rows of a page. -/
def pageAt (n offset : ℕ) (rows : List α) : List α := (rows.drop offset).take n

/-- Every page so far has come full. -/
def Full (n : ℕ) (pages : List (List α)) : Prop := ∀ page ∈ pages, page.length = n

instance (n : ℕ) (pages : List (List α)) : Decidable (Full n pages) :=
  inferInstanceAs (Decidable (∀ page ∈ pages, page.length = n))

/-- A page has come short, after which the reader asks for no other. -/
def Ended (n : ℕ) (pages : List (List α)) : Prop := ∃ page ∈ pages, page.length < n

/-- The reader asks for the page after those it has been given, as long as they have come full. -/
def advance (step : σ → ρ → Option σ) (answer : σ → κ → ℕ → Option (List α)) (n : ℕ)
    (w : Reading σ α) : Event ρ κ → Option (Reading σ α)
  | .act request => (step w.store request).map fun s ↦ { w with store := s }
  | .next who =>
    if Full n w.pages then
      (answer w.store who (n * w.pages.length)).map fun page ↦
        { w with pages := w.pages ++ [page] }
    else none

variable {step : σ → ρ → Option σ} {answer : σ → κ → ℕ → Option (List α)} {n : ℕ}
variable {I : σ → Prop} {w w' : Reading σ α} {s : σ}

theorem Full.length_flatten {pages : List (List α)} (h : Full n pages) :
    pages.flatten.length = n * pages.length := by
  induction pages with
  | nil => rfl
  | cons page pages ih =>
    rw [List.flatten_cons, List.length_append, h page List.mem_cons_self,
      ih fun page hpage ↦ h page (List.mem_cons_of_mem _ hpage), List.length_cons, Nat.mul_succ,
      Nat.add_comm]

theorem advance_next {who : κ} (h : advance step answer n w (.next who) = some w') :
    Full n w.pages ∧ ∃ page, answer w.store who (n * w.pages.length) = some page ∧
      w' = { w with pages := w.pages ++ [page] } := by
  unfold advance at h
  split_ifs at h with hfull
  obtain ⟨page, hpage, rfl⟩ := Option.map_eq_some_iff.mp h
  exact ⟨hfull, page, hpage, rfl⟩

theorem Ended.last {pages : List (List α)} {page : List α} (hfull : Full n pages)
    (h : Ended n (pages ++ [page])) : page.length < n := by
  obtain ⟨short, hmem, hshort⟩ := h
  rcases List.mem_append.mp hmem with hmem | hmem
  · exact absurd (hfull short hmem) (Nat.ne_of_lt hshort)
  · rwa [← List.mem_singleton.mp hmem]

theorem not_ended {pages : List (List α)} (hfull : Full n pages) : ¬Ended n pages := by
  intro h
  obtain ⟨page, hpage, hshort⟩ := h
  exact Nat.ne_of_lt hshort (hfull page hpage)

/-- A short page is the last one. -/
theorem drop_of_short {offset : ℕ} {l : List α} (h : (pageAt n offset l).length < n) :
    l.drop (offset + n) = [] := by
  rw [pageAt, List.length_take, List.length_drop] at h
  exact List.drop_eq_nil_of_le (by omega)

section Appended

variable {rows : σ → List α}

/-- A page that comes after the rows read so far. -/
theorem flatten_next {pages : List (List α)} {l : List α} (hfull : Full n pages)
    (h : pages.flatten <+: l) :
    (pages ++ [pageAt n (n * pages.length) l]).flatten = l.take (n * pages.length + n) := by
  have hread : pages.flatten = l.take (n * pages.length) := by
    rw [← hfull.length_flatten]
    exact List.prefix_iff_eq_take.mp h
  rw [List.flatten_append, List.flatten_singleton, pageAt, hread, List.take_add]

theorem read_keep (hstep : ∀ s a t, I s → step s a = some t → I t ∧ rows s <+: rows t)
    (hanswer : ∀ s who offset page, answer s who offset = some page →
      page = pageAt n offset (rows s))
    {e : Event ρ κ} (hw : I w.store ∧ w.pages.flatten <+: rows w.store)
    (h : advance step answer n w e = some w') :
    I w'.store ∧ w'.pages.flatten <+: rows w'.store := by
  obtain ⟨hI, hprefix⟩ := hw
  cases e with
  | act request =>
    obtain ⟨t, ht, rfl⟩ := Option.map_eq_some_iff.mp h
    obtain ⟨hI', hgrows⟩ := hstep _ _ _ hI ht
    exact ⟨hI', hprefix.trans hgrows⟩
  | next who =>
    obtain ⟨hfull, page, hpage, rfl⟩ := advance_next h
    refine ⟨hI, ?_⟩
    rw [hanswer _ _ _ _ hpage, flatten_next hfull hprefix]
    exact List.take_prefix _ _

theorem read_last (hanswer : ∀ s who offset page, answer s who offset = some page →
      page = pageAt n offset (rows s)) {who : κ} (hw : w.pages.flatten <+: rows w.store)
    (h : advance step answer n w (.next who) = some w') (hended : Ended n w'.pages) :
    w'.pages.flatten = rows w'.store := by
  obtain ⟨hfull, page, hpage, rfl⟩ := advance_next h
  obtain rfl := hanswer _ _ _ _ hpage
  have hshort := Ended.last hfull hended
  rw [flatten_next hfull hw]
  exact List.take_of_length_le (List.drop_eq_nil_iff.mp (drop_of_short hshort))

/-- While the rows of a listing are only added at its end, the pages read are its rows from the
first on, each once, and they are all of them once a page comes short. -/
theorem appended_exact (hstep : ∀ s a t, I s → step s a = some t → I t ∧ rows s <+: rows t)
    (hanswer : ∀ s who offset page, answer s who offset = some page →
      page = pageAt n offset (rows s))
    {s : σ} (hs : I s) (events : List (Event ρ κ)) :
    Always (advance step answer n) (fun w ↦ w.pages.flatten <+: rows w.store) ⟨s, []⟩ events ∧
      Guarded (advance step answer n) (fun w e ↦ ∀ who w', e = .next who →
        advance step answer n w e = some w' → Ended n w'.pages →
          w'.pages.flatten = rows w'.store) ⟨s, []⟩ events := by
  have hkeep : ∀ (w : Reading σ α) (e : Event ρ κ) w', I w.store ∧ w.pages.flatten <+: rows w.store →
      advance step answer n w e = some w' → I w'.store ∧ w'.pages.flatten <+: rows w'.store :=
    fun _ _ _ hw h ↦ read_keep hstep hanswer hw h
  have hstart : I s ∧ ([] : List (List α)).flatten <+: rows s := ⟨hs, List.nil_prefix⟩
  constructor
  · exact always_mono (fun _ hw ↦ hw.2) (always hkeep hstart)
  · refine guarded_of_invariant hkeep ?_ hstart events
    intro w e hw who w' he h hended
    subst he
    exact read_last hanswer hw.2 h hended

end Appended

section Added

variable {β : Type} {key : α → β} {wanted : List β}

/-- What is wanted has been read or is still to come. -/
structure Covered (key : α → β) (n : ℕ) (wanted : List β) (l : List β) (pages : List (List α)) :
    Prop where
  found : ∀ k ∈ wanted, k ∈ pages.flatten.map key ∨ k ∈ l.drop (n * pages.length)
  ended : Ended n pages → ∀ k ∈ wanted, k ∈ pages.flatten.map key

theorem Covered.start (l : List β) : Covered key n l l [] := by
  refine ⟨fun k hk ↦ .inr ?_, ?_⟩
  · simpa using hk
  · intro h
    exact absurd h (not_ended fun _ hpage ↦ absurd hpage List.not_mem_nil)

/-- Rows that are added before those still to come push them further down. -/
theorem Covered.added {l l' : List β} {pages : List (List α)} (h : Covered key n wanted l pages)
    (hl : l.Sublist l') : Covered key n wanted l' pages := by
  refine ⟨?_, h.ended⟩
  intro k hk
  exact (h.found k hk).imp_right fun hmem ↦ (hl.drop _).subset hmem

theorem Covered.next {l : List β} {pages : List (List α)} {page : List α}
    (h : Covered key n wanted l pages) (hfull : Full n pages)
    (hpage : page.map key = pageAt n (n * pages.length) l) :
    Covered key n wanted l (pages ++ [page]) := by
  have hread {k : β} (hk : k ∈ pages.flatten.map key ∨ k ∈ page.map key) :
      k ∈ (pages ++ [page]).flatten.map key := by
    rw [List.flatten_append, List.flatten_singleton, List.map_append]
    exact List.mem_append.mpr hk
  have hfound : ∀ k ∈ wanted, k ∈ (pages ++ [page]).flatten.map key ∨
      k ∈ l.drop (n * pages.length + n) := by
    intro k hk
    rcases h.found k hk with hk | hk
    · exact .inl (hread (.inl hk))
    · rw [← List.take_append_drop n (l.drop _), List.drop_drop] at hk
      rcases List.mem_append.mp hk with hk | hk
      · exact .inl (hread (.inr (hpage ▸ hk)))
      · exact .inr hk
  refine ⟨?_, ?_⟩
  · rwa [List.length_append, List.length_singleton, Nat.mul_add, Nat.mul_one]
  · intro hended k hk
    have hshort := Ended.last hfull hended
    rw [← List.length_map (f := key), hpage] at hshort
    have hrest := hfound k hk
    rw [drop_of_short hshort] at hrest
    exact hrest.resolve_right List.not_mem_nil

/-- While rows are only added to a listing, wherever it may be, and none of them changes its place
with another, what was in it at first has been read once a page comes short. -/
theorem added_complete (key : α → β) (keys : σ → List β) {C : Reading σ α → Event ρ κ → Prop}
    (hstep : ∀ w a t, I w.store → C w (.act a) → step w.store a = some t →
      I t ∧ (keys w.store).Sublist (keys t))
    (hanswer : ∀ w who offset page, C w (.next who) → answer w.store who offset = some page →
      page.map key = pageAt n offset (keys w.store))
    {s : σ} (hs : I s) {events : List (Event ρ κ)}
    (hguarded : Guarded (advance step answer n) C ⟨s, []⟩ events) :
    Always (advance step answer n)
      (fun w ↦ Ended n w.pages → ∀ k ∈ keys s, k ∈ w.pages.flatten.map key) ⟨s, []⟩ events := by
  have hkeep : ∀ (w : Reading σ α) (e : Event ρ κ) w',
      I w.store ∧ Covered key n (keys s) (keys w.store) w.pages → C w e →
        advance step answer n w e = some w' →
          I w'.store ∧ Covered key n (keys s) (keys w'.store) w'.pages := by
    intro w e w' hw hC h
    obtain ⟨hI, hcovered⟩ := hw
    cases e with
    | act request =>
      obtain ⟨t, ht, rfl⟩ := Option.map_eq_some_iff.mp h
      obtain ⟨hI', hgrows⟩ := hstep _ _ _ hI hC ht
      exact ⟨hI', hcovered.added hgrows⟩
    | next who =>
      obtain ⟨hfull, page, hpage, rfl⟩ := advance_next h
      exact ⟨hI, hcovered.next hfull (hanswer _ _ _ _ hC hpage)⟩
  have halways := guarded_always hkeep ⟨hs, .start (keys s)⟩ hguarded
  exact always_mono (fun _ hw ↦ hw.2.ended) halways

end Added

end CronPanel.Library.Paging
