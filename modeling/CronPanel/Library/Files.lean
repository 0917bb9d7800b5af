import CronPanel.Library.Fallible
import CronPanel.Library.Strings

namespace CronPanel.Library.Files

open Library.Strings Library.Fallible

inductive Node
  | file (executable : Bool)
  | special
  | directory (searchable writable : Bool)
  | symlink (target : Text)
  deriving DecidableEq, Repr

/-- The names that lead from the root to a place. -/
abbrev Names := List Text

/-- What stands at each place, where all but the root stands in a directory. -/
structure FileTree where
  node : Names → Option Node
  nameMax : ℕ
  /-- How many links may be followed inside one another. -/
  linkMax : ℕ
  root : ∃ searchable writable, node [] = some (.directory searchable writable)
  parent : ∀ path name, node (path ++ [name]) ≠ none →
    ∃ searchable writable, node path = some (.directory searchable writable)

inductive LookupError
  | fileNotFound | notADirectory | permissionDenied | nameTooLong | symlinkLoop
  deriving DecidableEq, Repr

inductive MkdirError
  | fileExists
  | lookup (error : LookupError)
  deriving DecidableEq, Repr

def byteLength (name : Text) : ℕ := name.foldl (fun n c ↦ n + c.utf8Size) 0

def pardir : Text := "..".toList

/-- The names of a path, which says nothing by a name that is empty or a dot. -/
def components (path : Text) : Names :=
  (path.splitOn '/').filter fun name ↦ name ≠ [] ∧ name ≠ ['.']

/-- Where the target of a link that stands in a directory begins. -/
def base (path : Names) (target : Text) : Names := if target.head? = some '/' then [] else path

namespace FileTree

variable (t : FileTree)

def IsDirectory (path : Names) : Prop :=
  ∃ searchable writable, t.node path = some (.directory searchable writable)

def isFile (path : Names) : Bool :=
  match t.node path with
  | some (.file _) => true
  | _ => false

def isExecutable (path : Names) : Bool :=
  match t.node path with
  | some (.file executable) => executable
  | _ => false

/-- `os.lstat` of a name in a place. -/
def lstat (path : Names) (name : Text) : Except LookupError Node :=
  match t.node path with
  | some (.directory searchable _) =>
    if !searchable then .error .permissionDenied
    else if t.nameMax < byteLength name then .error .nameTooLong
    else (t.node (path ++ [name])).elim (.error .fileNotFound) .ok
  | some _ => .error .notADirectory
  | none => .error .fileNotFound

/-- The walk along names, in which links are followed by a walk of their own. -/
def walk (strict : Bool) (follow : Names → Names → Except LookupError Names) :
    Names → Names → Except LookupError Names
  | path, [] => .ok path
  | path, name :: rest =>
    if name = pardir then
      match t.node path with
      | some (.directory _ _) => walk strict follow path.dropLast rest
      | _ => if strict then .error .notADirectory else walk strict follow path.dropLast rest
    else
      match t.lstat path name with
      | .ok (.symlink target) => do
        let path ← follow (base path target) (components target)
        walk strict follow path rest
      | .ok _ => walk strict follow (path ++ [name]) rest
      | .error e => if strict then .error e else walk strict follow (path ++ [name]) rest

/-- `os.path.realpath` of names in a place, with links followed to a depth. -/
def joinRealPath (strict : Bool) : ℕ → Names → Names → Except LookupError Names
  | 0 => t.walk strict fun _ _ ↦ .error .symlinkLoop
  | depth + 1 => t.walk strict (joinRealPath strict depth)

/-- `Path.resolve` of an absolute path. -/
def resolve (strict : Bool) (path : Text) : Except LookupError Names :=
  t.joinRealPath strict t.linkMax [] (components path)

/-- The tree with a new directory. -/
def withDirectory (path : Names) (name : Text) (h : t.IsDirectory path) : FileTree where
  node p := if p = path ++ [name] then some (.directory true true) else t.node p
  nameMax := t.nameMax
  linkMax := t.linkMax
  root := by
    rw [if_neg (by simp)]
    exact t.root
  parent := by
    intro p n hn
    split_ifs with hp
    · exact ⟨true, true, rfl⟩
    · split_ifs at hn with heq
      · obtain ⟨rfl, -⟩ := List.append_inj' heq rfl
        exact h
      · exact t.parent p n hn

/-- `os.mkdir` of a name in a place that is there. -/
def mkdir (path : Names) (name : Text) : Except MkdirError FileTree :=
  match t.lstat path name with
  | .ok _ => .error .fileExists
  | .error .fileNotFound =>
    if h : t.node path = some (.directory true true) then
      .ok (t.withDirectory path name ⟨true, true, h⟩)
    else .error (.lookup .permissionDenied)
  | .error e => .error (.lookup e)

end FileTree

/-- `Path.mkdir` of names in a place, with `parents` and `exist_ok`; no name of them is a link. -/
def FileTree.makeDirs : Names → Names → FileTree → Except MkdirError FileTree
  | _, [], t => .ok t
  | path, name :: rest, t =>
    match t.lstat path name with
    | .ok (.directory _ _) => makeDirs (path ++ [name]) rest t
    | .ok _ => .error (if rest = [] then .fileExists else .lookup .notADirectory)
    | .error .fileNotFound => do
      let t ← t.mkdir path name
      makeDirs (path ++ [name]) rest t
    | .error e => .error (.lookup e)

namespace FileTree

variable {t : FileTree} {depth : ℕ} {path rest last : Names} {name : Text}

/-- A name has been looked up in a directory, with what it stands for there. -/
def Searched (t : FileTree) (path : Names) (name : Text) (found : Option Node) : Prop :=
  (∃ writable, t.node path = some (.directory true writable)) ∧ byteLength name ≤ t.nameMax ∧
    t.node (path ++ [name]) = found

/-- Where names lead when links are followed to a depth, or that they lead to one that is
missing. -/
inductive Leads (t : FileTree) : ℕ → Names → Names → Option Names → Prop
  | done {depth : ℕ} {path : Names} : Leads t depth path [] (some path)
  | missing {depth : ℕ} {path rest : Names} {name : Text} (hname : name ≠ pardir)
    (h : t.Searched path name none) : Leads t depth path (name :: rest) none
  | up {depth : ℕ} {path rest : Names} {found : Option Names} (h : t.IsDirectory path)
    (hrest : Leads t depth path.dropLast rest found) : Leads t depth path (pardir :: rest) found
  | enter {depth : ℕ} {path rest : Names} {found : Option Names} {name : Text} {node : Node}
    (hname : name ≠ pardir) (h : t.Searched path name (some node))
    (hnode : ∀ target, node ≠ .symlink target)
    (hrest : Leads t depth (path ++ [name]) rest found) : Leads t depth path (name :: rest) found
  | lost {depth : ℕ} {path rest : Names} {name target : Text} (hname : name ≠ pardir)
    (h : t.Searched path name (some (.symlink target)))
    (hlink : Leads t depth (base path target) (components target) none) :
    Leads t (depth + 1) path (name :: rest) none
  | link {depth : ℕ} {path rest middle : Names} {found : Option Names} {name target : Text}
    (hname : name ≠ pardir) (h : t.Searched path name (some (.symlink target)))
    (hlink : Leads t depth (base path target) (components target) (some middle))
    (hrest : Leads t (depth + 1) middle rest found) : Leads t (depth + 1) path (name :: rest) found

/-- Something stands at a place, and it is no link. -/
def IsReal (t : FileTree) (path : Names) : Prop :=
  ∃ node, t.node path = some node ∧ ∀ target, node ≠ .symlink target

def answer (found : Option Names) : Except LookupError Names :=
  found.elim (.error .fileNotFound) .ok

theorem lstat_eq_ok {node : Node} :
    t.lstat path name = .ok node ↔ t.Searched path name (some node) := by
  unfold lstat Searched
  cases hpath : t.node path with
  | none => simp
  | some place =>
    cases place with
    | directory searchable writable =>
      dsimp only
      cases searchable with
      | false => simp
      | true =>
        by_cases hlong : t.nameMax < byteLength name
        · simp [hlong, Nat.not_le.mpr hlong]
        · cases hnode : t.node (path ++ [name]) <;> simp [hlong, Nat.not_lt.mp hlong]
    | _ => simp

theorem lstat_missing (hpath : t.node path ≠ none) :
    t.lstat path name = .error .fileNotFound ↔ t.Searched path name none := by
  unfold lstat Searched
  cases hplace : t.node path with
  | none => exact absurd hplace hpath
  | some place =>
    cases place with
    | directory searchable writable =>
      dsimp only
      cases searchable with
      | false => simp
      | true =>
        by_cases hlong : t.nameMax < byteLength name
        · simp [hlong, Nat.not_le.mpr hlong]
        · cases hnode : t.node (path ++ [name]) <;> simp [hlong, Nat.not_lt.mp hlong]
    | _ => simp

section Steps

variable {node : Node}

theorem joinRealPath_nil : t.joinRealPath true depth path [] = .ok path := by
  cases depth <;> rfl

theorem joinRealPath_up (h : t.IsDirectory path) :
    t.joinRealPath true depth path (pardir :: rest) =
      t.joinRealPath true depth path.dropLast rest := by
  obtain ⟨searchable, writable, hpath⟩ := h
  cases depth <;> simp only [joinRealPath, walk, if_true, hpath]

theorem joinRealPath_not_up (h : ¬t.IsDirectory path) :
    t.joinRealPath true depth path (pardir :: rest) = .error .notADirectory := by
  have hwalk (follow : Names → Names → Except LookupError Names) :
      t.walk true follow path (pardir :: rest) = .error .notADirectory := by
    rw [walk, if_pos rfl]
    split
    · rename_i searchable writable hpath
      exact absurd ⟨searchable, writable, hpath⟩ h
    · rfl
  cases depth <;> exact hwalk _

theorem joinRealPath_enter (hname : name ≠ pardir) (h : t.lstat path name = .ok node)
    (hnode : ∀ target, node ≠ .symlink target) :
    t.joinRealPath true depth path (name :: rest) =
      t.joinRealPath true depth (path ++ [name]) rest := by
  cases node with
  | symlink target => exact absurd rfl (hnode target)
  | _ => cases depth <;> simp only [joinRealPath, walk, if_neg hname, h]

theorem joinRealPath_link {target : Text} (hname : name ≠ pardir)
    (h : t.lstat path name = .ok (.symlink target)) :
    t.joinRealPath true (depth + 1) path (name :: rest) =
      (t.joinRealPath true depth (base path target) (components target)).bind fun middle ↦
        t.joinRealPath true (depth + 1) middle rest := by
  simp only [joinRealPath, walk, if_neg hname, h]
  rfl

theorem joinRealPath_last_link {target : Text} (hname : name ≠ pardir)
    (h : t.lstat path name = .ok (.symlink target)) :
    t.joinRealPath true 0 path (name :: rest) = .error .symlinkLoop := by
  simp only [joinRealPath, walk, if_neg hname, h]
  rfl

theorem joinRealPath_error {e : LookupError} (hname : name ≠ pardir)
    (h : t.lstat path name = .error e) :
    t.joinRealPath true depth path (name :: rest) = .error e := by
  cases depth <;> simp only [joinRealPath, walk, if_neg hname, h, if_true]

end Steps

theorem IsDirectory.isReal (h : t.IsDirectory path) : t.IsReal path := by
  obtain ⟨searchable, writable, h⟩ := h
  exact ⟨_, h, by simp⟩

theorem IsReal.root : t.IsReal [] := IsDirectory.isReal t.root

theorem IsReal.dropLast (h : t.IsReal path) : t.IsReal path.dropLast := by
  obtain ⟨node, h, -⟩ := h
  cases path using List.reverseRecOn with
  | nil => exact IsReal.root
  | append_singleton path name =>
    rw [List.dropLast_concat]
    exact IsDirectory.isReal (t.parent path name (by rw [h]; simp))

theorem IsReal.base (h : t.IsReal path) (target : Text) : t.IsReal (base path target) := by
  unfold Files.base
  split_ifs
  · exact IsReal.root
  · exact h

theorem Searched.isReal {node : Node} (h : t.Searched path name (some node))
    (hnode : ∀ target, node ≠ .symlink target) : t.IsReal (path ++ [name]) :=
  ⟨node, h.2.2, hnode⟩

theorem Leads.isReal {found : Option Names} (h : t.Leads depth path rest found)
    (hpath : t.IsReal path) :
    ∀ last, found = some last → t.IsReal last := by
  induction h with
  | done =>
    intro last hlast
    exact Option.some.inj hlast ▸ hpath
  | missing hname h =>
    intro last hlast
    cases hlast
  | up h hrest ih => exact ih hpath.dropLast
  | enter hname h hnode hrest ih => exact ih (h.isReal hnode)
  | lost hname h hlink ih =>
    intro last hlast
    cases hlast
  | @link depth path rest middle found name target hname h hlink hrest ihlink ih =>
    exact ih (ihlink (hpath.base target) middle rfl)

theorem joinRealPath_of_leads {found : Option Names} (h : t.Leads depth path rest found)
    (hpath : t.IsReal path) : t.joinRealPath true depth path rest = answer found := by
  induction h with
  | done => exact joinRealPath_nil
  | missing hname h =>
    obtain ⟨node, hnode, -⟩ := hpath
    have hlstat := (lstat_missing (by rw [hnode]; simp)).mpr h
    exact joinRealPath_error hname hlstat
  | up h hrest ih =>
    rw [joinRealPath_up h]
    exact ih hpath.dropLast
  | enter hname h hnode hrest ih =>
    rw [joinRealPath_enter hname (lstat_eq_ok.mpr h) hnode]
    exact ih (h.isReal hnode)
  | @lost depth path rest name target hname h hlink ih =>
    rw [joinRealPath_link hname (lstat_eq_ok.mpr h), ih (hpath.base target)]
    rfl
  | @link depth path rest middle found name target hname h hlink hrest ihlink ih =>
    have hbase := hpath.base target
    rw [joinRealPath_link hname (lstat_eq_ok.mpr h), ihlink hbase]
    exact ih (hlink.isReal hbase middle rfl)

theorem answer_eq_error {found : Option Names} {e : LookupError} (h : .error e = answer found) :
    found = none ∧ e = .fileNotFound := by
  cases found with
  | none => exact ⟨rfl, Except.error.inj h⟩
  | some last => cases h

theorem leads_of_joinRealPath {found : Option Names} (hpath : t.IsReal path)
    (h : t.joinRealPath true depth path rest = answer found) : t.Leads depth path rest found := by
  induction depth using Nat.strong_induction_on generalizing path rest found with
  | _ depth ihdepth =>
    induction rest generalizing path with
    | nil =>
      rw [joinRealPath_nil] at h
      cases found with
      | none => cases h
      | some last =>
        cases h
        exact .done
    | cons name rest ih =>
      by_cases hname : name = pardir
      · subst hname
        by_cases hdirectory : t.IsDirectory path
        · rw [joinRealPath_up hdirectory] at h
          exact .up hdirectory (ih hpath.dropLast h)
        · rw [joinRealPath_not_up hdirectory] at h
          cases (answer_eq_error h).2
      cases hlstat : t.lstat path name with
      | error e =>
        rw [joinRealPath_error hname hlstat] at h
        obtain ⟨rfl, rfl⟩ := answer_eq_error h
        obtain ⟨node, hnode, -⟩ := hpath
        exact .missing hname ((lstat_missing (by rw [hnode]; simp)).mp hlstat)
      | ok node =>
        have hsearched := lstat_eq_ok.mp hlstat
        by_cases hlink : ∃ target, node = .symlink target
        · obtain ⟨target, rfl⟩ := hlink
          cases depth with
          | zero =>
            rw [joinRealPath_last_link hname hlstat] at h
            cases (answer_eq_error h).2
          | succ depth =>
            have hbase := hpath.base target
            rw [joinRealPath_link hname hlstat] at h
            cases hmiddle : t.joinRealPath true depth (base path target) (components target) with
            | error e =>
              rw [hmiddle] at h
              obtain ⟨rfl, rfl⟩ := answer_eq_error h
              exact .lost hname hsearched (ihdepth depth (Nat.lt_succ_self depth) hbase hmiddle)
            | ok middle =>
              rw [hmiddle] at h
              have hleads : t.Leads depth (base path target) (components target) (some middle) :=
                ihdepth depth (Nat.lt_succ_self depth) hbase hmiddle
              exact .link hname hsearched hleads (ih (hleads.isReal hbase middle rfl) h)
        · have hnode : ∀ target, node ≠ .symlink target := fun target heq ↦ hlink ⟨target, heq⟩
          rw [joinRealPath_enter hname hlstat hnode] at h
          exact .enter hname hsearched hnode (ih (hsearched.isReal hnode) h)

theorem joinRealPath_iff {found : Option Names} (hpath : t.IsReal path) :
    t.joinRealPath true depth path rest = answer found ↔ t.Leads depth path rest found :=
  ⟨leads_of_joinRealPath hpath, fun h ↦ joinRealPath_of_leads h hpath⟩

/-- No name on the way to a place is seen to be a link. -/
def Linkless (t : FileTree) (path : Names) : Prop :=
  ∀ before name, before ++ [name] <+: path → ∀ target, t.lstat before name ≠ .ok (.symlink target)

theorem Linkless.enter (h : t.Linkless path)
    (hname : ∀ target, t.lstat path name ≠ .ok (.symlink target)) :
    t.Linkless (path ++ [name]) := by
  intro before n hstart
  rcases List.prefix_concat_iff.mp hstart with heq | hstart
  · obtain ⟨rfl, hsame⟩ := List.append_inj' heq rfl
    obtain rfl : n = name := by simpa using hsame
    exact hname
  · exact h before n hstart

theorem Linkless.dropLast (h : t.Linkless path) : t.Linkless path.dropLast :=
  fun before name hstart ↦ h before name (hstart.trans (List.dropLast_prefix path))

theorem Linkless.root : t.Linkless [] := by
  intro before name hstart
  have hnil := List.prefix_nil.mp hstart
  simp at hnil

theorem Linkless.base (h : t.Linkless path) (target : Text) : t.Linkless (base path target) := by
  unfold Files.base
  split_ifs
  · exact Linkless.root
  · exact h

theorem walk_linkless {strict : Bool} {follow : Names → Names → Except LookupError Names}
    (hfollow : ∀ path rest last, t.Linkless path → follow path rest = .ok last → t.Linkless last)
    (hpath : t.Linkless path) (h : t.walk strict follow path rest = .ok last) :
    t.Linkless last := by
  induction rest generalizing path with
  | nil =>
    cases h
    exact hpath
  | cons name rest ih =>
    unfold walk at h
    by_cases hname : name = pardir
    · rw [if_pos hname] at h
      split at h
      · exact ih hpath.dropLast h
      · split_ifs at h
        exact ih hpath.dropLast h
    · rw [if_neg hname] at h
      split at h
      · rename_i target hlstat
        obtain ⟨middle, hmiddle, h⟩ := bind_eq_ok.mp h
        exact ih (hfollow _ _ middle (hpath.base target) hmiddle) h
      · rename_i node hnode hlstat
        refine ih (hpath.enter ?_) h
        intro target hlink
        exact hnode target (Except.ok.inj (hlstat.symm.trans hlink))
      · rename_i e hlstat
        split_ifs at h
        refine ih (hpath.enter ?_) h
        intro target hlink
        cases hlstat.symm.trans hlink

theorem joinRealPath_linkless {strict : Bool} (hpath : t.Linkless path)
    (h : t.joinRealPath strict depth path rest = .ok last) : t.Linkless last := by
  induction depth generalizing path rest last with
  | zero =>
    refine walk_linkless ?_ hpath h
    intro path rest last _ hfollow
    cases hfollow
  | succ depth ih =>
    exact walk_linkless (fun _ _ _ hlinkless hfollow ↦ ih hlinkless hfollow) hpath h

/-- A resolved path has no link on it. -/
theorem resolve_linkless {strict : Bool} {text : Text} (h : t.resolve strict text = .ok last) :
    t.Linkless last := joinRealPath_linkless Linkless.root h

/-- Strict resolution is what the names of the path lead to. -/
theorem resolve_iff {text : Text} {found : Option Names} :
    t.resolve true text = answer found ↔ t.Leads t.linkMax [] (components text) found :=
  joinRealPath_iff IsReal.root

section Directories

variable {t' : FileTree}

/-- The directories on the way can be searched up to the end, or to one that can be written,
where the first name is missing and this one and the next fit. -/
inductive Makeable (t : FileTree) : Names → Names → Prop
  | there {path : Names} : Makeable t path []
  | enter {path rest : Names} {name : Text} {searchable writable : Bool}
    (h : t.Searched path name (some (.directory searchable writable)))
    (hrest : Makeable t (path ++ [name]) rest) : Makeable t path (name :: rest)
  | make {path rest : Names} {name : Text} (h : t.node path = some (.directory true true))
    (hnone : t.node (path ++ [name]) = none) (hfit : ∀ n ∈ name :: rest, byteLength n ≤ t.nameMax) :
    Makeable t path (name :: rest)

/-- All that stood in a tree stands in another one. -/
structure Extends (t t' : FileTree) : Prop where
  node : ∀ path node, t.node path = some node → t'.node path = some node
  nameMax : t'.nameMax = t.nameMax
  linkMax : t'.linkMax = t.linkMax

theorem Extends.refl (t : FileTree) : Extends t t := ⟨fun _ _ h ↦ h, rfl, rfl⟩

theorem Extends.trans {u : FileTree} (h : Extends t t') (h' : Extends t' u) : Extends t u :=
  ⟨fun path node hnode ↦ h'.node path node (h.node path node hnode), h'.nameMax.trans h.nameMax,
    h'.linkMax.trans h.linkMax⟩

theorem mkdir_ok (h : t.mkdir path name = .ok t') :
    t.node path = some (.directory true true) ∧ t.node (path ++ [name]) = none ∧
      byteLength name ≤ t.nameMax ∧ ∃ hpath, t' = t.withDirectory path name hpath := by
  unfold mkdir at h
  split at h
  · cases h
  · rename_i hlstat
    split_ifs at h with hpath
    cases h
    obtain ⟨-, hfit, hnone⟩ := (lstat_missing (by rw [hpath]; simp)).mp hlstat
    exact ⟨hpath, hnone, hfit, _, rfl⟩
  · cases h

theorem mkdir_of_missing (hpath : t.node path = some (.directory true true))
    (hnone : t.node (path ++ [name]) = none) (hfit : byteLength name ≤ t.nameMax) :
    ∃ hdirectory, t.mkdir path name = .ok (t.withDirectory path name hdirectory) := by
  have hlstat := (lstat_missing (by rw [hpath]; simp)).mpr ⟨⟨true, hpath⟩, hfit, hnone⟩
  refine ⟨⟨true, true, hpath⟩, ?_⟩
  rw [mkdir, hlstat]
  dsimp only
  rw [dif_pos hpath]

theorem withDirectory_self (h : t.IsDirectory path) :
    (t.withDirectory path name h).node (path ++ [name]) = some (.directory true true) := if_pos rfl

theorem withDirectory_extends (h : t.IsDirectory path) (hnone : t.node (path ++ [name]) = none) :
    Extends t (t.withDirectory path name h) := by
  refine ⟨?_, rfl, rfl⟩
  intro p node hnode
  have hne : p ≠ path ++ [name] := by
    intro heq
    rw [heq, hnone] at hnode
    cases hnode
  exact (if_neg hne).trans hnode

/-- Nothing stands in a directory that has just been made. -/
theorem withDirectory_fresh (h : t.IsDirectory path) (hnone : t.node (path ++ [name]) = none)
    (n : Text) : (t.withDirectory path name h).node (path ++ [name] ++ [n]) = none := by
  refine (if_neg ?_).trans ?_
  · intro heq
    have hlength := congrArg List.length heq
    simp at hlength
  · by_contra hne
    obtain ⟨searchable, writable, hparent⟩ := t.parent _ _ hne
    rw [hnone] at hparent
    cases hparent

theorem makeDirs_directory {s w : Bool} (h : t.lstat path name = .ok (.directory s w)) :
    makeDirs path (name :: rest) t = makeDirs (path ++ [name]) rest t := by
  rw [makeDirs, h]

theorem makeDirs_missing (h : t.lstat path name = .error .fileNotFound) :
    makeDirs path (name :: rest) t =
      (t.mkdir path name).bind fun t ↦ makeDirs (path ++ [name]) rest t := by
  rw [makeDirs, h]
  rfl

/-- What is made is there at the end, and nothing is lost for it. -/
theorem makeDirs_ok (h : makeDirs path rest t = .ok t') (hpath : t.IsDirectory path) :
    Extends t t' ∧ t'.IsDirectory (path ++ rest) := by
  induction rest generalizing path t with
  | nil =>
    cases h
    rw [List.append_nil]
    exact ⟨.refl _, hpath⟩
  | cons name rest ih =>
    have hnext {u : FileTree} (hu : makeDirs (path ++ [name]) rest u = .ok t')
        (hd : u.IsDirectory (path ++ [name])) :
        Extends u t' ∧ t'.IsDirectory (path ++ name :: rest) := by
      rw [List.append_cons]
      exact ih hu hd
    unfold makeDirs at h
    split at h
    · rename_i searchable writable hlstat
      exact hnext h ⟨searchable, writable, (lstat_eq_ok.mp hlstat).2.2⟩
    · cases h
    · obtain ⟨u, hu, h⟩ := bind_eq_ok.mp h
      obtain ⟨-, hnone, -, hdirectory, rfl⟩ := mkdir_ok hu
      obtain ⟨hextends, hend⟩ := hnext h ⟨true, true, withDirectory_self hdirectory⟩
      exact ⟨(withDirectory_extends hdirectory hnone).trans hextends, hend⟩
    · cases h

/-- Names are made below a directory where nothing stands exactly when they fit. -/
theorem makeDirs_fresh (hpath : t.node path = some (.directory true true))
    (hnone : ∀ n, t.node (path ++ [n]) = none) :
    Succeeds (makeDirs path rest t) ↔ ∀ n ∈ rest, byteLength n ≤ t.nameMax := by
  induction rest generalizing path t with
  | nil => exact iff_of_true ⟨t, rfl⟩ (by simp)
  | cons name rest ih =>
    rw [List.forall_mem_cons]
    by_cases hfit : byteLength name ≤ t.nameMax
    · obtain ⟨hdirectory, hmkdir⟩ := mkdir_of_missing hpath (hnone name) hfit
      have hlstat := (lstat_missing (by rw [hpath]; simp)).mpr ⟨⟨true, hpath⟩, hfit, hnone name⟩
      rw [makeDirs_missing hlstat, hmkdir, and_iff_right hfit]
      exact ih (withDirectory_self hdirectory) (withDirectory_fresh hdirectory (hnone name))
    · refine iff_of_false ?_ (fun h ↦ hfit h.1)
      intro h
      obtain ⟨u, h⟩ := h
      have hlstat : t.lstat path name = .error .nameTooLong := by
        rw [lstat, hpath]
        dsimp only
        rw [Bool.not_true, if_neg Bool.false_ne_true, if_pos (Nat.not_le.mp hfit)]
      rw [makeDirs, hlstat] at h
      cases h

theorem makeDirs_iff (hpath : t.IsDirectory path) :
    Succeeds (makeDirs path rest t) ↔ t.Makeable path rest := by
  constructor
  · intro h
    induction rest generalizing path with
    | nil => exact .there
    | cons name rest ih =>
      obtain ⟨u, h⟩ := h
      unfold makeDirs at h
      split at h
      · rename_i searchable writable hlstat
        have hsearched := lstat_eq_ok.mp hlstat
        exact .enter hsearched (ih ⟨searchable, writable, hsearched.2.2⟩ ⟨u, h⟩)
      · cases h
      · obtain ⟨made, hmade, h⟩ := bind_eq_ok.mp h
        obtain ⟨hwritable, hnone, hfit, hdirectory, rfl⟩ := mkdir_ok hmade
        have hrest := (makeDirs_fresh (withDirectory_self hdirectory)
          (withDirectory_fresh hdirectory hnone)).mp ⟨u, h⟩
        exact .make hwritable hnone (List.forall_mem_cons.mpr ⟨hfit, hrest⟩)
      · cases h
  · intro h
    induction h with
    | there => exact ⟨t, rfl⟩
    | @enter path rest name searchable writable h hrest ih =>
      rw [makeDirs_directory (lstat_eq_ok.mpr h)]
      exact ih ⟨searchable, writable, h.2.2⟩
    | @make path rest name hwritable hnone hfit =>
      obtain ⟨hfit, hrest⟩ := List.forall_mem_cons.mp hfit
      obtain ⟨hdirectory, hmkdir⟩ := mkdir_of_missing hwritable hnone hfit
      have hlstat := (lstat_missing (by rw [hwritable]; simp)).mpr ⟨⟨true, hwritable⟩, hfit, hnone⟩
      rw [makeDirs_missing hlstat, hmkdir]
      exact (makeDirs_fresh (withDirectory_self hdirectory)
        (withDirectory_fresh hdirectory hnone)).mpr hrest

end Directories

end FileTree

end CronPanel.Library.Files
