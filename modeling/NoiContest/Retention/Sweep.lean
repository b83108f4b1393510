import Mathlib.Data.List.Sort
import NoiContest.Lib.FileSystem
import NoiContest.Lib.Outcome
import NoiContest.Lib.PyText

/- The local retention of services/retention.py over the contests of the store and the file tree
   of the host. -/
namespace NoiContest.Retention
open Outcome FilePath FileSystem

inductive Raised where
  | valueError (message : String)
  | runtimeError (message : String)
  | symlinkLoop
  | osError
  deriving DecidableEq, Repr

structure Contest where
  tid : String
  state : String
  activeMaterialRevision : String
  shutdownVerifiedAtMs : Int
  workspacePurgedAtMs : Int
  evidencePurgedAtMs : Int
  deriving DecidableEq, Repr

/- Whether the JSON columns of a revision can be decoded is all that is left of them here. -/
structure Revision where
  tid : String
  revision : String
  rootPath : String
  decodes : Bool
  deriving DecidableEq, Repr

/- The tid is the primary key of the contests. -/
structure Store where
  contests : List Contest
  revisions : List Revision
  once : (contests.map Contest.tid).Nodup

abbrev Files := FileSystem.Tree Unit

/- An rmtree that fails leaves some entries with the directories above them; both are up to the
   host. -/
structure World where
  cwd : Path
  stuck : Path → Bool
  left : Path → Bool
  upward : ∀ p q, q <+: p → left p = true → left q = true

structure Manager where
  artifactRoot : Path
  materialsDir : Path
  collectedDir : Path
  workspaceDays : Int
  evidenceDays : Int
  positive : 0 < workspaceDays
  ordered : workspaceDays ≤ evidenceDays
  distinct : [artifactRoot, materialsDir, collectedDir].Nodup

def Manager.roots (m : Manager) : List Path := [m.artifactRoot, m.materialsDir, m.collectedDir]

def Manager.workspaceBoundary (m : Manager) : Int := m.workspaceDays * 86400000
def Manager.evidenceBoundary (m : Manager) : Int := m.evidenceDays * 86400000

/- A change of a state that may be cut short by an error. -/
abbrev Change (σ : Type) := σ → σ × Except Raised Unit

def Change.next {σ : Type} (first second : Change σ) : Change σ := fun s =>
  match first s with
  | (s, .ok ()) => second s
  | (s, .error raised) => (s, .error raised)

def Change.all {σ α : Type} (each : α → Change σ) : List α → Change σ
  | [] => fun s => (s, .ok ())
  | a :: rest => (each a).next (Change.all each rest)

/-- `Path(text)` -/
def pathParts (text : String) : List String :=
  ((text.toList.splitOn '/').map String.ofList).filter fun part => part ≠ "" ∧ part ≠ "."

def isAbsolute (text : String) : Bool := text.toList.head? == some '/'

/-- `Path(text).resolve()` -/
def resolveText (w : World) (t : Files) (text : String) : Except Raised Path := do
  raiseIf (Char.ofNat 0 ∈ text.toList) (.valueError "embedded null byte")
  match resolve t (if isAbsolute text then [] else w.cwd) (pathParts text) with
  | some path => .ok path
  | none => .error .symlinkLoop

def isTid (s : String) : Bool := PyText.isLowerHexOf 24 s

/- `root` is one of the parents of `path`. -/
def IsParent (root path : Path) : Prop := root <+: path ∧ root ≠ path

instance (root path : Path) : Decidable (IsParent root path) :=
  inferInstanceAs (Decidable (_ ∧ _))

/-- `_contest_path` -/
def contestPath (t : Files) (root : Path) (tid : String) : Except Raised Path := do
  raiseIf (isTid tid = false) (.valueError "retention tid is invalid")
  match resolve t [] (root ++ [tid]) with
  | none => .error .symlinkLoop
  | some path => do
    raiseIf (¬ IsParent root path) (.runtimeError "retention path escapes its configured root")
    return path

/-- `_assert_plain_tree` -/
def assertPlainTree (t : Files) (path : Path) : Except Raised Unit :=
  match node t path with
  | some (.link _ _) | some (.file _) =>
    .error (.runtimeError "retention target is not a plain directory")
  | none => .ok ()
  | some .directory =>
    raiseIf (∃ e ∈ t, IsParent path e.1 ∧ e.2.isLink = true)
      (.runtimeError "retention tree contains a symbolic link")

def below (path : Path) (p : Path) : Bool := decide (path <+: p)

/-- `_remove_tree` -/
def removeTree (w : World) (path : Path) : Change Files := fun t =>
  match assertPlainTree t path with
  | .error raised => (t, .error raised)
  | .ok () =>
    if node t path = none then (t, .ok ())
    else if w.stuck path then (prune t fun p => !below path p || w.left p, .error .osError)
    else (prune t fun p => !below path p, .ok ())

/- The name of a revision's directory, which lies in the directory of the contest. -/
def revisionName (w : World) (t : Files) (root : Path) (r : Revision) : Except Raised String := do
  let path ← resolveText w t r.rootPath
  raiseIf (¬ IsParent root path ∨ path.dropLast ≠ root)
    (.runtimeError "artifact revision is outside its contest directory")
  return path.getLastD ""

/-- `store.artifact_revisions` -/
def artifactRevisions (store : Store) (tid : String) : Except Raised (List Revision) := do
  let rows := store.revisions.filter fun r => r.tid = tid
  raiseIf (∃ r ∈ rows, r.decodes = false) (.valueError "JSONDecodeError")
  return rows

/- The names of the entries of a directory. -/
def children (t : Files) (root : Path) : List String :=
  t.filterMap fun e => if e.1 ≠ [] ∧ e.1.dropLast = root then e.1.getLast? else none

/- The directories that a workspace purge removes. -/
def staleDirectories (w : World) (store : Store) (c : Contest) (root : Path) (t : Files) :
    Except Raised (List Path) := do
  let revisions ← artifactRevisions store c.tid
  let known ← revisions.mapM (revisionName w t root)
  raiseIf (∃ entry ∈ children t root, entry ∉ known)
    (.runtimeError "artifact workspace contains an untracked entry")
  let names := (known.dedup.insertionSort (· ≤ ·)).filter (· ≠ c.activeMaterialRevision)
  return names.map fun name => root ++ [name]

/-- `_purge_workspace` -/
def purgeWorkspace (w : World) (m : Manager) (store : Store) (c : Contest) : Change Files :=
  fun t =>
    let target := do
      let root ← contestPath t m.artifactRoot c.tid
      assertPlainTree t root
      return root
    match target with
    | .error raised => (t, .error raised)
    | .ok root =>
      if node t root = none then (t, .ok ())
      else
        match staleDirectories w store c root t with
        | .error raised => (t, .error raised)
        | .ok paths => Change.all (removeTree w) paths t

def purgeRoot (w : World) (c : Contest) (root : Path) : Change Files := fun t =>
  match contestPath t root c.tid with
  | .error raised => (t, .error raised)
  | .ok path => removeTree w path t

/-- `_purge_evidence` -/
def purgeEvidence (w : World) (m : Manager) (c : Contest) : Change Files :=
  Change.all (purgeRoot w c) m.roots

/-- `state IN ('safe_ended','done') AND shutdown_verified_at_ms>0` -/
def Ended (c : Contest) : Prop :=
  (c.state = "safe_ended" ∨ c.state = "done") ∧ 0 < c.shutdownVerifiedAtMs

instance (c : Contest) : Decidable (Ended c) := inferInstanceAs (Decidable (_ ∧ _))

inductive Kind where
  | workspace
  | evidence
  deriving DecidableEq, Repr

def Kind.name : Kind → String
  | .workspace => "workspace"
  | .evidence => "evidence"

def Contest.purgedAtMs (c : Contest) : Kind → Int
  | .workspace => c.workspacePurgedAtMs
  | .evidence => c.evidencePurgedAtMs

def Contest.mark (c : Contest) (observed : Int) : Kind → Contest
  | .workspace => { c with workspacePurgedAtMs := observed }
  | .evidence => { c with evidencePurgedAtMs := observed }

def Manager.boundary (m : Manager) : Kind → Int
  | .workspace => m.workspaceBoundary
  | .evidence => m.evidenceBoundary

/- The rows that mark_retention_purged updates. -/
def Marks (tid : String) (kind : Kind) (c : Contest) : Prop :=
  c.tid = tid ∧ Ended c ∧ c.purgedAtMs kind = 0

instance (tid : String) (kind : Kind) (c : Contest) : Decidable (Marks tid kind c) :=
  inferInstanceAs (Decidable (_ ∧ _))

theorem mark_tid (c : Contest) (observed : Int) (kind : Kind) :
    (c.mark observed kind).tid = c.tid := by
  cases kind <;> rfl

def Store.update (store : Store) (tid : String) (kind : Kind) (observed : Int) : Store where
  contests := store.contests.map fun c => if Marks tid kind c then c.mark observed kind else c
  revisions := store.revisions
  once := by
    have same : Contest.tid ∘ (fun c => if Marks tid kind c then c.mark observed kind else c) =
        Contest.tid := by
      funext c
      simp only [Function.comp_apply]
      split_ifs
      · exact mark_tid c observed kind
      · rfl
    rw [List.map_map, same]
    exact store.once

structure State where
  files : Files
  store : Store
  /-- The counters of the result. -/
  workspace : Nat
  evidence : Nat

def State.getContest (s : State) (tid : String) : Option Contest :=
  s.store.contests.find? fun c => c.tid = tid

/-- `mark_retention_purged`, which must update a row -/
def markPurged (tid : String) (kind : Kind) (observed : Int) : Change State := fun s =>
  if observed ≤ 0 then (s, .error (.valueError "retention timestamp is invalid"))
  else if ∃ c ∈ s.store.contests, Marks tid kind c then
    ({ s with
      store := s.store.update tid kind observed
      workspace := s.workspace + (if kind = .workspace then 1 else 0)
      evidence := s.evidence + (if kind = .evidence then 1 else 0) }, .ok ())
  else (s, .error (.runtimeError (kind.name ++ " retention marker was not committed")))

def onFiles (change : Change Files) : Change State := fun s =>
  match change s.files with
  | (files, outcome) => ({ s with files }, outcome)

def purge (w : World) (m : Manager) (store : Store) (c : Contest) : Kind → Change Files
  | .workspace => purgeWorkspace w m store c
  | .evidence => purgeEvidence w m c

/- One of the two purges of a contest, when it is due. `ended` was read before both. -/
def purgeDue (w : World) (m : Manager) (observed ended : Int) (tid : String) (kind : Kind) :
    Change State := fun s =>
  match s.getContest tid with
  | none => (s, .ok ())
  | some current =>
    if current.purgedAtMs kind = 0 ∧ m.boundary kind ≤ observed - ended then
      (onFiles (purge w m s.store current kind)).next (markPurged tid kind observed) s
    else (s, .ok ())

def sweepContest (w : World) (m : Manager) (observed : Int) (candidate : Contest) :
    Change State := fun s =>
  match s.getContest candidate.tid with
  | none => (s, .ok ())
  | some current =>
    if Ended current then
      let ended := current.shutdownVerifiedAtMs
      ((purgeDue w m observed ended candidate.tid .workspace).next
        (purgeDue w m observed ended candidate.tid .evidence)) s
    else (s, .ok ())

/-- `ORDER BY shutdown_verified_at_ms,tid` -/
def Before (a b : Contest) : Prop :=
  a.shutdownVerifiedAtMs < b.shutdownVerifiedAtMs ∨
    a.shutdownVerifiedAtMs = b.shutdownVerifiedAtMs ∧ a.tid ≤ b.tid

instance : DecidableRel Before := fun _ _ => inferInstanceAs (Decidable (_ ∨ _))

def Due (m : Manager) (observed : Int) (c : Contest) : Prop :=
  Ended c ∧ ∃ kind ∈ [Kind.workspace, Kind.evidence],
    c.purgedAtMs kind = 0 ∧ c.shutdownVerifiedAtMs ≤ observed - m.boundary kind

instance (m : Manager) (observed : Int) (c : Contest) : Decidable (Due m observed c) :=
  inferInstanceAs (Decidable (_ ∧ _))

/-- `store.retention_candidates` -/
def retentionCandidates (m : Manager) (observed : Int) (store : Store) : List Contest :=
  (store.contests.filter (Due m observed ·)).insertionSort Before

structure SweepResult where
  checked : Nat
  workspace : Nat
  evidence : Nat
  deriving DecidableEq, Repr

def sweep (w : World) (m : Manager) (observed : Int) (files : Files) (store : Store) :
    State × Except Raised SweepResult :=
  let candidates := retentionCandidates m observed store
  let start : State := { files, store, workspace := 0, evidence := 0 }
  match Change.all (sweepContest w m observed) candidates start with
  | (s, .ok ()) =>
    (s, .ok { checked := candidates.length, workspace := s.workspace, evidence := s.evidence })
  | (s, .error raised) => (s, .error raised)

end NoiContest.Retention
