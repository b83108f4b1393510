import NoiContest.Retention.OwnFiles

/- What the failure of one contest's purge means for the others. -/
namespace NoiContest.Retention
open Outcome FilePath FileSystem

theorem node_none {t : Files} (real : Real t) {path : Path} (absent : node t path = none)
    {e : Path × Node Unit} (mem : e ∈ t) : ¬ path <+: e.1 := by
  intro starts
  have filled : path ≠ [] := by
    rintro rfl
    cases absent
  by_cases same : path = e.1
  · have found := (node_some real.once filled).mpr (show (path, e.2) ∈ t by rw [same]; exact mem)
    rw [absent] at found
    cases found
  · have above := real.closed e mem path (mem_parents.mpr ⟨filled, starts, same⟩)
    rw [(node_some real.once filled).mpr above] at absent
    cases absent

theorem prune_real (keep : Path → Bool) {t : Files} (real : Real t)
    (upward : ∀ p q, q <+: p → keep p = true → keep q = true) : Real (prune t keep) where
  filled := fun e mem => real.filled e (mem_prune.mp mem).1
  once := prune_once real.once
  closed := by
    intro e mem parent up
    obtain ⟨inside, kept⟩ := mem_prune.mp mem
    exact mem_prune.mpr ⟨real.closed e inside parent up, upward _ _ (mem_parents.mp up).2.1 kept⟩

theorem below_upward {path p q : Path} (starts : q <+: p) (outside : below path p = false) :
    below path q = false := by
  simp only [below, decide_eq_false_iff_not] at outside ⊢
  exact fun inside => outside (inside.trans starts)

theorem removeTree_real (w : World) (path : Path) {t : Files} (real : Real t) :
    Real (removeTree w path t).1 := by
  unfold removeTree
  split
  · exact real
  · split_ifs
    · exact real
    · refine prune_real (fun p => !below path p || w.left p) real ?_
      intro p q starts kept
      rw [Bool.or_eq_true, Bool.not_eq_true'] at kept ⊢
      exact kept.imp (below_upward starts) (w.upward p q starts)
    · refine prune_real (fun p => !below path p) real ?_
      intro p q starts kept
      rw [Bool.not_eq_true'] at kept ⊢
      exact below_upward starts kept

/- The second tree is the first after some removals. -/
structure Smaller (t s : Files) : Prop where
  removes : Removes (fun _ => True) t s
  first : Real t
  second : Real s

theorem real_named {t : Files} (real : Real t) : Named t := ⟨real.filled, real.once⟩

theorem Smaller.links {t s : Files} (smaller : Smaller t s) : SameLinks t s :=
  smaller.removes.links (real_named smaller.first)

theorem Smaller.node {t s : Files} (smaller : Smaller t s) {path : Path}
    (present : FileSystem.node s path ≠ none) :
    FileSystem.node t path = FileSystem.node s path := by
  by_cases top : path = []
  · rw [top]
    rfl
  · cases found : FileSystem.node s path with
    | none => exact absurd found present
    | some n =>
      exact (node_some smaller.first.once top).mpr
        (smaller.removes.subset _ ((node_some smaller.second.once top).mp found))

theorem Smaller.plain {t s : Files} (smaller : Smaller t s) {path : Path}
    (plain : assertPlainTree t path = .ok ()) : assertPlainTree s path = .ok () := by
  cases here : FileSystem.node s path with
  | none =>
    unfold assertPlainTree
    rw [here]
  | some n =>
    have same : FileSystem.node t path = FileSystem.node s path := smaller.node (by simp [here])
    have directory := assertPlainTree_ok plain (by simp [same, here])
    unfold assertPlainTree
    rw [← same, directory.1]
    simp only [raiseIf_ok, not_exists, not_and]
    intro e mem inside
    simp [directory.2 e (smaller.removes.subset e mem) inside]

/- What succeeds on a tree succeeds on a smaller one, with a smaller result. -/
def Monotone (change : Change Files) : Prop :=
  ∀ t s, Smaller t s → (change t).2 = .ok () →
    (change s).2 = .ok () ∧ Smaller (change t).1 (change s).1

theorem Change.next_ok {σ : Type} {first second : Change σ} {s : σ} :
    (first.next second s).2 = .ok () ↔
      (first s).2 = .ok () ∧ (second (first s).1).2 = .ok () := by
  unfold Change.next
  split <;> rename_i same <;> simp [same]

theorem Change.next_state {σ : Type} {first second : Change σ} {s : σ}
    (done : (first s).2 = .ok ()) : first.next second s = second (first s).1 := by
  unfold Change.next
  split <;> rename_i same
  · rw [same]
  · rw [same] at done
    cases done

theorem Change.next_error {σ : Type} {first second : Change σ} {s : σ} {raised : Raised}
    (failed : (first s).2 = .error raised) : first.next second s = first s := by
  unfold Change.next
  split <;> rename_i same
  · rw [same] at failed
    cases failed
  · rw [same]

theorem Monotone.next {first second : Change Files} (one : Monotone first)
    (two : Monotone second) : Monotone (first.next second) := by
  intro t s smaller done
  obtain ⟨ok, ok'⟩ := Change.next_ok.mp done
  obtain ⟨sure, smaller'⟩ := one t s smaller ok
  obtain ⟨sure', smaller''⟩ := two _ _ smaller' ok'
  refine ⟨Change.next_ok.mpr ⟨sure, sure'⟩, ?_⟩
  rw [Change.next_state ok, Change.next_state sure]
  exact smaller''

theorem monotone_skip : Monotone fun s => (s, .ok ()) :=
  fun _ _ smaller _ => ⟨rfl, smaller⟩

theorem Monotone.all {α : Type} {each : α → Change Files} (one : ∀ a, Monotone (each a))
    (l : List α) : Monotone (Change.all each l) := by
  induction l with
  | nil => exact monotone_skip
  | cons a rest ih => exact (one a).next ih

theorem prune_comm (t : Files) (keep keep' : Path → Bool) :
    prune (prune t keep) keep' = prune (prune t keep') keep := by
  simp only [prune, List.filter_filter]
  exact List.filter_congr fun e _ => Bool.and_comm _ _

/- A removal inside a directory that the smaller tree has lost. -/
theorem smaller_lost {t t' s : Files} (smaller : Smaller t s) (real : Real t') {path : Path}
    (inside : Removes (path <+: ·) t t') (lost : node s path = none) : Smaller t' s := by
  obtain ⟨⟨keep, rfl, plain⟩, first, second⟩ := smaller
  obtain ⟨keep', rfl, below⟩ := inside
  refine ⟨⟨keep, ?_, fun e mem missing => plain e (mem_prune.mp mem).1 missing⟩, real, second⟩
  rw [prune_comm]
  refine (List.filter_eq_self.mpr fun e mem => ?_).symm
  by_contra missing
  exact node_none second lost mem (below e (mem_prune.mp mem).1 (by simpa using missing)).1

theorem monotone_removeTree (w : World) (path : Path) : Monotone (removeTree w path) := by
  intro t s smaller done
  have realT := removeTree_real w path smaller.first
  have realS := removeTree_real w path smaller.second
  have inside : Removes (path <+: ·) t (removeTree w path t).1 :=
    (removeTree_removes w path (real_named smaller.first)).mono fun e _ target => target.2
  have checked : assertPlainTree t path = .ok () := by
    unfold removeTree at done
    split at done
    · cases done
    · assumption
  by_cases lost : node s path = none
  · have same : removeTree w path s = (s, .ok ()) := by
      simp [removeTree, smaller.plain checked, lost]
    rw [same]
    exact ⟨rfl, smaller_lost smaller realT inside lost⟩
  · have present : node t path ≠ none := by rwa [smaller.node lost]
    have free : w.stuck path = false := by
      by_contra stuck
      rw [Bool.not_eq_false] at stuck
      simp [removeTree, checked, present, stuck] at done
    have first : removeTree w path t = (prune t fun p => !below path p, .ok ()) := by
      simp [removeTree, checked, present, free]
    have second : removeTree w path s = (prune s fun p => !below path p, .ok ()) := by
      simp [removeTree, smaller.plain checked, lost, free]
    rw [first] at realT ⊢
    rw [second] at realS ⊢
    refine ⟨rfl, ?_, realT, realS⟩
    obtain ⟨keep, rfl, plain⟩ := smaller.removes
    refine ⟨keep, prune_comm t keep fun p => !below path p, fun e mem => plain e ?_⟩
    exact (mem_prune.mp (show e ∈ prune t fun p => !below path p from mem)).1

theorem smaller_contestPath {t s : Files} (smaller : Smaller t s) (root : Path) (tid : String) :
    contestPath t root tid = contestPath s root tid := contestPath_links smaller.links root tid

theorem monotone_purgeRoot (w : World) (c : Contest) (root : Path) :
    Monotone (purgeRoot w c root) := by
  intro t s smaller done
  unfold purgeRoot at done ⊢
  rw [← smaller_contestPath smaller]
  split at done
  · cases done
  · rename_i path found
    exact monotone_removeTree w path t s smaller done

/- What a workspace purge removes, once the directory of the contest is known to be plain. -/
def purgeStale (w : World) (store : Store) (c : Contest) (root : Path) : Change Files := fun t =>
  match staleDirectories w store c root t with
  | .error raised => (t, .error raised)
  | .ok paths => Change.all (removeTree w) paths t

theorem purgeWorkspace_eq {w : World} {m : Manager} {store : Store} {c : Contest} {t : Files}
    {root : Path} (found : contestPath t m.artifactRoot c.tid = .ok root) :
    purgeWorkspace w m store c t =
      match assertPlainTree t root with
      | .error raised => (t, .error raised)
      | .ok () => if node t root = none then (t, .ok ()) else purgeStale w store c root t := by
  unfold purgeWorkspace purgeStale
  rw [found]
  simp only [ok_bind]
  cases assertPlainTree t root <;> rfl

theorem staleDirectories_smaller {w : World} {store : Store} {c : Contest} {root : Path}
    {t s : Files} (smaller : Smaller t s) {paths : List Path}
    (stale : staleDirectories w store c root t = .ok paths) :
    staleDirectories w store c root s = .ok paths := by
  have same : revisionName w s root = revisionName w t root :=
    funext fun r => (revisionName_links smaller.links root r).symm
  unfold staleDirectories at stale ⊢
  obtain ⟨revisions, rows, stale⟩ := bind_ok.mp stale
  obtain ⟨known, names, stale⟩ := bind_ok.mp stale
  obtain ⟨_, tracked, stale⟩ := bind_ok.mp stale
  refine bind_ok.mpr ⟨revisions, rows, bind_ok.mpr ⟨known, same ▸ names, ?_⟩⟩
  refine bind_ok.mpr ⟨(), ?_, stale⟩
  rw [raiseIf_ok, not_exists] at tracked ⊢
  intro entry untracked
  refine tracked entry ⟨?_, untracked.2⟩
  obtain ⟨e, mem, name⟩ := List.mem_filterMap.mp untracked.1
  exact List.mem_filterMap.mpr ⟨e, smaller.removes.subset e mem, name⟩

theorem purgeStale_inside (w : World) (store : Store) (c : Contest) (root : Path) {t : Files}
    (named : Named t) : Removes (root <+: ·) t (purgeStale w store c root t).1 := by
  unfold purgeStale
  split
  · exact Removes.refl _ _
  · rename_i paths stale
    refine all_keeps (P := Removes (root <+: ·) t) (fun path mem s reached => ?_) (Removes.refl _ _)
    refine reached.step (removeTree_removes w path (reached.named named)) fun e _ target => ?_
    obtain ⟨r, _, _, name, _, _, rfl⟩ := staleDirectories_ok stale path mem
    exact (List.prefix_append root [name]).trans target.2

theorem purgeStale_real (w : World) (store : Store) (c : Contest) (root : Path) {t : Files}
    (real : Real t) : Real (purgeStale w store c root t).1 := by
  unfold purgeStale
  split
  · exact real
  · exact all_keeps (P := Real) (fun path _ s reached => removeTree_real w path reached) real

theorem monotone_purgeWorkspace (w : World) (m : Manager) (store : Store) (c : Contest) :
    Monotone (purgeWorkspace w m store c) := by
  intro t s smaller done
  cases found : contestPath t m.artifactRoot c.tid with
  | error raised =>
    unfold purgeWorkspace at done
    rw [found] at done
    cases done
  | ok root =>
    have found' := (smaller_contestPath smaller m.artifactRoot c.tid).symm.trans found
    rw [purgeWorkspace_eq found] at done ⊢
    rw [purgeWorkspace_eq found']
    split at done
    · cases done
    · rename_i checked
      simp only [smaller.plain checked]
      by_cases lost : node s root = none
      · rw [if_pos lost]
        split_ifs with absent
        · exact ⟨rfl, smaller⟩
        · exact ⟨rfl, smaller_lost smaller (purgeStale_real w store c root smaller.first)
            (purgeStale_inside w store c root (real_named smaller.first)) lost⟩
      · have present : node t root ≠ none := by rwa [smaller.node lost]
        rw [if_neg present] at done
        rw [if_neg lost, if_neg present]
        unfold purgeStale at done ⊢
        split at done
        · cases done
        · rename_i paths stale
          simp only [staleDirectories_smaller smaller stale]
          exact Monotone.all (monotone_removeTree w) paths t s smaller done

instance (m : Manager) (observed : Int) (kind : Kind) (c : Contest) :
    Decidable (Pending m observed kind c) := inferInstanceAs (Decidable (_ ∧ _ ∧ _))

def skip {σ : Type} : Change σ := fun s => (s, .ok ())

def duePurge (w : World) (m : Manager) (observed : Int) (store : Store) (kind : Kind)
    (c : Contest) : Change Files :=
  if Pending m observed kind c then purge w m store c kind else skip

/- The due purges of one contest. -/
def ownPurges (w : World) (m : Manager) (observed : Int) (store : Store) (c : Contest) :
    Change Files :=
  (duePurge w m observed store .workspace c).next (duePurge w m observed store .evidence c)

/- The contest's own directories can be purged. -/
def CanPurge (w : World) (m : Manager) (observed : Int) (store : Store) (t : Files)
    (c : Contest) : Prop :=
  (ownPurges w m observed store c t).2 = .ok ()

theorem monotone_duePurge (w : World) (m : Manager) (observed : Int) (store : Store) (kind : Kind)
    (c : Contest) : Monotone (duePurge w m observed store kind c) := by
  unfold duePurge
  split_ifs
  · cases kind with
    | workspace => exact monotone_purgeWorkspace w m store c
    | evidence => exact Monotone.all (monotone_purgeRoot w c) m.roots
  · exact monotone_skip

theorem monotone_ownPurges (w : World) (m : Manager) (observed : Int) (store : Store)
    (c : Contest) : Monotone (ownPurges w m observed store c) :=
  (monotone_duePurge w m observed store .workspace c).next
    (monotone_duePurge w m observed store .evidence c)

section Rows
variable {w : World} {m : Manager} {observed : Int}

/- The purges look at the revisions of the store, and at two columns of the contest. -/
theorem purge_rows {store later : Store} (same : later.revisions = store.revisions)
    {c row : Contest} (tid : row.tid = c.tid)
    (active : row.activeMaterialRevision = c.activeMaterialRevision) (kind : Kind) :
    purge w m later row kind = purge w m store c kind := by
  have root : purgeRoot w row = purgeRoot w c := by
    funext root t
    simp only [purgeRoot, tid]
  cases kind with
  | evidence => simp only [purge, purgeEvidence, root]
  | workspace =>
    funext t
    simp only [purge, purgeWorkspace, staleDirectories, artifactRevisions, tid, active, same]

theorem pending_row {c row : Contest} (state : row.state = c.state)
    (ended : row.shutdownVerifiedAtMs = c.shutdownVerifiedAtMs) {kind : Kind}
    (purged : row.purgedAtMs kind = c.purgedAtMs kind) :
    Pending m observed kind row ↔ Pending m observed kind c := by
  rw [Pending, Pending, Ended, Ended, state, ended, purged]

theorem pending_positive {kind : Kind} {c : Contest} (pending : Pending m observed kind c) :
    0 < observed := by
  have positive := m.positive
  have ordered := m.ordered
  have ended := pending.1.2
  have passed := pending.2.2
  cases kind <;>
    simp only [Manager.boundary, Manager.workspaceBoundary, Manager.evidenceBoundary] at passed <;>
    omega

theorem getContest_mem {s : State} {c : Contest} (mem : c ∈ s.store.contests) :
    s.getContest c.tid = some c := by
  cases found : s.getContest c.tid with
  | none =>
    have absent := List.find?_eq_none.mp found c mem
    simp at absent
  | some other =>
    obtain ⟨inside, same⟩ := getContest_some found
    rw [same_row inside mem same]

/- What one due purge of the row does to the state. -/
theorem purgeDue_row (w : World) (m : Manager) (observed : Int) {s : State} {row : Contest}
    (mem : row ∈ s.store.contests) (ended : Ended row) (kind : Kind) :
    (purgeDue w m observed row.shutdownVerifiedAtMs row.tid kind s).1.files =
        (duePurge w m observed s.store kind row s.files).1 ∧
      (purgeDue w m observed row.shutdownVerifiedAtMs row.tid kind s).2 =
        (duePurge w m observed s.store kind row s.files).2 ∧
      (purgeDue w m observed row.shutdownVerifiedAtMs row.tid kind s).1.store.revisions =
        s.store.revisions ∧
      (∀ d ∈ s.store.contests, d.tid ≠ row.tid →
        d ∈ (purgeDue w m observed row.shutdownVerifiedAtMs row.tid kind s).1.store.contests) ∧
      (if Pending m observed kind row ∧
          (duePurge w m observed s.store kind row s.files).2 = .ok () then
          row.mark observed kind else row) ∈
        (purgeDue w m observed row.shutdownVerifiedAtMs row.tid kind s).1.store.contests := by
  have due : (row.purgedAtMs kind = 0 ∧ m.boundary kind ≤ observed - row.shutdownVerifiedAtMs) ↔
      Pending m observed kind row := ⟨fun facts => ⟨ended, facts⟩, And.right⟩
  by_cases pending : Pending m observed kind row
  · have start : purgeDue w m observed row.shutdownVerifiedAtMs row.tid kind s =
        (onFiles (purge w m s.store row kind)).next (markPurged row.tid kind observed) s := by
      simp only [purgeDue, getContest_mem mem, if_pos (due.mpr pending)]
    rw [start, duePurge, if_pos pending]
    cases outcome : purge w m s.store row kind s.files with
    | mk t result =>
      cases result with
      | error raised =>
        have cut : (onFiles (purge w m s.store row kind)).next
            (markPurged row.tid kind observed) s = ({ s with files := t }, .error raised) := by
          simp [Change.next, onFiles, outcome]
        rw [cut]
        exact ⟨rfl, rfl, rfl, fun d inside _ => inside, by simpa using mem⟩
      | ok _ =>
        have own : Marks row.tid kind row := ⟨rfl, ended, pending.2.1⟩
        have marks : ∃ c ∈ s.store.contests, Marks row.tid kind c := ⟨row, mem, own⟩
        have early : ¬ observed ≤ 0 := by
          have := pending_positive pending
          omega
        have marked : (onFiles (purge w m s.store row kind)).next
              (markPurged row.tid kind observed) s =
            ({ files := t
               store := s.store.update row.tid kind observed
               workspace := s.workspace + (if kind = .workspace then 1 else 0)
               evidence := s.evidence + (if kind = .evidence then 1 else 0) }, .ok ()) := by
          simp only [Change.next, onFiles, outcome, markPurged, if_neg early]
          rw [if_pos marks]
        rw [marked]
        refine ⟨rfl, rfl, rfl, fun d inside other => ?_, ?_⟩
        · have foreign : ¬ Marks row.tid kind d := fun marks => other marks.1
          exact List.mem_map.mpr ⟨d, inside, if_neg foreign⟩
        · exact List.mem_map.mpr ⟨row, mem, (if_pos own).trans (if_pos ⟨pending, rfl⟩).symm⟩
  · have start : purgeDue w m observed row.shutdownVerifiedAtMs row.tid kind s = (s, .ok ()) := by
      simp only [purgeDue, getContest_mem mem, if_neg (due.not.mpr pending)]
    rw [start, duePurge, if_neg pending]
    exact ⟨rfl, rfl, rfl, fun d inside _ => inside, by simpa [pending] using mem⟩

/- What the sweep does for one candidate. -/
structure Served (w : World) (m : Manager) (observed : Int) (c : Contest) (s : State)
    (result : State × Except Raised Unit) : Prop where
  files : result.1.files = (ownPurges w m observed s.store c s.files).1
  outcome : result.2 = (ownPurges w m observed s.store c s.files).2
  revisions : result.1.store.revisions = s.store.revisions
  others : ∀ d ∈ s.store.contests, d.tid ≠ c.tid → d ∈ result.1.store.contests
  marked : result.2 = .ok () → ∃ row ∈ result.1.store.contests, row.tid = c.tid ∧
    ∀ kind, Pending m observed kind c → row.purgedAtMs kind = observed

theorem duePurge_rows {store later : Store} (same : later.revisions = store.revisions)
    {c row : Contest} (tid : row.tid = c.tid)
    (active : row.activeMaterialRevision = c.activeMaterialRevision) {kind : Kind}
    (pending : Pending m observed kind row ↔ Pending m observed kind c) :
    duePurge w m observed later kind row = duePurge w m observed store kind c := by
  simp only [duePurge, pending, purge_rows same tid active kind]

theorem sweepContest_served (w : World) (m : Manager) (observed : Int) {s : State} {c : Contest}
    (mem : c ∈ s.store.contests) (ended : Ended c) :
    Served w m observed c s (sweepContest w m observed c s) := by
  have start : sweepContest w m observed c s =
      ((purgeDue w m observed c.shutdownVerifiedAtMs c.tid .workspace).next
        (purgeDue w m observed c.shutdownVerifiedAtMs c.tid .evidence)) s := by
    simp only [sweepContest, getContest_mem mem, if_pos ended]
  obtain ⟨files, outcome, revisions, others, rowMem⟩ :=
    purgeDue_row w m observed mem ended .workspace
  rw [start]
  cases first : (duePurge w m observed s.store .workspace c s.files).2 with
  | error raised =>
    have cut : ((purgeDue w m observed c.shutdownVerifiedAtMs c.tid .workspace).next
        (purgeDue w m observed c.shutdownVerifiedAtMs c.tid .evidence)) s =
        purgeDue w m observed c.shutdownVerifiedAtMs c.tid .workspace s :=
      Change.next_error (outcome.trans first)
    have cut' : ownPurges w m observed s.store c s.files =
        duePurge w m observed s.store .workspace c s.files := Change.next_error first
    rw [cut]
    refine ⟨by rw [cut', files], by rw [cut', outcome], revisions, others, fun done => ?_⟩
    rw [outcome, first] at done
    cases done
  | ok _ =>
    rw [Change.next_state (outcome.trans first)]
    set middle := (purgeDue w m observed c.shutdownVerifiedAtMs c.tid .workspace s).1 with middleEq
    set row := if Pending m observed .workspace c ∧
      (duePurge w m observed s.store .workspace c s.files).2 = .ok () then
        c.mark observed .workspace else c with rowEq
    have same : row.tid = c.tid ∧ row.state = c.state ∧
        row.activeMaterialRevision = c.activeMaterialRevision ∧
        row.shutdownVerifiedAtMs = c.shutdownVerifiedAtMs ∧
        row.purgedAtMs .evidence = c.purgedAtMs .evidence := by
      rw [rowEq]
      split_ifs <;> exact ⟨rfl, rfl, rfl, rfl, rfl⟩
    obtain ⟨sameTid, sameState, sameActive, sameEnd, samePurged⟩ := same
    have endedRow : Ended row := by
      rw [Ended, sameState, sameEnd]
      exact ended
    have pendingRow : Pending m observed .evidence row ↔ Pending m observed .evidence c :=
      pending_row sameState sameEnd samePurged
    obtain ⟨files', outcome', revisions', others', rowMem'⟩ :=
      purgeDue_row w m observed rowMem endedRow .evidence
    rw [duePurge_rows revisions sameTid sameActive pendingRow, files] at files' outcome' rowMem'
    rw [sameEnd, sameTid] at files' outcome' revisions' others' rowMem'
    have whole : ownPurges w m observed s.store c s.files =
        duePurge w m observed s.store .evidence c
          (duePurge w m observed s.store .workspace c s.files).1 := Change.next_state first
    refine ⟨by rw [whole, files'], by rw [whole, outcome'], revisions'.trans revisions,
      fun d inside other => others' d (others d inside other) other, fun done => ?_⟩
    rw [outcome'] at done
    refine ⟨_, rowMem', ?_, fun kind pending => ?_⟩
    · split_ifs
      · rw [mark_tid, sameTid]
      · exact sameTid
    · cases kind with
      | workspace =>
        have marked : row.purgedAtMs .workspace = observed := by
          rw [rowEq, if_pos ⟨pending, first⟩]
          rfl
        split_ifs
        · exact marked
        · exact marked
      | evidence =>
        rw [if_pos ⟨pendingRow.mpr pending, done⟩]
        rfl

end Rows

section Trees
variable {w : World} {m : Manager} {observed : Int} {store : Store}

theorem Smaller.refl {t : Files} (real : Real t) : Smaller t t := ⟨Removes.refl _ _, real, real⟩

theorem Smaller.trans {t s r : Files} (first : Smaller t s) (second : Smaller s r) :
    Smaller t r :=
  ⟨first.removes.trans second.removes, first.first, second.second⟩

theorem smaller_removeTree (path : Path) {t : Files} (real : Real t) :
    Smaller t (removeTree w path t).1 :=
  ⟨(removeTree_removes w path (real_named real)).mono fun _ _ _ => trivial, real,
    removeTree_real w path real⟩

theorem smaller_all {α : Type} {each : α → Change Files}
    (one : ∀ a, ∀ t, Real t → Smaller t (each a t).1) (l : List α) {t : Files} (real : Real t) :
    Smaller t (Change.all each l t).1 :=
  all_keeps (P := Smaller t) (fun a _ s reached => reached.trans (one a s reached.second))
    (Smaller.refl real)

theorem smaller_purgeRoot (c : Contest) (root : Path) {t : Files} (real : Real t) :
    Smaller t (purgeRoot w c root t).1 := by
  unfold purgeRoot
  split
  · exact Smaller.refl real
  · exact smaller_removeTree _ real

theorem smaller_purgeStale (c : Contest) (root : Path) {t : Files} (real : Real t) :
    Smaller t (purgeStale w store c root t).1 := by
  unfold purgeStale
  split
  · exact Smaller.refl real
  · exact smaller_all (fun path _ => smaller_removeTree path) _ real

theorem smaller_purgeWorkspace (c : Contest) {t : Files} (real : Real t) :
    Smaller t (purgeWorkspace w m store c t).1 := by
  cases found : contestPath t m.artifactRoot c.tid with
  | error raised =>
    unfold purgeWorkspace
    rw [found]
    exact Smaller.refl real
  | ok root =>
    rw [purgeWorkspace_eq found]
    split
    · exact Smaller.refl real
    · split_ifs
      · exact Smaller.refl real
      · exact smaller_purgeStale c root real

theorem smaller_duePurge (w : World) (m : Manager) (observed : Int) (store : Store) (kind : Kind)
    (c : Contest) {t : Files} (real : Real t) :
    Smaller t (duePurge w m observed store kind c t).1 := by
  unfold duePurge
  split_ifs
  · cases kind with
    | workspace => exact smaller_purgeWorkspace c real
    | evidence => exact smaller_all (fun root _ => smaller_purgeRoot c root) m.roots real
  · exact Smaller.refl real

theorem smaller_ownPurges (w : World) (m : Manager) (observed : Int) (store : Store)
    (c : Contest) {t : Files} (real : Real t) :
    Smaller t (ownPurges w m observed store c t).1 :=
  next_keeps (P := Smaller t)
    (fun _ reached =>
      reached.trans (smaller_duePurge w m observed store .workspace c reached.second))
    (fun _ reached =>
      reached.trans (smaller_duePurge w m observed store .evidence c reached.second))
    (Smaller.refl real)

/- Nothing is left at the path or below. -/
def Cleared (path : Path) (t : Files) : Prop := ∀ e ∈ t, ¬ path <+: e.1

theorem Cleared.smaller {path : Path} {t s : Files} (cleared : Cleared path t)
    (smaller : Smaller t s) : Cleared path s :=
  fun e mem => cleared e (smaller.removes.subset e mem)

theorem removeTree_cleared {path : Path} {t : Files} (real : Real t)
    (done : (removeTree w path t).2 = .ok ()) : Cleared path (removeTree w path t).1 := by
  unfold removeTree at done ⊢
  split at done
  · cases done
  · split_ifs at done ⊢ with absent stuck
    · exact fun e mem => node_none real absent mem
    · intro e mem inside
      have kept := (mem_prune.mp (show e ∈ prune t fun p => !below path p from mem)).2
      rw [Bool.not_eq_true', below, decide_eq_false_iff_not] at kept
      exact kept inside

/- What one of the changes brings about stays until the end. -/
theorem all_cleared {α : Type} {each : α → Change Files}
    (one : ∀ a, ∀ t, Real t → Smaller t (each a t).1) {l : List α} {a : α} (mem : a ∈ l)
    {path : Path} {start t : Files} (smaller : Smaller start t)
    (clears : ∀ s, Smaller start s → (each a s).2 = .ok () → Cleared path (each a s).1)
    (done : (Change.all each l t).2 = .ok ()) : Cleared path (Change.all each l t).1 := by
  induction l generalizing t with
  | nil => cases mem
  | cons b rest ih =>
    obtain ⟨first, later⟩ := Change.next_ok.mp done
    have next : Change.all each (b :: rest) t = Change.all each rest (each b t).1 :=
      Change.next_state first
    rw [next]
    have reached := one b t smaller.second
    rcases List.mem_cons.mp mem with rfl | inRest
    · exact (clears t smaller first).smaller (smaller_all one rest reached.second)
    · exact ih inRest (smaller.trans reached) later

/- What the due purges of a contest were to remove from the first tree is gone. -/
structure Gone (w : World) (m : Manager) (observed : Int) (store : Store) (start : Files)
    (c : Contest) (t : Files) : Prop where
  evidence : Pending m observed .evidence c → ∀ root ∈ m.roots, ∀ q,
    contestPath start root c.tid = .ok q → Cleared q t
  workspace : Pending m observed .workspace c → ∀ q paths,
    contestPath start m.artifactRoot c.tid = .ok q →
    staleDirectories w store c q start = .ok paths → ∀ path ∈ paths, Cleared path t

theorem purgeWorkspace_cleared {c : Contest} {start t : Files} (smaller : Smaller start t)
    {q : Path} {paths : List Path} (found : contestPath start m.artifactRoot c.tid = .ok q)
    (stale : staleDirectories w store c q start = .ok paths)
    (done : (purgeWorkspace w m store c t).2 = .ok ()) :
    ∀ path ∈ paths, Cleared path (purgeWorkspace w m store c t).1 := by
  intro path mem
  have here := (smaller_contestPath smaller m.artifactRoot c.tid).symm.trans found
  rw [purgeWorkspace_eq here] at done ⊢
  split at done
  · cases done
  · split_ifs at done ⊢ with lost
    · intro e inside starts
      obtain ⟨r, _, _, name, _, _, rfl⟩ := staleDirectories_ok stale path mem
      exact node_none smaller.second lost inside ((List.prefix_append q [name]).trans starts)
    · simp only [purgeStale, staleDirectories_smaller smaller stale] at done ⊢
      exact all_cleared (fun p _ => smaller_removeTree p) mem smaller
        (fun s reached ok => removeTree_cleared reached.second ok) done

theorem ownPurges_gone {c : Contest} {start t : Files} (smaller : Smaller start t)
    (done : (ownPurges w m observed store c t).2 = .ok ()) :
    Gone w m observed store start c (ownPurges w m observed store c t).1 := by
  obtain ⟨first, second⟩ := Change.next_ok.mp done
  have whole : ownPurges w m observed store c t =
      duePurge w m observed store .evidence c (duePurge w m observed store .workspace c t).1 :=
    Change.next_state first
  have middle := smaller_duePurge w m observed store .workspace c smaller.second
  rw [whole]
  refine ⟨fun pending root memRoot q found => ?_, fun pending q paths found stale path mem => ?_⟩
  · simp only [duePurge, if_pos pending] at second ⊢
    refine all_cleared (fun r _ => smaller_purgeRoot c r) memRoot (smaller.trans middle)
      (fun s reached ok => ?_) second
    have here := (smaller_contestPath reached root c.tid).symm.trans found
    simp only [purgeRoot, here] at ok ⊢
    exact removeTree_cleared reached.second ok
  · refine Cleared.smaller ?_ (smaller_duePurge w m observed store .evidence c middle.second)
    simp only [duePurge, if_pos pending] at first ⊢
    exact purgeWorkspace_cleared smaller found stale first path mem

end Trees

end NoiContest.Retention
