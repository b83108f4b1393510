import NoiContest.Retention.Independence

/- A sweep ends at the first contest whose purge fails. -/
namespace NoiContest.Retention
open Outcome FilePath FileSystem

section Run
variable {w : World} {m : Manager} {observed : Int} {store : Store}

theorem ownPurges_rows {later : Store} (same : later.revisions = store.revisions) (c : Contest) :
    ownPurges w m observed later c = ownPurges w m observed store c := by
  simp only [ownPurges, duePurge_rows same (rfl : c.tid = c.tid) rfl Iff.rfl]

/- The purges of the contests one after the other. -/
def purges (w : World) (m : Manager) (observed : Int) (store : Store) (l : List Contest) :
    Change Files :=
  Change.all (ownPurges w m observed store) l

/- What the loop over the candidates does to the state. -/
structure Ran (w : World) (m : Manager) (observed : Int) (store : Store) (l : List Contest)
    (s : State) (result : State × Except Raised Unit) : Prop where
  files : result.1.files = (purges w m observed store l s.files).1
  outcome : result.2 = (purges w m observed store l s.files).2
  others : ∀ d ∈ s.store.contests, d.tid ∉ l.map Contest.tid → d ∈ result.1.store.contests
  marked : ∀ before c after, l = before ++ c :: after →
    (purges w m observed store (before ++ [c]) s.files).2 = .ok () →
    ∃ row ∈ result.1.store.contests, row.tid = c.tid ∧
      ∀ kind, Pending m observed kind c → row.purgedAtMs kind = observed
  untouched : ∀ before c after, l = before ++ c :: after →
    (purges w m observed store (before ++ [c]) s.files).2 ≠ .ok () →
    ∀ d ∈ after, d ∈ result.1.store.contests

theorem candidates_ran {l : List Contest} {s : State} (once : (l.map Contest.tid).Nodup)
    (rows : ∀ c ∈ l, c ∈ s.store.contests) (ended : ∀ c ∈ l, Ended c)
    (same : s.store.revisions = store.revisions) :
    Ran w m observed store l s (Change.all (sweepContest w m observed) l s) := by
  induction l generalizing s with
  | nil =>
    exact ⟨rfl, rfl, fun d mem _ => mem, fun before c after split => by simp at split,
      fun before c after split => by simp at split⟩
  | cons c rest ih =>
    rw [List.map_cons, List.nodup_cons] at once
    have served := sweepContest_served w m observed (rows c List.mem_cons_self)
      (ended c List.mem_cons_self)
    have own : ownPurges w m observed s.store c = ownPurges w m observed store c :=
      ownPurges_rows same c
    have files := served.files
    have outcome := served.outcome
    rw [own] at files outcome
    have foreign : ∀ d ∈ rest, d.tid ≠ c.tid := fun d mem shared =>
      once.1 (shared ▸ List.mem_map.mpr ⟨d, mem, rfl⟩)
    cases first : (ownPurges w m observed store c s.files).2 with
    | error raised =>
      have cut : Change.all (sweepContest w m observed) (c :: rest) s =
          sweepContest w m observed c s := Change.next_error (outcome.trans first)
      have cut' : ∀ more, purges w m observed store (c :: more) s.files =
          ownPurges w m observed store c s.files := fun more => Change.next_error first
      rw [cut]
      refine ⟨by rw [cut', files], by rw [cut', outcome], fun d mem other => ?_,
        fun before d after split done => ?_, fun before d after split failed e mem => ?_⟩
      · rw [List.map_cons, List.mem_cons, not_or] at other
        exact served.others d mem other.1
      · cases before with
        | nil =>
          obtain ⟨rfl, -⟩ := List.cons.inj split
          rw [List.nil_append, cut', first] at done
          cases done
        | cons b more =>
          obtain ⟨rfl, -⟩ := List.cons.inj split
          rw [List.cons_append, cut', first] at done
          cases done
      · have inRest : e ∈ rest := by
          cases before with
          | nil =>
            obtain ⟨-, rfl⟩ := List.cons.inj split
            exact mem
          | cons b more =>
            obtain ⟨-, rfl⟩ := List.cons.inj split
            simp [mem]
        exact served.others e (rows e (List.mem_cons_of_mem _ inRest)) (foreign e inRest)
    | ok _ =>
      have step : Change.all (sweepContest w m observed) (c :: rest) s =
          Change.all (sweepContest w m observed) rest (sweepContest w m observed c s).1 :=
        Change.next_state (outcome.trans first)
      have step' : ∀ more, purges w m observed store (c :: more) s.files =
          purges w m observed store more (sweepContest w m observed c s).1.files := by
        intro more
        rw [files]
        exact Change.next_state first
      have ran := ih (s := (sweepContest w m observed c s).1) once.2
        (fun d mem => served.others d (rows d (List.mem_cons_of_mem _ mem)) (foreign d mem))
        (fun d mem => ended d (List.mem_cons_of_mem _ mem)) (served.revisions.trans same)
      rw [step]
      refine ⟨by rw [step', ran.files], by rw [step', ran.outcome], fun d mem other => ?_,
        fun before d after split done => ?_, fun before d after split failed => ?_⟩
      · rw [List.map_cons, List.mem_cons, not_or] at other
        exact ran.others d (served.others d mem other.1) other.2
      · cases before with
        | nil =>
          obtain ⟨rfl, rfl⟩ := List.cons.inj split
          obtain ⟨row, mem, shared, marks⟩ := served.marked (outcome.trans first)
          exact ⟨row, ran.others row mem (shared ▸ once.1), shared, marks⟩
        | cons b more =>
          obtain ⟨rfl, later⟩ := List.cons.inj split
          rw [List.cons_append, step'] at done
          exact ran.marked more d after later done
      · cases before with
        | nil =>
          obtain ⟨rfl, rfl⟩ := List.cons.inj split
          exact absurd (Change.next_ok.mpr ⟨first, rfl⟩) failed
        | cons b more =>
          obtain ⟨rfl, later⟩ := List.cons.inj split
          rw [List.cons_append, step'] at failed
          exact ran.untouched more d after later failed

end Run

/- The due purges of the contest were carried out and marked. -/
structure Purged (w : World) (m : Manager) (observed : Int) (store : Store) (files : Files)
    (c : Contest) (s : State) : Prop where
  marked : ∀ kind, Pending m observed kind c →
    ∃ row ∈ s.store.contests, row.tid = c.tid ∧ row.purgedAtMs kind = observed
  gone : Gone w m observed store files c s.files

/- No contest that can be purged comes after one whose purge fails when its turn comes. -/
def Unblocked (w : World) (m : Manager) (observed : Int) (files : Files) (store : Store) : Prop :=
  ∀ before f after, retentionCandidates m observed store = before ++ f :: after →
    (purges w m observed store before files).2 = .ok () →
    ¬ CanPurge w m observed store (purges w m observed store before files).1 f →
    ∀ c ∈ after, ¬ CanPurge w m observed store files c

section Candidates
variable {m : Manager} {observed : Int} {store : Store}

theorem due_pending {c : Contest} :
    Due m observed c ↔ ∃ kind, Pending m observed kind c := by
  constructor
  · rintro ⟨ended, kind, _, zero, passed⟩
    exact ⟨kind, ended, zero, by omega⟩
  · rintro ⟨kind, ended, zero, passed⟩
    exact ⟨ended, kind, by cases kind <;> simp, zero, by omega⟩

theorem mem_retentionCandidates {c : Contest} :
    c ∈ retentionCandidates m observed store ↔ c ∈ store.contests ∧ Due m observed c := by
  rw [retentionCandidates, List.mem_insertionSort, List.mem_filter, decide_eq_true_eq]

theorem candidates_once : ((retentionCandidates m observed store).map Contest.tid).Nodup := by
  have perm := (List.perm_insertionSort Before (store.contests.filter (Due m observed ·))).map
    Contest.tid
  refine perm.nodup_iff.mpr ?_
  exact store.once.sublist (List.filter_sublist.map _)

end Candidates

section Order
variable {w : World} {m : Manager} {observed : Int} {store : Store}

theorem purges_append {t : Files} {before : List Contest} (after : List Contest)
    (done : (purges w m observed store before t).2 = .ok ()) :
    purges w m observed store (before ++ after) t =
      purges w m observed store after (purges w m observed store before t).1 := by
  induction before generalizing t with
  | nil => rfl
  | cons b rest ih =>
    obtain ⟨first, later⟩ := Change.next_ok.mp done
    have step : ∀ more, purges w m observed store (b :: more) t =
        purges w m observed store more (ownPurges w m observed store b t).1 :=
      fun more => Change.next_state first
    rw [List.cons_append, step, step]
    exact ih later

theorem purges_single {t : Files} (c : Contest) :
    purges w m observed store [c] t = ownPurges w m observed store c t := by
  cases outcome : ownPurges w m observed store c t with
  | mk s result => cases result <;> simp [purges, Change.all, Change.next, outcome]

theorem smaller_purges (w : World) (m : Manager) (observed : Int) (store : Store)
    (l : List Contest) {t : Files} (real : Real t) :
    Smaller t (purges w m observed store l t).1 :=
  smaller_all (fun c _ => smaller_ownPurges w m observed store c) l real

theorem first_failure {t : Files} {l : List Contest}
    (failed : (purges w m observed store l t).2 ≠ .ok ()) :
    ∃ before f after, l = before ++ f :: after ∧
      (purges w m observed store before t).2 = .ok () ∧
      ¬ CanPurge w m observed store (purges w m observed store before t).1 f := by
  induction l generalizing t with
  | nil => exact absurd rfl failed
  | cons c rest ih =>
    by_cases first : (ownPurges w m observed store c t).2 = .ok ()
    · have step : ∀ more, purges w m observed store (c :: more) t =
          purges w m observed store more (ownPurges w m observed store c t).1 :=
        fun more => Change.next_state first
      rw [step] at failed
      obtain ⟨before, f, after, rfl, done, blocked⟩ := ih failed
      exact ⟨c :: before, f, after, rfl, by rwa [step], by rwa [step]⟩
    · exact ⟨[], c, rest, rfl, rfl, first⟩

end Order

theorem sweep_state (w : World) (m : Manager) (observed : Int) (files : Files) (store : Store) :
    (sweep w m observed files store).1 =
      (Change.all (sweepContest w m observed) (retentionCandidates m observed store)
        { files, store, workspace := 0, evidence := 0 }).1 := by
  unfold sweep
  simp only
  split <;> rename_i same <;> rw [same]

theorem sweep_ran (w : World) (m : Manager) (observed : Int) (files : Files) (store : Store) :
    Ran w m observed store (retentionCandidates m observed store)
      { files, store, workspace := 0, evidence := 0 }
      (Change.all (sweepContest w m observed) (retentionCandidates m observed store)
        { files, store, workspace := 0, evidence := 0 }) :=
  candidates_ran candidates_once (fun _ mem => (mem_retentionCandidates.mp mem).1)
    (fun _ mem => (mem_retentionCandidates.mp mem).2.1) rfl

/- What the purges of a contest achieve at their turn lasts. -/
theorem turn_gone {w : World} {m : Manager} {observed : Int} {store : Store} {files : Files}
    (real : Real files) {before after : List Contest} {c : Contest}
    (done : (purges w m observed store before files).2 = .ok ())
    (turn : (ownPurges w m observed store c (purges w m observed store before files).1).2 = .ok ()) :
    Gone w m observed store files c (purges w m observed store (before ++ c :: after) files).1 := by
  have smaller := smaller_purges w m observed store before real
  have gone := ownPurges_gone smaller turn
  have whole : (purges w m observed store (before ++ [c]) files).2 = .ok () := by
    rw [purges_append _ done, purges_single]
    exact turn
  have later := smaller_purges w m observed store after
    (smaller_ownPurges w m observed store c smaller.second).second
  rw [List.append_cons, purges_append _ whole, purges_append _ done, purges_single]
  exact ⟨fun pending root mem q found => (gone.evidence pending root mem q found).smaller later,
    fun pending q paths found stale path mem =>
      (gone.workspace pending q paths found stale path mem).smaller later⟩

theorem sweep_purges_each {w : World} {m : Manager} {observed : Int} {files : Files}
    {store : Store} (real : Real files) :
    (∀ c ∈ store.contests, Due m observed c → CanPurge w m observed store files c →
      Purged w m observed store files c (sweep w m observed files store).1) ↔
    Unblocked w m observed files store := by
  have ran := sweep_ran w m observed files store
  rw [sweep_state]
  constructor
  · intro each before f after split done blocked c mem possible
    have candidate : c ∈ retentionCandidates m observed store := by
      rw [split]
      simp [mem]
    obtain ⟨memC, due⟩ := mem_retentionCandidates.mp candidate
    obtain ⟨kind, pending⟩ := due_pending.mp due
    obtain ⟨row, memRow, shared, marks⟩ := (each c memC due possible).marked kind pending
    have failed : (purges w m observed store (before ++ [f]) files).2 ≠ .ok () := by
      rw [purges_append _ done, purges_single]
      exact blocked
    have unmarked := ran.untouched before f after split failed c mem
    obtain rfl := same_row memRow unmarked shared
    have zero := pending.2.1
    have positive := pending_positive pending
    omega
  · intro unblocked c memC due possible
    obtain ⟨before, after, split⟩ :=
      List.append_of_mem (mem_retentionCandidates.mpr ⟨memC, due⟩)
    have done : (purges w m observed store before files).2 = .ok () := by
      by_contra failed
      obtain ⟨early, f, late, rfl, reached, blocked⟩ := first_failure failed
      exact unblocked early f (late ++ c :: after) (by rw [split]; simp) reached blocked c
        (by simp) possible
    have smaller := smaller_purges w m observed store before real
    have turn := (monotone_ownPurges w m observed store c _ _ smaller possible).1
    have whole : (purges w m observed store (before ++ [c]) files).2 = .ok () := by
      rw [purges_append _ done, purges_single]
      exact turn
    refine ⟨fun kind pending => ?_, ?_⟩
    · obtain ⟨row, mem, shared, marks⟩ := ran.marked before c after split whole
      exact ⟨row, mem, shared, marks kind pending⟩
    · rw [ran.files]
      show Gone w m observed store files c (purges w m observed store _ files).1
      rw [split]
      exact turn_gone real done turn

/- A sweep that comes to its end has cleared every path that a due evidence purge is aimed at. -/
theorem completed_cleared {w : World} {m : Manager} {observed : Int} {files : Files}
    {store : Store} (real : Real files) {result : SweepResult}
    (completed : (sweep w m observed files store).2 = .ok result) {c : Contest}
    (mem : c ∈ store.contests) (pending : Pending m observed .evidence c) {root : Path}
    (memRoot : root ∈ m.roots) {q : Path} (found : contestPath files root c.tid = .ok q) :
    Cleared q (sweep w m observed files store).1.files := by
  have ran := sweep_ran w m observed files store
  have finished : (purges w m observed store (retentionCandidates m observed store) files).2 =
      .ok () := by
    rw [← ran.outcome]
    unfold sweep at completed
    simp only at completed
    split at completed <;> rename_i same
    · rw [same]
    · cases completed
  obtain ⟨before, after, split⟩ := List.append_of_mem
    (mem_retentionCandidates.mpr ⟨mem, due_pending.mpr ⟨_, pending⟩⟩)
  rw [sweep_state, ran.files]
  show Cleared q (purges w m observed store _ files).1
  rw [split] at finished ⊢
  have done : (purges w m observed store before files).2 = .ok () := by
    by_contra failed
    obtain ⟨early, f, late, rfl, reached, blocked⟩ := first_failure failed
    rw [List.append_assoc, List.cons_append, purges_append _ reached] at finished
    exact blocked (Change.next_ok.mp finished).1
  have turn : (ownPurges w m observed store c (purges w m observed store before files).1).2 =
      .ok () := by
    rw [purges_append _ done] at finished
    exact (Change.next_ok.mp finished).1
  exact (turn_gone real done turn).evidence pending root memRoot q found

section Samples

def sampleWorld : World where
  cwd := ["app"]
  stuck := fun _ => false
  left := fun _ => false
  upward := fun _ _ _ left => left

def sampleManager : Manager where
  artifactRoot := ["data", "artifacts"]
  materialsDir := ["data", "materials"]
  collectedDir := ["data", "collected"]
  workspaceDays := 30
  evidenceDays := 180
  positive := by decide
  ordered := by decide
  distinct := by decide

def sampleA : Contest where
  tid := "aaaaaaaaaaaaaaaaaaaaaaaa"
  state := "done"
  activeMaterialRevision := "r1"
  shutdownVerifiedAtMs := 1
  workspacePurgedAtMs := 0
  evidencePurgedAtMs := 0

def sampleB : Contest := { sampleA with tid := "bbbbbbbbbbbbbbbbbbbbbbbb" }

def sampleRevision (c : Contest) (name : String) : Revision where
  tid := c.tid
  revision := name
  rootPath := "/data/artifacts/" ++ c.tid ++ "/" ++ name
  decodes := true

def sampleStore (a b : Contest) (once : a.tid ≠ b.tid) : Store where
  contests := [a, b]
  revisions := [sampleRevision a "r1", sampleRevision a "draft", sampleRevision b "r1"]
  once := by simpa using once

def sampleRoots : Files :=
  [(["data"], .directory), (["data", "artifacts"], .directory), (["data", "materials"], .directory),
    (["data", "collected"], .directory)]

def sampleFiles : Files := sampleRoots ++
  [(["data", "artifacts", sampleA.tid], .directory),
    (["data", "artifacts", sampleA.tid, "r1"], .directory),
    (["data", "artifacts", sampleA.tid, "draft"], .directory),
    (["data", "artifacts", sampleA.tid, "draft", "paper.pdf"], .file ()),
    (["data", "artifacts", sampleB.tid], .directory),
    (["data", "artifacts", sampleB.tid, "r1"], .directory)]

/- A generation of the first contest's material has crashed. -/
def sampleLeftover : Files :=
  sampleFiles ++ [(["data", "artifacts", sampleA.tid, ".r2-00.generating"], .directory)]

/- The path of the first contest is a link to the directory of the second. -/
def sampleLink : Files := sampleRoots ++
  [(["data", "artifacts", sampleA.tid], .link false [sampleB.tid]),
    (["data", "artifacts", sampleB.tid], .directory),
    (["data", "artifacts", sampleB.tid, "paper.pdf"], .file ())]

def sampleRunning : Contest := { sampleB with state := "ready" }

def samplePair : Store := sampleStore sampleA sampleB (by decide)

/- The end of the workspace retention. -/
def sampleMonth : Int := 31 * 86400000

theorem sampleFiles_real : Real sampleFiles where
  filled := by decide
  once := by decide +kernel
  closed := by decide +kernel

theorem sample_straight :
    Straight sampleWorld sampleManager sampleMonth sampleFiles samplePair where
  own := by
    have straight : ∀ c ∈ samplePair.contests, ∀ root ∈ sampleManager.roots,
        contestPath sampleFiles root c.tid = .ok (root ++ [c.tid]) := by decide +kernel
    intro c mem kind _ root memRoot q found _
    have inside : root ∈ sampleManager.roots := by
      cases kind with
      | workspace => exact List.mem_singleton.mp memRoot ▸ List.mem_cons_self
      | evidence => exact memRoot
    rw [straight c mem root inside] at found
    exact (Except.ok.inj found).symm
  active := by
    have names : ∀ c ∈ samplePair.contests, ∀ r ∈ samplePair.revisions, r.tid = c.tid →
        r.revision = c.activeMaterialRevision →
        revisionName sampleWorld sampleFiles (sampleManager.artifactRoot ++ [c.tid]) r =
          .ok c.activeMaterialRevision := by decide +kernel
    intro c mem _ r memR own active name read
    rw [names c mem r memR own active] at read
    exact (Except.ok.inj read).symm
  apart := by
    have passed : ∀ other ∈ samplePair.contests,
        Passed sampleManager sampleMonth .workspace other := by decide +kernel
    exact fun c _ kind _ other mem notPassed => absurd (passed other mem) notPassed

theorem sample_unblocked :
    Unblocked sampleWorld sampleManager sampleMonth sampleFiles samplePair := by
  have possible : ∀ c ∈ samplePair.contests,
      CanPurge sampleWorld sampleManager sampleMonth samplePair sampleFiles c := by
    unfold CanPurge
    decide +kernel
  intro before f after split _ blocked
  have candidate : f ∈ retentionCandidates sampleManager sampleMonth samplePair := by
    rw [split]
    simp
  exact absurd (monotone_ownPurges _ _ _ _ f _ _ (smaller_purges _ _ _ _ before sampleFiles_real)
    (possible f (mem_retentionCandidates.mp candidate).1)).1 blocked

theorem sample_purged :
    Purged sampleWorld sampleManager sampleMonth samplePair sampleFiles sampleB
      (sweep sampleWorld sampleManager sampleMonth sampleFiles samplePair).1 := by
  refine (sweep_purges_each sampleFiles_real).mpr sample_unblocked sampleB ?_ ?_ ?_
  · decide
  · decide +kernel
  · unfold CanPurge
    decide +kernel

/- The leftover directory keeps the second contest from being purged too. -/
theorem leftover_blocks_other :
    Due sampleManager sampleMonth sampleB ∧
    CanPurge sampleWorld sampleManager sampleMonth samplePair sampleLeftover sampleB ∧
    (["data", "artifacts", sampleB.tid], .directory) ∈ sampleLeftover ∧
    (sweep sampleWorld sampleManager sampleMonth sampleLeftover samplePair).2 =
      .error (.runtimeError "artifact workspace contains an untracked entry") ∧
    ¬ Purged sampleWorld sampleManager sampleMonth samplePair sampleLeftover sampleB
      (sweep sampleWorld sampleManager sampleMonth sampleLeftover samplePair).1 := by
  refine ⟨by decide +kernel, by unfold CanPurge; decide +kernel, by decide, by decide +kernel, ?_⟩
  intro purged
  have pending : Pending sampleManager sampleMonth .workspace sampleB := by decide +kernel
  obtain ⟨row, mem, _, marked⟩ := purged.marked .workspace pending
  have unmarked : ∀ row ∈ (sweep sampleWorld sampleManager sampleMonth sampleLeftover
      samplePair).1.store.contests, row.purgedAtMs .workspace = 0 := by decide +kernel
  rw [unmarked row mem] at marked
  exact absurd marked (by decide)

end Samples

end NoiContest.Retention
