import Mathlib.Data.List.Dedup
import NoiContest.Retention.Sweep

/- What a sweep removes from the file tree. -/
namespace NoiContest.Retention
open Outcome FilePath FileSystem

section Changes
variable {σ α : Type}

theorem next_keeps {P : σ → Prop} {first second : Change σ} (keeps : ∀ s, P s → P (first s).1)
    (keeps' : ∀ s, P s → P (second s).1) {s : σ} (start : P s) : P (first.next second s).1 := by
  have middle := keeps s start
  unfold Change.next
  split
  · rename_i s' same
    rw [same] at middle
    exact keeps' s' middle
  · rename_i s' raised same
    rwa [same] at middle

theorem all_keeps {P : σ → Prop} {each : α → Change σ} {l : List α}
    (keeps : ∀ a ∈ l, ∀ s, P s → P (each a s).1) {s : σ} (start : P s) :
    P (Change.all each l s).1 := by
  induction l generalizing s with
  | nil => exact start
  | cons a rest ih =>
    refine next_keeps (keeps a List.mem_cons_self) (fun s reached => ?_) start
    exact ih (fun b mem => keeps b (List.mem_cons_of_mem _ mem)) reached

end Changes

/- The second tree is the first without some entries at such paths, and no link is missing. -/
def Removes (A : Path → Prop) (t s : Files) : Prop :=
  ∃ keep, s = prune t keep ∧ ∀ e ∈ t, keep e.1 = false → A e.1 ∧ e.2.isLink = false

theorem Removes.refl (A : Path → Prop) (t : Files) : Removes A t t :=
  ⟨fun _ => true, by simp [prune], by simp⟩

theorem Removes.trans {A : Path → Prop} {t s r : Files} (first : Removes A t s)
    (second : Removes A s r) : Removes A t r := by
  obtain ⟨keep, rfl, gone⟩ := first
  obtain ⟨keep', rfl, gone'⟩ := second
  refine ⟨fun p => keep p && keep' p, ?_, fun e mem missing => ?_⟩
  · simp only [prune, List.filter_filter]
    exact List.filter_congr fun e _ => Bool.and_comm _ _
  · by_cases kept : keep e.1 = true
    · exact gone' e (mem_prune.mpr ⟨mem, kept⟩) (by simpa [kept] using missing)
    · exact gone e mem (by simpa using kept)

theorem Removes.mono {A B : Path → Prop} {t s : Files} (removes : Removes A t s)
    (wider : ∀ e ∈ t, A e.1 → B e.1) : Removes B t s := by
  obtain ⟨keep, rfl, gone⟩ := removes
  refine ⟨keep, rfl, fun e mem missing => ?_⟩
  obtain ⟨target, plain⟩ := gone e mem missing
  exact ⟨wider e mem target, plain⟩

theorem Removes.subset {A : Path → Prop} {t s : Files} (removes : Removes A t s) :
    ∀ e ∈ s, e ∈ t := by
  obtain ⟨keep, rfl, -⟩ := removes
  exact fun e mem => (mem_prune.mp mem).1

theorem Removes.missing {A : Path → Prop} {t s : Files} (removes : Removes A t s)
    {e : Path × Node Unit} (mem : e ∈ t) (gone : e ∉ s) : A e.1 := by
  obtain ⟨keep, rfl, facts⟩ := removes
  refine (facts e mem ?_).1
  by_contra kept
  exact gone (mem_prune.mpr ⟨mem, by simpa using kept⟩)

/- The entries have names of their own. -/
structure Named (t : Files) : Prop where
  filled : ∀ e ∈ t, e.1 ≠ []
  once : (t.map Prod.fst).Nodup

theorem Removes.named {A : Path → Prop} {t s : Files} (removes : Removes A t s) (named : Named t) :
    Named s := by
  obtain ⟨keep, rfl, -⟩ := removes
  exact ⟨fun e mem => named.filled e (mem_prune.mp mem).1, prune_once named.once⟩

theorem Removes.links {A : Path → Prop} {t s : Files} (removes : Removes A t s) (named : Named t) :
    SameLinks t s := by
  obtain ⟨keep, rfl, gone⟩ := removes
  refine prune_links named.once fun e mem link => ?_
  by_contra missing
  have plain := (gone e mem (by simpa using missing)).2
  rw [link] at plain
  cases plain

/- A directory with no link below it. -/
def Plain (t : Files) (path : Path) : Prop :=
  node t path = some .directory ∧ ∀ e ∈ t, IsParent path e.1 → e.2.isLink = false

theorem assertPlainTree_ok {t : Files} {path : Path} (plain : assertPlainTree t path = .ok ())
    (present : node t path ≠ none) : Plain t path := by
  unfold assertPlainTree at plain
  split at plain
  · cases plain
  · cases plain
  · rename_i absent
    exact absurd absent present
  · rename_i directory
    rw [raiseIf_ok] at plain
    refine ⟨directory, fun e mem inside => ?_⟩
    by_contra link
    exact plain ⟨e, mem, inside, by simpa using link⟩

theorem Plain.below {t : Files} (named : Named t) {path : Path} (plain : Plain t path)
    {e : Path × Node Unit} (mem : e ∈ t) (starts : path <+: e.1) : e.2.isLink = false := by
  by_cases top : path = e.1
  · have found : node t path = some e.2 :=
      (node_some named.once (top ▸ named.filled e mem)).mpr (by rw [top]; exact mem)
    rw [plain.1] at found
    rw [← Option.some.inj found]
    rfl
  · exact plain.2 e mem ⟨starts, top⟩

/- What is plain after a removal was plain before, since links stay. -/
theorem Plain.before {A : Path → Prop} {t s : Files} (removes : Removes A t s) (named : Named t)
    {path : Path} (plain : Plain s path) : Plain t path := by
  refine ⟨?_, fun e mem inside => ?_⟩
  · by_cases top : path = []
    · rw [top]
      rfl
    · exact (node_some named.once top).mpr
        (removes.subset _ ((node_some (removes.named named).once top).mp plain.1))
  · by_contra link
    obtain ⟨keep, rfl, gone⟩ := removes
    have kept : keep e.1 = true := by
      by_contra missing
      exact link (gone e mem (by simpa using missing)).2
    exact link (plain.2 e (mem_prune.mpr ⟨mem, kept⟩) inside)

theorem removeTree_removes (w : World) (path : Path) {t : Files} (named : Named t) :
    Removes (fun p => Plain t path ∧ path <+: p) t (removeTree w path t).1 := by
  unfold removeTree
  split
  · exact Removes.refl _ _
  · rename_i checked
    split_ifs with absent stuck
    · exact Removes.refl _ _
    · have plain := assertPlainTree_ok checked absent
      refine ⟨fun p => !below path p || w.left p, rfl, fun e mem missing => ?_⟩
      have inside : below path e.1 = true := by
        rw [Bool.or_eq_false_iff] at missing
        simpa using missing.1
      exact ⟨⟨plain, of_decide_eq_true inside⟩, plain.below named mem (of_decide_eq_true inside)⟩
    · have plain := assertPlainTree_ok checked absent
      refine ⟨fun p => !below path p, rfl, fun e mem missing => ?_⟩
      have inside : below path e.1 = true := by simpa using missing
      exact ⟨⟨plain, of_decide_eq_true inside⟩, plain.below named mem (of_decide_eq_true inside)⟩

/- One change after others, none of which removes a link. -/
theorem Removes.step {A : Path → Prop} {t s r : Files} (before : Removes A t s)
    {B : Path → Prop} (after : Removes B s r) (inside : ∀ e ∈ t, B e.1 → A e.1) :
    Removes A t r :=
  before.trans (after.mono fun e mem => inside e (before.subset e mem))

theorem contestPath_links {t s : Files} (same : SameLinks t s) (root : Path) (tid : String) :
    contestPath t root tid = contestPath s root tid := by
  simp only [contestPath, same.resolve]

theorem revisionName_links {w : World} {t s : Files} (same : SameLinks t s) (root : Path)
    (r : Revision) : revisionName w t root r = revisionName w s root r := by
  simp only [revisionName, resolveText, same.resolve]

/- What the purges of a contest are aimed at. -/
def EvidenceTarget (m : Manager) (t : Files) (c : Contest) (p : Path) : Prop :=
  ∃ root ∈ m.roots, ∃ q, contestPath t root c.tid = .ok q ∧ Plain t q ∧ q <+: p

def WorkspaceTarget (w : World) (m : Manager) (t : Files) (store : Store) (c : Contest)
    (p : Path) : Prop :=
  ∃ q, contestPath t m.artifactRoot c.tid = .ok q ∧ Plain t q ∧
    ∃ r ∈ store.revisions, r.tid = c.tid ∧
      ∃ name, revisionName w t q r = .ok name ∧ name ≠ c.activeMaterialRevision ∧ q ++ [name] <+: p

theorem purgeEvidence_removes (w : World) (m : Manager) (c : Contest) {t : Files}
    (named : Named t) : Removes (EvidenceTarget m t c) t (purgeEvidence w m c t).1 := by
  refine all_keeps (P := Removes (EvidenceTarget m t c) t) (fun root mem s reached => ?_)
    (Removes.refl _ _)
  unfold purgeRoot
  split
  · exact reached
  · rename_i path found
    refine reached.step (removeTree_removes w path (reached.named named)) fun e _ target => ?_
    rw [← contestPath_links (reached.links named)] at found
    exact ⟨root, mem, path, found, target.1.before reached named, target.2⟩

theorem artifactRevisions_mem {store : Store} {tid : String} {rows : List Revision}
    (read : artifactRevisions store tid = .ok rows) {r : Revision} (mem : r ∈ rows) :
    r ∈ store.revisions ∧ r.tid = tid := by
  unfold artifactRevisions at read
  obtain ⟨_, _, read⟩ := bind_ok.mp read
  rw [pure_eq_ok] at read
  subst read
  rwa [List.mem_filter, decide_eq_true_eq] at mem

theorem staleDirectories_ok {w : World} {store : Store} {c : Contest} {root : Path} {t : Files}
    {paths : List Path} (done : staleDirectories w store c root t = .ok paths) :
    (∀ path ∈ paths, ∃ r ∈ store.revisions, r.tid = c.tid ∧ ∃ name,
      revisionName w t root r = .ok name ∧ name ≠ c.activeMaterialRevision ∧
      path = root ++ [name]) := by
  unfold staleDirectories at done
  obtain ⟨revisions, rows, done⟩ := bind_ok.mp done
  obtain ⟨known, names, done⟩ := bind_ok.mp done
  obtain ⟨_, _, done⟩ := bind_ok.mp done
  rw [pure_eq_ok] at done
  subst done
  intro path mem
  obtain ⟨name, memName, rfl⟩ := List.mem_map.mp mem
  rw [List.mem_filter, List.mem_insertionSort, List.mem_dedup, decide_eq_true_eq] at memName
  obtain ⟨r, memR, read⟩ := mapM_mem names name memName.1
  obtain ⟨inside, own⟩ := artifactRevisions_mem rows memR
  exact ⟨r, inside, own, name, read, memName.2, rfl⟩

theorem purgeWorkspace_removes (w : World) (m : Manager) (store : Store) (c : Contest) {t : Files}
    (named : Named t) :
    Removes (WorkspaceTarget w m t store c) t (purgeWorkspace w m store c t).1 := by
  unfold purgeWorkspace
  simp only
  split
  · exact Removes.refl _ _
  · rename_i root target
    split_ifs with absent
    · exact Removes.refl _ _
    · split
      · exact Removes.refl _ _
      · rename_i paths stale
        obtain ⟨root', found, target⟩ := bind_ok.mp target
        obtain ⟨_, checked, target⟩ := bind_ok.mp target
        rw [pure_eq_ok] at target
        subst target
        have plain := assertPlainTree_ok checked absent
        refine all_keeps (P := Removes (WorkspaceTarget w m t store c) t)
          (fun path mem s reached => ?_) (Removes.refl _ _)
        refine reached.step (removeTree_removes w path (reached.named named)) fun e _ target => ?_
        obtain ⟨r, memR, own, name, read, other, rfl⟩ := staleDirectories_ok stale path mem
        exact ⟨root', found, plain, r, memR, own, name, read, other, target.2⟩

/- The purge is due. -/
def Pending (m : Manager) (observed : Int) (kind : Kind) (c : Contest) : Prop :=
  Ended c ∧ c.purgedAtMs kind = 0 ∧ m.boundary kind ≤ observed - c.shutdownVerifiedAtMs

/- The later rows are the earlier ones, except that purges may have been marked. -/
structure Follows (first later : Store) : Prop where
  revisions : later.revisions = first.revisions
  rows : ∀ c ∈ later.contests, ∃ old ∈ first.contests, old.tid = c.tid ∧ old.state = c.state ∧
    old.activeMaterialRevision = c.activeMaterialRevision ∧
    old.shutdownVerifiedAtMs = c.shutdownVerifiedAtMs ∧
    ∀ kind, c.purgedAtMs kind = 0 → old.purgedAtMs kind = 0

theorem Follows.refl (store : Store) : Follows store store :=
  ⟨rfl, fun c mem => ⟨c, mem, rfl, rfl, rfl, rfl, fun _ => id⟩⟩

theorem mark_purged {c : Contest} {observed : Int} (positive : 0 < observed) {kind other : Kind}
    (zero : (c.mark observed kind).purgedAtMs other = 0) : c.purgedAtMs other = 0 := by
  cases kind <;> cases other <;> simp_all [Contest.mark, Contest.purgedAtMs]

theorem Follows.update {first later : Store} (follows : Follows first later) (tid : String)
    (kind : Kind) {observed : Int} (positive : 0 < observed) :
    Follows first (later.update tid kind observed) where
  revisions := follows.revisions
  rows := by
    intro c mem
    obtain ⟨c, memC, rfl⟩ := List.mem_map.mp mem
    obtain ⟨old, memOld, sameTid, sameState, sameActive, sameEnd, marks⟩ := follows.rows c memC
    refine ⟨old, memOld, ?_⟩
    split_ifs
    · refine ⟨by rw [mark_tid, sameTid], ?_, ?_, ?_, fun other zero =>
        marks other (mark_purged positive zero)⟩ <;> cases kind <;> assumption
    · exact ⟨sameTid, sameState, sameActive, sameEnd, marks⟩

theorem same_row {store : Store} {c d : Contest} (mem : c ∈ store.contests)
    (mem' : d ∈ store.contests) (same : c.tid = d.tid) : c = d :=
  List.inj_on_of_nodup_map store.once mem mem' same

theorem getContest_some {s : State} {tid : String} {c : Contest}
    (found : s.getContest tid = some c) : c ∈ s.store.contests ∧ c.tid = tid :=
  ⟨List.mem_of_find?_eq_some found, by simpa using List.find?_some found⟩

/- What a sweep may be aimed at. -/
def SweepTarget (w : World) (m : Manager) (observed : Int) (t : Files) (store : Store)
    (p : Path) : Prop :=
  ∃ c ∈ store.contests,
    Pending m observed .workspace c ∧ WorkspaceTarget w m t store c p ∨
    Pending m observed .evidence c ∧ EvidenceTarget m t c p

section Sweep
variable {w : World} {m : Manager} {observed : Int} {files : Files} {store : Store}
  (named : Named files)

def Swept (w : World) (m : Manager) (observed : Int) (files : Files) (store : Store)
    (s : State) : Prop :=
  Removes (SweepTarget w m observed files store) files s.files ∧ Follows store s.store

theorem markPurged_swept {tid : String} {kind : Kind} {s : State}
    (swept : Swept w m observed files store s) :
    Swept w m observed files store (markPurged tid kind observed s).1 := by
  unfold markPurged
  split
  · exact swept
  · split
    · exact ⟨swept.1, swept.2.update tid kind (by omega)⟩
    · exact swept

include named

theorem purge_removes (kind : Kind) {t : Files}
    (removes : Removes (SweepTarget w m observed files store) files t) {later : Store}
    (follows : Follows store later) {old current : Contest} (mem : old ∈ store.contests)
    (pending : Pending m observed kind old) (sameTid : old.tid = current.tid)
    (sameActive : old.activeMaterialRevision = current.activeMaterialRevision) :
    Removes (SweepTarget w m observed files store) files (purge w m later current kind t).1 := by
  have named' := removes.named named
  have links := removes.links named
  cases kind with
  | workspace =>
    refine removes.step (purgeWorkspace_removes w m later current named') ?_
    rintro e - ⟨q, found, plain, r, memR, own, name, read, other, inside⟩
    rw [← contestPath_links links, ← sameTid] at found
    rw [← revisionName_links links] at read
    exact ⟨old, mem, Or.inl ⟨pending, q, found, plain.before removes named, r,
      follows.revisions ▸ memR, own.trans sameTid.symm, name, read, sameActive ▸ other, inside⟩⟩
  | evidence =>
    refine removes.step (purgeEvidence_removes w m current named') ?_
    rintro e - ⟨root, memRoot, q, found, plain, inside⟩
    rw [← contestPath_links links, ← sameTid] at found
    exact ⟨old, mem, Or.inr ⟨pending, root, memRoot, q, found, plain.before removes named, inside⟩⟩

theorem purgeDue_swept {tid : String} {kind : Kind} {row : Contest} (memRow : row ∈ store.contests)
    (rowTid : row.tid = tid) (ended : Ended row) {s : State}
    (swept : Swept w m observed files store s) :
    Swept w m observed files store
      (purgeDue w m observed row.shutdownVerifiedAtMs tid kind s).1 := by
  unfold purgeDue
  split
  · exact swept
  · rename_i current found
    split_ifs with due
    · obtain ⟨memCurrent, currentTid⟩ := getContest_some found
      obtain ⟨old, memOld, sameTid, -, sameActive, -, marks⟩ := swept.2.rows current memCurrent
      obtain rfl := same_row memOld memRow (by rw [sameTid, currentTid, rowTid])
      have pending : Pending m observed kind old := ⟨ended, marks kind due.1, due.2⟩
      refine next_keeps (P := Swept w m observed files store) (fun s' reached => ?_)
        (fun s' reached => markPurged_swept reached) swept
      exact ⟨purge_removes named kind reached.1 swept.2 memRow pending sameTid sameActive,
        reached.2⟩
    · exact swept

theorem sweepContest_swept {candidate : Contest} {s : State}
    (swept : Swept w m observed files store s) :
    Swept w m observed files store (sweepContest w m observed candidate s).1 := by
  unfold sweepContest
  split
  · exact swept
  · rename_i current found
    split_ifs with ended
    · obtain ⟨memCurrent, currentTid⟩ := getContest_some found
      obtain ⟨old, memOld, sameTid, sameState, -, sameEnd, -⟩ := swept.2.rows current memCurrent
      have endedOld : Ended old := by
        rw [Ended, sameState, sameEnd]
        exact ended
      simp only [← sameEnd]
      exact next_keeps (P := Swept w m observed files store)
        (fun s' reached => purgeDue_swept named memOld (sameTid.trans currentTid) endedOld reached)
        (fun s' reached => purgeDue_swept named memOld (sameTid.trans currentTid) endedOld reached)
        swept
    · exact swept

theorem sweep_swept : Swept w m observed files store (sweep w m observed files store).1 := by
  have start : Swept w m observed files store { files, store, workspace := 0, evidence := 0 } :=
    ⟨Removes.refl _ _, Follows.refl _⟩
  have run : Swept w m observed files store (Change.all (sweepContest w m observed)
      (retentionCandidates m observed store) { files, store, workspace := 0, evidence := 0 }).1 :=
    all_keeps (fun _ _ _ reached => sweepContest_swept named reached) start
  unfold sweep
  simp only
  split <;> rename_i same <;> rwa [same] at run

end Sweep

/- The boundary of the purge has passed, whether the purge was marked or not. -/
def Passed (m : Manager) (observed : Int) (kind : Kind) (c : Contest) : Prop :=
  Ended c ∧ m.boundary kind ≤ observed - c.shutdownVerifiedAtMs

instance (m : Manager) (observed : Int) (kind : Kind) (c : Contest) :
    Decidable (Passed m observed kind c) := inferInstanceAs (Decidable (_ ∧ _))

/- The contest's evidence may go, or the path lies in the directory that a revision of it other
   than the active one has of its own. -/
def Allowed (w : World) (m : Manager) (observed : Int) (files : Files) (store : Store)
    (p : Path) : Prop :=
  ∃ c ∈ store.contests,
    Passed m observed .evidence c ∧ (∃ root ∈ m.roots, root ++ [c.tid] <+: p) ∨
    Passed m observed .workspace c ∧ ∃ r ∈ store.revisions, r.tid = c.tid ∧
      r.revision ≠ c.activeMaterialRevision ∧
      ∃ name, revisionName w files (m.artifactRoot ++ [c.tid]) r = .ok name ∧
        m.artifactRoot ++ [c.tid, name] <+: p ∧
        ∀ active ∈ store.revisions, active.tid = c.tid →
          active.revision = c.activeMaterialRevision →
          revisionName w files (m.artifactRoot ++ [c.tid]) active ≠ .ok name

def purgedRoots (m : Manager) : Kind → List Path
  | .workspace => [m.artifactRoot]
  | .evidence => m.roots

structure Straight (w : World) (m : Manager) (observed : Int) (files : Files) (store : Store) :
    Prop where
  /-- A plain directory that a pending purge finds at a contest's path is the contest's own. -/
  own : ∀ c ∈ store.contests, ∀ kind, Pending m observed kind c → ∀ root ∈ purgedRoots m kind,
    ∀ q, contestPath files root c.tid = .ok q → Plain files q → q = root ++ [c.tid]
  /-- The directory of an active revision is called like the revision. -/
  active : ∀ c ∈ store.contests, Pending m observed .workspace c → ∀ r ∈ store.revisions,
    r.tid = c.tid → r.revision = c.activeMaterialRevision →
    ∀ name, revisionName w files (m.artifactRoot ++ [c.tid]) r = .ok name →
      name = c.activeMaterialRevision
  /-- No directory of a contest with a pending purge is in or around one of another contest. -/
  apart : ∀ c ∈ store.contests, ∀ kind, Pending m observed kind c →
    ∀ other ∈ store.contests, ¬ Passed m observed .workspace other →
    ∀ root ∈ purgedRoots m kind, ∀ root' ∈ m.roots,
      ¬ root ++ [c.tid] <+: root' ++ [other.tid] ∧ ¬ root' ++ [other.tid] <+: root ++ [c.tid]

/- What is missing after a sweep was allowed to go, and no other contest has lost anything. -/
def OwnOnly (w : World) (m : Manager) (observed : Int) (files : Files) (store : Store) : Prop :=
  ∀ e ∈ files, e ∉ (sweep w m observed files store).1.files →
    Allowed w m observed files store e.1 ∧
    ∀ other ∈ store.contests, ¬ Passed m observed .workspace other →
      ∀ root ∈ m.roots, ¬ root ++ [other.tid] <+: e.1

theorem straight_ownOnly {w : World} {m : Manager} {observed : Int} {files : Files}
    {store : Store} (named : Named files) (straight : Straight w m observed files store) :
    OwnOnly w m observed files store := by
  intro e mem gone
  obtain ⟨c, memC, ⟨pending, q, found, plain, r, memR, own, name, read, stale, inside⟩ |
    ⟨pending, root, memRoot, q, found, plain, inside⟩⟩ := (sweep_swept named).1.missing mem gone
  · obtain rfl := straight.own c memC .workspace pending m.artifactRoot
      (List.mem_singleton.mpr rfl) q found plain
    have below : m.artifactRoot ++ [c.tid, name] <+: e.1 := by
      rwa [List.append_assoc] at inside
    refine ⟨⟨c, memC, Or.inr ⟨⟨pending.1, pending.2.2⟩, r, memR, own, ?_, name, read, below, ?_⟩⟩,
      ?_⟩
    · intro same
      exact stale (straight.active c memC pending r memR own same name read)
    · intro active memActive ownActive isActive sameName
      exact stale (straight.active c memC pending active memActive ownActive isActive name sameName)
    · intro other memOther notPassed root memRoot under
      have top : m.artifactRoot ++ [c.tid] <+: e.1 := (List.prefix_append _ [name]).trans inside
      obtain ⟨apart, apart'⟩ := straight.apart c memC .workspace pending other memOther notPassed
        m.artifactRoot (List.mem_singleton.mpr rfl) root memRoot
      rcases List.prefix_or_prefix_of_prefix top under with one | two
      · exact apart one
      · exact apart' two
  · obtain rfl := straight.own c memC .evidence pending root memRoot q found plain
    refine ⟨⟨c, memC, Or.inl ⟨⟨pending.1, pending.2.2⟩, root, memRoot, inside⟩⟩, ?_⟩
    intro other memOther notPassed root' memRoot' under
    obtain ⟨apart, apart'⟩ := straight.apart c memC .evidence pending other memOther notPassed
      root memRoot root' memRoot'
    rcases List.prefix_or_prefix_of_prefix inside under with one | two
    · exact apart one
    · exact apart' two

end NoiContest.Retention
