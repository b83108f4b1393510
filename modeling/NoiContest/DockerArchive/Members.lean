import Mathlib.Data.List.Nodup
import NoiContest.Lib.Outcome
import NoiContest.Lib.PyText

/- The members of a Docker archive as verify_docker_archive_identity.py collects them: small
   regular files under the names that can carry an image identity. -/
namespace NoiContest.DockerArchive
open Outcome

abbrev Text := List Char

inductive Raised where
  | archiveIdentity (message : String)
  /- a TypeError, AttributeError, RecursionError or other error that `main` does not catch -/
  | other
  deriving DecidableEq, Repr

inductive Kind where
  | directory
  | regular
  | other
  deriving DecidableEq, Repr

/- A member in the order of the archive, with the name that tarfile gives it. The content is what
   its stream reads, none where reading raises. -/
structure Member where
  name : Text
  kind : Kind
  size : Nat
  content : Option (List UInt8)
  deriving DecidableEq, Repr

abbrev Members := List (Text × List UInt8)

def maxJson : Nat := 4 * 1024 * 1024

def unsafeName : Raised := .archiveIdentity "Docker archive contains an unsafe member name"

def canonicalMember (name : Text) : Except Raised Text := do
  let name := if "./".toList.isPrefixOf name then name.drop 2 else name
  raiseIf (name = [] ∨ name.head? = some '/' ∨ '\\' ∈ name) unsafeName
  raiseIf ((name.splitOn '/').any fun part => decide (part ∈ [[], ['.'], ['.', '.']])) unsafeName
  pure name

def blobs : Text := "blobs/sha256/".toList

/-- `(?:blobs/sha256/)?([a-f0-9]{64})(?:\.json)?` with its group. -/
def hexName (name : Text) : Option Text :=
  let body := if blobs.isPrefixOf name then name.drop 13 else name
  let digest := body.take 64
  if digest.length = 64 ∧ digest.all PyText.isLowerHex ∧
      (body.drop 64 = [] ∨ body.drop 64 = ".json".toList) then some digest
  else none

def manifestName : Text := "manifest.json".toList
def indexName : Text := "index.json".toList
def layoutName : Text := "oci-layout".toList

def wanted (name : Text) : Bool :=
  decide (name ∈ [manifestName, indexName, layoutName]) || (hexName name).isSome

def readMember (member : Member) : Except Raised (List UInt8) := do
  match member.content with
  | none => throw (.archiveIdentity "cannot read Docker archive")
  | some content =>
    let raw := content.take (maxJson + 1)
    raiseIf (raw.length ≠ member.size ∨ maxJson < raw.length)
      (.archiveIdentity "Docker archive identity metadata changed while reading")
    pure raw

/- One turn of the loop. -/
def scanMember (result : Members) (member : Member) : Except Raised Members := do
  let name ← canonicalMember member.name
  if member.kind = .directory then pure result
  else do
    raiseIf (member.kind ≠ .regular)
      (.archiveIdentity "Docker archive contains a non-regular payload")
    if wanted name = false ∨ maxJson < member.size then pure result
    else do
      raiseIf (name ∈ result.map Prod.fst)
        (.archiveIdentity "Docker archive contains duplicate identity metadata")
      let raw ← readMember member
      pure (result ++ [(name, raw)])

def collectSmallMembers (archive : List Member) : Except Raised Members :=
  archive.foldlM scanMember []

/- The members that the loop passes over whatever their names are. -/
def Skipped (member : Member) : Prop := member.kind = .directory ∨ maxJson < member.size

instance (member : Member) : Decidable (Skipped member) := by
  unfold Skipped
  infer_instance

def Named (name : Text) (member : Member) : Prop := canonicalMember member.name = .ok name

instance (name : Text) (member : Member) : Decidable (Named name member) :=
  match eq : canonicalMember member.name with
  | .ok own =>
    if same : own = name then .isTrue (same ▸ eq)
    else .isFalse fun named => same (Except.ok.inj (eq.symm.trans named))
  | .error _ => .isFalse fun named => nomatch eq.symm.trans named

/- What one turn adds when it does not raise. -/
inductive Turn (member : Member) : Members → Prop where
  | passed {name : Text} (named : Named name member)
      (ignored : Skipped member ∨ wanted name = false) : Turn member []
  | kept {name : Text} {raw : List UInt8} (named : Named name member)
      (regular : member.kind = .regular) (small : member.size ≤ maxJson)
      (known : wanted name = true) (content : member.content = some raw)
      (size : raw.length = member.size) : Turn member [(name, raw)]

theorem readMember_ok {member : Member} {raw : List UInt8} (small : member.size ≤ maxJson) :
    readMember member = .ok raw ↔ member.content = some raw ∧ raw.length = member.size := by
  rw [readMember]
  cases member.content with
  | none => simp
  | some content =>
    simp only [bind_ok, raiseIf_ok, pure_eq_ok, exists_and_left, not_or, not_not,
      Option.some_inj, exists_const]
    constructor
    · rintro ⟨⟨size, bound⟩, rfl⟩
      rw [List.length_take] at size
      have whole : content.take (maxJson + 1) = content := List.take_of_length_le (by omega)
      exact ⟨whole.symm, by rw [whole]; omega⟩
    · rintro ⟨rfl, size⟩
      rw [List.take_of_length_le (by omega)]
      exact ⟨⟨size, by omega⟩, rfl⟩

theorem scanMember_ok {result after : Members} {member : Member}
    (done : scanMember result member = .ok after) :
    ∃ added, Turn member added ∧ after = result ++ added ∧
      ∀ item ∈ added, item.1 ∉ result.map Prod.fst := by
  rw [scanMember, bind_ok] at done
  obtain ⟨name, named, done⟩ := done
  split at done
  · next directory =>
    refine ⟨[], .passed named (.inl (.inl directory)), ?_, nofun⟩
    rw [List.append_nil, pure_eq_ok.mp done]
  · rw [bind_ok] at done
    obtain ⟨_, checked, done⟩ := done
    have regular := not_not.mp (raiseIf_ok.mp checked)
    split at done
    · next ignored =>
      refine ⟨[], .passed named (ignored.elim .inr fun large => .inl (.inr large)), ?_, nofun⟩
      rw [List.append_nil, pure_eq_ok.mp done]
    · next used =>
      rw [not_or, Bool.not_eq_false, not_lt] at used
      simp only [bind_ok, raiseIf_ok, pure_eq_ok] at done
      obtain ⟨_, fresh, raw, read, rfl⟩ := done
      obtain ⟨content, size⟩ := (readMember_ok used.2).mp read
      refine ⟨_, .kept named regular used.2 used.1 content size, rfl, fun item mem => ?_⟩
      rw [List.mem_singleton.mp mem]
      exact fresh

/- The run of the loop as a whole. -/
inductive Scanned : List Member → Members → Prop where
  | nil : Scanned [] []
  | cons {member : Member} {added later : Members} {archive : List Member}
      (turn : Turn member added) (rest : Scanned archive later) :
      Scanned (member :: archive) (added ++ later)

theorem scan_ok {archive : List Member} : ∀ {result members : Members},
    archive.foldlM scanMember result = .ok members →
    ∃ added, Scanned archive added ∧ members = result ++ added ∧
      ((result.map Prod.fst).Nodup → (members.map Prod.fst).Nodup) := by
  induction archive with
  | nil =>
    intro result members done
    refine ⟨[], .nil, ?_⟩
    rw [List.foldlM_nil, pure_eq_ok] at done
    subst done
    exact ⟨(List.append_nil _).symm, id⟩
  | cons member archive ih =>
    intro result members done
    rw [List.foldlM_cons, bind_ok] at done
    obtain ⟨after, first, done⟩ := done
    obtain ⟨added, turn, rfl, fresh⟩ := scanMember_ok first
    obtain ⟨later, scanned, rfl, apart⟩ := ih done
    refine ⟨added ++ later, .cons turn scanned, List.append_assoc .., fun once => apart ?_⟩
    rw [List.map_append]
    refine once.append ?_ fun name before now => ?_
    · cases turn with
      | passed => exact List.nodup_nil
      | kept => exact List.nodup_singleton _
    · obtain ⟨item, mem, rfl⟩ := List.mem_map.mp now
      exact fresh item mem before

theorem collectSmallMembers_ok {archive : List Member} {members : Members}
    (done : collectSmallMembers archive = .ok members) :
    Scanned archive members ∧ (members.map Prod.fst).Nodup := by
  obtain ⟨added, scanned, rfl, apart⟩ := scan_ok done
  exact ⟨scanned, apart List.nodup_nil⟩

/- A loader that keeps the last member of a name. -/
def lastNamed (archive : List Member) (name : Text) : Option (List UInt8) :=
  ((archive.filter fun member => decide (Named name member)).getLast?).bind Member.content

/-- The only member of this name is a file with these bytes. -/
def OnlyMember (archive : List Member) (name : Text) (raw : List UInt8) : Prop :=
  ∃ member, (archive.filter fun member => decide (Named name member)) = [member] ∧
    member.kind = .regular ∧ member.content = some raw

theorem OnlyMember.last {archive : List Member} {name : Text} {raw : List UInt8}
    (only : OnlyMember archive name raw) : lastNamed archive name = some raw := by
  obtain ⟨member, alone, -, content⟩ := only
  rw [lastNamed, alone]
  exact content

theorem named_unique {member : Member} {name other : Text} (named : Named name member)
    (named' : Named other member) : name = other :=
  Except.ok.inj (named.symm.trans named')

/- Every member of a known name is either the one that was kept or one that was passed over. -/
theorem Scanned.named {archive : List Member} {members : Members} {name : Text}
    (scanned : Scanned archive members) (known : wanted name = true) :
    ((archive.filter fun member => decide (Named name member)).filter
      fun member => decide (¬ Skipped member)).map Member.content =
      (members.filter fun item => decide (item.1 = name)).map fun item => some item.2 := by
  induction scanned with
  | nil => rfl
  | @cons member added later archive turn rest ih =>
    have first : ([member].filter fun member => decide (Named name member)).filter
        (fun member => decide (¬ Skipped member)) =
        if Named name member ∧ ¬ Skipped member then [member] else [] := by
      by_cases own : Named name member <;> by_cases skipped : Skipped member <;>
        simp [own, skipped]
    rw [← List.singleton_append, List.filter_append, List.filter_append, List.map_append, ih,
      first, List.filter_append, List.map_append]
    congr 1
    cases turn with
    | @passed other named ignored =>
      rw [if_neg]
      · rfl
      · rintro ⟨own, counted⟩
        rw [named_unique named own, known] at ignored
        exact ignored.elim counted nofun
    | @kept other raw named regular small _ content size =>
      by_cases same : other = name
      · subst same
        have counted : ¬ Skipped member := by
          rintro (directory | large)
          · exact nomatch regular.symm.trans directory
          · omega
        simp [named, counted, content]
      · rw [if_neg fun own => same (named_unique named own.1)]
        simp [same]

theorem Scanned.regular {archive : List Member} {members : Members} {name : Text}
    (scanned : Scanned archive members) (known : wanted name = true) {member : Member}
    (mem : member ∈ archive) (named : Named name member) (counted : ¬ Skipped member) :
    member.kind = .regular := by
  induction scanned with
  | nil => cases mem
  | cons turn _ ih =>
    rcases List.mem_cons.mp mem with rfl | later
    · cases turn with
      | passed own ignored =>
        rw [named_unique own named, known] at ignored
        exact ignored.elim (absurd · counted) nofun
      | kept _ regular => exact regular
    · exact ih later

theorem filter_key {members : Members} (once : (members.map Prod.fst).Nodup) {name : Text}
    {raw : List UInt8} (found : members.lookup name = some raw) :
    (members.filter fun item => decide (item.1 = name)) = [(name, raw)] := by
  induction members with
  | nil => cases found
  | cons item members ih =>
    rw [List.map_cons, List.nodup_cons] at once
    rw [List.lookup_cons] at found
    by_cases same : item.1 = name
    · subst same
      rw [beq_self_eq_true] at found
      cases found
      have others : (members.filter fun other => decide (other.1 = item.1)) = [] := by
        rw [List.filter_eq_nil_iff]
        intro other mem hit
        exact once.1 (List.mem_map.mpr ⟨other, mem, of_decide_eq_true hit⟩)
      simp [others]
    · rw [beq_eq_false_iff_ne.mpr (Ne.symm same)] at found
      simp [same, ih once.2 found]

/- The member behind a collected name is alone iff no member of the name is passed over. -/
theorem only_iff {archive : List Member} {members : Members} {name : Text} {raw : List UInt8}
    (collected : collectSmallMembers archive = .ok members) (known : wanted name = true)
    (found : members.lookup name = some raw) :
    OnlyMember archive name raw ↔ ∀ member ∈ archive, Skipped member → ¬ Named name member := by
  obtain ⟨scanned, once⟩ := collectSmallMembers_ok collected
  have counted := scanned.named known
  rw [filter_key once found] at counted
  obtain ⟨member, alone, content⟩ := List.map_eq_singleton_iff.mp counted
  constructor
  · rintro ⟨only, only_eq, regular, own⟩ other mem skipped named
    have one : other ∈ archive.filter fun member => decide (Named name member) :=
      List.mem_filter.mpr ⟨mem, decide_eq_true named⟩
    have last : member ∈ archive.filter fun member => decide (Named name member) :=
      List.mem_of_mem_filter (alone ▸ List.mem_singleton_self member)
    rw [only_eq, List.mem_singleton] at one last
    have fine : member ∈ [member] := List.mem_singleton_self member
    rw [← alone, List.mem_filter, decide_eq_true_iff] at fine
    exact fine.2 (last.trans one.symm ▸ skipped)
  · intro clear
    have all : ((archive.filter fun member => decide (Named name member)).filter
        fun member => decide (¬ Skipped member)) =
        archive.filter fun member => decide (Named name member) := by
      rw [List.filter_eq_self]
      intro other mem
      obtain ⟨inside, named⟩ := List.mem_filter.mp mem
      exact decide_eq_true fun skipped => clear other inside skipped (of_decide_eq_true named)
    rw [all] at alone
    refine ⟨member, alone, ?_, content⟩
    have mem : member ∈ archive.filter fun member => decide (Named name member) :=
      alone ▸ List.mem_singleton_self member
    obtain ⟨inside, named⟩ := List.mem_filter.mp mem
    have fine := fun skipped => clear member inside skipped (of_decide_eq_true named)
    exact scanned.regular known inside (of_decide_eq_true named) fine

end NoiContest.DockerArchive
