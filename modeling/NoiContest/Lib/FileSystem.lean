import NoiContest.Lib.FilePath

/- File trees with symbolic links, and how a path is resolved in them. -/
namespace FileSystem
open FilePath

/- The target of a link is split at its slashes and has no part that names its own directory. -/
inductive Node (α : Type) where
  | directory
  | file (content : α)
  | link (absolute : Bool) (target : List String)
  deriving DecidableEq, Repr

def Node.isLink {α : Type} : Node α → Bool
  | .link .. => true
  | _ => false

abbrev Tree (α : Type) := List (Path × Node α)

variable {α : Type}

/-- `lstat` -/
def node (t : Tree α) (path : Path) : Option (Node α) :=
  if path = [] then some .directory else t.lookup path

def linkAt (t : Tree α) (path : Path) : Option (Bool × List String) :=
  match node t path with
  | some (.link absolute target) => some (absolute, target)
  | _ => none

def linkCount (t : Tree α) : Nat := t.countP fun e => e.2.isLink

/- The walk along the components of a path; `follow` walks along the target of a link. -/
def walkWith (follow : Path → List String → Option Path) (t : Tree α) :
    Path → List String → Option Path
  | base, [] => some base
  | base, name :: rest =>
    if name = ".." then walkWith follow t base.dropLast rest
    else
      match linkAt t (base ++ [name]) with
      | some (absolute, target) =>
        (follow (if absolute then [] else base) target).bind fun reached =>
          walkWith follow t reached rest
      | none => walkWith follow t (base ++ [name]) rest

/- Links nested deeper than there are links are a loop. -/
def walk (t : Tree α) : Nat → Path → List String → Option Path
  | 0 => walkWith (fun _ _ => none) t
  | depth + 1 => walkWith (walk t depth) t

/- The path that realpath finds, or a loop. Parts that are not there are kept. -/
def resolve (t : Tree α) (base : Path) (parts : List String) : Option Path :=
  walk t (linkCount t) base parts

/- No part of the path is a link. -/
def Physical (t : Tree α) (path : Path) : Prop := ∀ q, q <+: path → linkAt t q = none

theorem linkAt_nil (t : Tree α) : linkAt t [] = none := rfl

theorem physical_nil (t : Tree α) : Physical t [] := by
  intro q starts
  rw [List.prefix_nil.mp starts]
  rfl

theorem Physical.ancestor {t : Tree α} {path q : Path} (physical : Physical t path)
    (starts : q <+: path) : Physical t q :=
  fun r inside => physical r (inside.trans starts)

theorem Physical.snoc {t : Tree α} {path : Path} {name : String} (physical : Physical t path)
    (plain : linkAt t (path ++ [name]) = none) : Physical t (path ++ [name]) := by
  intro q starts
  rcases List.prefix_concat_iff.mp starts with rfl | inside
  · exact plain
  · exact physical q inside

section Walk
variable {t : Tree α} {follow : Path → List String → Option Path}

theorem walkWith_physical (keeps : ∀ base parts reached, Physical t base →
      follow base parts = some reached → Physical t reached)
    {base : Path} {parts : List String} {reached : Path} (physical : Physical t base)
    (walked : walkWith follow t base parts = some reached) : Physical t reached := by
  induction parts generalizing base with
  | nil =>
    obtain rfl := Option.some.inj walked
    exact physical
  | cons name rest ih =>
    rw [walkWith] at walked
    split at walked
    · exact ih (physical.ancestor (List.dropLast_prefix base)) walked
    · split at walked
      · rename_i absolute target _
        obtain ⟨middle, followed, later⟩ := Option.bind_eq_some_iff.mp walked
        refine ih (keeps _ _ _ ?_ followed) later
        cases absolute
        · exact physical
        · exact physical_nil t
      · rename_i plain
        exact ih (physical.snoc plain) walked

theorem walk_physical (depth : Nat) {base : Path} {parts : List String} {reached : Path}
    (physical : Physical t base) (walked : walk t depth base parts = some reached) :
    Physical t reached := by
  induction depth generalizing base parts reached with
  | zero => exact walkWith_physical (fun _ _ _ _ followed => by cases followed) physical walked
  | succ depth ih =>
    exact walkWith_physical (fun _ _ _ start followed => ih start followed) physical walked

theorem walkWith_straight {base : Path} {parts : List String} (down : ".." ∉ parts)
    (physical : Physical t (base ++ parts)) :
    walkWith follow t base parts = some (base ++ parts) := by
  induction parts generalizing base with
  | nil => rw [List.append_nil]; rfl
  | cons name rest ih =>
    have split : base ++ name :: rest = (base ++ [name]) ++ rest := by simp
    have plain : linkAt t (base ++ [name]) = none :=
      physical _ (split ▸ List.prefix_append _ _)
    rw [walkWith, if_neg fun up => down (by simp [up]), plain, split]
    exact ih (fun mem => down (List.mem_cons_of_mem _ mem)) (split ▸ physical)

end Walk

theorem resolve_physical {t : Tree α} {base : Path} {parts : List String} {reached : Path}
    (physical : Physical t base) (resolved : resolve t base parts = some reached) :
    Physical t reached :=
  walk_physical _ physical resolved

theorem resolve_straight {t : Tree α} {base : Path} {parts : List String} (down : ".." ∉ parts)
    (physical : Physical t (base ++ parts)) : resolve t base parts = some (base ++ parts) := by
  unfold resolve
  cases linkCount t with
  | zero => exact walkWith_straight down physical
  | succ depth => exact walkWith_straight down physical

/- Two trees with the same links. -/
structure SameLinks (t s : Tree α) : Prop where
  count : linkCount t = linkCount s
  links : ∀ path, linkAt t path = linkAt s path

theorem SameLinks.refl (t : Tree α) : SameLinks t t := ⟨rfl, fun _ => rfl⟩

theorem SameLinks.trans {t s r : Tree α} (first : SameLinks t s) (second : SameLinks s r) :
    SameLinks t r :=
  ⟨first.count.trans second.count, fun path => (first.links path).trans (second.links path)⟩

theorem SameLinks.symm {t s : Tree α} (same : SameLinks t s) : SameLinks s t :=
  ⟨same.count.symm, fun path => (same.links path).symm⟩

theorem SameLinks.physical {t s : Tree α} (same : SameLinks t s) {path : Path}
    (physical : Physical t path) : Physical s path :=
  fun q starts => (same.links q).symm.trans (physical q starts)

theorem SameLinks.resolve {t s : Tree α} (same : SameLinks t s) (base : Path)
    (parts : List String) : resolve t base parts = resolve s base parts := by
  have walked : ∀ follow base parts, walkWith follow t base parts = walkWith follow s base parts := by
    intro follow base parts
    induction parts generalizing base with
    | nil => rfl
    | cons name rest ih => simp only [walkWith, same.links, ih]
  have deep : ∀ depth base parts, walk t depth base parts = walk s depth base parts := by
    intro depth
    induction depth with
    | zero => exact walked _
    | succ depth ih =>
      intro base parts
      have follow : walk t depth = walk s depth := funext fun b => funext fun p => ih b p
      rw [walk, walk, follow]
      exact walked _ base parts
  rw [FileSystem.resolve, FileSystem.resolve, same.count]
  exact deep _ base parts

/- Every entry has one name of its own in a directory of the tree. -/
structure Real (t : Tree α) : Prop where
  filled : ∀ e ∈ t, e.1 ≠ []
  once : (t.map Prod.fst).Nodup
  closed : ∀ e ∈ t, ∀ parent ∈ parents e.1, (parent, .directory) ∈ t

theorem node_some {t : Tree α} (once : (t.map Prod.fst).Nodup) {path : Path} (filled : path ≠ [])
    {n : Node α} : node t path = some n ↔ (path, n) ∈ t := by
  rw [node, if_neg filled]
  constructor
  · intro found
    obtain ⟨before, after, rfl, -⟩ := List.lookup_eq_some_iff.mp found
    simp
  · intro mem
    cases found : t.lookup path with
    | none =>
      have absent := List.lookup_eq_none_iff.mp found (path, n) mem
      simp at absent
    | some other =>
      obtain ⟨before, after, rfl, -⟩ := List.lookup_eq_some_iff.mp found
      have same := List.inj_on_of_nodup_map once (x := (path, n)) (y := (path, other)) mem
        (by simp) rfl
      rw [(Prod.mk.inj same).2]

theorem linkAt_some {t : Tree α} (once : (t.map Prod.fst).Nodup) {path : Path}
    (filled : path ≠ []) {link : Bool × List String} :
    linkAt t path = some link ↔ (path, .link link.1 link.2) ∈ t := by
  rw [← node_some once filled, linkAt]
  cases found : node t path with
  | none => simp
  | some n => cases n <;> simp [Prod.ext_iff]

/- The tree without the entries that are not kept. -/
def prune (t : Tree α) (keep : Path → Bool) : Tree α := t.filter fun e => keep e.1

theorem mem_prune {t : Tree α} {keep : Path → Bool} {e : Path × Node α} :
    e ∈ prune t keep ↔ e ∈ t ∧ keep e.1 = true := List.mem_filter

theorem prune_once {t : Tree α} {keep : Path → Bool} (once : (t.map Prod.fst).Nodup) :
    ((prune t keep).map Prod.fst).Nodup :=
  once.sublist (List.filter_sublist.map _)

theorem linkAt_eq {t s : Tree α} (oneT : (t.map Prod.fst).Nodup) (oneS : (s.map Prod.fst).Nodup)
    (same : ∀ path absolute target,
      (path, Node.link absolute target) ∈ t ↔ (path, Node.link absolute target) ∈ s)
    (path : Path) : linkAt t path = linkAt s path := by
  by_cases filled : path = []
  · subst filled
    rfl
  · refine Option.ext fun link => ?_
    rw [linkAt_some oneT filled, linkAt_some oneS filled, same]

/- Pruning that keeps every link leaves resolution as it was. -/
theorem prune_links {t : Tree α} {keep : Path → Bool} (once : (t.map Prod.fst).Nodup)
    (kept : ∀ e ∈ t, e.2.isLink = true → keep e.1 = true) : SameLinks t (prune t keep) where
  count := by
    rw [linkCount, linkCount, prune, List.countP_filter]
    refine List.countP_congr fun e mem => ?_
    simp only [Bool.and_eq_true]
    exact ⟨fun link => ⟨link, kept e mem link⟩, And.left⟩
  links := linkAt_eq once (prune_once once) fun path absolute target => by
    rw [mem_prune]
    exact ⟨fun mem => ⟨mem, kept _ mem rfl⟩, And.left⟩

end FileSystem
