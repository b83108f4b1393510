import Mathlib.Data.List.Infix
import Mathlib.Data.List.Nodup
import Mathlib.Data.String.Basic

/- Paths by their components. -/
namespace FilePath

abbrev Path := List String

def join (path : Path) : String := String.intercalate "/" path

/- What a directory entry can be called. -/
def IsName (s : String) : Prop := s ≠ "" ∧ s ≠ "." ∧ s ≠ ".." ∧ '/' ∉ s.toList

instance (s : String) : Decidable (IsName s) := inferInstanceAs (Decidable (_ ∧ _))

/- The proper prefixes of a path but the empty one, from the top. -/
def parents (path : Path) : List Path :=
  ((List.range path.length).filter (0 < ·)).map path.take

theorem join_toList (path : Path) :
    (join path).toList = ['/'].intercalate (path.map String.toList) := by
  rw [join, String.toList_intercalate]
  rfl

theorem join_injective {p q : Path} (filled : p ≠ []) (filled' : q ≠ [])
    (names : ∀ part ∈ p, IsName part) (names' : ∀ part ∈ q, IsName part)
    (same : join p = join q) : p = q := by
  have split : ∀ {path : Path}, path ≠ [] → (∀ part ∈ path, IsName part) →
      (join path).toList.splitOn '/' = path.map String.toList := by
    intro path filled names
    rw [join_toList]
    refine List.splitOn_intercalate '/' ?_ (by simpa using filled)
    intro part mem
    obtain ⟨name, memName, rfl⟩ := List.mem_map.mp mem
    exact (names name memName).2.2.2
  have texts : p.map String.toList = q.map String.toList := by
    rw [← split filled names, ← split filled' names', same]
  exact List.map_injective_iff.mpr (fun _ _ => String.toList_injective) texts

theorem mem_parents {parent path : Path} :
    parent ∈ parents path ↔ parent ≠ [] ∧ parent <+: path ∧ parent ≠ path := by
  simp only [parents, List.mem_map, List.mem_filter, List.mem_range, decide_eq_true_eq]
  constructor
  · rintro ⟨k, ⟨short, positive⟩, rfl⟩
    refine ⟨?_, List.take_prefix k path, ?_⟩
    · rw [← List.length_pos_iff, List.length_take]
      omega
    · intro whole
      have := congrArg List.length whole
      rw [List.length_take] at this
      omega
  · rintro ⟨filled, starts, proper⟩
    have short : parent.length ≤ path.length := starts.length_le
    refine ⟨parent.length, ⟨?_, List.length_pos_iff.mpr filled⟩, ?_⟩
    · exact lt_of_le_of_ne short fun same => proper (starts.eq_of_length same)
    · exact (List.prefix_iff_eq_take.mp starts).symm

theorem parents_nodup (path : Path) : (parents path).Nodup := by
  refine List.Nodup.map_on ?_ (List.nodup_range.filter _)
  intro k memK l memL same
  simp only [List.mem_filter, List.mem_range] at memK memL
  have := congrArg List.length same
  rw [List.length_take, List.length_take] at this
  omega

theorem parents_parents {above parent path : Path} (up : above ∈ parents parent)
    (mem : parent ∈ parents path) : above ∈ parents path := by
  obtain ⟨filled, starts, proper⟩ := mem_parents.mp up
  obtain ⟨-, starts', proper'⟩ := mem_parents.mp mem
  refine mem_parents.mpr ⟨filled, starts.trans starts', ?_⟩
  rintro rfl
  exact proper (starts.eq_of_length (le_antisymm starts.length_le starts'.length_le))

end FilePath
