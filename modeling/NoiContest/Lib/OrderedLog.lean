import Mathlib.Data.List.Basic
import Mathlib.Data.List.Pairwise

/- Order of entries in an append-only log whose entries are pairwise related. -/
namespace OrderedLog
variable {Entry : Type} {R : Entry → Entry → Prop}

def Before (log : List Entry) (x y : Entry) : Prop :=
  ∃ i j : Nat, i < j ∧ log[i]? = some x ∧ log[j]? = some y

theorem before_of_pairwise {log : List Entry} (ordered : log.Pairwise R) {x y : Entry}
    (hx : x ∈ log) (hy : y ∈ log) (distinct : x ≠ y) (notBack : ¬ R y x) : Before log x y := by
  obtain ⟨i, hi, eqx⟩ := List.mem_iff_getElem.mp hx
  obtain ⟨j, hj, eqy⟩ := List.mem_iff_getElem.mp hy
  rcases Nat.lt_trichotomy i j with less | same | more
  · exact ⟨i, j, less, by simp [eqx, hi], by simp [eqy, hj]⟩
  · subst j
    exact absurd (eqx.symm.trans eqy) distinct
  · have related := List.pairwise_iff_getElem.mp ordered j i hj hi more
    rw [eqx, eqy] at related
    exact absurd related notBack

end OrderedLog
