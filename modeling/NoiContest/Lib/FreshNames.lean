import Mathlib.Data.Finset.Card
import Mathlib.Order.Bounds.Defs

/- The search for the first numbered name that is not taken. -/
namespace FreshNames
variable {α : Type} [DecidableEq α]

/-- `while name(number) in taken: number += 1`; one round more than there are taken names is
    never needed. -/
def search (name : Nat → α) (taken : List α) : Nat → Nat → Nat
  | 0, number => number
  | rounds + 1, number =>
    if name number ∈ taken then search name taken rounds (number + 1) else number

def firstFree (name : Nat → α) (taken : List α) (number : Nat) : Nat :=
  search name taken taken.length number

theorem search_skips (name : Nat → α) (taken : List α) (rounds number k : Nat)
    (from_start : number ≤ k) (skipped : k < search name taken rounds number) :
    name k ∈ taken := by
  induction rounds generalizing number with
  | zero => exact absurd skipped (Nat.not_lt.mpr from_start)
  | succ rounds ih =>
    rw [search] at skipped
    split at skipped
    · rename_i here
      rcases Nat.eq_or_lt_of_le from_start with rfl | later
      · exact here
      · exact ih (number + 1) later skipped
    · exact absurd skipped (Nat.not_lt.mpr from_start)

theorem search_start (name : Nat → α) (taken : List α) (rounds number : Nat) :
    number ≤ search name taken rounds number := by
  induction rounds generalizing number with
  | zero => exact le_rfl
  | succ rounds ih =>
    rw [search]
    split
    · exact (Nat.le_succ number).trans (ih (number + 1))
    · exact le_rfl

/- The search stops at a free name or has used all its rounds. -/
theorem search_stops (name : Nat → α) (taken : List α) (rounds number : Nat) :
    name (search name taken rounds number) ∉ taken ∨
      search name taken rounds number = number + rounds := by
  induction rounds generalizing number with
  | zero => exact .inr rfl
  | succ rounds ih =>
    rw [search]
    split
    · rcases ih (number + 1) with free | all
      · exact .inl free
      · exact .inr (by omega)
    · rename_i free
      exact .inl free

variable {name : Nat → α} (injective : Function.Injective name)
include injective

theorem firstFree_free (taken : List α) (number : Nat) :
    name (firstFree name taken number) ∉ taken := by
  intro mem
  have all : firstFree name taken number = number + taken.length :=
    (search_stops name taken taken.length number).resolve_left (not_not_intro mem)
  -- all the names up to this one are taken, one more than the list holds
  have held : (Finset.range (taken.length + 1)).image (fun k => name (number + k)) ⊆
      taken.toFinset := by
    intro a memA
    obtain ⟨k, range, rfl⟩ := Finset.mem_image.mp memA
    rw [Finset.mem_range] at range
    rw [List.mem_toFinset]
    rcases Nat.eq_or_lt_of_le (Nat.le_of_lt_succ range) with rfl | before
    · rwa [all] at mem
    · refine search_skips name taken taken.length number (number + k) (by omega) ?_
      change number + k < firstFree name taken number
      omega
  have count := Finset.card_le_card held
  rw [Finset.card_image_of_injective _ (fun a b same => by
    have := injective same
    omega), Finset.card_range] at count
  have few := taken.toFinset_card_le
  omega

theorem firstFree_least (taken : List α) (number : Nat) :
    IsLeast {k | number ≤ k ∧ name k ∉ taken} (firstFree name taken number) := by
  refine ⟨⟨search_start name taken _ number, firstFree_free injective taken number⟩, ?_⟩
  rintro k ⟨from_start, free⟩
  by_contra smaller
  exact free (search_skips name taken _ number k from_start (Nat.lt_of_not_le smaller))

/- Numbers below the start whose names are taken do not change which one is the least. -/
theorem firstFree_least_from {taken : List α} {first number : Nat}
    (below : ∀ k, first ≤ k → k < number → name k ∈ taken) (bound : first ≤ number) :
    IsLeast {k | first ≤ k ∧ name k ∉ taken} (firstFree name taken number) := by
  obtain ⟨⟨from_start, free⟩, least⟩ := firstFree_least injective taken number
  refine ⟨⟨bound.trans from_start, free⟩, ?_⟩
  rintro k ⟨from_first, unused⟩
  refine least ⟨?_, unused⟩
  by_contra smaller
  exact unused (below k from_first (Nat.lt_of_not_le smaller))

end FreshNames
