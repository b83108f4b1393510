import Mathlib.Algebra.BigOperators.Group.List.Basic
import Mathlib.Algebra.Order.Group.Int
import Mathlib.Tactic.Ring

/- Blocks of lines that open and close braces: a block runs from a line at depth zero to the first
   line after which the depth is zero again, or to the end. -/
namespace BraceBlocks
variable {α : Type} (net : α → Int)

def depth (lines : List α) : Int := (lines.map net).sum

def takeBlock : Int → List α → List α
  | _, [] => []
  | d, line :: rest => if d + net line = 0 then [line] else line :: takeBlock (d + net line) rest

/-- What is left behind the block. -/
def dropBlock : Int → List α → List α
  | _, [] => []
  | d, line :: rest => if d + net line = 0 then rest else dropBlock (d + net line) rest

/-- The blocks whose first line opens one, of lines that start at a depth. -/
def blocks (opens : α → Bool) : Int → List α → List (List α)
  | _, [] => []
  | d, line :: rest =>
    (if d = 0 ∧ opens line = true then [takeBlock net 0 (line :: rest)] else []) ++
      blocks opens (d + net line) rest

variable {net}

theorem take_append_drop (d : Int) (lines : List α) :
    takeBlock net d lines ++ dropBlock net d lines = lines := by
  induction lines generalizing d with
  | nil => rfl
  | cons line rest ih =>
    simp only [takeBlock, dropBlock]
    split
    · rfl
    · rw [List.cons_append, ih]

section Weight
variable {weight : List α → Nat} {opens opens' : α → Bool}

/- Blocks do not overlap: what their lines weigh, the text weighs as well. -/
theorem blocks_weight (super : ∀ a b, weight a + weight b ≤ weight (a ++ b)) (lines : List α) :
    (((blocks net opens 0 lines).map weight).sum ≤ weight lines) ∧
    ∀ d, d ≠ 0 → ((blocks net opens d lines).map weight).sum ≤ weight (dropBlock net d lines) := by
  induction lines with
  | nil => exact ⟨Nat.zero_le _, fun _ _ => Nat.zero_le _⟩
  | cons line rest ih =>
    have later : ∀ d, ((blocks net opens (d + net line) rest).map weight).sum ≤
        weight (dropBlock net d (line :: rest)) := by
      intro d
      rw [dropBlock]
      split
      · rename_i closed
        rw [closed]
        exact ih.1
      · rename_i inside
        exact ih.2 _ inside
    constructor
    · have whole := super (takeBlock net 0 (line :: rest)) (dropBlock net 0 (line :: rest))
      rw [take_append_drop] at whole
      have := later 0
      rw [blocks, List.map_append, List.sum_append]
      split
      · simp only [List.map_cons, List.map_nil, List.sum_cons, List.sum_nil]
        omega
      · simp only [List.map_nil, List.sum_nil]
        omega
    · intro d inside
      rw [blocks, if_neg fun h => inside h.1, List.nil_append]
      exact later d

theorem blocks_or (apart : ∀ line, ¬ (opens line = true ∧ opens' line = true)) (d : Int)
    (lines : List α) : ((blocks net (fun line => opens line || opens' line) d lines).map weight).sum =
      ((blocks net opens d lines).map weight).sum + ((blocks net opens' d lines).map weight).sum := by
  induction lines generalizing d with
  | nil => rfl
  | cons line rest ih =>
    have never := apart line
    rw [blocks, blocks, blocks]
    simp only [List.map_append, List.sum_append, ih]
    by_cases level : d = 0
    · cases first : opens line <;> cases second : opens' line <;>
        simp_all <;> omega
    · simp [level]

end Weight

theorem depth_append (a b : List α) : depth net (a ++ b) = depth net a + depth net b := by
  simp [depth]

end BraceBlocks
