import Mathlib.Data.List.DropRight

/- The parts of Python's bytes that the development needs. -/
namespace PyBytes

/-- The bytes that strip without an argument removes. -/
def isSpace (byte : UInt8) : Bool :=
  byte == 0x09 || byte == 0x0a || byte == 0x0b || byte == 0x0c || byte == 0x0d || byte == 0x20

def lstrip (bytes : List UInt8) : List UInt8 := bytes.dropWhile isSpace

def rstrip (bytes : List UInt8) : List UInt8 := bytes.rdropWhile isSpace

def strip (bytes : List UInt8) : List UInt8 := rstrip (lstrip bytes)

/-- `sep.join(parts)` for a separator of one byte. -/
def join (separator : UInt8) : List (List UInt8) → List UInt8
  | [] => []
  | [part] => part
  | part :: next :: rest => part ++ separator :: join separator (next :: rest)

/-- `bytes.split(sep)` for a separator of one byte. -/
def split (separator : UInt8) : List UInt8 → List (List UInt8)
  | [] => [[]]
  | byte :: rest =>
    if byte = separator then [] :: split separator rest
    else match split separator rest with
      | [] => [[byte]]
      | part :: parts => (byte :: part) :: parts

/-- `bytes.replace(old, new)`: the occurrences from the left that do not overlap. -/
def replace (old new : List UInt8) : List UInt8 → List UInt8
  | [] => []
  | byte :: rest =>
    if old ≠ [] ∧ old <+: byte :: rest then
      new ++ replace old new ((byte :: rest).drop old.length)
    else byte :: replace old new rest
termination_by bytes => bytes.length
decreasing_by
  · rename_i found
    have positive := List.length_pos_of_ne_nil found.1
    simp only [List.length_drop, List.length_cons]
    omega
  · simp

theorem join_append {separator : UInt8} {parts : List (List UInt8)} (some : parts ≠ [])
    (part : List UInt8) : join separator (parts ++ [part]) =
      join separator parts ++ separator :: part := by
  induction parts with
  | nil => exact absurd rfl some
  | cons first rest ih =>
    cases rest with
    | nil => rfl
    | cons next rest =>
      have inner := ih (List.cons_ne_nil _ _)
      rw [List.cons_append] at inner
      rw [List.cons_append, List.cons_append, join, inner, join, List.append_assoc,
        List.cons_append]

theorem split_clean {separator : UInt8} {part : List UInt8} (clean : separator ∉ part) :
    split separator part = [part] := by
  induction part with
  | nil => rfl
  | cons byte rest ih =>
    rw [List.mem_cons, not_or] at clean
    rw [split, if_neg (Ne.symm clean.1), ih clean.2]

theorem split_separator {separator : UInt8} {part : List UInt8} (clean : separator ∉ part)
    (rest : List UInt8) : split separator (part ++ separator :: rest) =
      part :: split separator rest := by
  induction part with
  | nil => rw [List.nil_append, split, if_pos rfl]
  | cons byte more ih =>
    rw [List.mem_cons, not_or] at clean
    rw [List.cons_append, split, if_neg (Ne.symm clean.1), ih clean.2]

/- A part that has no separator is the beginning of the first line. -/
theorem split_first {separator : UInt8} {part : List UInt8} (clean : separator ∉ part)
    (rest : List UInt8) : ∃ more lines, split separator (part ++ rest) = (part ++ more) :: lines := by
  induction part with
  | nil =>
    cases lines : split separator rest with
    | nil =>
      cases rest with
      | nil => cases lines
      | cons byte rest =>
        rw [split] at lines
        split at lines
        · cases lines
        · split at lines <;> cases lines
    | cons first others => exact ⟨first, others, lines⟩
  | cons byte more ih =>
    rw [List.mem_cons, not_or] at clean
    obtain ⟨tail, lines, found⟩ := ih clean.2
    exact ⟨tail, lines, by rw [List.cons_append, split, if_neg (Ne.symm clean.1), found]; rfl⟩

theorem replace_one (old new : UInt8) (bytes : List UInt8) :
    replace [old] [new] bytes = bytes.map fun byte => if byte = old then new else byte := by
  induction bytes with
  | nil => rw [replace, List.map_nil]
  | cons byte rest ih =>
    rw [replace, List.map_cons]
    by_cases hit : byte = old
    · rw [if_pos ⟨by simp, by simp [hit]⟩, if_pos hit]
      simpa using ih
    · have miss : ¬ ([old] ≠ [] ∧ [old] <+: byte :: rest) := by
        simp only [List.cons_prefix_cons, List.nil_prefix, and_true, not_and]
        exact fun _ same => hit same.symm
      rw [if_neg miss, if_neg hit, ih]

theorem replace_hit {a b : UInt8} {new rest : List UInt8} :
    replace [a, b] new (a :: b :: rest) = new ++ replace [a, b] new rest := by
  rw [replace, if_pos ⟨by simp, by simp⟩]
  simp

theorem replace_miss {a b c : UInt8} {new rest : List UInt8}
    (miss : c ≠ a ∨ rest.head? ≠ some b) :
    replace [a, b] new (c :: rest) = c :: replace [a, b] new rest := by
  rw [replace, if_neg]
  rintro ⟨-, found⟩
  rw [List.cons_prefix_cons] at found
  rcases miss with other | other
  · exact other found.1.symm
  · refine other ?_
    obtain ⟨tail, rfl⟩ := found.2
    rfl

example : replace [0x0d, 0x0a] [0x0a] [0x61, 0x0d, 0x0d, 0x0a, 0x62] = [0x61, 0x0d, 0x0a, 0x62] := by
  simp [replace]

end PyBytes
