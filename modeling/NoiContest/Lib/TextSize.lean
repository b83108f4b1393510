import Mathlib.Algebra.BigOperators.Group.List.Basic
import Mathlib.Algebra.Group.Nat.Defs
import Mathlib.Algebra.Ring.Nat
import NoiContest.Lib.JsonParse

/- How long texts are in UTF-8 and in UTF-16, and how long JSON texts get. -/
namespace TextSize
open JsonText

def utf8Size (cs : List Char) : Nat := (cs.map Char.utf8Size).sum

/- The UTF-16 units of a character. -/
def units (c : Char) : Nat := if c.toNat < 0x10000 then 1 else 2

def utf16Length (s : String) : Nat := (s.toList.map units).sum

@[simp] theorem utf8Size_nil : utf8Size [] = 0 := rfl

@[simp] theorem utf8Size_cons (c : Char) (rest : List Char) :
    utf8Size (c :: rest) = c.utf8Size + utf8Size rest := by
  simp [utf8Size]

@[simp] theorem utf8Size_append (cs rest : List Char) :
    utf8Size (cs ++ rest) = utf8Size cs + utf8Size rest := by
  simp [utf8Size]

theorem utf8Encode_size (cs : List Char) : cs.utf8Encode.size = utf8Size cs := by
  induction cs with
  | nil => simp
  | cons c rest ih =>
    rw [List.utf8Encode_cons, ByteArray.size_append, ih, List.utf8Encode_singleton,
      List.size_toByteArray, String.length_utf8EncodeChar, utf8Size_cons]

theorem utf8ByteSize_eq (s : String) : s.utf8ByteSize = utf8Size s.toList := by
  rw [← String.size_toByteArray, ← String.utf8Encode_toList, utf8Encode_size]

theorem units_pos (c : Char) : 1 ≤ units c := by
  unfold units
  split <;> omega

theorem units_le (c : Char) : units c ≤ 2 := by
  unfold units
  split <;> omega

theorem length_units (s : String) : s.length ≤ utf16Length s := by
  have each : ∀ cs : List Char, cs.length ≤ (cs.map units).sum := by
    intro cs
    induction cs with
    | nil => simp
    | cons c rest ih =>
      have := units_pos c
      simp only [List.length_cons, List.map_cons, List.sum_cons]
      omega
  rw [← String.length_toList]
  exact each s.toList

theorem utf8Size_units (c : Char) : c.utf8Size ≤ 3 * units c := by
  have most := Char.utf8Size_le_four c
  unfold units
  by_cases small : c.toNat < 0x10000
  · have range : c.val ≤ 0xFFFF := by
      rw [UInt32.le_iff_toNat_le]
      exact Nat.le_of_lt_succ small
    rw [if_pos small]
    simp only [Char.utf8Size]
    split_ifs <;> first | omega | exact absurd range ‹_›
  · rw [if_neg small]
    omega

theorem hexDigit_utf8Size : ∀ n < 16, (hexDigit n).utf8Size = 1 := by decide

theorem escapeChar_size (c : Char) : utf8Size (escapeChar c) ≤ 6 * units c := by
  have one := units_pos c
  have slash : '\\'.utf8Size = 1 := by decide
  have u : 'u'.utf8Size = 1 := by decide
  have zero : '0'.utf8Size = 1 := by decide
  have marks : ∀ d ∈ ['"', '\\', 'n', 'r', 't', 'b', 'f'], d.utf8Size = 1 := by
    simp only [List.forall_mem_cons, List.not_mem_nil, false_implies, implies_true, and_true]
    decide
  have written := escapeChar_written c
  generalize escapeChar c = text at written ⊢
  cases written with
  | short known =>
    simp only [utf8Size_cons, utf8Size_nil, slash, marks _ known]
    omega
  | code high low =>
    simp only [utf8Size_cons, utf8Size_nil, slash, u, zero, hexDigit_utf8Size _ high,
      hexDigit_utf8Size _ low]
    omega
  | plain =>
    have raw := utf8Size_units c
    simp only [utf8Size_cons, utf8Size_nil]
    omega

theorem quote_size (s : String) : utf8Size (quote s).toList ≤ 2 + 6 * utf16Length s := by
  have mark : '"'.utf8Size = 1 := by decide
  rw [quote_toList, utf8Size_cons, utf8Size_append, utf8Size_cons, utf8Size_nil, mark]
  have body : ∀ cs : List Char, utf8Size (cs.flatMap escapeChar) ≤ 6 * (cs.map units).sum := by
    intro cs
    induction cs with
    | nil => simp
    | cons c rest ih =>
      have first := escapeChar_size c
      rw [List.flatMap_cons, utf8Size_append, List.map_cons, List.sum_cons]
      omega
  have := body s.toList
  unfold utf16Length
  omega

theorem quote_size_ge (s : String) : 2 ≤ utf8Size (quote s).toList := by
  have mark : '"'.utf8Size = 1 := by decide
  rw [quote_toList, utf8Size_cons, utf8Size_append, utf8Size_cons, utf8Size_nil, mark]
  omega

theorem intercalate_size (texts : List (List Char)) :
    (texts.map utf8Size).sum ≤ utf8Size ([','].intercalate texts) ∧
      utf8Size ([','].intercalate texts) ≤ (texts.map fun text => utf8Size text + 1).sum := by
  have comma : ','.utf8Size = 1 := by decide
  induction texts with
  | nil => simp
  | cons text rest ih =>
    cases rest with
    | nil => simp
    | cons next others =>
      rw [List.intercalate_cons_cons, utf8Size_append, utf8Size_append, utf8Size_cons,
        utf8Size_nil, comma]
      simp only [List.map_cons, List.sum_cons] at ih ⊢
      omega

/- The size of a text of an object, from the sizes of its fields. -/
theorem dumps_size (fields : List (String × Json)) :
    (fields.map fun field => utf8Size (fieldText field)).sum ≤
        utf8Size (dumps (.obj fields)).toList ∧
      utf8Size (dumps (.obj fields)).toList ≤
        2 + (fields.map fun field => utf8Size (fieldText field) + 1).sum := by
  have marks : '\x7b'.utf8Size = 1 ∧ '\x7d'.utf8Size = 1 := by decide
  obtain ⟨lower, upper⟩ := intercalate_size ((sorted fields).map fieldText)
  have perm : (sorted fields).Perm fields := List.perm_insertionSort _ fields
  have sum := (perm.map fun field => utf8Size (fieldText field)).sum_eq
  have sum' := (perm.map fun field => utf8Size (fieldText field) + 1).sum_eq
  simp only [List.map_map, Function.comp_def] at lower upper
  rw [dumps_obj, utf8Size_cons, utf8Size_append, utf8Size_cons, utf8Size_nil, marks.1, marks.2]
  omega

theorem field_size {name : String} {value : Json} {n k : Nat} (short : utf16Length name ≤ n)
    (small : utf8Size (dumps value).toList ≤ k) :
    utf8Size (fieldText (name, value)) ≤ 3 + 6 * n + k := by
  have colon : ':'.utf8Size = 1 := by decide
  have text := quote_size name
  rw [fieldText, utf8Size_append, utf8Size_cons, colon]
  simp only
  omega

theorem field_size_ge (field : String × Json) : 3 ≤ utf8Size (fieldText field) := by
  have colon : ':'.utf8Size = 1 := by decide
  have text := quote_size_ge field.1
  rw [fieldText, utf8Size_append, utf8Size_cons, colon]
  omega

theorem str_size (s : String) : utf8Size (dumps (.str s)).toList ≤ 2 + 6 * utf16Length s :=
  quote_size s

theorem utf8Size_le (cs : List Char) : utf8Size cs ≤ 4 * cs.length := by
  induction cs with
  | nil => simp
  | cons c rest ih =>
    have most := Char.utf8Size_le_four c
    rw [utf8Size_cons, List.length_cons]
    omega

theorem nat_size {n k : Nat} (positive : 0 < k) (small : n < 10 ^ k) :
    utf8Size (dumps (.int n)).toList ≤ 4 * k := by
  have digits : (toString n).toList.length ≤ k := by
    rw [Nat.toString_eq_repr, Nat.toList_repr]
    exact (Nat.length_toDigits_le_iff (by decide) positive).mpr small
  rw [dumps_int, if_pos (Int.natCast_nonneg n), Int.toNat_natCast]
  exact (utf8Size_le _).trans (Nat.mul_le_mul_left 4 digits)

theorem int_size {n : Int} {k : Nat} (positive : 0 < k) (small : n.natAbs < 10 ^ k) :
    utf8Size (dumps (.int n)).toList ≤ 1 + 4 * k := by
  have minus : '-'.utf8Size = 1 := by decide
  have digits := nat_size positive small
  rw [dumps_int, if_pos (Int.natCast_nonneg _), Int.toNat_natCast] at digits
  rw [dumps_int]
  split_ifs with sign
  · rw [show n.toNat = n.natAbs by omega]
    omega
  · rw [utf8Size_cons, minus, show (-n).toNat = n.natAbs by omega]
    omega

theorem utf16Length_le (s : String) : utf16Length s ≤ 2 * s.length := by
  have each : ∀ cs : List Char, (cs.map units).sum ≤ 2 * cs.length := by
    intro cs
    induction cs with
    | nil => simp
    | cons c rest ih =>
      have := units_le c
      simp only [List.length_cons, List.map_cons, List.sum_cons]
      omega
  rw [← String.length_toList]
  exact each s.toList

end TextSize
