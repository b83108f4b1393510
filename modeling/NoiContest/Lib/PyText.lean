import Mathlib.Data.List.TakeWhile

/- The parts of Python's string library that the development needs. -/
namespace PyText

/-- The code points that str.isspace accepts. -/
def isSpace (c : Char) : Bool :=
  let n := c.toNat
  (9 ≤ n && n ≤ 13) || (28 ≤ n && n ≤ 32) || n == 0x85 || n == 0xa0 || n == 0x1680 ||
    (0x2000 ≤ n && n ≤ 0x200a) || n == 0x2028 || n == 0x2029 || n == 0x202f || n == 0x205f ||
    n == 0x3000

def strip (s : String) : String :=
  String.ofList (((s.toList.dropWhile isSpace).reverse.dropWhile isSpace).reverse)

/-- `str.split()` without a separator. -/
def words (s : String) : List String :=
  ((s.toList.splitOnP isSpace).filter (· ≠ [])).map String.ofList

/-- The format specification `03d`. -/
def threeDigits (n : Nat) : String :=
  (if n < 10 then "00" else if n < 100 then "0" else "") ++ toString n

def isLowerHex (c : Char) : Bool := ('0' ≤ c && c ≤ '9') || ('a' ≤ c && c ≤ 'f')

def isHex (c : Char) : Bool := isLowerHex c || ('A' ≤ c && c ≤ 'F')

/- A full match of [0-9a-f] or [0-9a-fA-F] repeated exactly n times. -/
def isLowerHexOf (n : Nat) (s : String) : Bool := s.length == n && s.toList.all isLowerHex

def isHexOf (n : Nat) (s : String) : Bool := s.length == n && s.toList.all isHex

/-- A lower-case ASCII letter of a pattern against a character under re.IGNORECASE. -/
def sameLetter (letter c : Char) : Bool :=
  c == letter || c.toLower == letter || (letter == 'i' && (c.toNat == 0x130 || c.toNat == 0x131)) ||
    (letter == 's' && c.toNat == 0x17f) || (letter == 'k' && c.toNat == 0x212a)

/-- The text continues with the lower-case word under re.IGNORECASE. -/
def dropWord? (word cs : List Char) : Option (List Char) :=
  if word.length ≤ cs.length ∧ ((word.zip cs).all fun pair => sameLetter pair.1 pair.2) = true then
    some (cs.drop word.length)
  else none

theorem isLowerHex_toLower {c : Char} (hex : isLowerHex c = true) : c.toLower = c := by
  have noUpper : ¬ (c.val ≥ 'A'.val ∧ c.val ≤ 'Z'.val) := by
    simp [isLowerHex, Char.le_def] at hex
    simp [UInt32.le_iff_toNat_le] at *
    omega
  exact dif_neg noUpper

theorem isLowerHex_of_hex {c : Char} (hex : isHex c = true) : isLowerHex c.toLower = true := by
  rw [isHex, Bool.or_eq_true] at hex
  rcases hex with lower | upper
  · rw [isLowerHex_toLower lower, lower]
  · obtain ⟨n, rfl⟩ : ∃ n : Fin 6, c = Char.ofNat (65 + n) := by
      simp only [Bool.and_eq_true, decide_eq_true_eq, Char.le_def, UInt32.le_iff_toNat_le] at upper
      refine ⟨⟨c.toNat - 65, ?_⟩, ?_⟩
      · have := upper.2
        simp at this
        omega
      · have := upper.1
        simp at this
        rw [Nat.add_sub_cancel' this, Char.ofNat_toNat]
    revert n
    decide

theorem lowerHex_toLower {n : Nat} {s : String} (hex : isLowerHexOf n s = true) :
    s.toLower = s := by
  simp only [isLowerHexOf, Bool.and_eq_true, List.all_eq_true] at hex
  refine String.toList_injective ?_
  have lower : s.toLower = s.map Char.toLower := rfl
  rw [lower, String.toList_map]
  exact (List.map_congr_left fun c mem => isLowerHex_toLower (hex.2 c mem)).trans (List.map_id _)

def clip (n : Nat) (s : String) : String := String.ofList (s.toList.take n)

example : strip " \t a b\n" = "a b" := by decide +kernel

theorem strip_ne_empty {s : String} {c : Char} (mem : c ∈ s.toList) (visible : isSpace c = false) :
    strip s ≠ "" := by
  intro empty
  have cleared : ((s.toList.dropWhile isSpace).reverse.dropWhile isSpace) = [] := by
    simpa [strip] using empty
  rw [List.dropWhile_eq_nil_iff] at cleared
  have kept : c ∈ s.toList.dropWhile isSpace := by
    rw [← List.takeWhile_append_dropWhile (p := isSpace) (l := s.toList)] at mem
    rcases List.mem_append.mp mem with dropped | kept
    · have space := List.mem_takeWhile_imp dropped
      rw [visible] at space
      cases space
    · exact kept
  have space := cleared c (List.mem_reverse.mpr kept)
  rw [visible] at space
  cases space

theorem dropWhile_head {p : Char → Bool} {l : List Char} (head : ∀ c ∈ l.head?, p c = false) :
    l.dropWhile p = l := by
  cases l with
  | nil => rfl
  | cons c rest =>
    rw [List.dropWhile_cons_of_neg]
    simp [head c rfl]

/- A text that neither starts nor ends with a space. -/
theorem strip_trimmed {s : String} (first : ∀ c ∈ s.toList.head?, isSpace c = false)
    (last : ∀ c ∈ s.toList.getLast?, isSpace c = false) : strip s = s := by
  rw [strip, dropWhile_head first, dropWhile_head, List.reverse_reverse, String.ofList_toList]
  rwa [List.head?_reverse]

theorem splitOnP_parts {p : Char → Bool} {l part : List Char} (mem : part ∈ l.splitOnP p) :
    ∀ c ∈ part, p c = false := by
  induction l generalizing part with
  | nil =>
    rw [List.splitOnP_nil, List.mem_singleton] at mem
    simp [mem]
  | cons x rest ih =>
    rw [List.splitOnP_cons_eq_if_modifyHead] at mem
    by_cases separates : p x = true
    · rw [if_pos separates] at mem
      rcases List.mem_cons.mp mem with rfl | later
      · simp
      · exact ih later
    · rw [if_neg separates] at mem
      cases split : rest.splitOnP p with
      | nil => simp [split] at mem
      | cons head tail =>
        rw [split, List.modifyHead_cons] at mem
        rcases List.mem_cons.mp mem with rfl | later
        · intro c memC
          rcases List.mem_cons.mp memC with rfl | old
          · simpa using separates
          · exact ih (split ▸ List.mem_cons_self) c old
        · exact ih (split ▸ List.mem_cons_of_mem _ later)

theorem strip_word {s word : String} (mem : word ∈ words s) : word ≠ "" ∧ strip word = word := by
  obtain ⟨part, memPart, rfl⟩ := List.mem_map.mp mem
  obtain ⟨memPart, filled⟩ := List.mem_filter.mp memPart
  have visible := splitOnP_parts memPart
  refine ⟨by simpa using filled, strip_trimmed ?_ ?_⟩
  · intro c first
    rw [String.toList_ofList] at first
    exact visible c (List.mem_of_mem_head? first)
  · intro c last
    rw [String.toList_ofList] at last
    exact visible c (List.mem_of_mem_getLast? last)

theorem strip_last (s : String) : ∀ c ∈ (strip s).toList.getLast?, isSpace c = false := by
  intro c last
  rw [strip, String.toList_ofList, List.getLast?_reverse] at last
  have visible := List.head?_dropWhile_not isSpace (s.toList.dropWhile isSpace).reverse
  rw [last] at visible
  simpa using visible

theorem append_last {s t : String} (filled : t ≠ "")
    (visible : ∀ c ∈ t.toList.getLast?, isSpace c = false) :
    ∀ c ∈ (s ++ t).toList.getLast?, isSpace c = false := by
  intro c last
  have rest : t.toList ≠ [] := by simpa using filled
  rw [String.toList_append, List.getLast?_append, List.getLast?_eq_some_getLast rest] at last
  exact visible c (by rwa [List.getLast?_eq_some_getLast rest])

theorem isSpace_digit {c : Char} (digit : c.isDigit = true) : isSpace c = false := by
  simp only [Char.isDigit, Bool.and_eq_true, decide_eq_true_eq, ge_iff_le] at digit
  have low : 48 ≤ c.toNat := digit.1
  have high : c.toNat ≤ 57 := digit.2
  simp only [isSpace]
  simp
  omega

theorem decimal_injective {m n : Nat} (same : toString m = toString n) : m = n := by
  have digits := congrArg String.toList same
  simp only [Nat.toString_eq_repr, Nat.toList_repr] at digits
  rw [← Nat.ofDigitChars_ten_toDigits (n := m), digits, Nat.ofDigitChars_ten_toDigits]

theorem decimal_last (n : Nat) : ∀ c ∈ (toString n).toList.getLast?, isSpace c = false := by
  intro c last
  have mem := List.mem_of_mem_getLast? last
  simp only [Nat.toString_eq_repr, Nat.toList_repr] at mem
  exact isSpace_digit (Nat.isDigit_of_mem_toDigits (by decide) (by decide) mem)

end PyText
