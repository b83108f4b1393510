import Mathlib.Data.List.Basic

/- Lines of a text with their line breaks kept, as Python's splitlines cuts them. -/
namespace TextLines

/-- The characters that end a line; a carriage return takes a newline after it along. -/
def isBreak (c : Char) : Bool :=
  let n := c.toNat
  (10 ≤ n && n ≤ 13) || (28 ≤ n && n ≤ 30) || n == 0x85 || n == 0x2028 || n == 0x2029

abbrev Line := List Char

/-- `text.splitlines(keepends=True)` -/
def splitlines : List Char → List Line
  | [] => []
  | '\r' :: '\n' :: rest => ['\r', '\n'] :: splitlines rest
  | c :: rest =>
    if isBreak c then [c] :: splitlines rest
    else
      match splitlines rest with
      | [] => [[c]]
      | line :: lines => (c :: line) :: lines

theorem unbroken_of_any {text : List Char} (none : text.any isBreak = false) :
    ∀ c ∈ text, isBreak c = false := by
  intro c mem
  exact Bool.eq_false_iff.mpr (List.any_eq_false.mp none c mem)

theorem splitlines_plain {c : Char} (plain : isBreak c = false) (rest : List Char) :
    splitlines (c :: rest) =
      match splitlines rest with
      | [] => [[c]]
      | line :: lines => (c :: line) :: lines := by
  rw [splitlines]
  · simp [plain]
  · rintro rest' rfl
    simp [isBreak] at plain

theorem flatten_splitlines (text : List Char) : (splitlines text).flatten = text := by
  fun_induction splitlines text with
  | case1 => rfl
  | case2 rest ih => simp [ih]
  | case3 c rest _ brk ih => simp [ih]
  | case4 c rest _ plain none ih =>
    rw [none] at ih
    simp [← ih]
  | case5 c rest _ plain line lines found ih =>
    rw [found] at ih
    simp [← ih]

/-- A line with its line break. -/
def Complete (line : Line) : Prop :=
  ∃ body ending, line = body ++ ending ∧ (∀ c ∈ body, isBreak c = false) ∧
    (ending = ['\r', '\n'] ∨ ∃ c, isBreak c = true ∧ ending = [c])

/-- A line whose last character does not join the first one after it to one line break. -/
def Apart (line : Line) (rest : List Char) : Prop :=
  ¬ (line.getLast? = some '\r' ∧ rest.head? = some '\n')

theorem Complete.ne_nil {line : Line} (complete : Complete line) : line ≠ [] := by
  obtain ⟨body, ending, rfl, -, rfl | ⟨c, -, rfl⟩⟩ := complete <;> simp

/- A complete line is cut off. -/
theorem splitlines_append {line : Line} {rest : List Char} (complete : Complete line)
    (apart : Apart line rest) : splitlines (line ++ rest) = line :: splitlines rest := by
  obtain ⟨body, ending, rfl, plain, ends⟩ := complete
  induction body with
  | nil =>
    rcases ends with rfl | ⟨c, brk, rfl⟩
    · rfl
    · simp only [List.nil_append, List.cons_append]
      rw [splitlines]
      · simp [brk]
      · rintro rest' rfl rfl
        exact apart ⟨rfl, rfl⟩
  | cons c body ih =>
    have later : Apart (body ++ ending) rest := by
      rintro ⟨last, head⟩
      refine apart ⟨?_, head⟩
      rw [List.cons_append, List.getLast?_cons, last]
      rfl
    rw [List.cons_append, List.cons_append, splitlines_plain (plain c List.mem_cons_self),
      ih later fun d mem => plain d (List.mem_cons_of_mem _ mem)]

/-- A line that a newline ends. -/
def Newlined (line : Line) : Prop := ∃ body, line = body ++ ['\n'] ∧ ∀ c ∈ body, isBreak c = false

theorem Newlined.complete {line : Line} (newlined : Newlined line) : Complete line := by
  obtain ⟨body, rfl, plain⟩ := newlined
  exact ⟨body, ['\n'], rfl, plain, .inr ⟨'\n', by decide, rfl⟩⟩

theorem Newlined.apart {line : Line} (newlined : Newlined line) (rest : List Char) :
    Apart line rest := by
  obtain ⟨body, rfl, -⟩ := newlined
  rintro ⟨last, -⟩
  simp at last

theorem splitlines_newlined {lines : List Line} (newlined : ∀ line ∈ lines, Newlined line)
    (rest : List Char) : splitlines (lines.flatten ++ rest) = lines ++ splitlines rest := by
  induction lines with
  | nil => rfl
  | cons line lines ih =>
    have first := newlined line List.mem_cons_self
    rw [List.flatten_cons, List.append_assoc, splitlines_append first.complete (first.apart _),
      ih fun line mem => newlined line (List.mem_cons_of_mem _ mem), List.cons_append]

theorem splitlines_open {line : Line} (filled : line ≠ []) (plain : ∀ c ∈ line, isBreak c = false) :
    splitlines line = [line] := by
  induction line with
  | nil => exact absurd rfl filled
  | cons c rest ih =>
    rw [splitlines_plain (plain c List.mem_cons_self)]
    cases rest with
    | nil => rfl
    | cons d rest =>
      rw [ih (List.cons_ne_nil d rest) fun e mem => plain e (List.mem_cons_of_mem _ mem)]

/-- Lists of lines that splitlines gives. -/
inductive Proper : List Line → Prop
  | nil : Proper []
  | last {line : Line} (filled : line ≠ []) (plain : ∀ c ∈ line, isBreak c = false) : Proper [line]
  | cons {line : Line} {rest : List Line} (complete : Complete line)
      (apart : Apart line rest.flatten) (proper : Proper rest) : Proper (line :: rest)

theorem splitlines_flatten {lines : List Line} (proper : Proper lines) :
    splitlines lines.flatten = lines := by
  induction proper with
  | nil => rfl
  | last filled plain => simpa using splitlines_open filled plain
  | cons complete apart _ ih => rw [List.flatten_cons, splitlines_append complete apart, ih]

theorem proper_splitlines (text : List Char) : Proper (splitlines text) := by
  fun_induction splitlines text with
  | case1 => exact .nil
  | case2 rest ih =>
    refine .cons ⟨[], ['\r', '\n'], rfl, by simp, .inl rfl⟩ ?_ ih
    rintro ⟨last, -⟩
    simp at last
  | case3 c rest single brk ih =>
    refine .cons ⟨[], [c], rfl, by simp, .inr ⟨c, brk, rfl⟩⟩ ?_ ih
    rintro ⟨last, head⟩
    rw [flatten_splitlines] at head
    obtain rfl : c = '\r' := by simpa using last
    cases rest with
    | nil => simp at head
    | cons d rest =>
      obtain rfl : d = '\n' := by simpa using head
      exact single rest rfl rfl
  | case4 c rest _ plain none ih =>
    refine .last (List.cons_ne_nil _ _) fun d mem => ?_
    rw [List.mem_singleton.mp mem]
    exact Bool.eq_false_iff.mpr plain
  | case5 c rest _ plain line lines found ih =>
    have plain : isBreak c = false := Bool.eq_false_iff.mpr plain
    rw [found] at ih
    cases ih with
    | last filled plains =>
      refine .last (List.cons_ne_nil _ _) fun d mem => ?_
      rcases List.mem_cons.mp mem with rfl | later
      · exact plain
      · exact plains d later
    | cons complete apart proper =>
      obtain ⟨body, ending, rfl, plains, ends⟩ := complete
      refine .cons ⟨c :: body, ending, rfl, ?_, ends⟩ ?_ proper
      · intro d mem
        rcases List.mem_cons.mp mem with rfl | later
        · exact plain
        · exact plains d later
      · rintro ⟨last, head⟩
        refine apart ⟨?_, head⟩
        have filled : body ++ ending ≠ [] := by
          rcases ends with rfl | ⟨e, -, rfl⟩ <;> simp
        rwa [List.getLast?_cons_of_ne_nil filled] at last

end TextLines
