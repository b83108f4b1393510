import NoiContest.ClosedFrontend.Insertion

/- The hardened text splits into the lines that it was put together from, except where an opening
   line had no line break, which the check then refuses. -/
namespace NoiContest.ClosedFrontend
open PyText TextLines BraceBlocks

variable {targets : List Text} {target : Text} {line : Line} {lines rest : List Line}

theorem Proper.tail_filled (proper : Proper (line :: rest)) : line ≠ [] := by
  cases proper with
  | last filled _ => exact filled
  | cons complete _ _ => exact complete.ne_nil

theorem Proper.uncons (proper : Proper (line :: rest)) (more : rest ≠ []) :
    Complete line ∧ Apart line rest.flatten ∧ Proper rest := by
  cases proper with
  | last => exact absurd rfl more
  | cons complete apart proper => exact ⟨complete, apart, proper⟩

theorem Proper.last_filled {init : List Line} (proper : Proper (init ++ [line])) : line ≠ [] := by
  induction init with
  | nil => exact Proper.tail_filled proper
  | cons first init ih => exact ih (Proper.uncons proper (by simp)).2.2

theorem head_append {text more : Text} (filled : text ≠ []) :
    (text ++ more).head? = text.head? := by
  obtain ⟨c, rest, rfl⟩ := List.exists_cons_of_ne_nil filled
  rfl

theorem insertRules_head (proper : Proper rest) (filled : rest ≠ []) (d : Int) (t : Text) :
    ((insertRules targets d rest).flatten ++ t).head? = rest.flatten.head? := by
  obtain ⟨line, rest, rfl⟩ := List.exists_cons_of_ne_nil filled
  have visible := Proper.tail_filled proper
  rw [insertRules, List.cons_append, List.flatten_cons, List.flatten_cons, List.append_assoc,
    head_append visible, head_append visible]

theorem proper_newlined (newlined : ∀ line ∈ lines, Newlined line) (proper : Proper rest) :
    Proper (lines ++ rest) := by
  induction lines with
  | nil => exact proper
  | cons line lines ih =>
    have first := newlined line List.mem_cons_self
    exact .cons first.complete (first.apart _)
      (ih fun l mem => newlined l (List.mem_cons_of_mem _ mem))

theorem apart_rule (plain : ∀ c ∈ line.takeWhile isSpace, isBreak c = false) (more : Text) :
    Apart line ((ruleLines line).flatten ++ more) := by
  rintro ⟨-, head⟩
  have filled : indentOf line ≠ [] := by simp [indentOf]
  obtain ⟨c, indent, eq⟩ := List.exists_cons_of_ne_nil filled
  have own : isBreak c = false := indent_plain plain c (by rw [eq]; exact List.mem_cons_self)
  rw [ruleLines_eq, eq] at head
  obtain rfl : c = '\n' := by simpa using head
  exact absurd own (by decide)

theorem depth_rule (line : Line) : depth net (ruleLines line) = 0 := by
  rw [depth, net_rule]
  rfl

/- An opening line without a line break, which can only be the last one, runs into the marker. -/
structure Merged (targets : List Text) (d : Int) (lines : List Line) : Prop where
  text : ∃ before target line, target ∈ targets ∧ opens target line = true ∧
    d + depth net before = 0 ∧ ∀ t, ∃ more,
      splitlines ((insertRules targets d lines).flatten ++ t) =
        before ++ (line ++ (indentOf line ++ marker ++ ['\n'])) :: more

theorem merged_last (mem : target ∈ targets) (opening : opens target line = true)
    (plain : ∀ c ∈ line, isBreak c = false)
    (eq : insertRules targets 0 [line] = line :: ruleLines line) : Merged targets 0 [line] := by
  refine ⟨[], target, line, mem, opening, rfl, fun t => ?_⟩
  rw [eq, ruleLines_eq]
  simp only [List.flatten_cons, List.append_assoc]
  have body : ∀ c ∈ line ++ (indentOf line ++ marker), isBreak c = false := by
    intro c mem
    rcases List.mem_append.mp mem with own | mem
    · exact plain c own
    rcases List.mem_append.mp mem with indent | mark
    · exact indent_plain (fun c mem => plain c (List.takeWhile_subset _ mem)) c indent
    · exact unbroken_of_any (show marker.any isBreak = false by decide) c mark
  have newlined : Newlined (line ++ (indentOf line ++ (marker ++ ['\n']))) :=
    ⟨_, by simp only [List.append_assoc], body⟩
  have split : ∀ more, splitlines (line ++ (indentOf line ++ (marker ++ (['\n'] ++ more)))) =
      (line ++ (indentOf line ++ (marker ++ ['\n']))) :: splitlines more := by
    intro more
    simpa only [List.append_assoc] using
      splitlines_append newlined.complete (newlined.apart more)
  rw [split]
  exact ⟨_, rfl⟩

theorem split_insert (sites : Sites targets) (proper : Proper lines) (d : Int) :
    Proper (insertRules targets d lines) ∨ Merged targets d lines := by
  induction proper generalizing d with
  | nil => exact .inl .nil
  | @last line filled plain =>
    have alone : Proper [line] := .last filled plain
    by_cases level : d = 0
    · subst level
      have eq : insertRules targets 0 [line] = line :: insertions targets line [] := by
        simp [insertRules]
      rcases insertions_cases sites line [] with ⟨target, mem, opening, ins⟩ | ⟨-, none⟩
      · rw [ins] at eq
        split at eq
        · exact .inr (merged_last mem opening plain eq)
        · rw [eq]
          exact .inl alone
      · rw [eq, none]
        exact .inl alone
    · rw [insertRules, if_neg level]
      exact .inl alone
  | @cons line rest complete apart proper ih =>
    -- The inserted lines, if any, behind a line that is complete.
    obtain ⟨ins, eq, newlined, flat, before⟩ : ∃ ins,
        insertRules targets d (line :: rest) =
          line :: (ins ++ insertRules targets (d + net line) rest) ∧
        (∀ l ∈ ins, Newlined l) ∧ depth net ins = 0 ∧
        ∀ t, (ins = [] ∨ Apart line (ins.flatten ++ t)) := by
      by_cases level : d = 0
      · subst level
        refine ⟨insertions targets line rest, by rw [insertRules, if_pos rfl]; rfl, ?_⟩
        rcases insertions_cases sites line rest with ⟨target, mem, opening, ins⟩ | ⟨-, none⟩
        · have plain := takeWhile_plain complete (opens_visible opening)
          rw [ins]
          split
          · exact ⟨ruleLines_newlined plain, depth_rule line, fun t => .inr (apart_rule plain t)⟩
          · exact ⟨by simp, rfl, fun _ => .inl rfl⟩
        · rw [none]
          exact ⟨by simp, rfl, fun _ => .inl rfl⟩
      · exact ⟨[], by rw [insertRules, if_neg level]; rfl, by simp, rfl, fun _ => .inl rfl⟩
    have cut : ∀ t, (rest = [] → t = []) →
        Apart line (ins.flatten ++ ((insertRules targets (d + net line) rest).flatten ++ t)) := by
      intro t last
      rcases before ((insertRules targets (d + net line) rest).flatten ++ t) with rfl | own
      · by_cases empty : rest = []
        · rw [empty, last empty]
          rintro ⟨-, head⟩
          cases head
        · rintro ⟨end_, head⟩
          rw [List.flatten_nil, List.nil_append, insertRules_head proper empty] at head
          exact apart ⟨end_, head⟩
      · exact own
    rw [eq]
    rcases ih (d + net line) with fine | ⟨X, target, last, mem, opening, level, split⟩
    · refine .inl (.cons complete ?_ (proper_newlined newlined fine))
      have := cut [] fun _ => rfl
      rwa [List.append_nil, ← List.flatten_append] at this
    · refine .inr ⟨line :: (ins ++ X), target, last, mem, opening, ?_, fun t => ?_⟩
      · have parts : depth net (line :: (ins ++ X)) = net line + depth net X := by
          have : depth net (ins ++ X) = depth net ins + depth net X := depth_append ins X
          simp only [depth, List.map_cons, List.sum_cons] at this flat ⊢
          omega
        omega
      · have filled : rest ≠ [] := by
          rintro rfl
          obtain ⟨more, none⟩ := split []
          simp [insertRules, splitlines] at none
        obtain ⟨more, later⟩ := split t
        refine ⟨more, ?_⟩
        rw [eq, List.flatten_cons, List.flatten_append, List.append_assoc, List.append_assoc,
          splitlines_append complete (cut t fun empty => absurd empty filled),
          splitlines_newlined newlined, later]
        simp

section Ending
variable {init : List Line} {last : Line}

theorem splitlines_init (proper : Proper (init ++ [last])) (t : Text) :
    splitlines (init.flatten ++ (last ++ t)) = init ++ splitlines (last ++ t) := by
  induction init with
  | nil => rfl
  | cons line init ih =>
    obtain ⟨complete, apart, proper⟩ := Proper.uncons proper (by simp)
    have visible := Proper.last_filled proper
    have apart : Apart line (init.flatten ++ (last ++ t)) := by
      rintro ⟨end_, head⟩
      refine apart ⟨end_, ?_⟩
      rw [← List.append_assoc, head_append (by simp [visible])] at head
      simpa using head
    rw [List.flatten_cons, List.append_assoc, splitlines_append complete apart, ih proper]
    rfl

theorem endLast_concat : endLast (init ++ [last]) =
    init ++ [if endsWithNewline last then last else last ++ ['\n']] := by
  induction init with
  | nil => rfl
  | cons line init ih =>
    obtain ⟨next, more, eq⟩ := List.exists_cons_of_ne_nil (show init ++ [last] ≠ [] by simp)
    rw [List.cons_append, eq, endLast, ← eq, ih]
    · rfl
    · simp

theorem Proper.last_proper (proper : Proper (init ++ [last])) : Proper [last] := by
  induction init with
  | nil => exact proper
  | cons first init ih => exact ih (Proper.uncons proper (by simp)).2.2

theorem splitlines_two {text : Text} (plain : ∀ c ∈ text, isBreak c = false) :
    splitlines ('\n' :: (text ++ ['\n'])) = [['\n'], text ++ ['\n']] := by
  have newlined : ∀ line ∈ [['\n'], text ++ ['\n']], Newlined line := by
    intro line mem
    simp only [List.mem_cons, List.not_mem_nil, or_false] at mem
    rcases mem with rfl | rfl
    · exact ⟨[], rfl, by simp⟩
    · exact ⟨text, rfl, plain⟩
  simpa [splitlines] using splitlines_newlined newlined []

/- What is left of a last line and the text behind it, by how the line ends. -/
theorem split_last (proper : Proper [last]) {text : Text} (plain : ∀ c ∈ text, isBreak c = false) :
    ∃ gap after,
      splitlines ((if endsWithNewline last then last else last ++ ['\n']) ++
        '\n' :: (text ++ ['\n'])) = (last ++ gap) :: after ∧ (gap = [] ∨ gap = ['\n']) ∧
      (after = [['\n'], text ++ ['\n']] ∨ after = [['\n'], ['\n'], text ++ ['\n']]) := by
  have two := splitlines_two plain
  have closed : ∀ line : Line, Complete line → line.getLast? ≠ some '\r' →
      splitlines (line ++ '\n' :: (text ++ ['\n'])) = [line, ['\n'], text ++ ['\n']] := by
    intro line complete other
    rw [splitlines_append complete fun apart => other apart.1, two]
  have opened : ∀ {line : Line}, (∀ c ∈ line, isBreak c = false) →
      endsWithNewline line = false := by
    intro line plain
    rw [endsWithNewline, beq_eq_false_iff_ne]
    intro ends
    exact absurd (plain _ (List.mem_of_getLast? ends)) (by decide)
  cases proper with
  | last _ open_ =>
    rw [opened open_]
    exact ⟨['\n'], _, closed _ ⟨last, ['\n'], rfl, open_, .inr ⟨'\n', by decide, rfl⟩⟩ (by simp),
      .inr rfl, .inl rfl⟩
  | cons complete _ _ =>
    have own := complete
    obtain ⟨body, ending, rfl, inner, rfl | ⟨c, brk, rfl⟩⟩ := complete
    · have ends : endsWithNewline (body ++ ['\r', '\n']) = true := by simp [endsWithNewline]
      rw [ends]
      exact ⟨[], _, by simpa using closed _ own (by simp), .inl rfl, .inl rfl⟩
    · by_cases newline : c = '\n'
      · subst newline
        have ends : endsWithNewline (body ++ ['\n']) = true := by simp [endsWithNewline]
        rw [ends]
        exact ⟨[], _, by simpa using closed _ own (by simp), .inl rfl, .inl rfl⟩
      have ends : endsWithNewline (body ++ [c]) = false := by simp [endsWithNewline, newline]
      rw [ends]
      by_cases carriage : c = '\r'
      · subst carriage
        have joined : Complete (body ++ ['\r'] ++ ['\n']) :=
          ⟨body, ['\r', '\n'], by simp, inner, .inl rfl⟩
        exact ⟨['\n'], _, closed _ joined (by simp), .inr rfl, .inl rfl⟩
      · have three : splitlines (body ++ [c] ++ ['\n'] ++ '\n' :: (text ++ ['\n'])) =
            [body ++ [c], ['\n'], ['\n'], text ++ ['\n']] := by
          rw [List.append_assoc (body ++ [c]), splitlines_append own fun apart => carriage
            (by simpa using apart.1)]
          have newline : Newlined ['\n'] := ⟨[], rfl, by simp⟩
          rw [splitlines_append newline.complete (newline.apart _), two]
        exact ⟨[], _, by simpa using three, .inl rfl, .inr rfl⟩

/- The last line may get a newline, and two or three lines follow. -/
theorem split_ending (proper : Proper (init ++ [last])) {text : Text}
    (plain : ∀ c ∈ text, isBreak c = false) : ∃ gap after,
      splitlines (endLast (init ++ [last]) ++ [['\n'], text ++ ['\n']]).flatten =
        init ++ (last ++ gap) :: after ∧ (gap = [] ∨ gap = ['\n']) ∧
      (after = [['\n'], text ++ ['\n']] ∨ after = [['\n'], ['\n'], text ++ ['\n']]) := by
  obtain ⟨gap, after, split, gaps, afters⟩ := split_last (Proper.last_proper proper) plain
  refine ⟨gap, after, ?_, gaps, afters⟩
  have whole := splitlines_init proper
    ((if endsWithNewline last then [] else ['\n']) ++ '\n' :: (text ++ ['\n']))
  have same : last ++ ((if endsWithNewline last then [] else ['\n']) ++ '\n' :: (text ++ ['\n'])) =
      (if endsWithNewline last then last else last ++ ['\n']) ++ '\n' :: (text ++ ['\n']) := by
    split <;> simp
  rw [same, split] at whole
  rw [endLast_concat, ← whole]
  simp

end Ending

end NoiContest.ClosedFrontend
