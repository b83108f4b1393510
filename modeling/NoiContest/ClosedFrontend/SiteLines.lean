import NoiContest.ClosedFrontend.Harden

/- The lines around the opening lines of the sites: what they contain, and how the text with the
   inserted rules splits into lines again. -/
namespace NoiContest.ClosedFrontend
open PyText TextLines BraceBlocks

theorem net_dropWhile (l : Text) : net (l.dropWhile isSpace) = net l := by
  induction l with
  | nil => rfl
  | cons c rest ih =>
    rw [List.dropWhile_cons]
    split
    · rename_i space
      have opening : c ≠ '\x7b' := by
        rintro rfl
        exact absurd space (by decide)
      have closing : c ≠ '\x7d' := by
        rintro rfl
        exact absurd space (by decide)
      rw [ih]
      simp [net, opening, closing]
    · rfl

theorem net_reverse (l : Text) : net l.reverse = net l := by simp [net]

theorem net_strip (l : Text) : net (strip l) = net l := by
  rw [strip, net_reverse, net_dropWhile, net_reverse, net_dropWhile]

theorem mem_strip {l : Text} {c : Char} (mem : c ∈ l) (visible : isSpace c = false) :
    c ∈ strip l := by
  have stays : ∀ l : Text, c ∈ l → c ∈ l.dropWhile isSpace := by
    intro l mem
    induction l with
    | nil => cases mem
    | cons d rest ih =>
      rw [List.dropWhile_cons]
      split
      · rename_i space
        rcases List.mem_cons.mp mem with rfl | later
        · rw [visible] at space
          cases space
        · exact ih later
      · exact mem
  rw [strip, List.mem_reverse]
  exact stays _ (List.mem_reverse.mpr (stays l mem))

theorem strip_space {l : Text} (all : ∀ c ∈ l, isSpace c = true) : strip l = [] := by
  rw [strip, List.dropWhile_eq_nil_iff.mpr all]
  rfl

/- White space around a text that has none at its ends. -/
theorem strip_frame {blank text after : Text} (spaces : ∀ c ∈ blank, isSpace c = true)
    (first : text.head?.any isSpace = false) (last : text.getLast?.any isSpace = false)
    (behind : ∀ c ∈ after, isSpace c = true) : strip (blank ++ text ++ after) = text := by
  have front : ∀ {blank text : Text}, (∀ c ∈ blank, isSpace c = true) →
      text.head?.any isSpace = false → (blank ++ text).dropWhile isSpace = text := by
    intro blank text spaces first
    rw [List.dropWhile_append, List.dropWhile_eq_nil_iff.mpr spaces]
    cases text with
    | nil => rfl
    | cons c text =>
      have visible : isSpace c = false := by simpa using first
      simp [visible]
  cases text with
  | nil =>
    rw [strip_space]
    intro c mem
    simp only [List.append_nil, List.mem_append] at mem
    exact mem.elim (spaces c) (behind c)
  | cons c text =>
    have head : (c :: text ++ after).head?.any isSpace = false := by simpa using first
    rw [strip, List.append_assoc, front spaces head, List.reverse_append,
      front (fun d mem => behind d (List.mem_reverse.mp mem)) (by rw [List.head?_reverse]; exact last),
      List.reverse_reverse]

theorem isSpace_break {c : Char} (brk : isBreak c = true) : isSpace c = true := by
  simp only [isBreak, isSpace, Bool.or_eq_true, Bool.and_eq_true, decide_eq_true_eq, beq_iff_eq]
    at brk ⊢
  omega

/-- A target names a site: no brace, no marker, and not the import. -/
structure Target (target : Text) : Prop where
  opening : '\x7b' ∉ target
  closing : '\x7d' ∉ target
  plain : '#' ∉ target
  single : ' ' ∉ target
  other : target ≠ "import".toList

theorem target_http : Target httpSite :=
  ⟨by decide, by decide, by decide, by decide, by decide⟩

theorem target_domain (domain : Domain) : Target domain.name where
  opening mem := absurd (domain.chars _ mem) (by decide)
  closing mem := absurd (domain.chars _ mem) (by decide)
  plain mem := absurd (domain.chars _ mem) (by decide)
  single mem := absurd (domain.chars _ mem) (by decide)
  other same := by
    have dotted := domain.dotted
    rw [same] at dotted
    exact absurd dotted (by decide)

theorem domain_ne_http (domain : Domain) : domain.name ≠ httpSite := by
  intro same
  have colon : ':' ∈ domain.name := by
    rw [same]
    decide
  exact absurd (domain.chars _ colon) (by decide)

section Opening
variable {target target' : Text} {line : Line}

theorem opens_iff : opens target line = true ↔ strip line = target ++ " \x7b".toList := by
  rw [opens, beq_iff_eq]

theorem opens_net (is_target : Target target) (opening : opens target line = true) :
    net line = 1 := by
  rw [← net_strip, opens_iff.mp opening, net_append]
  have none : net target = 0 := by
    simp [net, List.count_eq_zero.mpr is_target.opening, List.count_eq_zero.mpr is_target.closing]
  rw [none]
  decide

theorem opens_apart (other : target ≠ target') (line : Line) :
    ¬ (opens target line = true ∧ opens target' line = true) := by
  rw [opens_iff, opens_iff]
  rintro ⟨first, second⟩
  exact other (List.append_cancel_right (first.symm.trans second))

/- An opening line has no marker in it. -/
theorem opens_plain (is_target : Target target) (opening : opens target line = true) :
    '#' ∉ line := by
  intro mem
  have inside := mem_strip mem (by decide)
  rw [opens_iff.mp opening, List.mem_append] at inside
  rcases inside with own | brace
  · exact is_target.plain own
  · exact absurd brace (by decide)

theorem opens_visible (opening : opens target line = true) : strip line ≠ [] := by
  rw [opens_iff.mp opening]
  simp

theorem firstWord {word rest : Text} (single : ' ' ∉ word) :
    (word ++ ' ' :: rest).takeWhile (· != ' ') = word := by
  rw [List.takeWhile_append_of_pos]
  · simp
  · intro c mem
    rw [bne_iff_ne]
    rintro rfl
    exact single mem

theorem import_never (is_target : Target target) {snippet : Text}
    (own : isImport snippet line = true) : opens target line = false := by
  rw [Bool.eq_false_iff]
  intro opening
  rw [isImport, beq_iff_eq] at own
  have same : "import".toList ++ ' ' :: snippet = target ++ ' ' :: ['\x7b'] :=
    own.symm.trans (opens_iff.mp opening)
  have words := congrArg (List.takeWhile (· != ' ')) same
  rw [firstWord (by decide), firstWord is_target.single] at words
  exact is_target.other words.symm

end Opening

/-- The indent of the inserted lines. -/
def indentOf (line : Line) : Text := line.takeWhile isSpace ++ "  ".toList

theorem ruleLines_eq (line : Line) : ruleLines line =
    [indentOf line ++ marker ++ ['\n'],
     indentOf line ++ "handle /orchestrator/submit* \x7b".toList ++ ['\n'],
     indentOf line ++ "  respond 404".toList ++ ['\n'], indentOf line ++ ['\x7d'] ++ ['\n']] := by
  simp only [ruleLines, indentOf, List.append_assoc]
  rfl

theorem indent_space (line : Line) : ∀ c ∈ indentOf line, isSpace c = true := by
  intro c mem
  rcases List.mem_append.mp mem with own | blank
  · exact List.mem_takeWhile_imp own
  · exact List.all_eq_true.mp (show "  ".toList.all isSpace = true by decide) c blank

theorem net_space {text : Text} (all : ∀ c ∈ text, isSpace c = true) : net text = 0 := by
  rw [← net_dropWhile, List.dropWhile_eq_nil_iff.mpr all]
  rfl

theorem net_rule (line : Line) : (ruleLines line).map net = [0, 1, 0, -1] := by
  have indent : net (indentOf line) = 0 := net_space (indent_space line)
  rw [ruleLines_eq]
  simp only [List.map_cons, List.map_nil, net_append, indent]
  decide

/- The part of an opening line before its line break. -/
theorem takeWhile_plain {line : Line} (complete : Complete line) (visible : strip line ≠ []) :
    ∀ c ∈ line.takeWhile isSpace, isBreak c = false := by
  obtain ⟨body, ending, rfl, plain, ends⟩ := complete
  have spaces : ∀ c ∈ ending, isSpace c = true := by
    rcases ends with rfl | ⟨b, brk, rfl⟩
    · exact List.all_eq_true.mp (show ['\r', '\n'].all isSpace = true by decide)
    · intro c mem
      rw [List.mem_singleton.mp mem]
      exact isSpace_break brk
  rcases spaces_append body ending with ⟨all, -, -⟩ | ⟨-, taken, -⟩
  · refine absurd (strip_space fun c mem => ?_) visible
    rcases List.mem_append.mp mem with inner | last
    · exact List.dropWhile_eq_nil_iff.mp all c inner
    · exact spaces c last
  · rw [taken]
    exact fun c mem => plain c (List.takeWhile_subset _ mem)

theorem indent_plain {line : Line} (plain : ∀ c ∈ line.takeWhile isSpace, isBreak c = false) :
    ∀ c ∈ indentOf line, isBreak c = false := by
  intro c mem
  rcases List.mem_append.mp mem with own | blank
  · exact plain c own
  · exact unbroken_of_any (show "  ".toList.any isBreak = false by decide) c blank

theorem ruleLines_newlined {line : Line}
    (plain : ∀ c ∈ line.takeWhile isSpace, isBreak c = false) :
    ∀ rule ∈ ruleLines line, Newlined rule := by
  have whole : ∀ piece : Text, (∀ c ∈ piece, isBreak c = false) →
      Newlined (indentOf line ++ piece ++ ['\n']) := by
    intro piece own
    refine ⟨_, rfl, fun c mem => ?_⟩
    rcases List.mem_append.mp mem with first | second
    · exact indent_plain plain c first
    · exact own c second
  intro rule mem
  rw [ruleLines_eq] at mem
  simp only [List.mem_cons, List.not_mem_nil, or_false] at mem
  rcases mem with rfl | rfl | rfl | rfl <;> exact whole _ (unbroken_of_any (by decide))

end NoiContest.ClosedFrontend
