import NoiContest.ClosedFrontend.Resplit

/- What a hardened Caddyfile is: the input with rules behind the opening lines and the import at
   the end, a fixed point of the transform, and safe exactly where a rule that was there before
   was a direct child of its site. -/
namespace NoiContest.ClosedFrontend
open PyText TextLines BraceBlocks Outcome

variable {target : Text} {line : Line} {snippet : Text}

theorem dropWhile_spaces {blank : Text} (spaces : ∀ c ∈ blank, isSpace c = true) (text : Text) :
    (blank ++ text).dropWhile isSpace = text.dropWhile isSpace := by
  rw [List.dropWhile_append, List.dropWhile_eq_nil_iff.mpr spaces]
  rfl

theorem strip_behind {after : Text} (spaces : ∀ c ∈ after, isSpace c = true) (text : Text) :
    strip (text ++ after) = strip text := by
  rcases spaces_append text after with ⟨all, -, dropped⟩ | ⟨-, -, dropped⟩
  · rw [strip, strip, dropped, all, List.dropWhile_eq_nil_iff.mpr spaces]
  · rw [strip, strip, dropped, List.reverse_append,
      dropWhile_spaces fun c mem => spaces c (List.mem_reverse.mp mem)]

theorem strip_subset (text : Text) : strip text ⊆ text := by
  intro c mem
  rw [strip, List.mem_reverse] at mem
  exact List.dropWhile_subset _ (List.mem_reverse.mp (List.dropWhile_subset _ mem))

theorem strip_last (text : Text) : (strip text).getLast?.any isSpace = false := by
  rw [strip, List.getLast?_reverse]
  have := List.head?_dropWhile_not isSpace (text.dropWhile isSpace).reverse
  cases head : ((text.dropWhile isSpace).reverse.dropWhile isSpace).head? with
  | none => rfl
  | some c =>
    rw [head] at this
    simpa using this

/- The text of a line, without its line break. -/
theorem strip_plain {lines : List Line} (proper : Proper lines) (mem : line ∈ lines) :
    ∀ c ∈ strip line, isBreak c = false := by
  induction proper with
  | nil => cases mem
  | last _ plain =>
    rw [List.mem_singleton.mp mem]
    exact fun c own => plain c (strip_subset _ own)
  | cons complete _ _ ih =>
    rcases List.mem_cons.mp mem with rfl | later
    · obtain ⟨body, ending, rfl, plain, ends⟩ := complete
      have spaces : ∀ c ∈ ending, isSpace c = true := by
        rcases ends with rfl | ⟨b, brk, rfl⟩
        · exact List.all_eq_true.mp (show ['\r', '\n'].all isSpace = true by decide)
        · intro c mem
          rw [List.mem_singleton.mp mem]
          exact isSpace_break brk
      rw [strip_behind spaces]
      exact fun c own => plain c (strip_subset _ own)
    · exact ih later

section Endings

/- Texts behind a newline that complete no rule. -/
structure Quiet (text : Text) : Prop where
  shape : text.dropWhile isSpace = [] ∨ (text.dropWhile isSpace).head? = some 'i'
  none : ∀ before depth, ruleDepths before depth text = []

theorem matchPieces_other {c : Char} (other : c ≠ '#') (text : Text) :
    matchPieces rulePieces (c :: text) = false := by
  rw [Bool.eq_false_iff]
  intro found
  obtain ⟨rest, eq⟩ := matchPieces_marker found
  have hash : marker.head? = some '#' := by decide
  have head : (c :: text).head? = some '#' := by
    rw [eq, head_append (by decide), hash]
  exact other (by simpa using head)

theorem Quiet.newline {text : Text} (quiet : Quiet text) : Quiet ('\n' :: text) where
  shape := quiet.shape
  none before depth := by
    rw [ruleDepths, matchPieces_other (by decide), Bool.and_false, quiet.none]
    rfl

theorem Quiet.behind {text : Text} (quiet : Quiet text) : Behind ('\n' :: text) :=
  ⟨.inr ⟨text, rfl, quiet.shape⟩, quiet.newline.none⟩

theorem quiet_nil : Quiet [] := ⟨.inl rfl, fun _ _ => rfl⟩

/- No rule starts in the middle of a line. -/
theorem ruleDepths_inline {before : Text} (inside : startsLine before = false) {text : Text}
    (plain : '\n' ∉ text) (depth : Int) : ruleDepths before depth (text ++ ['\n']) = [] := by
  induction text generalizing before depth with
  | nil =>
    rw [List.nil_append, ruleDepths, matchPieces_other (by decide), Bool.and_false]
    rfl
  | cons c text ih =>
    rw [List.mem_cons, not_or] at plain
    have next : startsLine (c :: before) = false := by
      unfold startsLine at inside ⊢
      rw [Bool.or_eq_false_iff, beq_eq_false_iff_ne] at inside ⊢
      rw [List.dropWhile_cons, List.takeWhile_cons]
      split
      · refine ⟨inside.1, ?_⟩
        simpa [plain.1] using inside.2
      · simp
    rw [List.cons_append, ruleDepths, inside, Bool.false_and, ih next plain.2]
    rfl

theorem quiet_import (plain : '\n' ∉ snippet) : Quiet (importLine snippet ++ ['\n']) where
  shape := .inr rfl
  none before depth := by
    have start : startsLine ('i' :: before) = false := by
      simp [startsLine, show isSpace 'i' = false by decide]
    have rest := ruleDepths_inline start (show '\n' ∉ "mport ".toList ++ snippet by
      simp [plain]) (depth + net ['i'])
    have eq : importLine snippet ++ ['\n'] = 'i' :: (("mport ".toList ++ snippet) ++ ['\n']) := rfl
    rw [eq, ruleDepths, matchPieces_other (by decide), Bool.and_false, rest]
    rfl

end Endings

section Checked
variable {domain text : Text}

/-- What `_harden_once` checks. -/
structure Checked (domain snippet text : Text) : Prop where
  sites : ∀ target ∈ [httpSite, domain],
    ∃ block, siteBlocks target (splitlines text) = [block] ∧ ruleCount block = 1
  imported : (splitlines text).countP (isImport snippet) = 1
  markers : markerCount text = 2

theorem checkSite_ok {lines : List Line} {u : Unit} : checkSite lines target = .ok u ↔
    ∃ block, siteBlocks target lines = [block] ∧ ruleCount block = 1 := by
  unfold checkSite
  split
  · rename_i block found
    simp [found]
  · rename_i other
    simp only [reduceCtorEq, false_iff]
    rintro ⟨block, found, -⟩
    exact other block found

theorem hardenOnce_ok {again : Text} :
    hardenOnce domain snippet text = .ok again ↔ again = text ∧ Checked domain snippet text := by
  simp only [hardenOnce, bind_ok, forM_ok, checkSite_ok, raiseIf_ok, pure_eq_ok, not_not]
  constructor
  · rintro ⟨-, sites, -, imported, -, markers, rfl⟩
    exact ⟨rfl, sites, imported, markers⟩
  · rintro ⟨rfl, sites, imported, markers⟩
    exact ⟨⟨⟩, sites, ⟨⟩, imported, ⟨⟩, markers, rfl⟩

theorem hardenText_ok {desired : Text} : hardenText domain snippet text = .ok desired ↔
    (∀ target ∈ [httpSite, domain], siteBlocks target (splitlines text) ≠ []) ∧
    (insertRules [httpSite, domain] 0 (splitlines text)).countP (isImport snippet) ≤ 1 ∧
    desired = (hardenLines domain snippet (splitlines text)).flatten ∧
    Checked domain snippet desired := by
  simp only [hardenText, bind_ok, hardenOnce_ok, raiseIf_ok, pure_eq_ok, not_not, not_lt]
  constructor
  · rintro ⟨-, found, -, single, again, ⟨rfl, checked⟩, -, -, rfl⟩
    exact ⟨fun target mem empty => found ⟨target, mem, empty⟩, single, rfl, checked⟩
  · rintro ⟨found, single, rfl, checked⟩
    refine ⟨⟨⟩, ?_, ⟨⟩, single, _, ⟨rfl, checked⟩, ⟨⟩, rfl, rfl⟩
    rintro ⟨target, mem, empty⟩
    exact found target mem empty

/- The import is a line of its own, so its text has no line break in it. -/
theorem Checked.import_plain (checked : Checked domain snippet text) :
    ∀ c ∈ importLine snippet, isBreak c = false := by
  obtain ⟨line, mem, own⟩ := List.countP_pos_iff.mp (checked.imported ▸ Nat.one_pos)
  rw [isImport, beq_iff_eq] at own
  rw [← own]
  exact strip_plain (proper_splitlines text) mem

/- No white space ends the import. -/
theorem Checked.import_line (checked : Checked domain snippet text) :
    isImport snippet (importLine snippet ++ ['\n']) = true := by
  obtain ⟨line, -, own⟩ := List.countP_pos_iff.mp (checked.imported ▸ Nat.one_pos)
  rw [isImport, beq_iff_eq] at own ⊢
  have last := strip_last line
  rw [own] at last
  have blank : ∀ c ∈ ([] : Text), isSpace c = true := fun _ mem => absurd mem List.not_mem_nil
  exact strip_frame blank rfl last (List.all_eq_true.mp (by decide))

theorem ruleCount_marker {block : Text} (one : ruleCount block = 1) : 1 ≤ markerCount block := by
  obtain ⟨d, depths⟩ := List.length_eq_one_iff.mp one
  obtain ⟨a, b, rfl, -⟩ := mem_ruleDepths (depths ▸ List.mem_cons_self : d ∈ ruleDepths [] 0 block)
  have := markerCount_at a b
  omega

end Checked

section Weights
variable {lines : List Line}

theorem markers_super (a b : List Line) :
    markerCount a.flatten + markerCount b.flatten ≤ markerCount (a ++ b).flatten := by
  rw [List.flatten_append]
  exact markerCount_append _ _

theorem siteBlocks_markers (target : Text) (lines : List Line) :
    ((blocks net (opens target) 0 lines).map fun block => markerCount block.flatten).sum =
      ((siteBlocks target lines).map markerCount).sum := by
  rw [siteBlocks, List.map_map]
  rfl

/- The blocks of the sites share the two markers. -/
theorem Checked.one_marker {domain snippet text : Text} (checked : Checked domain snippet text)
    (other : domain ≠ httpSite) : ∀ target ∈ [httpSite, domain],
    ∃ block, siteBlocks target (splitlines text) = [block] ∧ ruleCount block = 1 ∧
      markerCount block = 1 := by
  obtain ⟨first, found, rule⟩ := checked.sites httpSite (by simp)
  obtain ⟨second, found', rule'⟩ := checked.sites domain (by simp)
  have whole : ((blocks net (fun l => opens httpSite l || opens domain l) 0
      (splitlines text)).map fun block => markerCount block.flatten).sum ≤
      markerCount (splitlines text).flatten := (blocks_weight markers_super _).1
  rw [blocks_or (opens_apart other.symm), siteBlocks_markers, siteBlocks_markers, found, found',
    flatten_splitlines, checked.markers] at whole
  have := ruleCount_marker rule
  have := ruleCount_marker rule'
  simp only [List.map_cons, List.map_nil, List.sum_cons, List.sum_nil] at whole
  intro target mem
  simp only [List.mem_cons, List.not_mem_nil, or_false] at mem
  rcases mem with rfl | rfl
  · exact ⟨first, found, rule, by omega⟩
  · exact ⟨second, found', rule', by omega⟩

end Weights

end NoiContest.ClosedFrontend
