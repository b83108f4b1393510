import Mathlib.Data.List.Basic
import NoiContest.Lib.PyText

/- Where a text contains the marker of the hardening rule and the whole rule, with the brace depth
   of each place. -/
namespace NoiContest.ClosedFrontend
open PyText

abbrev Text := List Char

def marker : Text := "# noi-orchestrator-private-submit".toList

/-- How many braces a text opens more than it closes. -/
def net (text : Text) : Int := text.count '\x7b' - text.count '\x7d'

/-- `text.count(MARKER)`; the marker does not overlap itself, so every place counts. -/
def markerCount : Text → Nat
  | [] => 0
  | c :: rest => (if marker.isPrefixOf (c :: rest) then 1 else 0) + markerCount rest

/- The places of `re.compile(r"(?m)^\s*# noi…\s*$\n^\s*handle…\{\s*$\n^\s*respond 404\s*$\n^\s*\}\s*$")`:
   after the marker and after each of the next two texts comes white space with a newline in it,
   since the expression may give back what its stars took, and after the closing brace white space
   up to some newline or to the end. -/

def dropPrefix : Text → Text → Option Text
  | [], text => some text
  | _, [] => none
  | p :: ps, c :: rest => if p = c then dropPrefix ps rest else none

/-- `\s*$\n^\s*` before a character that is no white space -/
def dropBreak (text : Text) : Option Text :=
  if '\n' ∈ text.takeWhile isSpace then some (text.dropWhile isSpace) else none

/-- `\s*$` -/
def endsLine (text : Text) : Bool :=
  text.dropWhile isSpace == [] || (text.takeWhile isSpace).contains '\n'

def matchPieces : List Text → Text → Bool
  | [], _ => false
  | [last], text => ((dropPrefix last text).map endsLine).getD false
  | piece :: pieces, text => (((dropPrefix piece text).bind dropBreak).map (matchPieces pieces)).getD
      false

def rulePieces : List Text :=
  [marker, "handle /orchestrator/submit* \x7b".toList, "respond 404".toList, ['\x7d']]

/-- `^\s*` after what stands before, in reverse -/
def startsLine (before : Text) : Bool :=
  before.dropWhile isSpace == [] || (before.takeWhile isSpace).contains '\n'

/-- The depths of the rules in a text that follows another, in reverse, at a depth. -/
def ruleDepths (before : Text) (depth : Int) : Text → List Int
  | [] => []
  | c :: rest =>
    (if startsLine before && matchPieces rulePieces (c :: rest) then [depth] else []) ++
      ruleDepths (c :: before) (depth + net [c]) rest

/-- `len(rule.findall(block))`; a match ends before the newline that the next one starts after. -/
def ruleCount (block : Text) : Nat := (ruleDepths [] 0 block).length

/-- The rule is a direct child of the block. -/
def RuleAtTop (block : Text) : Prop := 1 ∈ ruleDepths [] 0 block

instance (block : Text) : Decidable (RuleAtTop block) :=
  inferInstanceAs (Decidable (1 ∈ ruleDepths [] 0 block))

theorem net_append (a b : Text) : net (a ++ b) = net a + net b := by
  unfold net
  rw [List.count_append, List.count_append]
  omega

/- Markers in parts of a text are markers of the text. -/
theorem markerCount_append (a b : Text) : markerCount a + markerCount b ≤ markerCount (a ++ b) := by
  induction a with
  | nil => simp [markerCount]
  | cons c rest ih =>
    rw [List.cons_append, markerCount, markerCount]
    have longer : marker.isPrefixOf (c :: rest) = true →
        marker.isPrefixOf (c :: (rest ++ b)) = true := by
      rw [List.isPrefixOf_iff_prefix, List.isPrefixOf_iff_prefix]
      exact fun first => first.trans ⟨b, rfl⟩
    cases hit : marker.isPrefixOf (c :: rest) with
    | true =>
      rw [longer hit]
      simp only [if_true]
      omega
    | false =>
      simp only [Bool.false_eq_true, if_false]
      omega

theorem markerCount_at (a b : Text) : markerCount b + 1 ≤ markerCount (a ++ marker ++ b) := by
  have first : 1 ≤ markerCount marker := by decide
  have := markerCount_append (a ++ marker) b
  have := markerCount_append a marker
  omega

theorem two_markers {b c b' : Text} (later : c ≠ []) (same : marker ++ b = c ++ marker ++ b') :
    2 ≤ markerCount (marker ++ b) := by
  obtain ⟨d, c, rfl⟩ := List.exists_cons_of_ne_nil later
  have first : marker.isPrefixOf (d :: (c ++ marker ++ b')) = true := by
    rw [List.isPrefixOf_iff_prefix]
    exact ⟨b, by simpa using same⟩
  have second := markerCount_at c b'
  rw [same, List.cons_append, List.cons_append, markerCount, if_pos first]
  omega

/- Where there is one marker, there is one place for it. -/
theorem marker_unique {a b a' b' : Text} (once : markerCount (a ++ marker ++ b) = 1)
    (same : a ++ marker ++ b = a' ++ marker ++ b') : a = a' := by
  have split := same
  rw [List.append_assoc, List.append_assoc, List.append_eq_append_iff] at split
  rcases split with ⟨c, rfl, rest⟩ | ⟨c, rfl, rest⟩
  · by_cases later : c = []
    · simp [later]
    · have := two_markers later (rest.trans (List.append_assoc ..).symm)
      have := markerCount_append a (marker ++ b)
      rw [List.append_assoc] at once
      omega
  · by_cases later : c = []
    · simp [later]
    · have := two_markers later (rest.trans (List.append_assoc ..).symm)
      have := markerCount_append a' (marker ++ b')
      rw [same, List.append_assoc] at once
      omega

theorem dropPrefix_some {p text rest : Text} : dropPrefix p text = some rest ↔ text = p ++ rest := by
  induction p generalizing text with
  | nil => simp [dropPrefix, eq_comm]
  | cons c ps ih =>
    cases text with
    | nil => simp [dropPrefix]
    | cons d text =>
      rw [dropPrefix, List.cons_append, List.cons_eq_cons]
      split
      · rename_i same
        simp [same, ih]
      · rename_i other
        simp only [reduceCtorEq, false_iff, not_and]
        exact fun same => absurd same.symm other

theorem matchPieces_marker {text : Text} (found : matchPieces rulePieces text = true) :
    ∃ rest, text = marker ++ rest := by
  unfold rulePieces matchPieces at found
  cases dropped : dropPrefix marker text with
  | none => simp [dropped] at found
  | some rest => exact ⟨rest, dropPrefix_some.mp dropped⟩

/- A depth comes from a place of the marker at that depth. -/
theorem mem_ruleDepths {before text : Text} {depth d : Int}
    (mem : d ∈ ruleDepths before depth text) :
    ∃ a b, text = a ++ marker ++ b ∧ d = depth + net a := by
  induction text generalizing before depth with
  | nil => cases mem
  | cons c rest ih =>
    rw [ruleDepths, List.mem_append] at mem
    rcases mem with here | later
    · split at here
      · rename_i found
        rw [Bool.and_eq_true] at found
        obtain ⟨b, split⟩ := matchPieces_marker found.2
        rw [List.mem_singleton] at here
        exact ⟨[], b, split, by simp [here, net]⟩
      · cases here
    · obtain ⟨a, b, rfl, depth_eq⟩ := ih later
      refine ⟨c :: a, b, rfl, ?_⟩
      have := net_append [c] a
      rw [List.singleton_append] at this
      omega

section Ending
variable {text ending : Text}

/-- What may stand behind a block without completing a rule: nothing, or a line break, white space
    and a text that no piece begins like, with no rule in it. -/
structure Behind (ending : Text) : Prop where
  shape : ending = [] ∨ ∃ rest, ending = '\n' :: rest ∧
    (rest.dropWhile isSpace = [] ∨ (rest.dropWhile isSpace).head? = some 'i')
  quiet : ∀ before depth, ruleDepths before depth ending = []

theorem dropPrefix_behind {p rest : Text} (plain : '\n' ∉ p) :
    dropPrefix p (text ++ '\n' :: rest) = (dropPrefix p text).map (· ++ '\n' :: rest) := by
  induction p generalizing text with
  | nil => rfl
  | cons c ps ih =>
    rw [List.mem_cons, not_or] at plain
    cases text with
    | nil => simp [dropPrefix, Ne.symm plain.1]
    | cons d text =>
      simp only [List.cons_append, dropPrefix]
      split
      · exact ih plain.2
      · rfl

/- White space that goes on behind a text of white space, or stops in the text. -/
theorem spaces_append (text more : Text) :
    (text.dropWhile isSpace = [] ∧ (text ++ more).takeWhile isSpace = text ++ more.takeWhile isSpace ∧
      (text ++ more).dropWhile isSpace = more.dropWhile isSpace) ∨
    (text.dropWhile isSpace ≠ [] ∧ (text ++ more).takeWhile isSpace = text.takeWhile isSpace ∧
      (text ++ more).dropWhile isSpace = text.dropWhile isSpace ++ more) := by
  induction text with
  | nil => exact .inl ⟨rfl, rfl, rfl⟩
  | cons c text ih =>
    cases space : isSpace c with
    | true => simpa [space] using ih
    | false => exact .inr (by simp [space])

theorem endsLine_behind {rest : Text} : endsLine (text ++ '\n' :: rest) = endsLine text := by
  have newline : isSpace '\n' = true := by decide
  unfold endsLine
  rcases spaces_append text ('\n' :: rest) with ⟨all, taken, -⟩ | ⟨some, taken, dropped⟩
  · rw [all, taken]
    simp [newline]
  · rw [taken, dropped]
    have filled : text.dropWhile isSpace ++ '\n' :: rest ≠ [] := by simp
    rw [beq_eq_false_iff_ne.mpr filled, beq_eq_false_iff_ne.mpr some]

/-- A piece that a text starts with only where its first character, no white space, is there. -/
def Visible (piece : Text) : Prop :=
  ∃ c ps, piece = c :: ps ∧ isSpace c = false ∧ c ≠ 'i' ∧ '\n' ∉ piece

theorem matchPieces_head {piece : Text} {pieces : List Text} (visible : Visible piece)
    (other : text = [] ∨ text.head? = some 'i') : matchPieces (piece :: pieces) text = false := by
  obtain ⟨c, ps, rfl, -, letter, -⟩ := visible
  have none : dropPrefix (c :: ps) text = none := by
    cases text with
    | nil => rfl
    | cons d text =>
      rcases other with empty | head
      · cases empty
      · obtain rfl : d = 'i' := by simpa using head
        simp [dropPrefix, letter]
  cases pieces <;> simp [matchPieces, none]

theorem matchPieces_behind {rest : Text}
    (shape : rest.dropWhile isSpace = [] ∨ (rest.dropWhile isSpace).head? = some 'i')
    {pieces : List Text} (visible : ∀ piece ∈ pieces, Visible piece) :
    matchPieces pieces (text ++ '\n' :: rest) = matchPieces pieces text := by
  have newline : isSpace '\n' = true := by decide
  induction pieces generalizing text with
  | nil => rfl
  | cons piece pieces ih =>
    obtain ⟨-, -, -, -, -, plain⟩ := visible piece List.mem_cons_self
    cases pieces with
    | nil =>
      rw [matchPieces, matchPieces, dropPrefix_behind plain]
      cases dropPrefix piece text with
      | none => rfl
      | some text => exact endsLine_behind
    | cons next pieces =>
      have visible := fun piece mem => visible piece (List.mem_cons_of_mem _ mem)
      rw [matchPieces, matchPieces, dropPrefix_behind plain] <;> try exact List.cons_ne_nil _ _
      cases dropPrefix piece text with
      | none => rfl
      | some text =>
        simp only [Option.map_some, Option.bind_some, dropBreak]
        rcases spaces_append text ('\n' :: rest) with ⟨all, taken, dropped⟩ | ⟨-, taken, dropped⟩
        · have first : matchPieces (next :: pieces) (rest.dropWhile isSpace) = false :=
            matchPieces_head (visible next List.mem_cons_self) shape
          have last : matchPieces (next :: pieces) [] = false :=
            matchPieces_head (visible next List.mem_cons_self) (.inl rfl)
          rw [taken, dropped, all]
          simp only [List.dropWhile_cons, newline, if_true]
          split <;> split <;> simp [first, last]
        · rw [taken, dropped]
          split
          · exact ih visible
          · rfl

theorem rulePieces_visible : ∀ piece ∈ rulePieces, Visible piece := by
  intro piece mem
  simp only [rulePieces, List.mem_cons, List.not_mem_nil, or_false] at mem
  rcases mem with rfl | rfl | rfl | rfl <;> exact ⟨_, _, rfl, by decide, by decide, by decide⟩

theorem ruleDepths_behind (behind : Behind ending) (before : Text) (depth : Int) :
    ruleDepths before depth (text ++ ending) = ruleDepths before depth text := by
  induction text generalizing before depth with
  | nil => exact behind.quiet before depth
  | cons c text ih =>
    have same : matchPieces rulePieces (c :: text ++ ending) = matchPieces rulePieces (c :: text) := by
      rcases behind.shape with rfl | ⟨rest, rfl, shape⟩
      · rw [List.append_nil]
      · exact matchPieces_behind shape rulePieces_visible
    rw [List.cons_append] at same ⊢
    rw [ruleDepths, ruleDepths, same, ih]

end Ending

end NoiContest.ClosedFrontend
