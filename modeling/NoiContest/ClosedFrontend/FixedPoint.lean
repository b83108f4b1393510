import Mathlib.Algebra.Order.BigOperators.Group.List
import NoiContest.ClosedFrontend.Hardening

/- The hardened text has one block for each site: the block of the input, with the rule where it
   had no marker, and possibly the lines of the import behind it. -/
namespace NoiContest.ClosedFrontend
open PyText TextLines BraceBlocks Outcome

variable {target domain snippet text : Text} {targets : List Text} {lines : List Line}

theorem block_mem (opening : Line → Bool) {line : Line} (own : opening line = true) {d : Int}
    {before : List Line} (level : d + depth net before = 0) (rest : List Line) :
    takeBlock net 0 (line :: rest) ∈ blocks net opening d (before ++ line :: rest) := by
  induction before generalizing d with
  | nil =>
    obtain rfl : d = 0 := by simpa [depth] using level
    rw [List.nil_append, blocks, if_pos ⟨rfl, own⟩]
    exact List.mem_cons_self
  | cons first before ih =>
    rw [List.cons_append, blocks]
    refine List.mem_append_right _ (ih ?_)
    simp only [depth, List.map_cons, List.sum_cons] at level ⊢
    omega

theorem takeBlock_first (line : Line) (rest : List Line) :
    ∃ more, takeBlock net 0 (line :: rest) = line :: more := by
  rw [takeBlock]
  split
  · exact ⟨_, rfl⟩
  · exact ⟨_, rfl⟩

/- A third line with a marker at depth zero does not fit. -/
theorem Checked.unmerged (checked : Checked domain snippet text) (other : domain ≠ httpSite)
    {before more : List Line} {merged : Line} (split : splitlines text = before ++ merged :: more)
    (level : depth net before = 0) (marked : 1 ≤ markerCount merged)
    (never : ∀ target ∈ [httpSite, domain], opens target merged = false) : False := by
  obtain ⟨first, found, -, one⟩ := checked.one_marker other httpSite (by simp)
  obtain ⟨second, found', -, one'⟩ := checked.one_marker other domain (by simp)
  have apart : ∀ line, ¬ ((opens httpSite line || opens domain line) = true ∧
      (line == merged) = true) := by
    rintro line ⟨opening, same⟩
    rw [beq_iff_eq.mp same, never httpSite (by simp), never domain (by simp)] at opening
    cases opening
  have whole : ((blocks net (fun l => (opens httpSite l || opens domain l) || l == merged) 0
      (splitlines text)).map fun block => markerCount block.flatten).sum ≤
      markerCount (splitlines text).flatten := (blocks_weight markers_super _).1
  rw [blocks_or apart, blocks_or (opens_apart other.symm), siteBlocks_markers, siteBlocks_markers,
    found, found', flatten_splitlines, checked.markers] at whole
  have third : takeBlock net 0 (merged :: more) ∈
      blocks net (fun l => l == merged) 0 (splitlines text) := by
    rw [split]
    exact block_mem (fun l => l == merged) (beq_self_eq_true merged) (by rw [level, add_zero]) more
  have heavy : markerCount (takeBlock net 0 (merged :: more)).flatten ≤
      ((blocks net (fun l => l == merged) 0 (splitlines text)).map fun block =>
        markerCount block.flatten).sum :=
    List.single_le_sum (fun _ _ => Nat.zero_le _) _ (List.mem_map.mpr ⟨_, third, rfl⟩)
  obtain ⟨later, eq⟩ := takeBlock_first merged more
  rw [eq, List.flatten_cons] at heavy
  have weight := (marked.trans (Nat.le_add_right _ _)).trans
    ((markerCount_append merged later.flatten).trans heavy)
  simp only [List.map_cons, List.map_nil, List.sum_cons, List.sum_nil, add_zero, one, one'] at whole
  exact absurd ((Nat.add_le_add_left weight (1 + 1)).trans whole) (by decide)

theorem Checked.not_merged (checked : Checked domain snippet text) (other : domain ≠ httpSite)
    (named : ∀ target ∈ [httpSite, domain], Target target)
    (merged : Merged [httpSite, domain] 0 lines) {t : Text}
    (made : text = (insertRules [httpSite, domain] 0 lines).flatten ++ t) : False := by
  obtain ⟨before, target, line, mem, opening, level, split⟩ := merged
  obtain ⟨more, lines_eq⟩ := split t
  rw [← made] at lines_eq
  have marked := markerCount_at (line ++ indentOf line) ['\n']
  simp only [List.append_assoc] at marked
  refine checked.unmerged other lines_eq (by simpa using level) ?_ fun site is_site => ?_
  · rw [List.append_assoc]
    omega
  · rw [Bool.eq_false_iff]
    intro opens_site
    refine opens_plain (named site is_site) opens_site ?_
    exact List.mem_append_right _ (List.mem_append_left _ (List.mem_append_right _ (by decide)))

section Extension
variable {after : List Line} {gap : Text}

theorem takeBlock_all {d : Int} (inside : d ≠ 0) {import_ : Line}
    (shape : after = [['\n'], import_] ∨ after = [['\n'], ['\n'], import_]) :
    takeBlock net d after = after := by
  have blank : net ['\n'] = 0 := by decide
  rcases shape with rfl | rfl <;> simp [takeBlock, blank, inside]

/- What follows the last line ends up behind a block that has not closed before it. -/
theorem takeBlock_extended (spaces : ∀ c ∈ gap, isSpace c = true) {import_ : Line}
    (shape : after = [['\n'], import_] ∨ after = [['\n'], ['\n'], import_]) (init : List Line)
    (last : Line) (d : Int) : ∃ ending, (ending = [] ∨ ending = gap ∨ ending = gap ++ after.flatten) ∧
      (takeBlock net d (init ++ (last ++ gap) :: after)).flatten =
        (takeBlock net d (init ++ [last])).flatten ++ ending := by
  induction init generalizing d with
  | nil =>
    have level : net (last ++ gap) = net last := by
      rw [net_append, net_space spaces, add_zero]
    simp only [List.nil_append, takeBlock, level]
    split
    · exact ⟨gap, .inr (.inl rfl), by simp⟩
    · rename_i inside
      exact ⟨gap ++ after.flatten, .inr (.inr rfl), by simp [takeBlock_all inside shape]⟩
  | cons line init ih =>
    simp only [List.cons_append, takeBlock]
    split
    · exact ⟨[], .inl rfl, by simp⟩
    · obtain ⟨ending, endings, eq⟩ := ih (d + net line)
      exact ⟨ending, endings, by simp [eq]⟩

theorem blocks_never (never : ∀ line ∈ after, opens target line = false) (d : Int) :
    blocks net (opens target) d after = [] := by
  induction after generalizing d with
  | nil => rfl
  | cons line after ih =>
    rw [blocks, never line List.mem_cons_self, ih fun l mem => never l (List.mem_cons_of_mem _ mem)]
    simp

theorem blocks_extended (spaces : ∀ c ∈ gap, isSpace c = true) {import_ : Line}
    (shape : after = [['\n'], import_] ∨ after = [['\n'], ['\n'], import_])
    (never : ∀ line ∈ after, opens target line = false) (init : List Line) (last : Line) (d : Int) :
    List.Forall₂ (fun block longer => ∃ ending : Text,
      (ending = [] ∨ ending = gap ∨ ending = gap ++ after.flatten) ∧
        List.flatten longer = List.flatten block ++ ending)
      (blocks net (opens target) d (init ++ [last]))
      (blocks net (opens target) d (init ++ (last ++ gap) :: after)) := by
  induction init generalizing d with
  | nil =>
    have same : opens target (last ++ gap) = opens target last := by
      rw [opens, opens, strip_behind spaces]
    rw [List.nil_append, List.nil_append, blocks, blocks, blocks, blocks_never never, same]
    split
    · rename_i opening
      obtain ⟨ending, endings, eq⟩ := takeBlock_extended spaces shape [] last 0
      exact .cons ⟨ending, endings, eq⟩ .nil
    · exact .nil
  | cons line init ih =>
    rw [List.cons_append, List.cons_append, blocks, blocks]
    split
    · obtain ⟨ending, endings, eq⟩ :=
        takeBlock_extended spaces shape (line :: init) last 0
      exact .cons ⟨ending, endings, eq⟩ (ih _)
    · exact ih _

end Extension

end NoiContest.ClosedFrontend
