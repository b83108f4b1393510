import NoiContest.SampleInputs.Extraction

/- Which sample blocks of a statement the extraction passes over in silence. -/
namespace NoiContest.SampleInputs
variable {isDecimal : Char → Bool}

/- The closed blocks between a heading and the next one. Inside a block no line is a heading. -/
def blocksWithin : Nat → List String → List (List String)
  | 0, _ => []
  | _, [] => []
  | bound + 1, line :: rest =>
    if (heading line).isSome then []
    else match fence line with
      | none => blocksWithin bound rest
      | some marker =>
        match closeBlock marker rest with
        | none => []
        | some (content, after) => content :: blocksWithin bound after

def blocks (rest : List String) : List (List String) := blocksWithin rest.length rest

def isEmptyBlock (content : List String) : Bool := decide (PyBytes.strip (sampleBytes content) = [])

def blockDigest (content : List String) : String :=
  InputDigest.normalizedInputDigest (sampleBytes content)

/- The accepted headings with their labels and the lines after them. -/
def acceptedHeadings (isDecimal : Char → Bool) : List String → List (String × List String)
  | [] => []
  | line :: rest =>
    match acceptedTitle isDecimal line with
    | none => acceptedHeadings isDecimal rest
    | some title => (labelOf title, rest) :: acceptedHeadings isDecimal rest

/- Every non-empty closed block of a section with an accepted heading is in the hashes, or a
   warning has the label of the heading. -/
def Covered (isDecimal : Char → Bool) (markdown : String) : Prop :=
  ∀ section' ∈ acceptedHeadings isDecimal (linesOf markdown), ∀ block ∈ blocks section'.2,
    isEmptyBlock block = false →
    blockDigest block ∈ (extractSampleInputHashes isDecimal markdown).1 ∨
      ∃ reason, .section section'.1 reason ∈ (extractSampleInputHashes isDecimal markdown).2

/- Only blank lines stand between the heading and its first block, and this block is closed and
   not empty. -/
def Plain (rest : List String) : Prop :=
  (findFence false rest).1 = false ∧ ∃ first ∈ (blocks rest).head?, isEmptyBlock first = false

/- A later block of a section is known from the first block of some section, unless a section
   with the same label is not plain. -/
def LaterBlocksKnown (isDecimal : Char → Bool) (markdown : String) : Prop :=
  ∀ section' ∈ acceptedHeadings isDecimal (linesOf markdown),
    (∀ other ∈ acceptedHeadings isDecimal (linesOf markdown), other.1 = section'.1 →
      Plain other.2) →
    ∀ block ∈ (blocks section'.2).tail, isEmptyBlock block = false →
      ∃ other ∈ acceptedHeadings isDecimal (linesOf markdown),
        ∃ first ∈ (blocks other.2).head?, isEmptyBlock first = false ∧
          blockDigest first = blockDigest block

/- The first block -/

theorem closeBlock_shorter {marker : Marker} {rest content after : List String}
    (closed : closeBlock marker rest = some (content, after)) : after.length < rest.length := by
  induction rest generalizing content with
  | nil => cases closed
  | cons line rest ih =>
    rw [closeBlock] at closed
    split at closed
    · cases closed
      exact Nat.lt_succ_self _
    · obtain ⟨⟨lines, left⟩, found, same⟩ := Option.map_eq_some_iff.mp closed
      cases same
      exact (ih found).trans (Nat.lt_succ_self _)

/- More lines than there are make no difference. -/
theorem blocksWithin_bound {bound bound' : Nat} {rest : List String} (enough : rest.length ≤ bound)
    (enough' : rest.length ≤ bound') : blocksWithin bound rest = blocksWithin bound' rest := by
  induction bound generalizing bound' rest with
  | zero =>
    have none : rest = [] := List.length_eq_zero_iff.mp (Nat.le_zero.mp enough)
    subst none
    cases bound' <;> rfl
  | succ bound ih =>
    cases rest with
    | nil => cases bound' <;> rfl
    | cons line rest =>
      cases bound' with
      | zero => exact absurd enough' (Nat.not_succ_le_zero _)
      | succ bound' =>
        have less := Nat.le_of_succ_le_succ enough
        have less' := Nat.le_of_succ_le_succ enough'
        rw [blocksWithin, blocksWithin]
        split
        · rfl
        · split
          · exact ih less less'
          · split
            · rfl
            · rename_i content after closed
              have shorter := closeBlock_shorter closed
              rw [ih (shorter.le.trans less) (shorter.le.trans less')]

/- The search for the fence finds the first block. -/
theorem blocks_findFence (skippedContent : Bool) (rest : List String) :
    blocks rest = match (findFence skippedContent rest).2 with
      | none => []
      | some (marker, after) =>
        match closeBlock marker after with
        | none => []
        | some (content, left) => content :: blocks left := by
  induction rest generalizing skippedContent with
  | nil => rfl
  | cons line rest ih =>
    rw [blocks, List.length_cons, blocksWithin, findFence]
    by_cases isHeading : (heading line).isSome = true
    · rw [if_pos isHeading, if_pos isHeading]
    · rw [if_neg isHeading, if_neg isHeading]
      cases opened : fence line with
      | none => exact ih _
      | some marker =>
        simp only
        cases closed : closeBlock marker rest with
        | none => rfl
        | some found =>
          simp only [blocks]
          rw [blocksWithin_bound (Nat.le_of_lt (closeBlock_shorter closed)) le_rfl]

theorem first_block {rest : List String} {first : List String} :
    first ∈ (blocks rest).head? ↔ ∃ marker after left,
      (findFence false rest).2 = some (marker, after) ∧
        closeBlock marker after = some (first, left) := by
  rw [blocks_findFence false]
  cases found : (findFence false rest).2 with
  | none => simp
  | some opened =>
    obtain ⟨marker, after⟩ := opened
    cases closed : closeBlock marker after with
    | none => simp [closed]
    | some block => simp [closed, eq_comm, Prod.ext_iff]

/- The loop -/

theorem mem_warn (s : Extraction) (label label' : String) (reason : Reason) :
    (∃ r, .section label' r ∈ (s.warn label reason).warnings) ↔
      (∃ r, .section label' r ∈ s.warnings) ∨ label = label' := by
  simp only [Extraction.warn, List.mem_append, List.mem_singleton, Warning.section.injEq]
  constructor
  · rintro ⟨r, old | ⟨same, -⟩⟩
    · exact .inl ⟨r, old⟩
    · exact .inr same.symm
  · rintro (⟨r, old⟩ | same)
    · exact ⟨r, .inl old⟩
    · exact ⟨reason, .inr ⟨same.symm, rfl⟩⟩

/- What the body of the loop finds at a heading: no closed block, an empty one, or a block whose
   digest it keeps. -/
theorem extractSection_cases (label : String) (rest : List String) (s : Extraction) :
    let found := { s with foundHeading := true }
    ((blocks rest).head? = none ∧ ∃ reason, extractSection label rest s = found.warn label reason) ∨
    ∃ first, (blocks rest).head? = some first ∧
      ((isEmptyBlock first = true ∧ extractSection label rest s = found.warn label .empty) ∨
      (isEmptyBlock first = false ∧
        let kept := { found with hashes := insert (blockDigest first) found.hashes }
        extractSection label rest s =
          if (findFence false rest).1 then kept.warn label .extraContent else kept)) := by
  rw [blocks_findFence false]
  unfold extractSection
  obtain ⟨skippedContent, fenceMatch⟩ := findFence false rest
  cases fenceMatch with
  | none => exact .inl ⟨rfl, .noFence, rfl⟩
  | some opened =>
    obtain ⟨marker, after⟩ := opened
    simp only
    cases closed : closeBlock marker after with
    | none => exact .inl ⟨rfl, .unclosed, rfl⟩
    | some block =>
      refine .inr ⟨block.1, rfl, ?_⟩
      by_cases empty : PyBytes.strip (sampleBytes block.1) = []
      · exact .inl ⟨decide_eq_true empty, by simp only [if_pos empty]⟩
      · exact .inr ⟨decide_eq_false empty, by simp only [if_neg empty, blockDigest]⟩

theorem extractSection_hashes (label : String) (rest : List String) (s : Extraction)
    (digest : String) : digest ∈ (extractSection label rest s).hashes ↔
      digest ∈ s.hashes ∨ ∃ first ∈ (blocks rest).head?, isEmptyBlock first = false ∧
        blockDigest first = digest := by
  rcases extractSection_cases label rest s with ⟨none, reason, same⟩ | ⟨first, found, cases⟩
  · simp [same, none, Extraction.warn]
  · rcases cases with ⟨empty, same⟩ | ⟨filled, same⟩
    · simp [same, found, empty, Extraction.warn]
    · rw [same]
      have kept : ∀ e : Extraction,
          (if (findFence false rest).1 then e.warn label .extraContent else e).hashes =
            e.hashes := by
        intro e
        split <;> rfl
      rw [kept, Finset.mem_insert, found]
      simp only [Option.mem_def, Option.some.injEq, exists_eq_left', filled, true_and]
      rw [or_comm, eq_comm (a := digest)]

theorem extractSection_warnings (label : String) (rest : List String) (s : Extraction)
    (label' : String) : (∃ r, .section label' r ∈ (extractSection label rest s).warnings) ↔
      (∃ r, .section label' r ∈ s.warnings) ∨ label = label' ∧ ¬ Plain rest := by
  rcases extractSection_cases label rest s with ⟨none, reason, same⟩ | ⟨first, found, cases⟩
  · have notPlain : ¬ Plain rest := by simp [Plain, none]
    rw [same, mem_warn]
    simp [notPlain]
  · rcases cases with ⟨empty, same⟩ | ⟨filled, same⟩
    · have notPlain : ¬ Plain rest := by simp [Plain, found, empty]
      rw [same, mem_warn]
      simp [notPlain]
    · rw [same]
      have plain : Plain rest ↔ (findFence false rest).1 = false := by simp [Plain, found, filled]
      split
      · rename_i extra
        rw [mem_warn, plain, extra]
        simp
      · rename_i bare
        rw [plain]
        simp [bare]

theorem extractLines_hashes (lines : List String) (s : Extraction) (digest : String) :
    digest ∈ (extractLines isDecimal s lines).hashes ↔
      digest ∈ s.hashes ∨ ∃ other ∈ acceptedHeadings isDecimal lines,
        ∃ first ∈ (blocks other.2).head?, isEmptyBlock first = false ∧
          blockDigest first = digest := by
  induction lines generalizing s with
  | nil =>
    have start : extractLines isDecimal s [] = s := rfl
    have empty : acceptedHeadings isDecimal [] = [] := rfl
    simp [start, empty]
  | cons line rest ih =>
    unfold extractLines acceptedHeadings
    cases accepted : acceptedTitle isDecimal line with
    | none => exact ih s
    | some title =>
      simp only
      rw [ih, extractSection_hashes, List.exists_mem_cons_iff, or_assoc]

theorem extractLines_warnings (lines : List String) (s : Extraction) (label : String) :
    (∃ reason, .section label reason ∈ (extractLines isDecimal s lines).warnings) ↔
      (∃ reason, .section label reason ∈ s.warnings) ∨
        ∃ other ∈ acceptedHeadings isDecimal lines, other.1 = label ∧ ¬ Plain other.2 := by
  induction lines generalizing s with
  | nil =>
    have start : extractLines isDecimal s [] = s := rfl
    have empty : acceptedHeadings isDecimal [] = [] := rfl
    simp [start, empty]
  | cons line rest ih =>
    unfold extractLines acceptedHeadings
    cases accepted : acceptedTitle isDecimal line with
    | none => exact ih s
    | some title =>
      simp only
      rw [ih, extractSection_warnings, List.exists_mem_cons_iff, or_assoc]

theorem mem_hashes (markdown digest : String) :
    digest ∈ (extractSampleInputHashes isDecimal markdown).1 ↔
      ∃ other ∈ acceptedHeadings isDecimal (linesOf markdown),
        ∃ first ∈ (blocks other.2).head?, isEmptyBlock first = false ∧
          blockDigest first = digest := by
  rw [extractSampleInputHashes, Finset.mem_sort, extractLines_hashes]
  simp

theorem mem_warnings (markdown label : String) :
    (∃ reason, .section label reason ∈ (extractSampleInputHashes isDecimal markdown).2) ↔
      ∃ other ∈ acceptedHeadings isDecimal (linesOf markdown), other.1 = label ∧
        ¬ Plain other.2 := by
  have found := @extractLines_warnings isDecimal (linesOf markdown) {} label
  have start : ¬ ∃ reason, Warning.section label reason ∈ ({} : Extraction).warnings := by simp
  rw [or_iff_right start] at found
  rw [← found, extractSampleInputHashes]
  simp only
  split
  · rfl
  · simp

theorem samples_covered (isDecimal : Char → Bool) (markdown : String) :
    Covered isDecimal markdown ↔ LaterBlocksKnown isDecimal markdown := by
  constructor
  · intro covered sec mem plain block memBlock filled
    rcases covered sec mem block (List.mem_of_mem_tail memBlock) filled with hashed | warned
    · exact (mem_hashes markdown _).mp hashed
    · obtain ⟨other, memOther, label, notPlain⟩ := (mem_warnings markdown _).mp warned
      exact absurd (plain other memOther label) notPlain
  · intro known sec mem block memBlock filled
    by_cases warned : ∃ reason,
        .section sec.1 reason ∈ (extractSampleInputHashes isDecimal markdown).2
    · exact .inr warned
    · left
      rw [mem_hashes]
      cases split : blocks sec.2 with
      | nil =>
        rw [split] at memBlock
        cases memBlock
      | cons first later =>
        rw [split, List.mem_cons] at memBlock
        rcases memBlock with rfl | tail
        · exact ⟨sec, mem, block, by simp [split], filled, rfl⟩
        · refine known sec mem ?_ block (by rwa [split]) filled
          intro other memOther label
          by_contra notPlain
          exact warned ((mem_warnings markdown _).mpr ⟨other, memOther, label, notPlain⟩)

/- Two sample inputs under one heading. -/
def twoSamples : String := "## 样例输入\n~~~\n1\n~~~\n~~~\n2\n~~~\n"

theorem second_sample_skipped : ¬ Covered Char.isDigit twoSamples := by
  have headings : acceptedHeadings Char.isDigit (linesOf twoSamples) =
      [("样例输入", ["~~~", "1", "~~~", "~~~", "2", "~~~", ""])] := by decide +kernel
  have found : blocks ["~~~", "1", "~~~", "~~~", "2", "~~~", ""] = [["1"], ["2"]] := by
    decide +kernel
  have filled : isEmptyBlock ["2"] = false := by decide +kernel
  have digests : blockDigest ["1"] ≠ blockDigest ["2"] := by decide +kernel
  have plain : Plain ["~~~", "1", "~~~", "~~~", "2", "~~~", ""] := by
    refine ⟨by decide +kernel, ["1"], by rw [found]; rfl, by decide +kernel⟩
  intro covered
  have reported := covered _ (by rw [headings]; exact List.mem_singleton_self _) ["2"]
    (by rw [found]; simp) filled
  rw [mem_hashes, mem_warnings, headings] at reported
  simp only [List.mem_singleton, exists_eq_left, found, List.head?_cons, Option.mem_def,
    Option.some.injEq, exists_eq_left', true_and] at reported
  rcases reported with ⟨-, same⟩ | notPlain
  · exact digests same
  · exact notPlain plain

end NoiContest.SampleInputs
