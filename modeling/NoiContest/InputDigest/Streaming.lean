import NoiContest.InputDigest.Normalizers

/- The stream gives the digest of the whole file, however it is cut into chunks. -/
namespace NoiContest.InputDigest
open PyBytes Outcome

section LineEnds
variable {rest chunk : List UInt8} {byte : UInt8}

theorem unixLines_nil : unixLines [] = [] := by
  simp [unixLines, replace]

theorem unixLines_crlf :
    unixLines (carriageReturn :: lineFeed :: rest) = lineFeed :: unixLines rest := by
  rw [unixLines, replace_hit, unixLines, replace_one, replace_one, List.map_append]
  rfl

theorem unixLines_cr (alone : rest.head? ≠ some lineFeed) :
    unixLines (carriageReturn :: rest) = lineFeed :: unixLines rest := by
  rw [unixLines, replace_miss (.inr alone), unixLines, replace_one, replace_one, List.map_cons]
  rfl

theorem unixLines_other (other : byte ≠ carriageReturn) :
    unixLines (byte :: rest) = byte :: unixLines rest := by
  rw [unixLines, replace_miss (.inl other), unixLines, replace_one, replace_one, List.map_cons,
    if_neg other]

/- The rest of the file after a chunk that may have ended between the two bytes of a CRLF. -/
theorem lineFeeds_unixLines (rest : List UInt8) : ∀ chunk, (lineFeeds chunk).1 ++
    unixLines (dropLineFeed (lineFeeds chunk).2 rest) = unixLines (chunk ++ rest)
  | [] => rfl
  | [byte] => by
    by_cases cr : byte = carriageReturn
    · subst cr
      cases rest with
      | nil =>
        have done := @unixLines_cr [] (by simp)
        simp [lineFeeds, dropLineFeed, done, unixLines_nil]
      | cons next rest =>
        by_cases lf : next = lineFeed
        · subst lf
          simp [lineFeeds, dropLineFeed, unixLines_crlf]
        · have done := @unixLines_cr (next :: rest) (by simpa using lf)
          simp [lineFeeds, dropLineFeed, lf, done]
    · simp [lineFeeds, dropLineFeed, cr, unixLines_other cr]
  | byte :: next :: more => by
    by_cases cr : byte = carriageReturn
    · subst cr
      by_cases lf : next = lineFeed
      · subst lf
        have ih := lineFeeds_unixLines rest more
        simp [lineFeeds, unixLines_crlf, ih]
      · have ih := lineFeeds_unixLines rest (next :: more)
        have alone : (next :: more ++ rest).head? ≠ some lineFeed := by simpa using lf
        have done := unixLines_cr alone
        simp only [lineFeeds, ne_eq, not_true_eq_false, if_false, lf, List.cons_append] at ih done ⊢
        rw [done, ih]
    · have ih := lineFeeds_unixLines rest (next :: more)
      have done := @unixLines_other (next :: more ++ rest) byte cr
      simp only [lineFeeds, ne_eq, cr, not_false_eq_true, if_true, List.cons_append] at ih done ⊢
      rw [done, ih]

/- The same for a chunk after another one. -/
theorem chunk_unixLines (skip : Bool) (chunk rest : List UInt8) :
    (lineFeeds (dropLineFeed skip chunk)).1 ++ unixLines
        (dropLineFeed (if chunk = [] then skip else (lineFeeds (dropLineFeed skip chunk)).2) rest) =
      unixLines (dropLineFeed skip (chunk ++ rest)) := by
  cases chunk with
  | nil => simp [dropLineFeed, lineFeeds]
  | cons byte more =>
    have moved : dropLineFeed skip (byte :: more ++ rest) =
        dropLineFeed skip (byte :: more) ++ rest := by
      by_cases hit : skip = true ∧ byte = lineFeed
      · simp [dropLineFeed, hit.1, hit.2]
      · simp [dropLineFeed, hit]
    rw [moved, if_neg (List.cons_ne_nil _ _)]
    exact lineFeeds_unixLines rest _

end LineEnds

section Whitespace

theorem inputWhitespace_eq : inputWhitespace = isSpace := rfl

theorem rstrip_rstrip (line : List UInt8) : rstrip (rstrip line) = rstrip line :=
  List.rdropWhile_idempotent isSpace line

theorem rstrip_append {front back : List UInt8} (filled : back ≠ []) (kept : rstrip back = back) :
    rstrip (front ++ back) = front ++ back := by
  rw [rstrip, List.rdropWhile_eq_self_iff] at kept ⊢
  intro some
  rw [List.getLast_append_of_ne_nil some filled]
  exact kept filled

theorem rstrip_feeds (text : List UInt8) (n : Nat) :
    rstrip (text ++ List.replicate n lineFeed) = rstrip text := by
  induction n with
  | zero => rw [List.replicate_zero, List.append_nil]
  | succ n ih =>
    rw [List.replicate_succ', ← List.append_assoc, rstrip, List.rdropWhile_concat_pos _ _ _ (by decide)]
    exact ih

theorem lstrip_append {front back : List UInt8} (kept : lstrip front ≠ []) :
    lstrip (front ++ back) = lstrip front ++ back := by
  rw [lstrip, List.dropWhile_append, if_neg]
  · rfl
  · simpa [lstrip] using kept

theorem lstrip_blank {front back : List UInt8} (blank : lstrip front = []) :
    lstrip (front ++ back) = lstrip back := by
  rw [lstrip, List.dropWhile_append, if_pos]
  · rfl
  · simpa [lstrip] using blank

/- Stripping on the left does not touch the end. -/
theorem rstrip_lstrip {line : List UInt8} (kept : rstrip line = line) :
    rstrip (lstrip line) = lstrip line := by
  rw [rstrip, List.rdropWhile_eq_self_iff] at kept ⊢
  intro some
  have filled : line ≠ [] := by
    rintro rfl
    exact some rfl
  have ends : (lstrip line).getLast some = line.getLast filled :=
    (List.dropWhile_suffix isSpace).getLast some
  rw [ends]
  exact kept filled

end Whitespace

section Lines
variable {lines : List (List UInt8)} {s : Normalizer}

theorem hashSeparators_eq (s : Normalizer) : hashSeparators s =
    { s with
      hashed := s.hashed ++ List.replicate s.pendingSeparators lineFeed
      pendingSeparators := 0 } := by
  induction pending : s.pendingSeparators using Nat.strongRecOn generalizing s with
  | _ n ih =>
    subst pending
    unfold hashSeparators
    by_cases waiting : 0 < s.pendingSeparators
    · rw [if_pos waiting, ih _ (by dsimp only; omega) _ rfl]
      simp only [List.append_assoc, List.replicate_append_replicate]
      congr 3
      omega
    · rw [if_neg waiting]
      have none : s.pendingSeparators = 0 := by omega
      cases s
      simp_all

/-- What the whole file has before its outer blanks are stripped. -/
def printed (lines : List (List UInt8)) : List UInt8 := join lineFeed (lines.map rstrip)

theorem printed_append (some : lines ≠ []) (line : List UInt8) :
    printed (lines ++ [line]) = printed lines ++ lineFeed :: rstrip line := by
  rw [printed, List.map_append, List.map_singleton, join_append (by simpa using some)]
  rfl

/-- The finished lines are hashed up to the blank ones at the end, which are still counted. -/
structure Printed (lines : List (List UInt8)) (s : Normalizer) : Prop where
  index : s.lineIndex = lines.length
  quiet : s.outputStarted = false → s.hashed = [] ∧ lstrip (printed lines) = []
  begun : s.outputStarted = true → s.hashed ≠ [] ∧ rstrip s.hashed = s.hashed ∧
    s.hashed ++ List.replicate s.pendingSeparators lineFeed = lstrip (printed lines)

theorem finishLine_printed (before : Printed lines s) :
    Printed (lines ++ [s.lineParts.flatten]) (finishLine s) := by
  have index : (finishLine s).lineIndex = (lines ++ [s.lineParts.flatten]).length := by
    rw [List.length_append, ← before.index]
    unfold finishLine
    simp only [hashSeparators_eq]
    split_ifs <;> rfl
  cases started : s.outputStarted with
  | true =>
    obtain ⟨filled, visible, shown⟩ := before.begun started
    have some : lines ≠ [] := by
      rintro rfl
      simp [printed, join, lstrip] at shown
      exact filled shown.1
    have later : 0 < s.lineIndex := by
      rw [before.index]
      exact List.length_pos_of_ne_nil some
    have grown : lstrip (printed (lines ++ [s.lineParts.flatten])) =
        s.hashed ++ List.replicate (s.pendingSeparators + 1) lineFeed ++
          rstrip s.lineParts.flatten := by
      rw [printed_append some, lstrip_append (by rw [← shown]; simp [filled]), ← shown,
        List.replicate_succ']
      simp
    by_cases blank : rstrip s.lineParts.flatten = []
    · have done : finishLine s = { s with
          pendingSeparators := s.pendingSeparators + 1
          lineParts := []
          lineBytes := 0
          lineIndex := s.lineIndex + 1 } := by
        unfold finishLine
        simp only [started, later, if_true, inputWhitespace_eq]
        exact if_pos blank
      rw [done]
      refine ⟨done ▸ index, fun quiet => ?_, fun _ => ⟨filled, visible, ?_⟩⟩
      · rw [started] at quiet
        cases quiet
      · rw [grown, blank, List.append_nil]
    · have done : finishLine s = { s with
          pendingSeparators := 0
          lineParts := []
          lineBytes := 0
          lineIndex := s.lineIndex + 1
          outputStarted := true
          hashed := s.hashed ++ List.replicate (s.pendingSeparators + 1) lineFeed ++
            rstrip s.lineParts.flatten } := by
        unfold finishLine
        simp only [started, later, if_true, inputWhitespace_eq, hashSeparators_eq]
        exact (if_neg blank).trans rfl
      rw [done]
      refine ⟨done ▸ index, (by rintro ⟨⟩), fun _ => ⟨?_, ?_, ?_⟩⟩
      · simp [filled]
      · exact rstrip_append blank (rstrip_rstrip _)
      · rw [grown, List.replicate_zero, List.append_nil]
  | false =>
    obtain ⟨nothing, blanks⟩ := before.quiet started
    have grown : lstrip (printed (lines ++ [s.lineParts.flatten])) =
        lstrip (rstrip s.lineParts.flatten) := by
      by_cases first : lines = []
      · subst first
        rfl
      · rw [printed_append first, lstrip_blank blanks]
        rfl
    by_cases blank : lstrip (rstrip s.lineParts.flatten) = []
    · have done : ∃ pending, finishLine s = { s with
          pendingSeparators := pending
          lineParts := []
          lineBytes := 0
          lineIndex := s.lineIndex + 1 } := by
        refine ⟨if 0 < s.lineIndex then s.pendingSeparators + 1 else s.pendingSeparators, ?_⟩
        unfold finishLine
        simp only [started, Bool.false_eq_true, if_false, inputWhitespace_eq]
        exact if_pos blank
      obtain ⟨pending, done⟩ := done
      rw [done]
      refine ⟨done ▸ index, fun _ => ⟨nothing, grown.trans blank⟩, fun begun => ?_⟩
      rw [started] at begun
      cases begun
    · have done : finishLine s = { s with
          pendingSeparators := 0
          lineParts := []
          lineBytes := 0
          lineIndex := s.lineIndex + 1
          outputStarted := true
          hashed := lstrip (rstrip s.lineParts.flatten) } := by
        unfold finishLine
        simp only [started, Bool.false_eq_true, if_false, inputWhitespace_eq]
        refine (if_neg blank).trans ?_
        rw [nothing]
        rfl
      rw [done]
      refine ⟨done ▸ index, (by rintro ⟨⟩), fun _ => ⟨blank, ?_, ?_⟩⟩
      · exact rstrip_lstrip (rstrip_rstrip _)
      · rw [grown, List.replicate_zero, List.append_nil]

/- At the end the counted separators are dropped. -/
theorem printed_hashed (done : Printed lines s) : s.hashed = strip (printed lines) := by
  cases started : s.outputStarted with
  | true =>
    obtain ⟨-, visible, shown⟩ := done.begun started
    rw [strip, ← shown, rstrip_feeds, visible]
  | false =>
    obtain ⟨nothing, blanks⟩ := done.quiet started
    rw [strip, blanks, nothing]
    rfl

end Lines

section Chunks
variable {maxLineBytes byteBudget : Nat} {lines : List (List UInt8)} {s : Normalizer}
  {part bytes rest chunk : List UInt8}

/-- Between two bytes: the finished lines, and the parts of the line that is not finished. -/
structure Holds (lines : List (List UInt8)) (s : Normalizer) : Prop where
  printed : Printed lines s
  clean : lineFeed ∉ s.lineParts.flatten
  size : s.lineBytes = s.lineParts.flatten.length

theorem appendLinePart_ok (held : Holds lines s) (clean : lineFeed ∉ part)
    (short : (s.lineParts.flatten ++ part).length ≤ maxLineBytes) :
    ∃ s', appendLinePart maxLineBytes s part = .ok s' ∧ Holds lines s' ∧
      s'.lineParts.flatten = s.lineParts.flatten ++ part ∧ s'.total = s.total ∧
      s'.skipLeadingLineFeed = s.skipLeadingLineFeed := by
  by_cases empty : part = []
  · exact ⟨s, if_pos empty, held, by simp [empty], rfl, rfl⟩
  · have fits : ¬ maxLineBytes < s.lineBytes + part.length := by
      rw [held.size, ← List.length_append]
      omega
    have grown : (s.lineParts ++ [part]).flatten = s.lineParts.flatten ++ part := by simp
    refine ⟨_, (if_neg empty).trans (if_neg fits), ?_, grown, rfl, rfl⟩
    refine ⟨⟨held.printed.index, held.printed.quiet, held.printed.begun⟩, ?_, ?_⟩
    · rw [grown, List.mem_append, not_or]
      exact ⟨held.clean, clean⟩
    · rw [grown, List.length_append, ← held.size]

theorem finishLine_frame (s : Normalizer) : (finishLine s).lineParts = [] ∧
    (finishLine s).lineBytes = 0 ∧ (finishLine s).total = s.total ∧
    (finishLine s).skipLeadingLineFeed = s.skipLeadingLineFeed := by
  unfold finishLine
  simp only [hashSeparators_eq]
  split_ifs <;> exact ⟨rfl, rfl, rfl, rfl⟩

theorem first_fits (clean : lineFeed ∉ part)
    (short : ∀ line ∈ split lineFeed (part ++ rest), line.length ≤ maxLineBytes) :
    part.length ≤ maxLineBytes := by
  obtain ⟨more, others, found⟩ := split_first clean rest
  rw [found] at short
  have first := short _ List.mem_cons_self
  rw [List.length_append] at first
  omega

/- All lines of the text are those finished and those of what is still to come. -/
theorem processNormalized_ok (held : Holds lines s) (clean : lineFeed ∉ part)
    (short : ∀ line ∈ split lineFeed (s.lineParts.flatten ++ part ++ (bytes ++ rest)),
      line.length ≤ maxLineBytes) :
    ∃ s' lines', processNormalized maxLineBytes part s bytes = .ok s' ∧ Holds lines' s' ∧
      lines' ++ split lineFeed (s'.lineParts.flatten ++ rest) =
        lines ++ split lineFeed (s.lineParts.flatten ++ part ++ (bytes ++ rest)) ∧
      s'.total = s.total ∧ s'.skipLeadingLineFeed = s.skipLeadingLineFeed := by
  induction bytes generalizing part s lines with
  | nil =>
    have joint : lineFeed ∉ s.lineParts.flatten ++ part :=
      fun mem => (List.mem_append.mp mem).elim held.clean clean
    obtain ⟨s', done, held', grown, total, skip⟩ :=
      appendLinePart_ok held clean (first_fits joint short)
    exact ⟨s', lines, done, held', by rw [grown, List.nil_append], total, skip⟩
  | cons byte bytes ih =>
    by_cases ends : byte = lineFeed
    · subst ends
      have joint : lineFeed ∉ s.lineParts.flatten ++ part :=
        fun mem => (List.mem_append.mp mem).elim held.clean clean
      obtain ⟨s', done, held', grown, total, skip⟩ :=
        appendLinePart_ok held clean (first_fits joint short)
      obtain ⟨parts, size, total', skip'⟩ := finishLine_frame s'
      have next : Holds (lines ++ [s'.lineParts.flatten]) (finishLine s') :=
        ⟨finishLine_printed held'.printed, by simp [parts], by simp [parts, size]⟩
      have cut : split lineFeed (s.lineParts.flatten ++ part ++ (lineFeed :: bytes ++ rest)) =
          (s.lineParts.flatten ++ part) :: split lineFeed (bytes ++ rest) := by
        rw [List.cons_append, split_separator joint]
      rw [cut] at short
      have later : ∀ line ∈ split lineFeed ((finishLine s').lineParts.flatten ++ [] ++ (bytes ++ rest)),
          line.length ≤ maxLineBytes := by
        simpa [parts] using fun line mem => short line (List.mem_cons_of_mem _ mem)
      obtain ⟨s'', lines'', done', held'', all, total'', skip''⟩ :=
        ih next List.not_mem_nil later
      refine ⟨s'', lines'', ?_, held'', ?_, ?_, ?_⟩
      · rw [processNormalized, if_pos rfl, done, ok_bind]
        exact done'
      · rw [all, cut, grown, List.append_assoc]
        simp [parts]
      · rw [total'', total', total]
      · rw [skip'', skip', skip]
    · have clean' : lineFeed ∉ part ++ [byte] := by
        simp [clean, Ne.symm ends]
      have same : s.lineParts.flatten ++ (part ++ [byte]) ++ (bytes ++ rest) =
          s.lineParts.flatten ++ part ++ (byte :: bytes ++ rest) := by simp
      rw [← same] at short ⊢
      rw [processNormalized, if_neg ends]
      exact ih held clean' short

/-- Between two chunks, with what is left of the file. -/
structure Between (payload rest : List UInt8) (s : Normalizer) (lines : List (List UInt8)) :
    Prop where
  held : Holds lines s
  total : s.total + rest.length = payload.length
  all : lines ++ split lineFeed (s.lineParts.flatten ++
      unixLines (dropLineFeed s.skipLeadingLineFeed rest)) = split lineFeed (unixLines payload)

theorem consume_ok {payload : List UInt8} (between : Between payload (chunk ++ rest) s lines)
    (budget : payload.length ≤ byteBudget)
    (short : ∀ line ∈ split lineFeed (unixLines payload), line.length ≤ maxLineBytes) :
    ∃ s' lines', consume maxLineBytes byteBudget s chunk = .ok s' ∧
      Between payload rest s' lines' := by
  have total := between.total
  rw [List.length_append] at total
  have within : ¬ byteBudget < s.total + chunk.length := by omega
  have joined := chunk_unixLines s.skipLeadingLineFeed chunk rest
  have all := between.all
  rw [← joined] at all
  let moved : Normalizer := { s with
    total := s.total + chunk.length
    skipLeadingLineFeed := if chunk = [] then s.skipLeadingLineFeed
      else (lineFeeds (dropLineFeed s.skipLeadingLineFeed chunk)).2 }
  have held : Holds lines moved :=
    ⟨⟨between.held.printed.index, between.held.printed.quiet, between.held.printed.begun⟩,
      between.held.clean, between.held.size⟩
  by_cases empty : (lineFeeds (dropLineFeed s.skipLeadingLineFeed chunk)).1 = []
  · refine ⟨moved, lines, (if_neg within).trans (if_pos empty), held, ?_, ?_⟩
    · show s.total + chunk.length + rest.length = payload.length
      omega
    · rw [empty, List.nil_append] at all
      exact all
  · have fits : ∀ line ∈ split lineFeed (moved.lineParts.flatten ++ [] ++
        ((lineFeeds (dropLineFeed s.skipLeadingLineFeed chunk)).1 ++
          unixLines (dropLineFeed moved.skipLeadingLineFeed rest))),
        line.length ≤ maxLineBytes := by
      intro line mem
      rw [List.append_nil] at mem
      exact short line (all ▸ List.mem_append_right lines mem)
    obtain ⟨s', lines', done, held', all', total', skip'⟩ :=
      processNormalized_ok held List.not_mem_nil fits
    refine ⟨s', lines', ((if_neg within).trans (if_neg empty)).trans done, held', ?_, ?_⟩
    · rw [total']
      show s.total + chunk.length + rest.length = payload.length
      omega
    · rw [skip', all', List.append_nil]
      exact all

theorem consume_all {payload : List UInt8} {chunks : List (List UInt8)}
    (between : Between payload chunks.flatten s lines) (budget : payload.length ≤ byteBudget)
    (short : ∀ line ∈ split lineFeed (unixLines payload), line.length ≤ maxLineBytes) :
    ∃ s' lines', chunks.foldlM (consume maxLineBytes byteBudget) s = .ok s' ∧
      Between payload [] s' lines' := by
  induction chunks generalizing s lines with
  | nil => exact ⟨s, lines, rfl, between⟩
  | cons chunk chunks ih =>
    obtain ⟨s', lines', done, between'⟩ := consume_ok between budget short
    obtain ⟨s'', lines'', rest, last⟩ := ih between'
    exact ⟨s'', lines'', by rw [List.foldlM_cons, done, ok_bind, rest], last⟩

end Chunks

/- However the file is cut into chunks, the plugin has the digest of the orchestrator. -/
theorem normalizers_agree (maxLineBytes byteBudget : Nat) (chunks : List (List UInt8))
    (budget : chunks.flatten.length ≤ byteBudget)
    (short : ∀ line ∈ split lineFeed (unixLines chunks.flatten), line.length ≤ maxLineBytes) :
    ∃ s, chunks.foldlM (consume maxLineBytes byteBudget) {} = .ok s ∧
      (finishLine s).hashed = normalizedInput chunks.flatten ∧
      normalizedInputSha256 maxLineBytes byteBudget chunks =
        .ok ⟨normalizedInputDigest chunks.flatten, chunks.flatten.length⟩ := by
  have start : Between chunks.flatten chunks.flatten {} [] := by
    refine ⟨⟨⟨rfl, fun _ => ⟨rfl, rfl⟩, nofun⟩, by simp, rfl⟩, by simp, ?_⟩
    simp [dropLineFeed]
  obtain ⟨s, lines, done, last⟩ := consume_all start budget short
  obtain ⟨-, -, total, -⟩ := finishLine_frame s
  have all : lines ++ [s.lineParts.flatten] = split lineFeed (unixLines chunks.flatten) := by
    have closed := last.all
    rw [dropLineFeed, if_neg (by simp), unixLines_nil, List.append_nil,
      split_clean last.held.clean] at closed
    exact closed
  have hashed : (finishLine s).hashed = normalizedInput chunks.flatten := by
    rw [printed_hashed (finishLine_printed last.held.printed), all]
    rfl
  refine ⟨s, done, hashed, ?_⟩
  have length := last.total
  rw [List.length_nil, Nat.add_zero] at length
  rw [normalizedInputSha256, done, ok_bind]
  show Except.ok (DigestResult.mk _ _) = _
  rw [hashed, total, length]
  rfl

/- A CRLF is cut in two, a line is blank, and a chunk is empty. -/
theorem normalizers_agree_small :
    normalizedInputSha256 8 20 [[0x20, 0x61, 0x20, 0x0d], [], [0x0a, 0x0d, 0x62], [0x09, 0x0a]] =
      .ok ⟨normalizedInputDigest [0x20, 0x61, 0x20, 0x0d, 0x0a, 0x0d, 0x62, 0x09, 0x0a], 9⟩ :=
  (normalizers_agree 8 20 [[0x20, 0x61, 0x20, 0x0d], [], [0x0a, 0x0d, 0x62], [0x09, 0x0a]]
    (by decide) (by simp [unixLines, replace, split, lineFeed, carriageReturn])).choose_spec.2.2

end NoiContest.InputDigest
