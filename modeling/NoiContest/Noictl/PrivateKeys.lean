import NoiContest.Noictl.LeakGuard

/- No header of a private key is in what redaction shows, however it is written as JSON. -/
namespace NoiContest.Noictl
open Outcome PyText Patterns

def keyHeader : List Char := "-----begin ".toList

/-- No header in lower case. -/
def Quiet (t : List Char) : Prop := ¬ keyHeader <:+: lower t

theorem lower_append (a b : List Char) : lower (a ++ b) = lower a ++ lower b := by
  simp [lower]

theorem lower_sound {t word : List Char} (quiet : Quiet t) (header : keyHeader <+: word) :
    contains word (lower t) = false := by
  rw [Bool.eq_false_iff, ne_eq, contains_iff]
  exact fun inside => quiet (header.isInfix.trans inside)

/-- A character that stays as it is in lower case and is not in the header. -/
structure Separates (c : Char) : Prop where
  same : lowerChar c = [c]
  apart : c ∉ keyHeader

theorem separates_json {c : Char} (mem : c ∈ ['"', ',', ':', '[', ']', '\x7b', '\x7d']) :
    Separates c := by
  simp only [List.mem_cons, List.not_mem_nil, or_false] at mem
  rcases mem with rfl | rfl | rfl | rfl | rfl | rfl | rfl <;> exact ⟨by decide, by decide⟩

section Joints
variable {a b : List Char} {c : Char}

theorem Quiet.joint (first : Quiet a) (separates : Separates c) (second : Quiet b) :
    Quiet (a ++ c :: b) := by
  intro inside
  have eq : lower (a ++ c :: b) = lower a ++ c :: lower b := by
    rw [lower_append, show lower (c :: b) = lowerChar c ++ lower b from rfl, separates.same]
    rfl
  rw [eq] at inside
  exact (infix_apart separates.apart inside).elim first second

theorem quiet_nil : Quiet [] := by
  intro inside
  exact absurd (List.infix_nil.mp inside) (by decide)

theorem Quiet.framed (inner : Quiet a) {d : Char} (opening : Separates c) (closing : Separates d) :
    Quiet (c :: a ++ [d]) :=
  (quiet_nil.joint opening inner).joint closing quiet_nil

theorem quiet_join {texts : List (List Char)} (each : ∀ t ∈ texts, Quiet t) :
    Quiet ([','].intercalate texts) := by
  induction texts with
  | nil => exact quiet_nil
  | cons first rest ih =>
    have quiet := each first List.mem_cons_self
    have later := ih fun t mem => each t (List.mem_cons_of_mem _ mem)
    cases rest with
    | nil => simpa [List.intercalate_singleton] using quiet
    | cons second rest =>
      rw [List.intercalate_cons_cons, List.append_assoc]
      exact quiet.joint (separates_json (by simp)) later

end Joints

/- A mark that only it itself is in lower case. -/
structure Kept (mark : Char) : Prop where
  letters : ∀ n : Fin 26, (Char.ofNat (65 + n)).toLower ≠ mark
  others : mark ∉ ['i', Char.ofNat 0x307, 'k']

theorem Kept.toLower {mark c : Char} (kept : Kept mark) (same : c.toLower = mark) : c = mark := by
  by_cases upper : c.val ≥ 'A'.val ∧ c.val ≤ 'Z'.val
  · obtain ⟨n, rfl⟩ : ∃ n : Fin 26, c = Char.ofNat (65 + n) := by
      simp only [ge_iff_le, UInt32.le_iff_toNat_le] at upper
      obtain ⟨low, high⟩ : 65 ≤ c.toNat ∧ c.toNat ≤ 90 := upper
      exact ⟨⟨c.toNat - 65, by omega⟩, by
        rw [Nat.add_sub_cancel' low, Char.ofNat_toNat]⟩
    exact absurd same (kept.letters n)
  · have unchanged : c.toLower = c := dif_neg upper
    rwa [unchanged] at same

theorem Kept.lower {mark : Char} (kept : Kept mark) {t : List Char} (plain : mark ∉ t) :
    mark ∉ lower t := by
  have others := kept.others
  simp only [List.mem_cons, List.not_mem_nil, or_false, not_or] at others
  intro mem
  obtain ⟨c, own, inside⟩ := List.mem_flatMap.mp mem
  refine plain ?_
  unfold lowerChar at inside
  split at inside
  · simp [others] at inside
  · split at inside
    · simp [others] at inside
    · rw [← kept.toLower (List.mem_singleton.mp inside).symm]
      exact own

/- A text without a blank has no header, and one without a dash has none either. -/
theorem quiet_word {t : List Char} (plain : ' ' ∉ t) : Quiet t := fun inside =>
  Kept.lower ⟨by decide, by decide⟩ plain (inside.subset (by decide))

theorem quiet_dashless {t : List Char} (plain : '-' ∉ t) : Quiet t := fun inside =>
  Kept.lower ⟨by decide, by decide⟩ plain (inside.subset (by decide))

theorem lower_escapes : Escapes lowerChar (fun c => lower (JsonText.escapeChar c)) '\\' '-' where
  form c := by
    have hex : ∀ n < 16, lowerChar (JsonText.hexDigit n) = [JsonText.hexDigit n] ∧
        '-' ≠ JsonText.hexDigit n := by decide
    have plain : ∀ d ∈ ['\\', 'u', '0', '"', 'n', 'r', 't', 'b', 'f'], lowerChar d = [d] := by
      simp only [List.forall_mem_cons, List.not_mem_nil, false_implies, implies_true, and_true]
      decide
    have written := JsonText.escapeChar_written c
    generalize JsonText.escapeChar c = text at written ⊢
    cases written with
    | @short d known =>
      have marks : ∀ d ∈ ['"', '\\', 'n', 'r', 't', 'b', 'f'], lowerChar d = [d] ∧ '-' ≠ d := by
        simp only [List.forall_mem_cons, List.not_mem_nil, false_implies, implies_true, and_true]
        decide
      have same := marks d known
      exact .inr ⟨[d], by simp [lower, same.1, plain], by simpa using same.2⟩
    | @code n m high low =>
      refine .inr ⟨['u', '0', '0', JsonText.hexDigit n, JsonText.hexDigit m], ?_, ?_⟩
      · simp [lower, (hex n high).1, (hex m low).1, plain]
      · simp [(hex n high).2, (hex m low).2]
    | plain => exact .inl (by simp [lower])

theorem quiet_quote {s : String} (quiet : Quiet s.toList) : Quiet (JsonText.quote s).toList := by
  have inner : Quiet (s.toList.flatMap JsonText.escapeChar) := by
    intro inside
    rw [lower, List.flatMap_assoc] at inside
    exact quiet (infix_image lower_escapes (by decide) (by decide) s.toList inside)
  have eq : (JsonText.quote s).toList = '"' :: s.toList.flatMap JsonText.escapeChar ++ ['"'] := by
    simp [JsonText.quote]
  rw [eq]
  exact inner.framed (separates_json (by simp)) (separates_json (by simp))

mutual

/-- A tree that json.dumps writes, without a header in its texts and keys. -/
def Clean : Tree String → Prop
  | .scalar (.str s) => Quiet s.toList
  | .scalar (.float x) => x.finite = true
  | .scalar (.other _) => False
  | .scalar _ => True
  | .list items => CleanItems items
  | .dict fields => CleanFields fields

def CleanItems : List (Tree String) → Prop
  | [] => True
  | item :: rest => Clean item ∧ CleanItems rest

def CleanFields : List (String × Tree String) → Prop
  | [] => True
  | (key, item) :: rest => Quiet key.toList ∧ Clean item ∧ CleanFields rest

end

instance (t : List Char) : Decidable (Quiet t) :=
  decidable_of_iff (contains keyHeader (lower t) = false) (by
    rw [Quiet, ← contains_iff, Bool.not_eq_true])

mutual

instance decideClean : (t : Tree String) → Decidable (Clean t)
  | .scalar (.str s) => inferInstanceAs (Decidable (Quiet s.toList))
  | .scalar (.float x) => inferInstanceAs (Decidable (x.finite = true))
  | .scalar (.other _) => inferInstanceAs (Decidable False)
  | .scalar .null => inferInstanceAs (Decidable True)
  | .scalar (.bool _) => inferInstanceAs (Decidable True)
  | .scalar (.int _) => inferInstanceAs (Decidable True)
  | .list items => decideCleanItems items
  | .dict fields => decideCleanFields fields

instance decideCleanItems : (items : List (Tree String)) → Decidable (CleanItems items)
  | [] => inferInstanceAs (Decidable True)
  | item :: rest => @instDecidableAnd _ _ (decideClean item) (decideCleanItems rest)

instance decideCleanFields : (fields : List (String × Tree String)) → Decidable (CleanFields fields)
  | [] => inferInstanceAs (Decidable True)
  | (key, item) :: rest => @instDecidableAnd _ _ (inferInstanceAs (Decidable (Quiet key.toList)))
      (@instDecidableAnd _ _ (decideClean item) (decideCleanFields rest))

end

theorem digits_plain (n : Nat) : ' ' ∉ (toString n).toList := by
  intro mem
  rw [Nat.toString_eq_repr, Nat.toList_repr] at mem
  exact absurd (Nat.isDigit_of_mem_toDigits (by omega) (by omega) mem) (by decide)

theorem quiet_int (n : Int) : Quiet (toString n).toList := by
  refine quiet_word ?_
  cases n with
  | ofNat n => exact digits_plain n
  | negSucc n =>
    have eq : (toString (Int.negSucc n)).toList = '-' :: (toString (n + 1)).toList := by
      rw [Int.toString_eq_repr, Int.repr, String.toList_append]
      rfl
    rw [eq, List.mem_cons, not_or]
    exact ⟨by decide, digits_plain (n + 1)⟩

theorem quiet_scalar {v : Scalar} (clean : Clean (.scalar v)) : Quiet (dumpsScalar v).toList := by
  cases v with
  | null => exact quiet_word (by decide)
  | bool b => cases b <;> exact quiet_word (by decide)
  | int n => exact quiet_int n
  | float x => exact quiet_word x.plain
  | str s => exact quiet_quote clean
  | other t => exact quiet_nil

theorem mem_sortFields {fields : List (String × String)} {field : String × String} :
    field ∈ JsonText.sortFields fields ↔ field ∈ fields := List.mem_insertionSort _

mutual

theorem quiet_dumps (t : Tree String) (clean : Clean t) : Quiet (dumps t).toList := by
  cases t with
  | scalar v => exact quiet_scalar clean
  | list items =>
    have inner : Quiet ([','].intercalate ((dumpsItems items).map String.toList)) := by
      refine quiet_join fun text mem => ?_
      obtain ⟨t, own, rfl⟩ := List.mem_map.mp mem
      exact quiet_dumpsItems items clean t own
    rw [dumps, String.toList_append, String.toList_append, String.toList_intercalate]
    exact inner.framed (separates_json (by decide)) (separates_json (by decide))
  | dict fields =>
    have inner : Quiet ([','].intercalate (((JsonText.sortFields (dumpsFields fields)).map
        fun field => JsonText.quote field.1 ++ ":" ++ field.2).map String.toList)) := by
      refine quiet_join fun text mem => ?_
      rw [List.mem_map] at mem
      obtain ⟨t, own, rfl⟩ := mem
      rw [List.mem_map] at own
      obtain ⟨field, own, rfl⟩ := own
      obtain ⟨key, value⟩ := quiet_dumpsFields fields clean field (mem_sortFields.mp own)
      rw [String.toList_append, String.toList_append, List.append_assoc]
      exact (quiet_quote key).joint (separates_json (by decide)) value
    rw [dumps, String.toList_append, String.toList_append, String.toList_intercalate]
    exact inner.framed (separates_json (by decide)) (separates_json (by decide))

theorem quiet_dumpsItems (items : List (Tree String)) (clean : CleanItems items) :
    ∀ t ∈ dumpsItems items, Quiet t.toList := by
  cases items with
  | nil => nofun
  | cons item rest =>
    intro t mem
    rcases List.mem_cons.mp mem with rfl | later
    · exact quiet_dumps item clean.1
    · exact quiet_dumpsItems rest clean.2 t later

theorem quiet_dumpsFields (fields : List (String × Tree String)) (clean : CleanFields fields) :
    ∀ field ∈ dumpsFields fields, Quiet field.1.toList ∧ Quiet field.2.toList := by
  cases fields with
  | nil => nofun
  | cons field rest =>
    obtain ⟨key, item⟩ := field
    intro field mem
    rcases List.mem_cons.mp mem with rfl | later
    · exact ⟨clean.1, quiet_dumps item clean.2.1⟩
    · exact quiet_dumpsFields rest clean.2.2 field later

end

section Views

/-- Names without a blank, as all shown keys are. -/
def PlainPath (path : Path) : Prop := ∀ name, .key name ∈ path → ' ' ∉ name.toList

theorem PlainPath.snoc {path : Path} (plain : PlainPath path) {part : Part}
    (own : ∀ name, part = .key name → ' ' ∉ name.toList) : PlainPath (path ++ [part]) := by
  intro name mem
  rcases List.mem_append.mp mem with old | new
  · exact plain name old
  · exact own name (List.mem_singleton.mp new).symm

theorem PlainPath.key {path : Path} (plain : PlainPath path) {name : String}
    (word : ' ' ∉ name.toList) : PlainPath (path ++ [.key name]) :=
  plain.snoc fun _ same => Part.key.inj same ▸ word

theorem PlainPath.index {path : Path} (plain : PlainPath path) (i : Nat) :
    PlainPath (path ++ [.index i]) := plain.snoc fun _ same => by cases same

/- A text that grows part by part has no blank when no step puts one in. -/
theorem foldl_plain {write : String → Part → String} {path : Path} {output : String}
    (keeps : ∀ part ∈ path, ∀ output : String, ' ' ∉ output.toList → ' ' ∉ (write output part).toList)
    (start : ' ' ∉ output.toList) : ' ' ∉ (path.foldl write output).toList := by
  induction path generalizing output with
  | nil => exact start
  | cons part path ih =>
    exact ih (fun other mem => keeps other (List.mem_cons_of_mem _ mem))
      (keeps part List.mem_cons_self output start)

theorem pathText_plain {path : Path} (plain : PlainPath path) : ' ' ∉ (pathText path).toList := by
  refine foldl_plain (fun part mem output start => ?_) (by decide)
  cases part with
  | index i =>
    simp only [String.toList_append, List.mem_append, not_or]
    exact ⟨⟨⟨start, by decide⟩, digits_plain i⟩, by decide⟩
  | key name =>
    simp only [String.toList_append, List.mem_append, not_or]
    refine ⟨⟨start, ?_⟩, plain name mem⟩
    split <;> decide

theorem known_plain {path : Path} {key : String} (known : isKnown path key = true) :
    ' ' ∉ key.toList := by
  have bytes : ∀ key ∈ knownKeys, 32 ∉ utf8Bytes key := by decide +kernel
  have each : ∀ key ∈ knownKeys, ' ' ∉ key.toList := fun key mem =>
    not_mem_of_byte rfl (bytes key mem)
  rw [isKnown, Bool.or_eq_true, decide_eq_true_eq, Bool.and_eq_true] at known
  rcases known with listed | ⟨-, slug⟩
  · exact each key listed
  · intro mem
    unfold isDynamicSlug at slug
    split at slug
    · rename_i none
      rw [none] at mem
      cases mem
    · rename_i c rest eq
      rw [eq] at mem
      simp only [Bool.and_eq_true, List.all_eq_true] at slug
      rcases List.mem_cons.mp mem with rfl | later
      · exact absurd slug.1.1 (by decide)
      · exact absurd (slug.2 _ later) (by decide)

theorem hidden_plain (n : Nat) : ' ' ∉ ("unclassified_" ++ toString n).toList := by
  rw [String.toList_append, List.mem_append, not_or]
  exact ⟨by decide, digits_plain n⟩

/-- A view with clean values and without blanks in its source map. -/
structure CleanView {α : Type} (clean : α → Prop) (view : View α) : Prop where
  shown : clean view.shown
  sources : ∀ entry ∈ view.sources, ' ' ∉ entry.1.toList ∧ ' ' ∉ entry.2.toList

theorem CleanView.hidden {display : Path} (plain : PlainPath display) {class_ : String}
    (word : ' ' ∉ class_.toList) (candidates : List String) :
    CleanView Clean (hiddenView display class_ candidates) where
  shown := by
    refine quiet_word ?_
    simp only [String.toList_append, List.mem_append, not_or]
    exact ⟨⟨by decide, word⟩, by decide⟩
  sources entry mem := by
    rw [List.mem_singleton.mp mem]
    exact ⟨pathText_plain plain, show ' ' ∉ "redacted".toList by decide⟩

theorem CleanView.unless {path display : Path} (plain : PlainPath display) {v : Tree String}
    {view : View (Tree String)} (clean : CleanView Clean view) :
    CleanView Clean (unlessRedacted path display v view) := by
  have words : ∀ class_ : KeyClass, ' ' ∉ class_.name.toList := by
    intro class_
    cases class_ <;> decide
  unfold unlessRedacted
  split
  · exact CleanView.hidden plain (words _) _
  · exact clean

theorem quiet_shown {s : String} (shown : ¬ looksSensitiveString s = true) : Quiet s.toList := by
  intro inside
  refine shown ?_
  have found : contains "-----begin ".toList (lower s.toList) = true := contains_iff.mpr inside
  simp only [looksSensitiveString, found, Bool.true_or]

theorem redactScalar_clean {source : String} (word : ' ' ∉ source.toList) (class_ : KeyClass)
    {display : Path} (plain : PlainPath display) (v : Scalar) :
    CleanView Clean (redactScalar source class_ display v) := by
  have hidden : ∀ candidates, CleanView Clean (hiddenView display "unclassified" candidates) :=
    CleanView.hidden plain (by decide)
  have leaf : ∀ v, Clean (.scalar v) →
      CleanView Clean ⟨.scalar v, [(pathText display, source)], []⟩ := fun v clean =>
    ⟨clean, fun entry mem => by
      rw [List.mem_singleton.mp mem]
      exact ⟨pathText_plain plain, word⟩⟩
  unfold redactScalar
  split
  · exact hidden _
  · exact hidden _
  · rename_i other finite
    split
    · exact hidden _
    split
    · split
      · exact hidden _
      · rename_i shown
        exact leaf _ (quiet_shown shown)
    · rename_i text
      refine leaf _ ?_
      cases v with
      | null | bool | int => trivial
      | float x =>
        obtain ⟨repr, fin, blank⟩ := x
        cases fin with
        | true => rfl
        | false => exact absurd rfl (finite _ _)
      | str s => exact absurd rfl (text s)
      | other t => exact absurd rfl (other t)

theorem put_clean {fields : List (String × Tree String)} {key : String} {value : Tree String}
    (clean : CleanFields fields) (quiet : Quiet key.toList) (own : Clean value) :
    CleanFields (put fields key value) := by
  have appended : ∀ fields, CleanFields fields → CleanFields (fields ++ [(key, value)]) := by
    intro fields clean
    induction fields with
    | nil => exact ⟨quiet, own, trivial⟩
    | cons field rest ih => exact ⟨clean.1, clean.2.1, ih clean.2.2⟩
  have replaced : ∀ fields, CleanFields fields →
      CleanFields (fields.map fun field => if field.1 = key then (key, value) else field) := by
    intro fields clean
    induction fields with
    | nil => trivial
    | cons field rest ih =>
      rw [List.map_cons]
      split
      · exact ⟨quiet, own, ih clean.2.2⟩
      · exact ⟨clean.1, clean.2.1, ih clean.2.2⟩
  unfold put
  split
  · exact replaced fields clean
  · exact appended fields clean

variable {sources : List (Path × String)}

mutual

theorem redact_clean (words : ∀ path, ' ' ∉ (sourceAt sources path).toList) (path : Path)
    {display : Path} (plain : PlainPath display) (v : Tree String) :
    CleanView Clean (redact sources path display v) := by
  cases v with
  | scalar v =>
    rw [redact]
    exact (redactScalar_clean (words path) _ plain v).unless plain
  | list items =>
    have each := redactItems_clean words path plain 0 items
    rw [redact]
    refine CleanView.unless plain ⟨each.shown, each.sources⟩
  | dict fields =>
    have start : CleanFields [] := trivial
    have each := redactFields_clean words path plain 0 start fields
    rw [redact]
    refine CleanView.unless plain ⟨each.shown, each.sources⟩

theorem redactItems_clean (words : ∀ path, ' ' ∉ (sourceAt sources path).toList) (path : Path)
    {display : Path} (plain : PlainPath display) (position : Nat) (items : List (Tree String)) :
    CleanView CleanItems (redactItems sources path display position items) := by
  cases items with
  | nil => exact ⟨trivial, nofun⟩
  | cons item rest =>
    have head := redact_clean words (path ++ [.index position])
      (plain.index position) item
    have tail := redactItems_clean words path plain (position + 1) rest
    rw [redactItems]
    exact ⟨⟨head.shown, tail.shown⟩, fun entry mem =>
      (List.mem_append.mp mem).elim (head.sources entry) (tail.sources entry)⟩

theorem redactFields_clean (words : ∀ path, ' ' ∉ (sourceAt sources path).toList) (path : Path)
    {display : Path} (plain : PlainPath display) (hidden : Nat)
    {result : List (String × Tree String)} (done : CleanFields result)
    (fields : List (String × Tree String)) :
    CleanView CleanFields (redactFields sources path display hidden result fields) := by
  cases fields with
  | nil => exact ⟨done, nofun⟩
  | cons field rest =>
    obtain ⟨key, item⟩ := field
    rw [redactFields]
    split
    · rename_i known
      have word := known_plain known
      have head := redact_clean words (path ++ [.key key])
        (plain.key word) item
      have tail := redactFields_clean words path plain hidden
        (put_clean done (quiet_word word) head.shown) rest
      exact ⟨tail.shown, fun entry mem =>
        (List.mem_append.mp mem).elim (head.sources entry) (tail.sources entry)⟩
    · have word := hidden_plain (hidden + 1)
      have head : CleanView Clean (hiddenView
          (display ++ [.key ("unclassified_" ++ toString (hidden + 1))]) "unclassified"
          (key :: flattenStrings item)) := CleanView.hidden
        (plain.key word) (by decide) _
      have tail := redactFields_clean words path plain (hidden + 1)
        (put_clean done (quiet_word word) head.shown) rest
      exact ⟨tail.shown, fun entry mem =>
        (List.mem_append.mp mem).elim (head.sources entry) (tail.sources entry)⟩

end

end Views

end NoiContest.Noictl
