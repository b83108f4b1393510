import Mathlib.Data.String.Basic
import NoiContest.Lib.JsonText

/- Reading JSON texts back. Numbers with a fraction or an exponent and escaped surrogates are
   refused, since a value here holds neither. A text that `dumps` wrote is read as the value
   with its fields in the order of the text. -/
namespace JsonText

def isSpace (c : Char) : Bool := c == ' ' || c == '\t' || c == '\n' || c == '\r'

def skip (cs : List Char) : List Char := cs.dropWhile isSpace

def hexValue (c : Char) : Option Nat :=
  if '0' ≤ c ∧ c ≤ '9' then some (c.toNat - 48)
  else if 'a' ≤ c ∧ c ≤ 'f' then some (c.toNat - 87)
  else if 'A' ≤ c ∧ c ≤ 'F' then some (c.toNat - 55)
  else none

def unescape (c : Char) : Option Char :=
  if c = '"' ∨ c = '\\' ∨ c = '/' then some c
  else if c = 'n' then some '\n'
  else if c = 'r' then some '\r'
  else if c = 't' then some '\t'
  else if c = 'b' then some (Char.ofNat 8)
  else if c = 'f' then some (Char.ofNat 12)
  else none

def readUnicode : List Char → Option (Char × List Char)
  | a :: b :: c :: d :: rest => do
    let n := ((← hexValue a) * 16 + (← hexValue b)) * 256 + (← hexValue c) * 16 + (← hexValue d)
    if 55296 ≤ n ∧ n < 57344 then none else some (Char.ofNat n, rest)
  | _ => none

/-- One character of a string, escaped or raw. -/
def readChar : List Char → Option (Char × List Char)
  | [] => none
  | c :: rest =>
    if c = '\\' then
      match rest with
      | [] => none
      | e :: rest => if e = 'u' then readUnicode rest else (unescape e).map (·, rest)
    else if c.toNat < 32 then none else some (c, rest)

def readText : Nat → List Char → Option (List Char × List Char)
  | 0, _ => none
  | fuel + 1, cs =>
    if cs.head? = some '"' then some ([], cs.tail)
    else do
      let (c, rest) ← readChar cs
      let (text, rest) ← readText fuel rest
      some (c :: text, rest)

def readString (cs : List Char) : Option (String × List Char) :=
  (readText (cs.length + 1) cs).map fun read => (String.ofList read.1, read.2)

/- No leading zero, and neither a fraction nor an exponent follows. -/
def readNat (cs : List Char) : Option (Nat × List Char) :=
  let digits := cs.takeWhile Char.isDigit
  let rest := cs.dropWhile Char.isDigit
  if digits = [] ∨ (digits.head? = some '0' ∧ digits.length ≠ 1) ∨
      rest.head? = some '.' ∨ rest.head? = some 'e' ∨ rest.head? = some 'E' then none
  else some (Nat.ofDigitChars 10 digits 0, rest)

def readWord (word : String) (value : Json) (cs : List Char) : Option (Json × List Char) :=
  if word.toList.isPrefixOf cs then some (value, cs.drop word.length) else none

mutual

def readValue : Nat → List Char → Option (Json × List Char)
  | 0, _ => none
  | fuel + 1, cs =>
    match skip cs with
    | [] => none
    | c :: rest =>
      if c = '"' then (readString rest).map fun read => (.str read.1, read.2)
      else if c = '[' then
        if (skip rest).head? = some ']' then some (.arr [], (skip rest).tail)
        else (readItems fuel rest).map fun read => (.arr read.1, read.2)
      else if c = '\x7b' then
        if (skip rest).head? = some '\x7d' then some (.obj [], (skip rest).tail)
        else (readFields fuel rest).map fun read => (.obj read.1, read.2)
      else if c = '-' then (readNat rest).map fun read => (.int (-read.1), read.2)
      else if c.isDigit then (readNat (c :: rest)).map fun read => (.int read.1, read.2)
      else if c = 'n' then readWord "null" .null (c :: rest)
      else if c = 't' then readWord "true" (.bool true) (c :: rest)
      else readWord "false" (.bool false) (c :: rest)

def readItems : Nat → List Char → Option (List Json × List Char)
  | 0, _ => none
  | fuel + 1, cs => do
    let (item, rest) ← readValue fuel cs
    match skip rest with
    | [] => none
    | c :: rest =>
      if c = ',' then do
        let (items, rest) ← readItems fuel rest
        some (item :: items, rest)
      else if c = ']' then some ([item], rest)
      else none

def readFields : Nat → List Char → Option (List (String × Json) × List Char)
  | 0, _ => none
  | fuel + 1, cs => do
    let (name, rest) ← readName cs
    let (value, rest) ← readValue fuel rest
    match skip rest with
    | [] => none
    | c :: rest =>
      if c = ',' then do
        let (fields, rest) ← readFields fuel rest
        some ((name, value) :: fields, rest)
      else if c = '\x7d' then some ([(name, value)], rest)
      else none
where
  readName (cs : List Char) : Option (String × List Char) := do
    if (skip cs).head? ≠ some '"' then none
    let (name, rest) ← readString (skip cs).tail
    if (skip rest).head? = some ':' then some (name, (skip rest).tail) else none

end

def loads (text : String) : Option Json := do
  let (value, rest) ← readValue (text.toList.length + 1) text.toList
  if skip rest = [] then some value else none

mutual

/-- The value with the fields of every object in the order of its text. -/
def canonical : Json → Json
  | .null => .null
  | .bool b => .bool b
  | .int n => .int n
  | .str s => .str s
  | .arr items => .arr (canonicalItems items)
  | .obj fields => .obj ((canonicalFields fields).insertionSort fun a b => a.1 ≤ b.1)

def canonicalItems : List Json → List Json
  | [] => []
  | item :: rest => canonical item :: canonicalItems rest

def canonicalFields : List (String × Json) → List (String × Json)
  | [] => []
  | (name, value) :: rest => (name, canonical value) :: canonicalFields rest

end

section Texts

theorem dumpsItems_map (items : List Json) : dumpsItems items = items.map dumps := by
  induction items with
  | nil => rfl
  | cons item rest ih => simp [dumpsItems, ih]

theorem dumpsFields_map (fields : List (String × Json)) :
    dumpsFields fields = fields.map fun field => (field.1, dumps field.2) := by
  induction fields with
  | nil => rfl
  | cons field rest ih => simp [dumpsFields, ih]

theorem canonicalItems_map (items : List Json) : canonicalItems items = items.map canonical := by
  induction items with
  | nil => rfl
  | cons item rest ih => simp [canonicalItems, ih]

theorem canonicalFields_map (fields : List (String × Json)) :
    canonicalFields fields = fields.map fun field => (field.1, canonical field.2) := by
  induction fields with
  | nil => rfl
  | cons field rest ih => simp [canonicalFields, ih]

/- Sorting fields does not look at their values. -/
theorem sort_map {α β : Type} (f : α → β) (fields : List (String × α)) :
    (fields.insertionSort fun a b => a.1 ≤ b.1).map (fun field => (field.1, f field.2)) =
      (fields.map fun field => (field.1, f field.2)).insertionSort fun a b => a.1 ≤ b.1 :=
  List.map_insertionSort _ _ _ _ fun _ _ _ _ => Iff.rfl

theorem sort_sorted {α : Type} (fields : List (String × α)) :
    (fields.insertionSort fun a b => a.1 ≤ b.1).insertionSort (fun a b => a.1 ≤ b.1) =
      fields.insertionSort fun a b => a.1 ≤ b.1 := by
  have total : Std.Total (fun a b : String × α => a.1 ≤ b.1) := ⟨fun a b => le_total a.1 b.1⟩
  have trans : IsTrans (String × α) (fun a b => a.1 ≤ b.1) := ⟨fun a b c => le_trans⟩
  exact (List.pairwise_insertionSort _ fields).insertionSort_eq

mutual

theorem dumps_canonical : (value : Json) → dumps (canonical value) = dumps value
  | .null => rfl
  | .bool _ => rfl
  | .int _ => rfl
  | .str _ => rfl
  | .arr items => by
    simp only [canonical, dumps, dumpsItems_canonical items]
  | .obj fields => by
    simp only [canonical, dumps, sortFields]
    rw [dumpsFields_map, sort_map dumps, sort_sorted, ← dumpsFields_map,
      dumpsFields_canonical fields]

theorem dumpsItems_canonical : (items : List Json) → dumpsItems (canonicalItems items) = dumpsItems items
  | [] => rfl
  | item :: rest => by
    simp only [canonicalItems, dumpsItems, dumps_canonical item, dumpsItems_canonical rest]

theorem dumpsFields_canonical : (fields : List (String × Json)) →
    dumpsFields (canonicalFields fields) = dumpsFields fields
  | [] => rfl
  | (name, value) :: rest => by
    simp only [canonicalFields, dumpsFields, dumps_canonical value, dumpsFields_canonical rest]

end

end Texts

section Tokens

theorem hexValue_hexDigit : ∀ n < 16, hexValue (hexDigit n) = some n := by decide

theorem readChar_escapeChar (c : Char) (rest : List Char) :
    readChar (escapeChar c ++ rest) = some (c, rest) := by
  by_cases quote : c = '"'
  · subst quote; rfl
  by_cases backslash : c = '\\'
  · subst backslash; rfl
  by_cases newline : c = '\n'
  · subst newline; rfl
  by_cases carriage : c = '\r'
  · subst carriage; rfl
  by_cases tab : c = '\t'
  · subst tab; rfl
  by_cases backspace : c.toNat = 8
  · have same : c = Char.ofNat 8 := by rw [← backspace, Char.ofNat_toNat]
    subst same; rfl
  by_cases feed : c.toNat = 12
  · have same : c = Char.ofNat 12 := by rw [← feed, Char.ofNat_toNat]
    subst same; rfl
  rw [escapeChar, if_neg quote, if_neg backslash, if_neg newline, if_neg carriage, if_neg tab,
    if_neg backspace, if_neg feed]
  by_cases control : c.toNat < 32
  · have high := hexValue_hexDigit (c.toNat / 16) (by omega)
    have low := hexValue_hexDigit (c.toNat % 16) (by omega)
    have zero : hexValue '0' = some 0 := rfl
    have number : (0 * 16 + 0) * 256 + c.toNat / 16 * 16 + c.toNat % 16 = c.toNat := by omega
    rw [if_pos control]
    simp only [readChar, readUnicode, high, low, zero, List.cons_append, List.nil_append, if_true,
      Option.bind_eq_bind, Option.bind_some, number]
    rw [if_neg (by omega), Char.ofNat_toNat]
  · rw [if_neg control]
    simp [readChar, backslash, control]

theorem escapeChar_head (c : Char) (rest : List Char) :
    (escapeChar c ++ rest).head? ≠ some '"' := by
  have written := escapeChar_written c
  generalize escapeChar c = text at written ⊢
  cases written with
  | short | code => simp
  | plain apart => simp [apart]

theorem readText_escaped (cs rest : List Char) (fuel : Nat) (enough : cs.length < fuel) :
    readText fuel (cs.flatMap escapeChar ++ '"' :: rest) = some (cs, rest) := by
  induction cs generalizing fuel with
  | nil =>
    obtain ⟨fuel, rfl⟩ := Nat.exists_eq_succ_of_ne_zero (by omega : fuel ≠ 0)
    simp [readText]
  | cons c cs ih =>
    obtain ⟨fuel, rfl⟩ := Nat.exists_eq_succ_of_ne_zero (by omega : fuel ≠ 0)
    rw [List.length_cons] at enough
    rw [List.flatMap_cons, List.append_assoc, readText, if_neg (escapeChar_head c _),
      readChar_escapeChar]
    simp [ih fuel (by omega)]

theorem escapeChar_length (c : Char) : 0 < (escapeChar c).length := by
  have written := escapeChar_written c
  generalize escapeChar c = text at written ⊢
  cases written <;> simp

theorem escaped_length (cs : List Char) : cs.length ≤ (cs.flatMap escapeChar).length := by
  induction cs with
  | nil => simp
  | cons c cs ih =>
    have := escapeChar_length c
    simp only [List.flatMap_cons, List.length_append, List.length_cons]
    omega

theorem quote_toList (s : String) :
    (quote s).toList = '"' :: (s.toList.flatMap escapeChar ++ ['"']) := by
  simp [quote]

theorem readString_quote (s : String) (rest : List Char) :
    readString (s.toList.flatMap escapeChar ++ '"' :: rest) = some (s, rest) := by
  have enough := escaped_length s.toList
  unfold readString
  rw [readText_escaped _ _ _ (by simp only [List.length_append, List.length_cons]; omega)]
  simp

/-- What follows a value in a text. -/
def Ended (rest : List Char) : Prop :=
  ∀ c, rest.head? = some c → c = ',' ∨ c = ']' ∨ c = '\x7d'

theorem toDigits_head {n : Nat} (positive : 0 < n) : (Nat.toDigits 10 n).head? ≠ some '0' := by
  induction n using Nat.strongRecOn with
  | ind n ih =>
    by_cases small : n < 10
    · rw [Nat.toDigits_of_lt_base small]
      simp
      omega
    · rw [Nat.toDigits_of_base_le (by omega) (by omega)]
      rw [List.head?_append]
      cases first : (Nat.toDigits 10 (n / 10)).head? with
      | none => exact absurd (List.head?_eq_none_iff.mp first) Nat.toDigits_ne_nil
      | some d =>
        rw [Option.some_or, ← first]
        exact ih (n / 10) (by omega) (by omega)

theorem readNat_toString (n : Nat) {rest : List Char} (ended : Ended rest) :
    readNat ((toString n).toList ++ rest) = some (n, rest) := by
  have stops : rest.takeWhile Char.isDigit = [] := by
    cases rest with
    | nil => rfl
    | cons c rest => rcases ended c rfl with rfl | rfl | rfl <;> rfl
  have kept : rest.dropWhile Char.isDigit = rest := by
    cases rest with
    | nil => rfl
    | cons c rest => rcases ended c rfl with rfl | rfl | rfl <;> rfl
  have digits : ∀ c ∈ Nat.toDigits 10 n, c.isDigit = true := fun c mem =>
    Nat.isDigit_of_mem_toDigits (by omega) (by omega) mem
  have plain : ¬ (rest.head? = some '.' ∨ rest.head? = some 'e' ∨ rest.head? = some 'E') := by
    rintro (dot | small | large)
    · rcases ended _ dot with h | h | h <;> cases h
    · rcases ended _ small with h | h | h <;> cases h
    · rcases ended _ large with h | h | h <;> cases h
  have leading : ¬ ((Nat.toDigits 10 n).head? = some '0' ∧ (Nat.toDigits 10 n).length ≠ 1) := by
    rintro ⟨zero, long⟩
    cases n with
    | zero => simp at long
    | succ n => exact toDigits_head (Nat.succ_pos n) zero
  have text : (toString n).toList = Nat.toDigits 10 n := by
    rw [Nat.toString_eq_repr, Nat.toList_repr]
  unfold readNat
  rw [text, List.takeWhile_append_of_pos digits, List.dropWhile_append_of_pos digits, stops, kept,
    List.append_nil, if_neg]
  · rw [Nat.ofDigitChars_ten_toDigits]
  · rintro (none | zero | fraction)
    · exact Nat.toDigits_ne_nil none
    · exact leading zero
    · exact plain fraction

end Tokens

section Reading

theorem dumps_str (s : String) :
    (dumps (.str s)).toList = '"' :: (s.toList.flatMap escapeChar ++ ['"']) := by
  rw [dumps, quote_toList]

theorem dumps_arr (items : List Json) : (dumps (.arr items)).toList =
    '[' :: ([','].intercalate (items.map fun item => (dumps item).toList) ++ [']']) := by
  simp [dumps, dumpsItems_map, Function.comp_def]

/-- A field as it stands in a text. -/
def fieldText (field : String × Json) : List Char :=
  (quote field.1).toList ++ ':' :: (dumps field.2).toList

def sorted {α : Type} (fields : List (String × α)) : List (String × α) :=
  fields.insertionSort fun a b => a.1 ≤ b.1

theorem dumps_obj (fields : List (String × Json)) : (dumps (.obj fields)).toList =
    '\x7b' :: ([','].intercalate ((sorted fields).map fieldText) ++ ['\x7d']) := by
  have texts : sortFields (dumpsFields fields) =
      (sorted fields).map fun field => (field.1, dumps field.2) := by
    rw [dumpsFields_map, sortFields, sorted, sort_map dumps]
  have joined : (fun field : String × Json => (quote field.1).toList ++ ':' :: (dumps field.2).toList) =
      fieldText := rfl
  simp [dumps, texts, Function.comp_def, joined]

theorem dumps_int (n : Int) : (dumps (.int n)).toList =
    if 0 ≤ n then (toString n.toNat).toList else '-' :: (toString (-n).toNat).toList := by
  rw [dumps, Int.toString_eq_repr, Int.repr_eq_if]
  split_ifs <;> simp [Nat.toString_eq_repr]

theorem toString_head (n : Nat) : ∃ c rest, (toString n).toList = c :: rest ∧ c.isDigit = true := by
  rw [Nat.toString_eq_repr, Nat.toList_repr]
  cases digits : Nat.toDigits 10 n with
  | nil => exact absurd digits Nat.toDigits_ne_nil
  | cons c rest =>
    exact ⟨c, rest, rfl, Nat.isDigit_of_mem_toDigits (by omega) (by omega)
      (digits ▸ List.mem_cons_self : c ∈ Nat.toDigits 10 n)⟩

theorem digit_plain {c : Char} (digit : c.isDigit = true) :
    isSpace c = false ∧ c ≠ ']' ∧ c ≠ '"' ∧ c ≠ '[' ∧ c ≠ '\x7b' ∧ c ≠ '-' := by
  refine ⟨?_, ?_, ?_, ?_, ?_, ?_⟩
  · simp only [isSpace, Bool.or_eq_false_iff, beq_eq_false_iff_ne]
    refine ⟨⟨⟨?_, ?_⟩, ?_⟩, ?_⟩ <;> rintro rfl <;> cases digit
  all_goals
    rintro rfl
    cases digit

/- The first character of a value. -/
theorem dumps_head (value : Json) : ∃ c rest, (dumps value).toList = c :: rest ∧
    isSpace c = false ∧ c ≠ ']' := by
  cases value with
  | null => exact ⟨_, _, rfl, rfl, by decide⟩
  | bool b => cases b <;> exact ⟨_, _, rfl, rfl, by decide⟩
  | str s => exact ⟨_, _, dumps_str s, rfl, by decide⟩
  | arr items => exact ⟨_, _, dumps_arr items, rfl, by decide⟩
  | obj fields => exact ⟨_, _, dumps_obj fields, rfl, by decide⟩
  | int n =>
    rw [dumps_int]
    split_ifs with positive
    · obtain ⟨c, rest, digits, digit⟩ := toString_head n.toNat
      exact ⟨c, rest, digits, (digit_plain digit).1, (digit_plain digit).2.1⟩
    · exact ⟨_, _, rfl, rfl, by decide⟩

theorem skip_cons {c : Char} {rest : List Char} (visible : isSpace c = false) :
    skip (c :: rest) = c :: rest := by
  simp [skip, visible]

theorem skip_ended {rest : List Char} (ended : Ended rest) : skip rest = rest := by
  cases rest with
  | nil => rfl
  | cons c rest => rcases ended c rfl with rfl | rfl | rfl <;> exact skip_cons rfl

/- A value is read from its text with the given fuel. -/
def Reads (fuel : Nat) (value : Json) : Prop :=
  ∀ rest, Ended rest →
    readValue fuel ((dumps value).toList ++ rest) = some (canonical value, rest)

theorem reads_str (fuel : Nat) (s : String) : Reads (fuel + 1) (.str s) := by
  intro rest _
  rw [dumps_str, List.cons_append, List.append_assoc, readValue, skip_cons rfl]
  simp [readString_quote, canonical]

theorem reads_int (fuel : Nat) (n : Int) : Reads (fuel + 1) (.int n) := by
  intro rest ended
  rw [dumps_int]
  split_ifs with positive
  · obtain ⟨c, tail, digits, digit⟩ := toString_head n.toNat
    obtain ⟨visible, -, quote, bracket, brace, minus⟩ := digit_plain digit
    have read := readNat_toString n.toNat ended
    rw [digits, List.cons_append] at read
    rw [digits, List.cons_append, readValue, skip_cons visible]
    simp [quote, bracket, brace, minus, digit, read, canonical, positive]
  · rw [List.cons_append, readValue, skip_cons rfl]
    have negative : (-((-n).toNat : Int)) = n := by omega
    simp only [Char.reduceEq, if_false, if_true, readNat_toString _ ended, Option.map_some, canonical,
      negative]

theorem reads_word (fuel : Nat) {value : Json} (word : value = .null ∨ ∃ b, value = .bool b) :
    Reads (fuel + 1) value := by
  intro rest _
  rcases word with rfl | ⟨b, rfl⟩
  · rfl
  · cases b <;> rfl

theorem joined_cons {first : List Char} {others : List (List Char)} (more : others ≠ []) :
    [','].intercalate (first :: others) = first ++ ',' :: [','].intercalate others := by
  obtain ⟨second, others, rfl⟩ := List.exists_cons_of_ne_nil more
  simp [List.intercalate_cons_cons]

/- Items are read one by one, each with less fuel. -/
theorem readItems_dumps (items : List Json) (some_item : items ≠ []) (fuel : Nat)
    (each : ∀ item ∈ items, ∀ less < fuel, (dumps item).toList.length < less → Reads less item)
    (enough : ([','].intercalate (items.map fun item => (dumps item).toList)).length + 1 < fuel)
    (rest : List Char) :
    readItems fuel ([','].intercalate (items.map fun item => (dumps item).toList) ++ ']' :: rest) =
      some (items.map canonical, rest) := by
  induction items generalizing fuel with
  | nil => exact absurd rfl some_item
  | cons item items ih =>
    obtain ⟨fuel, rfl⟩ := Nat.exists_eq_succ_of_ne_zero (by omega : fuel ≠ 0)
    by_cases last : items = []
    · subst last
      simp only [List.map_cons, List.map_nil, List.intercalate_singleton] at enough ⊢
      have read := each item List.mem_cons_self fuel (by omega) (by omega) (']' :: rest)
        (by rintro c ⟨⟩; simp)
      rw [readItems, read]
      simp only [Option.bind_eq_bind, Option.bind_some]
      rw [skip_cons rfl]
      rfl
    · have more : (items.map fun item => (dumps item).toList) ≠ [] := by simpa using last
      rw [List.map_cons, joined_cons more] at enough ⊢
      simp only [List.length_append, List.length_cons] at enough
      have read := each item List.mem_cons_self fuel (by omega) (by omega)
        (',' :: ([','].intercalate (items.map fun item => (dumps item).toList) ++ ']' :: rest))
        (by rintro c ⟨⟩; simp)
      have others := ih last fuel
        (fun item mem less below => each item (List.mem_cons_of_mem _ mem) less (by omega)) (by omega)
      rw [readItems, List.append_assoc, List.cons_append, read]
      simp only [Option.bind_eq_bind, Option.bind_some]
      rw [skip_cons rfl]
      simp [others]

theorem readName_quote (name : String) (rest : List Char) :
    readFields.readName ((quote name).toList ++ ':' :: rest) = some (name, rest) := by
  rw [quote_toList, List.cons_append, List.append_assoc]
  unfold readFields.readName
  rw [skip_cons rfl]
  simp only [List.head?_cons, ne_eq, not_true_eq_false, if_false, List.tail_cons, List.cons_append,
    List.nil_append, readString_quote, Option.bind_eq_bind, Option.bind_some]
  rw [skip_cons rfl]
  rfl

theorem readFields_dumps (fields : List (String × Json)) (some_field : fields ≠ []) (fuel : Nat)
    (each : ∀ field ∈ fields, ∀ less < fuel, (dumps field.2).toList.length < less →
      Reads less field.2)
    (enough : ([','].intercalate (fields.map fieldText)).length + 1 < fuel) (rest : List Char) :
    readFields fuel ([','].intercalate (fields.map fieldText) ++ '\x7d' :: rest) =
      some (fields.map fun field => (field.1, canonical field.2), rest) := by
  induction fields generalizing fuel with
  | nil => exact absurd rfl some_field
  | cons field fields ih =>
    obtain ⟨fuel, rfl⟩ := Nat.exists_eq_succ_of_ne_zero (by omega : fuel ≠ 0)
    have size : (dumps field.2).toList.length < (fieldText field).length := by
      simp only [fieldText, List.length_append, List.length_cons]
      omega
    by_cases last : fields = []
    · subst last
      simp only [List.map_cons, List.map_nil, List.intercalate_singleton] at enough ⊢
      have read := each field List.mem_cons_self fuel (by omega) (by omega) ('\x7d' :: rest)
        (by rintro c ⟨⟩; simp)
      rw [readFields, fieldText, List.append_assoc, List.cons_append, readName_quote]
      simp only [Option.bind_eq_bind, Option.bind_some, read]
      rw [skip_cons rfl]
      rfl
    · have more : fields.map fieldText ≠ [] := by simpa using last
      rw [List.map_cons, joined_cons more] at enough ⊢
      simp only [List.length_append, List.length_cons] at enough
      have read := each field List.mem_cons_self fuel (by omega) (by omega)
        (',' :: ([','].intercalate (fields.map fieldText) ++ '\x7d' :: rest))
        (by rintro c ⟨⟩; simp)
      have others := ih last fuel
        (fun field mem less below => each field (List.mem_cons_of_mem _ mem) less (by omega))
        (by omega)
      rw [readFields, fieldText, List.append_assoc, List.append_assoc, List.cons_append,
        List.cons_append, readName_quote]
      simp only [Option.bind_eq_bind, Option.bind_some, read]
      rw [skip_cons rfl]
      simp [others]

theorem reads_arr (fuel : Nat) (items : List Json)
    (each : ∀ less ≤ fuel, ∀ value, (dumps value).toList.length < less → Reads less value)
    (enough : (dumps (.arr items)).toList.length < fuel + 1) : Reads (fuel + 1) (.arr items) := by
  intro rest _
  rw [dumps_arr] at enough ⊢
  simp only [List.length_cons, List.length_append, List.length_nil] at enough
  rw [List.cons_append, List.append_assoc, List.singleton_append, readValue, skip_cons rfl]
  cases items with
  | nil =>
    rw [List.map_nil, List.intercalate_nil, List.nil_append]
    rfl
  | cons item items =>
    obtain ⟨c, tail, head, visible, bracket⟩ := dumps_head item
    have first : (skip ([','].intercalate ((item :: items).map fun item => (dumps item).toList) ++
        ']' :: rest)).head? ≠ some ']' := by
      cases items with
      | nil =>
        simp only [List.map_cons, List.map_nil, List.intercalate_singleton, head, List.cons_append]
        rw [skip_cons visible]
        simpa using bracket
      | cons second others =>
        rw [List.map_cons, joined_cons (by simp), head, List.cons_append, List.cons_append,
          skip_cons visible]
        simpa using bracket
    have read := readItems_dumps (item :: items) (by simp) fuel
      (fun item _ less below fits => each less (by omega) item fits) (by omega) rest
    simp only [Char.reduceEq, if_false, if_true, first, read, Option.map_some, canonical,
      canonicalItems_map]

theorem reads_obj (fuel : Nat) (fields : List (String × Json))
    (each : ∀ less ≤ fuel, ∀ value, (dumps value).toList.length < less → Reads less value)
    (enough : (dumps (.obj fields)).toList.length < fuel + 1) : Reads (fuel + 1) (.obj fields) := by
  intro rest _
  have ordered : (canonical (.obj fields)) =
      .obj ((sorted fields).map fun field => (field.1, canonical field.2)) := by
    rw [canonical, canonicalFields_map, sorted, sort_map canonical]
  rw [dumps_obj] at enough ⊢
  rw [ordered]
  simp only [List.length_cons, List.length_append, List.length_nil] at enough
  rw [List.cons_append, List.append_assoc, List.singleton_append, readValue, skip_cons rfl]
  cases shape : sorted fields with
  | nil =>
    rw [List.map_nil, List.intercalate_nil, List.nil_append]
    rfl
  | cons field others =>
    have first : (skip ([','].intercalate ((field :: others).map fieldText) ++
        '\x7d' :: rest)).head? ≠ some '\x7d' := by
      cases others with
      | nil =>
        simp only [List.map_cons, List.map_nil, List.intercalate_singleton, fieldText, quote_toList,
          List.cons_append]
        rw [skip_cons rfl]
        simp
      | cons second others =>
        rw [List.map_cons, joined_cons (by simp), fieldText, quote_toList, List.cons_append,
          List.cons_append, List.cons_append, skip_cons rfl]
        simp
    rw [shape] at enough
    have read := readFields_dumps (field :: others) (by simp) fuel
      (fun field _ less below fits => each less (by omega) field.2 fits) (by omega) rest
    simp only [Char.reduceEq, if_false, if_true, first, read, Option.map_some]

theorem reads_dumps (fuel : Nat) (value : Json) (enough : (dumps value).toList.length < fuel) :
    Reads fuel value := by
  induction fuel using Nat.strongRecOn generalizing value with
  | ind fuel ih =>
    obtain ⟨fuel, rfl⟩ := Nat.exists_eq_succ_of_ne_zero (by omega : fuel ≠ 0)
    have each : ∀ less ≤ fuel, ∀ value, (dumps value).toList.length < less → Reads less value :=
      fun less below value fits => ih less (by omega) value fits
    cases value with
    | null => exact reads_word fuel (.inl rfl)
    | bool b => exact reads_word fuel (.inr ⟨b, rfl⟩)
    | int n => exact reads_int fuel n
    | str s => exact reads_str fuel s
    | arr items => exact reads_arr fuel items each enough
    | obj fields => exact reads_obj fuel fields each enough

/-- A written text is read as the value that was written, fields in order. -/
theorem loads_dumps (value : Json) : loads (dumps value) = some (canonical value) := by
  have read := reads_dumps ((dumps value).toList.length + 1) value (by omega) [] (by simp [Ended])
  rw [List.append_nil] at read
  unfold loads
  rw [read]
  rfl

example : (loads "\x7b \"size\" : -12 , \"names\" : [ \"a\\u0041\\n\" , null ] \x7d").map dumps =
    some "\x7b\"names\":[\"aA\\n\",null],\"size\":-12\x7d" := by decide +kernel

end Reading

end JsonText
