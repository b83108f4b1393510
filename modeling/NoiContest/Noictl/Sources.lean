import NoiContest.Noictl.Config

/- The source of a value that takes part of its text from a variable that is not allowed is not
   safe, and the source map holds the source of each leaf. -/
namespace NoiContest.Noictl
open Outcome PyText

/-- The names that `_ENV` matches. -/
def IsName (name : String) : Prop := name ≠ "" ∧ ∀ c ∈ name.toList, isNameChar c = true

theorem readRef_name {text after : List Char} {name : String} {fallback : Option String}
    (read : readRef text = some (.ref name fallback, after)) : IsName name := by
  have named : ∀ rest : List Char, (rest.takeWhile isNameChar).head?.any isNameStart = true →
      IsName (String.ofList (rest.takeWhile isNameChar)) := by
    intro rest start
    refine ⟨fun empty => ?_, fun c mem => ?_⟩
    · have none : rest.takeWhile isNameChar = [] := by
        have := congrArg String.toList empty
        rwa [String.toList_ofList] at this
      rw [none] at start
      cases start
    · rw [String.toList_ofList] at mem
      exact List.mem_takeWhile_imp mem
  unfold readRef at read
  split at read
  · rename_i rest
    simp only at read
    split at read
    · rename_i start
      split at read
      · obtain ⟨⟨rfl, -⟩, -⟩ : (_ ∧ _) ∧ _ := by simpa using read
        exact named rest start
      · split at read
        · obtain ⟨⟨rfl, -⟩, -⟩ : (_ ∧ _) ∧ _ := by simpa using read
          exact named rest start
        · cases read
      · cases read
    · cases read
  · cases read

theorem readPieces_name {n : Nat} {text : List Char} {name : String} {fallback : Option String}
    (mem : .ref name fallback ∈ readPieces n text) : IsName name := by
  fun_induction readPieces n text with
  | case1 => cases mem
  | case2 => cases mem
  | case3 n c rest piece after read ih =>
    rcases List.mem_cons.mp mem with rfl | later
    · exact readRef_name read
    · exact ih later
  | case4 n c rest none ih =>
    rcases List.mem_cons.mp mem with same | later
    · cases same
    · exact ih later

theorem mem_fromKeys {texts : List String} {t : String} : t ∈ fromKeys texts ↔ t ∈ texts := by
  have general : ∀ (texts seen : List String),
      t ∈ texts.foldl (fun seen text => if text ∈ seen then seen else seen ++ [text]) seen ↔
        t ∈ seen ∨ t ∈ texts := by
    intro texts
    induction texts with
    | nil => simp
    | cons first rest ih =>
      intro seen
      rw [List.foldl_cons, ih]
      split
      · rename_i known
        constructor
        · rintro (old | later)
          · exact .inl old
          · exact .inr (List.mem_cons_of_mem _ later)
        · rintro (old | new)
          · exact .inl old
          · rcases List.mem_cons.mp new with rfl | later
            · exact .inl known
            · exact .inr later
      · simp [or_assoc]
  rw [fromKeys, general]
  simp

def Origin.name : Origin → String
  | .environment name => name
  | .default name => name

/-- What the command does not take a value from. -/
def Origin.NotAllowed (origin : Origin) : Prop :=
  sensitiveEnvName origin.name = true ∨
    ∃ name, origin = .environment name ∧ name ∉ safeEnvNames

theorem isNameChar_plain {c : Char} (own : isNameChar c = true) : c ≠ ',' ∧ c ≠ ':' := by
  constructor <;> rintro rfl <;> exact absurd own (by decide)

theorem origin_plain {origin : Origin} (named : IsName origin.name) : ',' ∉ origin.text.toList := by
  intro mem
  cases origin <;> rw [Origin.text, String.toList_append, List.mem_append] at mem <;>
    rcases mem with own | own
  · exact absurd own (by decide)
  · exact (isNameChar_plain (named.2 _ own)).1 rfl
  · exact absurd own (by decide)
  · exact (isNameChar_plain (named.2 _ own)).1 rfl

theorem afterColon_text (origin : Origin) :
    String.ofList (afterColon origin.text.toList) = origin.name := by
  cases origin <;> rw [Origin.text, String.toList_append, Origin.name] <;>
    exact String.ofList_toList

/- One part that is not allowed is enough. -/
theorem source_unsafe {origins : List Origin} (named : ∀ o ∈ origins, IsName o.name)
    {origin : Origin} (mem : origin ∈ origins) (refused : origin.NotAllowed) :
    sourceIsSafe (sourceText origins) = false := by
  have filled : origins ≠ [] := List.ne_nil_of_mem mem
  have parts : (sourceText origins).toList.splitOn ',' =
      (fromKeys (origins.map Origin.text)).map String.toList := by
    rw [sourceText, if_neg filled, String.toList_intercalate]
    refine List.splitOn_intercalate ',' (fun part own => ?_) ?_
    · rw [List.mem_map] at own
      obtain ⟨t, own, rfl⟩ := own
      obtain ⟨o, known, rfl⟩ := List.mem_map.mp (mem_fromKeys.mp own)
      exact origin_plain (named o known)
    · have known : origin.text ∈ fromKeys (origins.map Origin.text) :=
        mem_fromKeys.mpr (List.mem_map_of_mem mem)
      exact List.ne_nil_of_mem (List.mem_map_of_mem known)
  have own : origin.text.toList ∈ (sourceText origins).toList.splitOn ',' := by
    rw [parts]
    exact List.mem_map_of_mem (mem_fromKeys.mpr (List.mem_map_of_mem mem))
  have file : (sourceText origins == "file") = false := by
    rw [beq_eq_false_iff_ne]
    intro same
    rw [same] at own
    have colon : ':' ∈ origin.text.toList := by
      cases origin <;> rw [Origin.text, String.toList_append] <;>
        exact List.mem_append_left _ (by decide)
    have only : ∀ part ∈ "file".toList.splitOn ',', ':' ∉ part := by decide +kernel
    exact only _ own colon
  rw [sourceIsSafe, file, Bool.false_or, Bool.eq_false_iff]
  intro all
  have fine := List.all_eq_true.mp all _ own
  simp only [afterColon_text, Bool.and_eq_true, Bool.or_eq_true, Bool.not_eq_true'] at fine
  rcases refused with sensitive | ⟨name, rfl, outside⟩
  · rw [fine.1.2] at sensitive
    cases sensitive
  · rcases fine.2 with other | allowed
    · rw [Origin.text, String.toList_append, Bool.eq_false_iff] at other
      exact other (List.isPrefixOf_iff_prefix.mpr (List.prefix_append _ _))
    · exact outside (of_decide_eq_true allowed)

/-- A text takes part of its value from a variable outside the allow list, or from the default of
    a variable with a sensitive name. -/
def Outside (env : Env) (text : String) : Prop :=
  ∃ name fallback, .ref name fallback ∈ pieces text ∧
    ((∃ value, env name = some value ∧ name ∉ safeEnvNames) ∨
      (env name = none ∧ sensitiveEnvName name = true))

theorem expandPiece_origin {env : Env} {piece : Piece} {part : Expansion}
    (done : expandPiece env piece = .ok part) {origin : Origin} (mem : origin ∈ part.origins) :
    ∃ fallback, piece = .ref origin.name fallback := by
  cases piece with
  | plain c =>
    obtain rfl : (⟨[c], [], []⟩ : Expansion) = part := by simpa [expandPiece] using done
    cases mem
  | ref name fallback =>
    unfold expandPiece at done
    simp only at done
    split at done
    · obtain rfl := Except.ok.inj done
      rw [List.mem_singleton.mp mem]
      exact ⟨fallback, rfl⟩
    · split at done
      · obtain rfl := Except.ok.inj done
        rw [List.mem_singleton.mp mem]
        exact ⟨_, rfl⟩
      · cases done

theorem foldl_origins (parts : List Expansion) (start : Expansion) :
    (parts.foldl Expansion.append start).origins =
      start.origins ++ parts.flatMap Expansion.origins := by
  induction parts generalizing start with
  | nil => simp
  | cons first rest ih =>
    rw [List.foldl_cons, ih, List.flatMap_cons, ← List.append_assoc]
    rfl

theorem mapM_given {α β : Type} {f : α → Except String β} {l : List α} {results : List β}
    (done : l.mapM f = .ok results) {a : α} (mem : a ∈ l) : ∃ b ∈ results, f a = .ok b := by
  have pairs := mapM_ok.mp done
  clear done
  induction pairs with
  | nil => cases mem
  | cons first rest ih =>
    rcases List.mem_cons.mp mem with rfl | later
    · exact ⟨_, List.mem_cons_self, first⟩
    · obtain ⟨b, inside, given⟩ := ih later
      exact ⟨b, List.mem_cons_of_mem _ inside, given⟩

/- The expansion of a text, with the origins of its parts. -/
theorem expandScalar_str {env : Env} {text : String} {e : Expanded}
    (done : expandScalar env (.str text) = .ok e) : ∃ s origins, e.value = .str s ∧
      e.source = sourceText origins ∧ (∀ o ∈ origins, IsName o.name) ∧
      (Outside env text → ∃ o ∈ origins, o.NotAllowed) := by
  obtain ⟨parts, made, result⟩ := bind_ok.mp done
  obtain rfl := pure_eq_ok.mp result
  refine ⟨_, (parts.foldl Expansion.append {}).origins, rfl, rfl, fun o mem => ?_, ?_⟩
  · rw [foldl_origins, List.mem_append, List.mem_flatMap] at mem
    rcases mem with none | ⟨part, known, own⟩
    · cases none
    · obtain ⟨piece, inside, given⟩ := mapM_mem made part known
      obtain ⟨fallback, rfl⟩ := expandPiece_origin given own
      exact readPieces_name inside
  · rintro ⟨name, fallback, inside, from_⟩
    obtain ⟨part, known, given⟩ := mapM_given made inside
    have origin : ∃ o ∈ part.origins, o.NotAllowed := by
      unfold expandPiece at given
      simp only at given
      rcases from_ with ⟨value, set, refused⟩ | ⟨unset, sensitive⟩
      · rw [set] at given
        obtain rfl := Except.ok.inj given
        exact ⟨.environment name, List.mem_singleton_self _, .inr ⟨name, rfl, refused⟩⟩
      · rw [unset] at given
        cases fallback with
        | none => cases given
        | some text =>
          obtain rfl := Except.ok.inj given
          exact ⟨.default name, List.mem_singleton_self _, .inl sensitive⟩
    obtain ⟨o, own, refused⟩ := origin
    refine ⟨o, ?_, refused⟩
    rw [foldl_origins]
    exact List.mem_append_right _ (List.mem_flatMap.mpr ⟨part, known, own⟩)

theorem outside_unsafe {env : Env} {text : String} {e : Expanded}
    (done : expandScalar env (.str text) = .ok e) (outside : Outside env text) :
    (∃ s, e.value = .str s) ∧ sourceIsSafe e.source = false := by
  obtain ⟨s, origins, value, source, named, refused⟩ := expandScalar_str done
  obtain ⟨o, mem, notAllowed⟩ := refused outside
  exact ⟨⟨s, value⟩, source ▸ source_unsafe named mem notAllowed⟩

section Paths

theorem prefix_part {path other : Path} {a b : Part} (first : path ++ [a] <+: other)
    (second : path ++ [b] <+: other) : a = b := by
  obtain ⟨x, rfl⟩ := first
  obtain ⟨y, eq⟩ := second
  simp only [List.append_assoc, List.append_cancel_left_eq, List.cons_append, List.nil_append,
    List.cons.injEq] at eq
  exact eq.1.symm

theorem prefix_of_part {path other : Path} {a : Part} (own : path ++ [a] <+: other) :
    path <+: other := (List.prefix_append path [a]).trans own

/-- The paths below a path that a log has, each once. -/
structure Below (path : Path) (log : Log) : Prop where
  below : ∀ entry ∈ log.sources, path <+: entry.1
  once : (log.sources.map Prod.fst).Nodup

/-- The same for the children of a path that a test accepts. -/
structure Among (path : Path) (child : Part → Prop) (log : Log) : Prop where
  child : ∀ entry ∈ log.sources, ∃ part, child part ∧ path ++ [part] <+: entry.1
  once : (log.sources.map Prod.fst).Nodup

variable {env : Env}

theorem Among.toBelow {path : Path} {child : Part → Prop} {log : Log} (among : Among path child log) :
    Below path log where
  below entry mem := by
    obtain ⟨part, -, own⟩ := among.child entry mem
    exact prefix_of_part own
  once := among.once

/- The first child and the later ones. -/
theorem Among.cons {path : Path} {child later : Part → Prop} {part : Part} {log rest : Log} (own : child part)
    (fresh : ¬ later part) (others : ∀ part, later part → child part)
    (first : Below (path ++ [part]) log) (more : Among path later rest) :
    Among path child (log.append rest) where
  child entry mem := by
    rcases List.mem_append.mp mem with here | there
    · exact ⟨part, own, first.below entry here⟩
    · obtain ⟨other, known, below⟩ := more.child entry there
      exact ⟨other, others other known, below⟩
  once := by
    simp only [Log.append, List.map_append]
    refine List.nodup_append.mpr ⟨first.once, more.once, ?_⟩
    rintro p here q there rfl
    obtain ⟨entry, mem, rfl⟩ := List.mem_map.mp here
    obtain ⟨entry', mem', same⟩ := List.mem_map.mp there
    obtain ⟨other, known, below⟩ := more.child entry' mem'
    rw [same] at below
    exact fresh (prefix_part (first.below entry mem) below ▸ known)

theorem Among.empty {path : Path} (child : Part → Prop) : Among path child ⟨[], []⟩ := ⟨nofun, List.nodup_nil⟩

mutual

theorem expand_below {path : Path} {raw : Tree Key} (distinct : Distinct raw) {v : Tree String} {log : Log}
    (done : expand env path raw = .ok (v, log)) : Below path log := by
  cases raw with
  | scalar value =>
    obtain ⟨e, -, result⟩ := bind_ok.mp done
    obtain ⟨-, rfl⟩ := Prod.mk.inj (pure_eq_ok.mp result)
    exact ⟨fun entry mem => by rw [List.mem_singleton.mp mem], List.nodup_singleton _⟩
  | list items =>
    obtain ⟨⟨vs, log'⟩, each, result⟩ := bind_ok.mp done
    obtain ⟨-, rfl⟩ := Prod.mk.inj (pure_eq_ok.mp result)
    exact (expandItems_among distinct each).toBelow
  | dict fields =>
    obtain ⟨⟨vs, log'⟩, each, result⟩ := bind_ok.mp done
    obtain ⟨-, rfl⟩ := Prod.mk.inj (pure_eq_ok.mp result)
    exact (expandFields_among distinct.1 distinct.2 each).toBelow

theorem expandItems_among {path : Path} {items : List (Tree Key)} (distinct : DistinctItems items)
    {position : Nat} {vs : List (Tree String)} {log : Log}
    (done : expandItems env path position items = .ok (vs, log)) :
    Among path (fun part => ∃ i, position ≤ i ∧ part = .index i) log := by
  cases items with
  | nil =>
    obtain ⟨-, rfl⟩ := Prod.mk.inj (Except.ok.inj done)
    exact Among.empty _
  | cons item rest =>
    obtain ⟨⟨v, here⟩, first, done⟩ := bind_ok.mp done
    obtain ⟨⟨vs', later⟩, others, result⟩ := bind_ok.mp done
    obtain ⟨-, rfl⟩ := Prod.mk.inj (pure_eq_ok.mp result)
    refine Among.cons ⟨position, le_rfl, rfl⟩ ?_ ?_ (expand_below distinct.1 first)
      (expandItems_among distinct.2 others)
    · rintro ⟨i, above, same⟩
      cases same
      omega
    · rintro part ⟨i, above, rfl⟩
      exact ⟨i, by omega, rfl⟩

theorem expandFields_among {path : Path} {fields : List (Key × Tree Key)}
    (once : (fields.map Prod.fst).Nodup) (distinct : DistinctFields fields) {vs : List (String × Tree String)} {log : Log}
    (done : expandFields env path fields = .ok (vs, log)) :
    Among path (fun part => ∃ key, .str key ∈ fields.map Prod.fst ∧ part = .key key) log := by
  cases fields with
  | nil =>
    obtain ⟨-, rfl⟩ := Prod.mk.inj (Except.ok.inj done)
    exact Among.empty _
  | cons field rest =>
    obtain ⟨key, item⟩ := field
    cases key with
    | other => cases done
    | str key =>
      obtain ⟨⟨v, here⟩, first, done⟩ := bind_ok.mp done
      obtain ⟨⟨vs', later⟩, others, result⟩ := bind_ok.mp done
      obtain ⟨-, rfl⟩ := Prod.mk.inj (pure_eq_ok.mp result)
      obtain ⟨fresh, once⟩ := List.nodup_cons.mp once
      refine Among.cons ⟨key, List.mem_cons_self, rfl⟩ ?_ ?_ (expand_below distinct.1 first)
        (expandFields_among once distinct.2 others)
      · rintro ⟨other, known, same⟩
        cases same
        exact fresh known
      · rintro part ⟨other, known, rfl⟩
        exact ⟨other, List.mem_cons_of_mem _ known, rfl⟩

end

/-- The source map has the entries of a log. -/
def Follows (sources : List (Path × String)) (log : Log) : Prop :=
  ∀ entry ∈ log.sources, sourceAt sources entry.1 = entry.2

theorem sourceAt_once {sources : List (Path × String)} (once : (sources.map Prod.fst).Nodup)
    {entry : Path × String} (mem : entry ∈ sources) : sourceAt sources entry.1 = entry.2 := by
  induction sources with
  | nil => cases mem
  | cons first rest ih =>
    obtain ⟨fresh, once⟩ := List.nodup_cons.mp once
    rw [sourceAt, List.find?_cons]
    rcases List.mem_cons.mp mem with rfl | later
    · simp
    · have other : first.1 ≠ entry.1 := fun same =>
        fresh (same ▸ List.mem_map_of_mem later)
      simpa [other, sourceAt] using ih once later

theorem load_follows {raw : Tree Key} (distinct : Distinct raw) {v : Tree String} {log : Log}
    (done : expand env [] raw = .ok (v, log)) : Follows log.sources log := fun _ mem =>
  sourceAt_once (expand_below distinct done).once mem

end Paths

end NoiContest.Noictl
