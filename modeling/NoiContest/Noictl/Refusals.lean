import NoiContest.Noictl.PrivateKeys

/- When `config show` refuses: on hidden strings that are shown, and on hidden names, numbers and
   truth values that happen to read like something in the result. -/
namespace NoiContest.Noictl
open Outcome PyText Patterns

section Words
variable {env : Env}

theorem join_word {parts : List (List Char)} (words : ∀ part ∈ parts, ' ' ∉ part) :
    ' ' ∉ [','].intercalate parts := by
  induction parts with
  | nil => simp
  | cons first rest ih =>
    have word := words first List.mem_cons_self
    have later := ih fun part mem => words part (List.mem_cons_of_mem _ mem)
    cases rest with
    | nil => simpa [List.intercalate_singleton] using word
    | cons second rest =>
      rw [List.intercalate_cons_cons]
      simp only [List.mem_append, not_or]
      exact ⟨⟨word, by decide⟩, later⟩

theorem sourceText_word {origins : List Origin} (named : ∀ o ∈ origins, IsName o.name) :
    ' ' ∉ (sourceText origins).toList := by
  have word : ∀ o ∈ origins, ' ' ∉ o.text.toList := by
    intro o mem
    have plain : ' ' ∉ o.name.toList := fun own => absurd ((named o mem).2 _ own) (by decide)
    cases o <;> rw [Origin.text, String.toList_append, List.mem_append, not_or] <;>
      exact ⟨by decide, plain⟩
  unfold sourceText
  split
  · decide
  · rw [String.toList_intercalate]
    refine join_word fun part mem => ?_
    rw [List.mem_map] at mem
    obtain ⟨t, mem, rfl⟩ := mem
    obtain ⟨o, own, rfl⟩ := List.mem_map.mp (mem_fromKeys.mp mem)
    exact word o own

mutual

theorem expand_words {path : Path} (raw : Tree Key) {v : Tree String} {log : Log}
    (done : expand env path raw = .ok (v, log)) : ∀ entry ∈ log.sources, ' ' ∉ entry.2.toList := by
  cases raw with
  | scalar value =>
    obtain ⟨e, made, result⟩ := bind_ok.mp done
    obtain ⟨-, rfl⟩ := Prod.mk.inj (pure_eq_ok.mp result)
    intro entry mem
    rw [List.mem_singleton.mp mem]
    cases value with
    | str text =>
      obtain ⟨s, origins, -, source, named, -⟩ := expandScalar_str made
      rw [source]
      exact sourceText_word named
    | null | bool | int | float | other =>
      obtain rfl := Except.ok.inj made
      exact (by decide : ' ' ∉ "file".toList)
  | list items =>
    obtain ⟨⟨vs, log'⟩, each, result⟩ := bind_ok.mp done
    obtain ⟨-, rfl⟩ := Prod.mk.inj (pure_eq_ok.mp result)
    exact expandItems_words items each
  | dict fields =>
    obtain ⟨⟨vs, log'⟩, each, result⟩ := bind_ok.mp done
    obtain ⟨-, rfl⟩ := Prod.mk.inj (pure_eq_ok.mp result)
    exact expandFields_words fields each

theorem expandItems_words {path : Path} {position : Nat} (items : List (Tree Key))
    {vs : List (Tree String)} {log : Log}
    (done : expandItems env path position items = .ok (vs, log)) :
    ∀ entry ∈ log.sources, ' ' ∉ entry.2.toList := by
  cases items with
  | nil =>
    obtain ⟨-, rfl⟩ := Prod.mk.inj (Except.ok.inj done)
    nofun
  | cons item rest =>
    obtain ⟨⟨v, here⟩, first, done⟩ := bind_ok.mp done
    obtain ⟨⟨vs', later⟩, others, result⟩ := bind_ok.mp done
    obtain ⟨-, rfl⟩ := Prod.mk.inj (pure_eq_ok.mp result)
    exact fun entry mem => (List.mem_append.mp mem).elim (expand_words item first entry)
      (expandItems_words rest others entry)

theorem expandFields_words {path : Path} (fields : List (Key × Tree Key))
    {vs : List (String × Tree String)} {log : Log}
    (done : expandFields env path fields = .ok (vs, log)) :
    ∀ entry ∈ log.sources, ' ' ∉ entry.2.toList := by
  cases fields with
  | nil =>
    obtain ⟨-, rfl⟩ := Prod.mk.inj (Except.ok.inj done)
    nofun
  | cons field rest =>
    obtain ⟨key, item⟩ := field
    cases key with
    | other => cases done
    | str key =>
      obtain ⟨⟨v, here⟩, first, done⟩ := bind_ok.mp done
      obtain ⟨⟨vs', later⟩, others, result⟩ := bind_ok.mp done
      obtain ⟨-, rfl⟩ := Prod.mk.inj (pure_eq_ok.mp result)
      exact fun entry mem => (List.mem_append.mp mem).elim (expand_words item first entry)
        (expandFields_words rest others entry)

end

theorem sourceAt_word {sources : List (Path × String)}
    (words : ∀ entry ∈ sources, ' ' ∉ entry.2.toList) (path : Path) :
    ' ' ∉ (sourceAt sources path).toList := by
  unfold sourceAt
  cases found : sources.find? fun entry => entry.1 = path with
  | none => decide
  | some entry => exact words entry (List.mem_of_find?_eq_some found)

end Words

/-- The fields of the result without the configuration. -/
def envelope : List (String × Tree String) :=
  [("schema_version", .scalar (.int 1)), ("command", text "config show"), ("status", text "ok"),
   ("changed", .scalar (.bool false)), ("plan_id", .scalar .null),
   ("summary", text "已生成脱敏的有效配置视图"),
   ("checks", .list
     [check "CONFIG_VALID" "pass" "config" "显示前已通过静态校验"
       [("schema_validation", .scalar (.bool true))] .null,
      check "CONFIG_REDACTED" "pass" "safety" "秘密、身份、入口、URL 和拓扑字段已脱敏"
       [("redaction_categories", .scalar (.int redactions.length))] .null]),
   ("actions", .list []),
   ("warnings", texts
     ["第一批 effective 视图展开文件中的环境引用；校验器内部未物化的隐式默认值不会新增到输出。"]),
   ("redactions", texts redactions)]

theorem quiet_bytes {s : String} (dashless : 45 ∉ utf8Bytes s) : Quiet s.toList :=
  quiet_dashless (not_mem_of_byte rfl dashless)

theorem envelope_clean : CleanFields envelope := by
  simp only [envelope, check, texts, text, redactions, List.map_cons, List.map_nil, CleanFields,
    CleanItems, Clean, and_true, true_and]
  and_intros <;> exact quiet_bytes (by decide +kernel)

theorem shownResult_eq (view : View (Tree String)) : shownResult view = .dict (envelope ++
    [("effective_config", view.shown), ("sources", .dict
      ((JsonText.sortFields view.sources).map fun entry => (entry.1, text entry.2)))]) := rfl

section Leaves

mutual

def leaves : Tree String → List Scalar
  | .scalar value => [value]
  | .list items => leavesItems items
  | .dict fields => leavesFields fields

def leavesItems : List (Tree String) → List Scalar
  | [] => []
  | item :: rest => leaves item ++ leavesItems rest

def leavesFields : List (String × Tree String) → List Scalar
  | [] => []
  | (_, item) :: rest => leaves item ++ leavesFields rest

end

/-- The text of a leaf, if it has one. -/
def Scalar.texts : Scalar → List String
  | .null => []
  | value => [value.text]

mutual

theorem collectValues_leaves (t : Tree String) :
    collectValues t = (leaves t).flatMap Scalar.texts := by
  cases t with
  | scalar value => cases value <;> rfl
  | list items => exact collectItems_leaves items
  | dict fields => exact collectFields_leaves fields

theorem collectItems_leaves (items : List (Tree String)) :
    collectItems items = (leavesItems items).flatMap Scalar.texts := by
  cases items with
  | nil => rfl
  | cons item rest =>
    rw [collectItems, leavesItems, List.flatMap_append, collectValues_leaves item,
      collectItems_leaves rest]

theorem collectFields_leaves (fields : List (String × Tree String)) :
    collectFields fields = (leavesFields fields).flatMap Scalar.texts := by
  cases fields with
  | nil => rfl
  | cons field rest =>
    rw [collectFields, leavesFields, List.flatMap_append, collectValues_leaves field.2,
      collectFields_leaves rest]

end

/-- The values of the envelope itself. -/
def fixedValues : List String := collectFields envelope

theorem collectFields_append (a b : List (String × Tree String)) :
    collectFields (a ++ b) = collectFields a ++ collectFields b := by
  induction a with
  | nil => rfl
  | cons field rest ih => rw [List.cons_append, collectFields, collectFields, ih, List.append_assoc]

theorem collectFields_texts (entries : List (String × String)) :
    collectFields (entries.map fun entry => (entry.1, text entry.2)) = entries.map Prod.snd := by
  induction entries with
  | nil => rfl
  | cons entry rest ih =>
    rw [List.map_cons, collectFields, ih]
    rfl

theorem mem_shown {view : View (Tree String)} {output : String} :
    output ∈ collectValues (shownResult view) ↔ output ∈ fixedValues ∨
      output ∈ collectValues view.shown ∨ output ∈ view.sources.map Prod.snd := by
  have sorted : output ∈ (JsonText.sortFields view.sources).map Prod.snd ↔
      output ∈ view.sources.map Prod.snd := by
    rw [List.mem_map, List.mem_map]
    exact exists_congr fun entry => and_congr_left fun _ => mem_sortFields
  rw [← sorted, fixedValues, shownResult_eq, collectValues, collectFields_append, List.mem_append]
  refine or_congr_right ?_
  rw [collectFields, collectFields, collectFields, collectValues, collectFields_texts,
    List.append_nil, List.mem_append]

end Leaves

section HiddenParts

/-- What the view leaves out: a key name, a value, or what an environment variable put in. -/
inductive Hidden where
  | name (key : String)
  | value (v : Scalar)
  | environment (replacement : String)

def Hidden.texts : Hidden → List String
  | .name key => [key]
  | .value v => v.texts
  | .environment replacement => [replacement]

mutual

def parts : Tree String → List Hidden
  | .scalar value => [.value value]
  | .list items => partsItems items
  | .dict fields => partsFields fields

def partsItems : List (Tree String) → List Hidden
  | [] => []
  | item :: rest => parts item ++ partsItems rest

def partsFields : List (String × Tree String) → List Hidden
  | [] => []
  | (key, item) :: rest => .name key :: parts item ++ partsFields rest

end

/-- A leaf that is shown as it is. -/
def isShown (source : String) (class_ : KeyClass) (value : Scalar) : Bool :=
  decide (class_ = .safe) && sourceIsSafe source &&
    match value with
    | .other _ => false
    | .float x => x.finite
    | .str s => !looksSensitiveString s
    | _ => true

mutual

/-- The hidden parts of a configuration, by its keys and sources. -/
def hiddenParts (sources : List (Path × String)) (path : Path) : Tree String → List Hidden
  | .scalar value =>
    if (classAt path).isRedacted || !isShown (sourceAt sources path) (classAt path) value then
      [.value value]
    else []
  | .list items =>
    if (classAt path).isRedacted then partsItems items else hiddenItems sources path 0 items
  | .dict fields =>
    if (classAt path).isRedacted then partsFields fields else hiddenFields sources path fields

def hiddenItems (sources : List (Path × String)) (path : Path) (position : Nat) :
    List (Tree String) → List Hidden
  | [] => []
  | item :: rest =>
    hiddenParts sources (path ++ [.index position]) item ++
      hiddenItems sources path (position + 1) rest

def hiddenFields (sources : List (Path × String)) (path : Path) :
    List (String × Tree String) → List Hidden
  | [] => []
  | (key, item) :: rest =>
    (if isKnown path key then hiddenParts sources (path ++ [.key key]) item
     else .name key :: parts item) ++ hiddenFields sources path rest

end

def ConfigState.hidden (state : ConfigState) : List Hidden :=
  state.secretCandidates.map .environment ++ hiddenParts state.sources [] state.effective

mutual

theorem flattenStrings_parts (t : Tree String) :
    flattenStrings t = (parts t).flatMap Hidden.texts := by
  cases t with
  | scalar value => cases value <;> rfl
  | list items => exact flattenItems_parts items
  | dict fields => exact flattenFields_parts fields

theorem flattenItems_parts (items : List (Tree String)) :
    flattenItems items = (partsItems items).flatMap Hidden.texts := by
  cases items with
  | nil => rfl
  | cons item rest =>
    rw [flattenItems, partsItems, List.flatMap_append, flattenStrings_parts item,
      flattenItems_parts rest]

theorem flattenFields_parts (fields : List (String × Tree String)) :
    flattenFields fields = (partsFields fields).flatMap Hidden.texts := by
  cases fields with
  | nil => rfl
  | cons field rest =>
    rw [flattenFields, partsFields, List.flatMap_append, List.flatMap_cons,
      flattenStrings_parts field.2, flattenFields_parts rest]
    rfl

end

theorem redactScalar_candidates (source : String) (class_ : KeyClass) (display : Path)
    (value : Scalar) : (redactScalar source class_ display value).candidates =
      if isShown source class_ value then [] else value.texts := by
  have flat : flattenStrings (.scalar value) = value.texts := by cases value <;> rfl
  cases value with
  | other t => simp [redactScalar, isShown, hiddenView, flat]
  | float x =>
    obtain ⟨repr, finite, plain⟩ := x
    cases finite <;> by_cases safe : class_ = .safe <;> cases own : sourceIsSafe source <;>
      simp [redactScalar, isShown, hiddenView, flat, safe, own]
  | str s =>
    by_cases safe : class_ = .safe <;> cases own : sourceIsSafe source <;>
      cases looks : looksSensitiveString s <;>
      simp [redactScalar, isShown, hiddenView, flat, safe, own, looks]
  | null | bool | int =>
    by_cases safe : class_ = .safe <;> cases own : sourceIsSafe source <;>
      simp [redactScalar, isShown, hiddenView, flat, safe, own]

variable {sources : List (Path × String)}

mutual

theorem redact_candidates (path display : Path) (t : Tree String) :
    (redact sources path display t).candidates =
      (hiddenParts sources path t).flatMap Hidden.texts := by
  cases t with
  | scalar value =>
    rw [redact, hiddenParts, unlessRedacted]
    cases class_ : (classAt path).isRedacted with
    | true =>
      simp only [if_true, Bool.true_or]
      exact flattenStrings_parts (.scalar value)
    | false =>
      simp only [Bool.false_eq_true, if_false, Bool.false_or]
      rw [redactScalar_candidates]
      cases isShown (sourceAt sources path) (classAt path) value <;> simp [Hidden.texts]
  | list items =>
    rw [redact, hiddenParts, unlessRedacted]
    split
    · exact flattenItems_parts items
    · exact redactItems_candidates path display 0 items
  | dict fields =>
    rw [redact, hiddenParts, unlessRedacted]
    split
    · exact flattenFields_parts fields
    · exact redactFields_candidates path display 0 [] fields

theorem redactItems_candidates (path display : Path) (position : Nat)
    (items : List (Tree String)) : (redactItems sources path display position items).candidates =
      (hiddenItems sources path position items).flatMap Hidden.texts := by
  cases items with
  | nil => rfl
  | cons item rest =>
    rw [redactItems, hiddenItems, List.flatMap_append]
    exact congrArg₂ _ (redact_candidates _ _ item) (redactItems_candidates path display _ rest)

theorem redactFields_candidates (path display : Path) (hidden : Nat)
    (result : List (String × Tree String)) (fields : List (String × Tree String)) :
    (redactFields sources path display hidden result fields).candidates =
      (hiddenFields sources path fields).flatMap Hidden.texts := by
  cases fields with
  | nil => rfl
  | cons field rest =>
    obtain ⟨key, item⟩ := field
    rw [redactFields, hiddenFields, List.flatMap_append]
    split
    · exact congrArg₂ _ (redact_candidates _ _ item)
        (redactFields_candidates path display hidden _ rest)
    · rw [List.flatMap_cons, ← flattenStrings_parts item,
        ← redactFields_candidates path display (hidden + 1) (put result
          ("unclassified_" ++ toString (hidden + 1)) (text "<redacted:unclassified>")) rest]
      rfl

end

theorem mem_candidates {state : ConfigState} {candidate : String} :
    candidate ∈ (redactConfig state).candidates ↔ ∃ h ∈ state.hidden, candidate ∈ h.texts := by
  have all : (redactConfig state).candidates = state.hidden.flatMap Hidden.texts := by
    have replaced : (state.secretCandidates.map Hidden.environment).flatMap Hidden.texts =
        state.secretCandidates := by
      rw [List.flatMap_map]
      exact List.flatMap_singleton' _
    rw [ConfigState.hidden, List.flatMap_append, replaced, ← redact_candidates [] []]
    rfl
  rw [all, List.mem_flatMap]

end HiddenParts

/-- What the claim that nothing leaks is about: a hidden string value and a shown string. -/
def NoStringLeak (state : ConfigState) : Prop :=
  ∀ s, .value (.str s) ∈ state.hidden →
    (∀ shown, .str shown ∈ leaves (redactConfig state).shown → ¬ Coincides s shown) ∧
    ∀ shown ∈ (redactConfig state).sources.map Prod.snd, ¬ Coincides s shown

/-- No other part of the hidden and the printed values reads alike. -/
structure NoCoincidence (state : ConfigState) : Prop where
  others : ∀ h ∈ state.hidden, (∀ s, h ≠ .value (.str s)) → ∀ candidate ∈ h.texts,
    ∀ output ∈ collectValues (shownResult (redactConfig state)), ¬ Coincides candidate output
  fixed : ∀ s, .value (.str s) ∈ state.hidden → ∀ output ∈ fixedValues, ¬ Coincides s output
  leaves : ∀ s, .value (.str s) ∈ state.hidden → ∀ v ∈ leaves (redactConfig state).shown,
    (∀ t, v ≠ .str t) → ∀ output ∈ v.texts, ¬ Coincides s output

theorem cleanFields_append {a b : List (String × Tree String)} (first : CleanFields a)
    (second : CleanFields b) : CleanFields (a ++ b) := by
  induction a with
  | nil => exact second
  | cons field rest ih => exact ⟨first.1, first.2.1, ih first.2.2⟩

theorem cleanFields_texts {entries : List (String × String)}
    (words : ∀ entry ∈ entries, ' ' ∉ entry.1.toList ∧ ' ' ∉ entry.2.toList) :
    CleanFields (entries.map fun entry => (entry.1, text entry.2)) := by
  induction entries with
  | nil => trivial
  | cons entry rest ih =>
    obtain ⟨key, value⟩ := words entry List.mem_cons_self
    exact ⟨quiet_word key, quiet_word value,
      ih fun entry mem => words entry (List.mem_cons_of_mem _ mem)⟩

theorem mem_sourceMap {entries : List (String × String)} {entry : String × String}
    (mem : entry ∈ sourceMap entries) : entry ∈ entries := by
  have general : ∀ (entries map : List (String × String)), entry ∈ entries.foldl (fun map entry =>
      if entry.1 ∈ map.map Prod.fst then
        map.map fun old => if old.1 = entry.1 then entry else old
      else map ++ [entry]) map → entry ∈ map ∨ entry ∈ entries := by
    intro entries
    induction entries with
    | nil => exact fun _ own => .inl own
    | cons first rest ih =>
      intro map own
      rcases ih _ own with old | later
      · beta_reduce at old
        split at old
        · obtain ⟨other, mem, eq⟩ := List.mem_map.mp old
          split at eq
          · exact .inr (eq ▸ List.mem_cons_self)
          · exact .inl (eq ▸ mem)
        · rcases List.mem_append.mp old with old | new
          · exact .inl old
          · exact .inr (List.mem_singleton.mp new ▸ List.mem_cons_self)
      · exact .inr (List.mem_cons_of_mem _ later)
  exact (general entries [] mem).resolve_left nofun

theorem shown_clean {validate : Tree String → Bool} {env : Env} {raw : RawConfig}
    {state : ConfigState} (loaded : loadConfigState validate env raw = .ok state) :
    Clean (shownResult (redactConfig state)) := by
  obtain ⟨log, made, sources, -⟩ := loadConfigState_ok loaded
  have words : ∀ path, ' ' ∉ (sourceAt state.sources path).toList := by
    rw [sources]
    exact sourceAt_word (expand_words raw.tree made)
  have plain : PlainPath [] := fun _ mem => by cases mem
  have view := redact_clean words [] plain state.effective
  rw [shownResult_eq]
  refine cleanFields_append envelope_clean ⟨quiet_word (by decide), view.shown, quiet_word (by decide),
    cleanFields_texts fun entry mem => ?_, trivial⟩
  exact view.sources entry (mem_sourceMap (mem_sortFields.mp mem))

/- The test for private keys never fires on a clean result. -/
theorem assertNoSecretLeak_ok {payload : Tree String} (clean : Clean payload)
    (candidates : List String) : assertNoSecretLeak payload candidates = .ok () ↔
      ∀ candidate ∈ candidates, ∀ output ∈ collectValues payload, ¬ Coincides candidate output := by
  have header : keyHeader <+: "-----begin private key-----".toList :=
    List.isPrefixOf_iff_prefix.mp (by decide)
  have none := lower_sound (quiet_dumps payload clean) header
  rw [assertNoSecretLeak, raiseIf_neg (by rw [none]; exact Bool.false_ne_true), ok_bind, raiseIf_ok]
  simp only [not_exists, not_and]

/-- The field `status` of a result. -/
def resultStatus : Tree String → Option String
  | .dict fields =>
    match (fields.find? fun field => field.1 = "status").map Prod.snd with
    | some (.scalar (.str status)) => some status
    | _ => none
  | _ => none

/- A loaded configuration is shown, or the guard has refused it. -/
theorem configShow_loaded {validate : Tree String → Bool} {env : Env} {raw : RawConfig}
    {state : ConfigState} (loaded : loadConfigState validate env raw = .ok state) :
    (assertNoSecretLeak (shownResult (redactConfig state)) (redactConfig state).candidates = .ok () ∧
        configShow validate env raw = (shownResult (redactConfig state), 0)) ∨
      assertNoSecretLeak (shownResult (redactConfig state)) (redactConfig state).candidates ≠ .ok () ∧
        (configShow validate env raw).2 = 9 := by
  unfold configShow
  rw [loaded]
  simp only
  split
  · rename_i passed
    exact .inl ⟨passed, rfl⟩
  · rename_i refused
    exact .inr ⟨by rw [refused]; simp, rfl⟩

theorem config_show_iff (validate : Tree String → Bool) (env : Env) (raw : RawConfig)
    (state : ConfigState) (accepted : loadConfigState validate env raw = .ok state)
    (distinct : NoStringLeak state) :
    (resultStatus (configShow validate env raw).1 = some "ok" ∧
      (configShow validate env raw).2 = 0) ↔ NoCoincidence state := by
  have test := assertNoSecretLeak_ok (shown_clean accepted) (redactConfig state).candidates
  have shown : (resultStatus (configShow validate env raw).1 = some "ok" ∧
      (configShow validate env raw).2 = 0) ↔
      assertNoSecretLeak (shownResult (redactConfig state)) (redactConfig state).candidates =
        .ok () := by
    rcases configShow_loaded accepted with ⟨passed, result⟩ | ⟨leaked, code⟩
    · rw [result]
      exact iff_of_true ⟨by rw [shownResult_eq]; rfl, rfl⟩ passed
    · rw [code]
      exact iff_of_false (fun shown => absurd shown.2 (by decide)) leaked
  rw [shown, test]
  constructor
  · intro fine
    have never : ∀ h ∈ state.hidden, ∀ candidate ∈ h.texts,
        ∀ output ∈ collectValues (shownResult (redactConfig state)),
          ¬ Coincides candidate output := fun h mem candidate own =>
      fine candidate (mem_candidates.mpr ⟨h, mem, own⟩)
    refine ⟨fun h mem _ => never h mem, fun s mem output own => ?_,
      fun s mem v known _ output own => ?_⟩
    · exact never _ mem s (List.mem_singleton_self s) output (mem_shown.mpr (.inl own))
    · refine never _ mem s (List.mem_singleton_self s) output (mem_shown.mpr (.inr (.inl ?_)))
      rw [collectValues_leaves]
      exact List.mem_flatMap.mpr ⟨v, known, own⟩
  · rintro ⟨others, fixed, numbers⟩ candidate mem output own
    obtain ⟨h, known, candidate_own⟩ := mem_candidates.mp mem
    by_cases string : ∃ s, h = .value (.str s)
    · obtain ⟨s, rfl⟩ := string
      obtain rfl := List.mem_singleton.mp candidate_own
      rcases mem_shown.mp own with envelope | tree | source
      · exact fixed _ known output envelope
      · rw [collectValues_leaves] at tree
        obtain ⟨v, inside, text⟩ := List.mem_flatMap.mp tree
        by_cases other : ∃ t, v = .str t
        · obtain ⟨t, rfl⟩ := other
          obtain rfl := List.mem_singleton.mp text
          exact (distinct _ known).1 _ inside
        · exact numbers _ known v inside (fun t same => other ⟨t, same⟩) output text
      · exact (distinct _ known).2 output source
    · exact others h known (fun s same => string ⟨s, same⟩) candidate candidate_own output own

section Samples

/-- A configuration that the validator accepts, with a list of further fields of the server. -/
def serverConfig {κ : Type} (key : String → κ) (more : List (κ × Tree κ)) : Tree κ :=
  let dict (fields : List (String × Tree κ)) : Tree κ :=
    .dict (fields.map fun field => (key field.1, field.2))
  let value (s : String) : Tree κ := .scalar (.str s)
  dict
    [("cloud", dict
      [("provider", value "aliyun"),
       ("aliyun", dict
         [("access_key_id", value "k"), ("access_key_secret", value "s"),
          ("region_id", value "cn"), ("instance_id", value "i-1")])]),
     ("contest_server", .dict
       ([("ssh_user", value "noi"), ("ssh_key", value "/k"), ("seats_root", value "/s"),
         ("docker_image", value "noi"), ("docker_network", value "net"),
         ("strict_host_key", .scalar (.bool false))].map
           (fun field => (key field.1, field.2)) ++ more)),
     ("hydro", dict
       [("public_base_url", value "u"), ("internal_base_url", value "v"), ("mongo_uri", value "m"),
        ("domain_id", value "oj"),
        ("orchestrator_token", value "tttttttttttttttttttttttttttttttt")]),
     ("orchestrator", dict
       [("admin_password", value "pppppppppppppppp"), ("db", value "/d"),
        ("collected_dir", value "/c")])]

/-- Native TLS switched off, as in the example configuration. -/
def disabledTls {κ : Type} (key : String → κ) : List (κ × Tree κ) :=
  [(key "gateway_tls", .dict [(key "enabled", .scalar (.bool false))])]

def plainConfig : RawConfig where
  tree := serverConfig .str []
  distinct := by simp [serverConfig, Distinct, DistinctFields]

def disabledTlsConfig : RawConfig where
  tree := serverConfig .str (disabledTls .str)
  distinct := by simp [serverConfig, disabledTls, Distinct, DistinctFields]

def fileSources (paths : List (List String)) : List (Path × String) :=
  paths.map fun path => (path.map .key, "file")

def serverSources (more : List (List String)) : List (Path × String) := fileSources
  ([["cloud", "provider"], ["cloud", "aliyun", "access_key_id"],
    ["cloud", "aliyun", "access_key_secret"], ["cloud", "aliyun", "region_id"],
    ["cloud", "aliyun", "instance_id"], ["contest_server", "ssh_user"],
    ["contest_server", "ssh_key"], ["contest_server", "seats_root"],
    ["contest_server", "docker_image"], ["contest_server", "docker_network"],
    ["contest_server", "strict_host_key"]] ++ more ++
   [["hydro", "public_base_url"], ["hydro", "internal_base_url"], ["hydro", "mongo_uri"],
    ["hydro", "domain_id"], ["hydro", "orchestrator_token"], ["orchestrator", "admin_password"],
    ["orchestrator", "db"], ["orchestrator", "collected_dir"]])

def plainState : ConfigState := ⟨serverConfig id [], serverSources [], []⟩

def disabledTlsState : ConfigState :=
  ⟨serverConfig id (disabledTls id), serverSources [["contest_server", "gateway_tls", "enabled"]], []⟩

def Hidden.string? : Hidden → Option String
  | .value (.str s) => some s
  | _ => none

/-- The hidden strings that are long enough to be looked for. -/
def ConfigState.secrets (state : ConfigState) : List String :=
  (state.hidden.filterMap Hidden.string?).filter fun s => 4 ≤ s.length

theorem mem_secrets {state : ConfigState} {s output : String}
    (mem : .value (.str s) ∈ state.hidden) (same : Coincides s output) : s ∈ state.secrets :=
  List.mem_filter.mpr ⟨List.mem_filterMap.mpr ⟨_, mem, rfl⟩, decide_eq_true same.1⟩

theorem noStringLeak_of {state : ConfigState} (apart : ∀ s ∈ state.secrets,
      ∀ shown ∈ collectValues (redactConfig state).shown ++
        (redactConfig state).sources.map Prod.snd, ¬ Coincides s shown) : NoStringLeak state := by
  intro s mem
  refine ⟨fun shown inside same => ?_, fun shown inside same => ?_⟩
  · refine apart s (mem_secrets mem same) shown (List.mem_append_left _ ?_) same
    rw [collectValues_leaves]
    exact List.mem_flatMap.mpr ⟨_, inside, List.mem_singleton_self _⟩
  · exact apart s (mem_secrets mem same) shown (List.mem_append_right _ inside) same

/- A text that has some byte fewer times than a candidate does not coincide with it. -/
theorem apart_of_counts {candidates outputs : List String}
    (fewer : ∀ s ∈ candidates, ∀ output ∈ outputs,
      (utf8Bytes output).count ((utf8Bytes s).headD 0) < (utf8Bytes s).count ((utf8Bytes s).headD 0)) :
    ∀ s ∈ candidates, ∀ output ∈ outputs, ¬ Coincides s output := by
  rintro s mem output own ⟨-, same⟩
  have inside : s.toList <:+: output.toList := by
    rcases same with rfl | ⟨-, found⟩
    · exact List.infix_rfl
    · exact contains_iff.mp found
  exact absurd (fewer s mem output own) (not_lt.mpr ((utf8Bytes_sublist inside).count_le _))

/-- All texts of the view, before the sources are sorted. -/
def plainTexts : List String :=
  fixedValues ++ (collectValues (redactConfig plainState).shown ++
    (redactConfig plainState).sources.map Prod.snd)

theorem plain_counts : (∀ s ∈ plainState.secrets, ∀ output ∈ plainTexts,
      (utf8Bytes output).count ((utf8Bytes s).headD 0) < (utf8Bytes s).count ((utf8Bytes s).headD 0)) ∧
    ∀ h ∈ plainState.hidden, h.string?.isSome = true := by
  decide +kernel

theorem plain_shown : (configShow (fun _ => true) (fun _ => none) plainConfig).2 = 0 := by
  obtain ⟨counts, strings⟩ := plain_counts
  have apart := apart_of_counts counts
  have leak : NoStringLeak plainState := noStringLeak_of fun s mem shown inside =>
    apart s mem shown (List.mem_append_right _ inside)
  refine ((config_show_iff (fun _ => true) (fun _ => none) plainConfig plainState rfl leak).mpr
    ⟨fun h mem other => ?_, fun s mem output own same => ?_,
      fun s mem v inside _ output own same => ?_⟩).2
  · have := strings h mem
    cases h with
    | value v =>
      cases v with
      | str s => exact absurd rfl (other s)
      | null | bool | int | float | other => cases this
    | name | environment => cases this
  · exact apart s (mem_secrets mem same) output (List.mem_append_left _ own) same
  · refine apart s (mem_secrets mem same) output
      (List.mem_append_right _ (List.mem_append_left _ ?_)) same
    rw [collectValues_leaves]
    exact List.mem_flatMap.mpr ⟨v, inside, own⟩

theorem loadConfigState_of {validate : Tree String → Bool} {env : Env} {raw : RawConfig}
    {state : ConfigState} (mapping : ∃ fields, raw.tree = .dict fields)
    (made : expand env [] raw.tree = .ok (state.effective, ⟨state.sources, state.secretCandidates⟩))
    (valid : validate state.effective = true) : loadConfigState validate env raw = .ok state := by
  obtain ⟨fields, eq⟩ := mapping
  unfold loadConfigState
  rw [made, eq]
  simp only [ok_bind]
  rw [raiseIf_neg (by simp [valid])]
  rfl

theorem refused_of {validate : Tree String → Bool} {env : Env} {raw : RawConfig}
    {state : ConfigState} (loaded : loadConfigState validate env raw = .ok state)
    {candidate output : String} (mem : candidate ∈ (redactConfig state).candidates)
    (shown : output ∈ collectValues (shownResult (redactConfig state)))
    (same : Coincides candidate output) : (configShow validate env raw).2 = 9 := by
  have test := assertNoSecretLeak_ok (shown_clean loaded) (redactConfig state).candidates
  rcases configShow_loaded loaded with ⟨passed, -⟩ | ⟨-, code⟩
  · exact absurd same (test.mp passed candidate mem output shown)
  · exact code

/- The text of the hidden value of `enabled` is that of the field `changed` of every result. -/
theorem disabled_tls_refused :
    loadConfigState (fun _ => true) (fun _ => none) disabledTlsConfig = .ok disabledTlsState ∧
      NoStringLeak disabledTlsState ∧
      (configShow (fun _ => true) (fun _ => none) disabledTlsConfig).2 = 9 := by
  have loaded : loadConfigState (fun _ => true) (fun _ => none) disabledTlsConfig =
      .ok disabledTlsState := loadConfigState_of ⟨_, rfl⟩ rfl rfl
  obtain ⟨hidden, counts⟩ : "False" ∈ (redactConfig disabledTlsState).candidates ∧
      ∀ s ∈ disabledTlsState.secrets, ∀ output ∈ collectValues (redactConfig disabledTlsState).shown ++
        (redactConfig disabledTlsState).sources.map Prod.snd,
      (utf8Bytes output).count ((utf8Bytes s).headD 0) <
        (utf8Bytes s).count ((utf8Bytes s).headD 0) := by
    decide +kernel
  have changed : "False" ∈ fixedValues := by decide +kernel
  exact ⟨loaded, noStringLeak_of (apart_of_counts counts),
    refused_of loaded hidden (mem_shown.mpr (.inl changed)) (by decide)⟩

end Samples

end NoiContest.Noictl
