import NoiContest.Noictl.Sources

/- What redaction hides does not show: two configurations that differ in hidden places only have
   the same view, the same source map and the same published digests. -/
namespace NoiContest.Noictl
open Outcome PyText

/-- Leaves with the same value from the same source. -/
def SameScalar (env₁ env₂ : Env) (a b : Scalar) : Prop :=
  ∃ e₁ e₂, expandScalar env₁ a = .ok e₁ ∧ expandScalar env₂ b = .ok e₂ ∧ e₁.value = e₂.value ∧
    e₁.source = e₂.source

section Relation
variable (env₁ env₂ : Env)

/- Configurations, each in its environment, that differ only in the values under keys of a redacted
   class, in the names and values of unknown keys, and in texts that take a part from a variable
   that is not allowed. -/
mutual

inductive Alike : Path → Tree Key → Tree Key → Prop
  | redacted {path : Path} {a b : Tree Key} (own : (classAt path).isRedacted = true) :
      Alike path a b
  | same {path : Path} {a b : Scalar} (equal : SameScalar env₁ env₂ a b) :
      Alike path (.scalar a) (.scalar b)
  | outside {path : Path} {s t : String} (first : Outside env₁ s) (second : Outside env₂ t) :
      Alike path (.scalar (.str s)) (.scalar (.str t))
  | list {path : Path} {xs ys : List (Tree Key)} (items : AlikeItems path 0 xs ys) :
      Alike path (.list xs) (.list ys)
  | dict {path : Path} {fs gs : List (Key × Tree Key)} (fields : AlikeFields path fs gs) :
      Alike path (.dict fs) (.dict gs)

inductive AlikeItems : Path → Nat → List (Tree Key) → List (Tree Key) → Prop
  | nil {path : Path} {position : Nat} : AlikeItems path position [] []
  | cons {path : Path} {position : Nat} {a b : Tree Key} {xs ys : List (Tree Key)}
      (item : Alike (path ++ [.index position]) a b) (rest : AlikeItems path (position + 1) xs ys) :
      AlikeItems path position (a :: xs) (b :: ys)

inductive AlikeFields : Path → List (Key × Tree Key) → List (Key × Tree Key) → Prop
  | nil {path : Path} : AlikeFields path [] []
  | known {path : Path} (key : String) {a b : Tree Key} {fs gs : List (Key × Tree Key)}
      (known : isKnown path key = true) (item : Alike (path ++ [.key key]) a b)
      (rest : AlikeFields path fs gs) :
      AlikeFields path ((.str key, a) :: fs) ((.str key, b) :: gs)
  | unknown {path : Path} {k l : String} {a b : Tree Key} {fs gs : List (Key × Tree Key)}
      (first : isKnown path k = false) (second : isKnown path l = false)
      (rest : AlikeFields path fs gs) :
      AlikeFields path ((.str k, a) :: fs) ((.str l, b) :: gs)

end

end Relation

/-- Views that show the same and have the same sources. -/
structure SameView {α : Type} (a b : View α) : Prop where
  shown : a.shown = b.shown
  sources : a.sources = b.sources

theorem SameView.hidden (display : Path) (class_ : String) (c d : List String) :
    SameView (hiddenView display class_ c) (hiddenView display class_ d) := ⟨rfl, rfl⟩

theorem SameView.unless {path display : Path} {a b : Tree String} {v w : View (Tree String)}
    (same : SameView v w) :
    SameView (unlessRedacted path display a v) (unlessRedacted path display b w) := by
  unfold unlessRedacted
  split
  · exact SameView.hidden ..
  · exact same

theorem redact_unless (sources : List (Path × String)) (path display : Path) (v : Tree String) :
    ∃ view, redact sources path display v = unlessRedacted path display v view := by
  cases v with
  | scalar | list | dict =>
    rw [redact]
    exact ⟨_, rfl⟩

theorem redact_redacted {path : Path} (own : (classAt path).isRedacted = true)
    (sources : List (Path × String)) (display : Path) (v : Tree String) :
    redact sources path display v =
      hiddenView display (classAt path).name (flattenStrings v) := by
  obtain ⟨view, eq⟩ := redact_unless sources path display v
  rw [eq, unlessRedacted, if_pos own]

theorem redactScalar_unsafe {source : String} (refused : sourceIsSafe source = false)
    (class_ : KeyClass) (display : Path) (s : String) :
    redactScalar source class_ display (.str s) = hiddenView display "unclassified" [s] := by
  simp [redactScalar, refused, flattenStrings, Scalar.text]

theorem Follows.left {sources : List (Path × String)} {a b : Log}
    (follows : Follows sources (a.append b)) : Follows sources a := fun entry mem =>
  follows entry (List.mem_append_left _ mem)

theorem Follows.right {sources : List (Path × String)} {a b : Log}
    (follows : Follows sources (a.append b)) : Follows sources b := fun entry mem =>
  follows entry (List.mem_append_right _ mem)

section Runs
variable {env₁ env₂ : Env} {sources₁ sources₂ : List (Path × String)}

theorem redact_leaf {path display : Path} {a b : Scalar} {e₁ e₂ : Expanded}
    (follows₁ : Follows sources₁ ⟨[(path, e₁.source)], e₁.secrets⟩)
    (follows₂ : Follows sources₂ ⟨[(path, e₂.source)], e₂.secrets⟩)
    (same : ∀ class_, SameView (redactScalar e₁.source class_ display a)
      (redactScalar e₂.source class_ display b)) :
    SameView (redact sources₁ path display (.scalar a))
      (redact sources₂ path display (.scalar b)) := by
  have here₁ : sourceAt sources₁ path = e₁.source := follows₁ _ (List.mem_singleton_self _)
  have here₂ : sourceAt sources₂ path = e₂.source := follows₂ _ (List.mem_singleton_self _)
  rw [redact, redact, here₁, here₂]
  exact SameView.unless (same _)

mutual

theorem redact_alike {path : Path} {raw₁ raw₂ : Tree Key} {v₁ v₂ : Tree String} {log₁ log₂ : Log}
    (done₁ : expand env₁ path raw₁ = .ok (v₁, log₁)) (done₂ : expand env₂ path raw₂ = .ok (v₂, log₂))
    (follows₁ : Follows sources₁ log₁) (follows₂ : Follows sources₂ log₂) (display : Path) :
    Alike env₁ env₂ path raw₁ raw₂ →
      SameView (redact sources₁ path display v₁) (redact sources₂ path display v₂)
  | .redacted own => by
    rw [redact_redacted own, redact_redacted own]
    exact SameView.hidden ..
  | .same equal => by
    obtain ⟨e₁, made₁, result₁⟩ := bind_ok.mp done₁
    obtain ⟨e₂, made₂, result₂⟩ := bind_ok.mp done₂
    obtain ⟨rfl, rfl⟩ := Prod.mk.inj (pure_eq_ok.mp result₁)
    obtain ⟨rfl, rfl⟩ := Prod.mk.inj (pure_eq_ok.mp result₂)
    obtain ⟨e₁', e₂', own₁, own₂, value, source⟩ := equal
    obtain rfl := Except.ok.inj (made₁.symm.trans own₁)
    obtain rfl := Except.ok.inj (made₂.symm.trans own₂)
    refine redact_leaf follows₁ follows₂ fun class_ => ?_
    rw [value, source]
    exact ⟨rfl, rfl⟩
  | .outside first second => by
    obtain ⟨e₁, made₁, result₁⟩ := bind_ok.mp done₁
    obtain ⟨e₂, made₂, result₂⟩ := bind_ok.mp done₂
    obtain ⟨rfl, rfl⟩ := Prod.mk.inj (pure_eq_ok.mp result₁)
    obtain ⟨rfl, rfl⟩ := Prod.mk.inj (pure_eq_ok.mp result₂)
    obtain ⟨⟨s, text₁⟩, refused₁⟩ := outside_unsafe made₁ first
    obtain ⟨⟨t, text₂⟩, refused₂⟩ := outside_unsafe made₂ second
    refine redact_leaf follows₁ follows₂ fun class_ => ?_
    rw [text₁, text₂, redactScalar_unsafe refused₁, redactScalar_unsafe refused₂]
    exact SameView.hidden ..
  | .list items => by
    obtain ⟨⟨vs₁, log₁⟩, each₁, result₁⟩ := bind_ok.mp done₁
    obtain ⟨⟨vs₂, log₂⟩, each₂, result₂⟩ := bind_ok.mp done₂
    obtain ⟨rfl, rfl⟩ := Prod.mk.inj (pure_eq_ok.mp result₁)
    obtain ⟨rfl, rfl⟩ := Prod.mk.inj (pure_eq_ok.mp result₂)
    have same := redactItems_alike each₁ each₂ follows₁ follows₂ display items
    rw [redact, redact]
    exact SameView.unless ⟨congrArg Tree.list same.shown, same.sources⟩
  | .dict fields => by
    obtain ⟨⟨vs₁, log₁⟩, each₁, result₁⟩ := bind_ok.mp done₁
    obtain ⟨⟨vs₂, log₂⟩, each₂, result₂⟩ := bind_ok.mp done₂
    obtain ⟨rfl, rfl⟩ := Prod.mk.inj (pure_eq_ok.mp result₁)
    obtain ⟨rfl, rfl⟩ := Prod.mk.inj (pure_eq_ok.mp result₂)
    have same := redactFields_alike each₁ each₂ follows₁ follows₂ display 0 [] fields
    rw [redact, redact]
    exact SameView.unless ⟨congrArg Tree.dict same.shown, same.sources⟩

theorem redactItems_alike {path : Path} {position : Nat} {raw₁ raw₂ : List (Tree Key)}
    {vs₁ vs₂ : List (Tree String)} {log₁ log₂ : Log}
    (done₁ : expandItems env₁ path position raw₁ = .ok (vs₁, log₁))
    (done₂ : expandItems env₂ path position raw₂ = .ok (vs₂, log₂))
    (follows₁ : Follows sources₁ log₁) (follows₂ : Follows sources₂ log₂) (display : Path) :
    AlikeItems env₁ env₂ path position raw₁ raw₂ →
      SameView (redactItems sources₁ path display position vs₁)
        (redactItems sources₂ path display position vs₂)
  | .nil => by
    obtain ⟨rfl, -⟩ := Prod.mk.inj (Except.ok.inj done₁)
    obtain ⟨rfl, -⟩ := Prod.mk.inj (Except.ok.inj done₂)
    exact ⟨rfl, rfl⟩
  | .cons item rest => by
    obtain ⟨⟨v₁, here₁⟩, first₁, done₁⟩ := bind_ok.mp done₁
    obtain ⟨⟨vs₁, later₁⟩, others₁, result₁⟩ := bind_ok.mp done₁
    obtain ⟨⟨v₂, here₂⟩, first₂, done₂⟩ := bind_ok.mp done₂
    obtain ⟨⟨vs₂, later₂⟩, others₂, result₂⟩ := bind_ok.mp done₂
    obtain ⟨rfl, rfl⟩ := Prod.mk.inj (pure_eq_ok.mp result₁)
    obtain ⟨rfl, rfl⟩ := Prod.mk.inj (pure_eq_ok.mp result₂)
    have head := redact_alike first₁ first₂ follows₁.left follows₂.left
      (display ++ [.index position]) item
    have tail := redactItems_alike others₁ others₂ follows₁.right follows₂.right display rest
    rw [redactItems, redactItems]
    exact ⟨by rw [head.shown, tail.shown], by rw [head.sources, tail.sources]⟩

theorem redactFields_alike {path : Path} {raw₁ raw₂ : List (Key × Tree Key)}
    {vs₁ vs₂ : List (String × Tree String)} {log₁ log₂ : Log}
    (done₁ : expandFields env₁ path raw₁ = .ok (vs₁, log₁))
    (done₂ : expandFields env₂ path raw₂ = .ok (vs₂, log₂))
    (follows₁ : Follows sources₁ log₁) (follows₂ : Follows sources₂ log₂) (display : Path)
    (hidden : Nat) (result : List (String × Tree String)) :
    AlikeFields env₁ env₂ path raw₁ raw₂ →
      SameView (redactFields sources₁ path display hidden result vs₁)
        (redactFields sources₂ path display hidden result vs₂)
  | .nil => by
    obtain ⟨rfl, -⟩ := Prod.mk.inj (Except.ok.inj done₁)
    obtain ⟨rfl, -⟩ := Prod.mk.inj (Except.ok.inj done₂)
    exact ⟨rfl, rfl⟩
  | .known key own item rest => by
    obtain ⟨⟨v₁, here₁⟩, first₁, done₁⟩ := bind_ok.mp done₁
    obtain ⟨⟨vs₁, later₁⟩, others₁, result₁⟩ := bind_ok.mp done₁
    obtain ⟨⟨v₂, here₂⟩, first₂, done₂⟩ := bind_ok.mp done₂
    obtain ⟨⟨vs₂, later₂⟩, others₂, result₂⟩ := bind_ok.mp done₂
    obtain ⟨rfl, rfl⟩ := Prod.mk.inj (pure_eq_ok.mp result₁)
    obtain ⟨rfl, rfl⟩ := Prod.mk.inj (pure_eq_ok.mp result₂)
    have head := redact_alike first₁ first₂ follows₁.left follows₂.left
      (display ++ [.key key]) item
    have tail := redactFields_alike others₁ others₂ follows₁.right follows₂.right display hidden
      (put result key (redact sources₁ (path ++ [.key key]) (display ++ [.key key]) v₁).shown) rest
    rw [redactFields, redactFields, if_pos own, if_pos own]
    simp only [← head.shown, ← head.sources]
    exact ⟨tail.shown, by rw [tail.sources]⟩
  | .unknown first second rest => by
    obtain ⟨⟨v₁, here₁⟩, -, done₁⟩ := bind_ok.mp done₁
    obtain ⟨⟨vs₁, later₁⟩, others₁, result₁⟩ := bind_ok.mp done₁
    obtain ⟨⟨v₂, here₂⟩, -, done₂⟩ := bind_ok.mp done₂
    obtain ⟨⟨vs₂, later₂⟩, others₂, result₂⟩ := bind_ok.mp done₂
    obtain ⟨rfl, rfl⟩ := Prod.mk.inj (pure_eq_ok.mp result₁)
    obtain ⟨rfl, rfl⟩ := Prod.mk.inj (pure_eq_ok.mp result₂)
    have refused : ∀ {key : String}, isKnown path key = false → ¬ isKnown path key = true := by
      intro key none known
      rw [none] at known
      cases known
    have tail := redactFields_alike others₁ others₂ follows₁.right follows₂.right display
      (hidden + 1) (put result ("unclassified_" ++ toString (hidden + 1))
        (text "<redacted:unclassified>")) rest
    rw [redactFields, redactFields, if_neg (refused first), if_neg (refused second)]
    exact ⟨tail.shown, congrArg (List.append [_]) tail.sources⟩

end

end Runs

theorem loadConfigState_ok {validate : Tree String → Bool} {env : Env} {raw : RawConfig}
    {state : ConfigState} (loaded : loadConfigState validate env raw = .ok state) :
    ∃ log, expand env [] raw.tree = .ok (state.effective, log) ∧ state.sources = log.sources ∧
      state.secretCandidates = log.secrets ∧ validate state.effective = true := by
  unfold loadConfigState at loaded
  split at loaded
  · obtain ⟨⟨effective, log⟩, made, rest⟩ := bind_ok.mp loaded
    obtain ⟨_, valid, rest⟩ := bind_ok.mp rest
    obtain rfl := pure_eq_ok.mp rest
    exact ⟨log, made, rfl, rfl, by simpa using valid⟩
  · cases loaded

theorem redaction_noninterfering (validate : Tree String → Bool) (env₁ env₂ : Env)
    (raw₁ raw₂ : RawConfig) (state₁ state₂ : ConfigState)
    (loaded₁ : loadConfigState validate env₁ raw₁ = .ok state₁)
    (loaded₂ : loadConfigState validate env₂ raw₂ = .ok state₂)
    (alike : Alike env₁ env₂ [] raw₁.tree raw₂.tree) :
    (redactConfig state₁).shown = (redactConfig state₂).shown ∧
      (redactConfig state₁).sources = (redactConfig state₂).sources ∧
      ∀ sha256, installationConfigBinding sha256 state₁ = installationConfigBinding sha256 state₂ ∧
        redactedEffectiveSha256 sha256 state₁ = redactedEffectiveSha256 sha256 state₂ := by
  obtain ⟨log₁, made₁, sources₁, -⟩ := loadConfigState_ok loaded₁
  obtain ⟨log₂, made₂, sources₂, -⟩ := loadConfigState_ok loaded₂
  have same := redact_alike made₁ made₂ (load_follows raw₁.distinct made₁)
    (load_follows raw₂.distinct made₂) [] alike
  rw [← sources₁, ← sources₂] at same
  have shown : (redactConfig state₁).shown = (redactConfig state₂).shown := same.shown
  refine ⟨shown, congrArg sourceMap same.sources, fun sha256 => ?_⟩
  rw [installationConfigBinding, installationConfigBinding, redactedEffectiveSha256,
    redactedEffectiveSha256, shown]
  exact ⟨rfl, rfl⟩

/-- A configuration with an inline token, a variable that is not allowed and an unknown key. -/
def firstConfig : RawConfig where
  tree := .dict
    [(.str "cloud", .dict [(.str "provider", .scalar (.str "$\x7bCLOUD_PROVIDER:-aliyun\x7d"))]),
     (.str "hydro", .dict
       [(.str "domain_id", .scalar (.str "$\x7bDOMAIN\x7d")),
        (.str "orchestrator_token", .scalar (.str "first")),
        (.str "odd", .scalar (.bool false))])]
  distinct := ⟨by decide, ⟨by decide, trivial, trivial⟩,
    ⟨by decide, trivial, trivial, trivial, trivial⟩, trivial⟩

/-- The same with another token, another unknown key and another environment. -/
def secondConfig : RawConfig where
  tree := .dict
    [(.str "cloud", .dict [(.str "provider", .scalar (.str "$\x7bCLOUD_PROVIDER:-aliyun\x7d"))]),
     (.str "hydro", .dict
       [(.str "domain_id", .scalar (.str "x$\x7bHYDRO_DOMAIN\x7d")),
        (.str "orchestrator_token", .list [.scalar (.int 7)]),
        (.str "strange", .dict [(.str "key", .scalar .null)])])]
  distinct := ⟨by decide, ⟨by decide, trivial, trivial⟩,
    ⟨by decide, trivial, ⟨trivial, trivial⟩, ⟨by decide, trivial, trivial⟩, trivial⟩, trivial⟩

def domainEnv (domain : String) : Env := fun name =>
  if name = "DOMAIN" ∨ name = "HYDRO_DOMAIN" then some domain else none

def firstState : ConfigState where
  effective := .dict
    [("cloud", .dict [("provider", .scalar (.str "aliyun"))]),
     ("hydro", .dict
       [("domain_id", .scalar (.str "system")), ("orchestrator_token", .scalar (.str "first")),
        ("odd", .scalar (.bool false))])]
  sources :=
    [([.key "cloud", .key "provider"], "default:CLOUD_PROVIDER"),
     ([.key "hydro", .key "domain_id"], "environment:DOMAIN"),
     ([.key "hydro", .key "orchestrator_token"], "file"), ([.key "hydro", .key "odd"], "file")]
  secretCandidates := []

def secondState : ConfigState where
  effective := .dict
    [("cloud", .dict [("provider", .scalar (.str "aliyun"))]),
     ("hydro", .dict
       [("domain_id", .scalar (.str "xother")), ("orchestrator_token", .list [.scalar (.int 7)]),
        ("strange", .dict [("key", .scalar .null)])])]
  sources :=
    [([.key "cloud", .key "provider"], "default:CLOUD_PROVIDER"),
     ([.key "hydro", .key "domain_id"], "environment:HYDRO_DOMAIN"),
     ([.key "hydro", .key "orchestrator_token", .index 0], "file"),
     ([.key "hydro", .key "strange", .key "key"], "file")]
  secretCandidates := []

theorem sample_noninterfering : (redactConfig firstState).sources =
    (redactConfig secondState).sources := by
  have outside : ∀ (env : Env) (text name : String), .ref name none ∈ pieces text →
      (∃ value, env name = some value) → name ∉ safeEnvNames → Outside env text :=
    fun env text name mem ⟨value, set⟩ refused => ⟨name, none, mem, .inl ⟨value, set, refused⟩⟩
  have domain : Outside (domainEnv "system") "$\x7bDOMAIN\x7d" :=
    outside _ _ "DOMAIN" (List.mem_singleton_self _) ⟨_, rfl⟩ (by decide)
  have other : Outside (domainEnv "other") "x$\x7bHYDRO_DOMAIN\x7d" :=
    outside _ _ "HYDRO_DOMAIN" (List.mem_cons_of_mem _ (List.mem_singleton_self _)) ⟨_, rfl⟩
      (by decide)
  exact (redaction_noninterfering (fun _ => true) (domainEnv "system") (domainEnv "other")
    firstConfig secondConfig firstState secondState rfl rfl
    (.dict (.known "cloud" (by decide) (.dict (.known "provider" (by decide)
        (.same ⟨_, _, rfl, rfl, rfl, rfl⟩) .nil))
      (.known "hydro" (by decide) (.dict (.known "domain_id" (by decide) (.outside domain other)
        (.known "orchestrator_token" (by decide) (.redacted (by decide))
          (.unknown (by decide) (by decide) .nil)))) .nil)))).2.1

end NoiContest.Noictl
