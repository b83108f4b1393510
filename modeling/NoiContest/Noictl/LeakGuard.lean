import NoiContest.Noictl.Noninterference

/- The command `config show` and its last check, that no hidden text is in what it prints. -/
namespace NoiContest.Noictl
open Outcome PyText Patterns

def redactions : List String :=
  ["secrets", "access_keys", "cookies", "private_keys", "student_identity", "desktop_entries",
   "network_topology", "filesystem_paths"]

def texts (items : List String) : Tree String := .list (items.map text)

def baseResult (command status summary : String) : List (String × Tree String) :=
  [("schema_version", .scalar (.int 1)), ("command", text command), ("status", text status),
   ("changed", .scalar (.bool false)), ("plan_id", .scalar .null), ("summary", text summary),
   ("checks", .list []), ("actions", .list []), ("warnings", .list []),
   ("redactions", texts redactions)]

def check (code status scope message : String) (evidence : List (String × Tree String))
    (remediation : Scalar) : Tree String :=
  .dict [("code", text code), ("status", text status), ("scope", text scope),
    ("message", text message), ("evidence", .dict evidence), ("remediation", .scalar remediation)]

mutual

/-- `collect_values` -/
def collectValues : Tree String → List String
  | .scalar .null => []
  | .scalar value => [value.text]
  | .list items => collectItems items
  | .dict fields => collectFields fields

def collectItems : List (Tree String) → List String
  | [] => []
  | item :: rest => collectValues item ++ collectItems rest

def collectFields : List (String × Tree String) → List String
  | [] => []
  | (_, item) :: rest => collectValues item ++ collectFields rest

end

/-- A hidden text of some length that is an output, or a longer one that is in an output. -/
def Coincides (candidate output : String) : Prop :=
  4 ≤ candidate.length ∧ (candidate = output ∨
    12 ≤ candidate.length ∧ contains candidate.toList output.toList = true)

instance (candidate output : String) : Decidable (Coincides candidate output) :=
  inferInstanceAs (Decidable (_ ∧ _))

/-- `_assert_no_secret_leak`; the error is UnsafeOutputError. -/
def assertNoSecretLeak (payload : Tree String) (candidates : List String) : Except Unit Unit := do
  raiseIf (contains "-----begin private key-----".toList (lower (dumps payload).toList)) ()
  raiseIf (∃ candidate ∈ candidates, ∃ output ∈ collectValues payload,
    Coincides candidate output) ()

/-- The result before the check. -/
def shownResult (view : View (Tree String)) : Tree String :=
  let result := baseResult "config show" "ok" "已生成脱敏的有效配置视图"
  let result := put result "checks" (.list
    [check "CONFIG_VALID" "pass" "config" "显示前已通过静态校验"
      [("schema_validation", .scalar (.bool true))] .null,
     check "CONFIG_REDACTED" "pass" "safety" "秘密、身份、入口、URL 和拓扑字段已脱敏"
      [("redaction_categories", .scalar (.int redactions.length))] .null])
  let result := put result "effective_config" view.shown
  let result := put result "sources" (.dict
    ((JsonText.sortFields view.sources).map fun entry => (entry.1, text entry.2)))
  .dict (put result "warnings" (texts
    ["第一批 effective 视图展开文件中的环境引用；校验器内部未物化的隐式默认值不会新增到输出。"]))

/-- `_config_show`, from the parsed file on -/
def configShow (validate : Tree String → Bool) (env : Env) (raw : RawConfig) :
    Tree String × Nat :=
  match loadConfigState validate env raw with
  | .error kind =>
    (.dict (put (baseResult "config show" "error" "无法生成有效配置视图") "checks" (.list
      [check "CONFIG_VALID" "fail" "config" "配置无效；未输出任何配置值" [("error_kind", text kind)]
        (.str "请先运行 config validate 并在本机修复配置")])), 2)
  | .ok state =>
    let view := redactConfig state
    match assertNoSecretLeak (shownResult view) view.candidates with
    | .ok _ => (shownResult view, 0)
    | .error _ =>
      (.dict (put (baseResult "config show" "refused" "检测到潜在敏感输出，已拒绝显示") "checks" (.list
        [check "OUTPUT_REDACTION_SAFE" "fail" "safety" "脱敏后仍可能包含敏感值"
          [("output_emitted", .scalar (.bool false))]
          (.str "请向维护者报告脱敏规则缺口，不要复制当前配置")])), 9)

end NoiContest.Noictl
