import NoiContest.Lib.Patterns
import NoiContest.Lib.PyText

/- How noictl sorts the keys of a configuration, and which texts and variables it takes for
   sensitive. -/
namespace NoiContest.Noictl
open PyText Patterns

def safeEnvNames : List String :=
  ["ALIYUN_REGION_ID", "CLOUD_PROVIDER", "FRONTEND_PROXY_PROVIDER", "TENCENT_REGION"]

def containerKeys : List String :=
  ["ai", "aliyun", "artifact_generation", "cloud", "contest_server", "defaults", "desktop_access",
   "frontend_proxy", "hydro", "oracles", "orchestrator", "tencent", "tools", "validators"]

def safeLeafKeys : List String :=
  ["admin_username", "allow_insecure_loopback", "approved_roots", "artifact_root",
   "auto_shutdown_after_collect", "caddyfile_path", "collected_dir", "cpus", "db",
   "default_max_participants", "default_spare_seats", "deployment_lock", "description_prefix",
   "docker_image", "docker_network", "domain_id", "enabled", "executable", "frame_rate",
   "gateway_listen", "gateway_bind_address", "gateway_scheme", "host_key_sha256",
   "max_input_bytes", "max_output_bytes", "max_response_bytes", "materials_dir", "memory",
   "memory_limit_bytes", "memory_swap", "model", "no_vnc_compression", "no_vnc_quality",
   "notify_enabled", "open_files", "paper_max_bytes", "pids_limit", "port",
   "practice_groups_per_problem", "prepare_before_minutes", "prepare_late_grace_minutes",
   "priority", "processes", "provider", "realtime_judge_idle_seconds",
   "realtime_judge_lease_seconds", "reconcile_seconds", "region", "region_id",
   "release_lead_minutes", "resolution", "seat_pool_maximum", "seat_pool_total_maximum",
   "seats_root", "shm_size", "shutdown_on_collect_error", "shutdown_grace_minutes",
   "shutdown_on_prepare_error", "snippet_path", "strict_host_key", "submit_enabled",
   "submit_lang", "submit_proxy_port", "testdata_expanded_max_bytes", "testdata_max_bytes",
   "testdata_max_files", "timeout_seconds", "web_submit_max_bytes"]

def pathKeys : List String :=
  ["approved_roots", "artifact_root", "caddyfile_path", "collected_dir", "db", "deployment_lock",
   "executable", "materials_dir", "seats_root", "snippet_path"]

def topologyKeys : List String :=
  ["description_prefix", "docker_image", "docker_network", "gateway_listen",
   "gateway_bind_address", "host_key_sha256", "port", "region", "region_id"]

def secretKeys : List String :=
  ["access_key_id", "access_key_secret", "admin_password", "api_key", "api_key_env",
   "orchestrator_token", "secret_id", "secret_key", "ssh_key"]

def entryKeys : List String :=
  ["admin_url", "domain", "endpoint", "gateway_public_base_url", "instance_id",
   "internal_base_url", "known_hosts", "management_source_cidrs", "mongo_uri",
   "notify_allowed_https_hosts", "orchestrator_upstream", "public_base_url", "security_group_id",
   "source_cidr", "student_notice_url"]

def identityKeys : List String := ["admin_username", "ssh_user"]
def knownKeys : List String :=
  containerKeys ++ safeLeafKeys ++ secretKeys ++ entryKeys ++ identityKeys ++ pathKeys ++
    topologyKeys

inductive KeyClass where
  | secret | entry | identity | path | topology | container | safe | unknown
  deriving DecidableEq

def KeyClass.name : KeyClass → String
  | .secret => "secret"
  | .entry => "entry"
  | .identity => "identity"
  | .path => "path"
  | .topology => "topology"
  | .container => "container"
  | .safe => "safe"
  | .unknown => "unknown"

/-- The classes whose values are replaced as a whole. -/
def KeyClass.isRedacted : KeyClass → Bool
  | .secret | .entry | .identity | .path | .topology => true
  | .container | .safe | .unknown => false

def classifyKey (key : String) : KeyClass :=
  if key ∈ secretKeys then .secret
  else if key ∈ entryKeys then .entry
  else if key ∈ identityKeys then .identity
  else if key ∈ pathKeys then .path
  else if key ∈ topologyKeys then .topology
  else if key ∈ containerKeys then .container
  else if key ∈ safeLeafKeys then .safe
  else .unknown

/-- A full match of `^[a-z][a-z0-9_]{0,63}$` -/
def isDynamicSlug (key : String) : Bool :=
  match key.toList with
  | [] => false
  | c :: rest => c.isLower && rest.length ≤ 63 && rest.all fun d => d.isLower || d.isDigit || d == '_'

/-- `str.lower()`, as far as words of ASCII characters can tell: all other characters stay outside
    ASCII. -/
def lowerChar (c : Char) : List Char :=
  if c.toNat = 0x130 then ['i', Char.ofNat 0x307]
  else if c.toNat = 0x212a then ['k']
  else [c.toLower]

def lower (text : List Char) : List Char := text.flatMap lowerChar

def sensitiveMarkers : List String :=
  ["access_key", "cookie", "credential", "password", "private_key", "secret", "session", "token"]

def sensitiveEnvName (name : String) : Bool :=
  sensitiveMarkers.any fun marker => contains marker.toList (lower name.toList)

/-- The alternatives of `(?:password|token|secret|access[_-]?key|cookie|session)` -/
def sensitiveWords : List String :=
  ["password", "token", "secret", "accesskey", "access_key", "access-key", "cookie", "session"]

def isUpperAlnum (c : Char) : Bool := c.isUpper || c.isDigit

/-- `(?:AKIA|ASIA|LTAI)[A-Z0-9]{12,}` -/
def isAccessKeyId (text : List Char) : Bool :=
  ["AKIA", "ASIA", "LTAI"].any (fun start => text.take 4 == start.toList) && 16 ≤ text.length &&
    (text.drop 4).all isUpperAlnum

def isTokenChar (c : Char) : Bool := c.isAlphanum || c == '_' || c == '-'

/-- `[A-Za-z0-9_-]{16,}\.[A-Za-z0-9_-]{16,}\.[A-Za-z0-9_-]{8,}` -/
def isSignedToken (text : List Char) : Bool :=
  match text.splitOn '.' with
  | [header, payload, signature] =>
    16 ≤ header.length && 16 ≤ payload.length && 8 ≤ signature.length &&
      (header ++ payload ++ signature).all isTokenChar
  | _ => false

def looksSensitiveString (value : String) : Bool :=
  let text := value.toList
  let lowered := lower text
  contains "-----begin ".toList lowered || contains "://".toList lowered ||
    (12 ≤ text.length && text.tails.any fun rest =>
      sensitiveWords.any fun word => (dropWord? word.toList rest).isSome) ||
    isAccessKeyId text || isSignedToken text

end NoiContest.Noictl
