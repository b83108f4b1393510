import NoiContest.DockerArchive.Members
import NoiContest.Lib.PyValue
import NoiContest.Lib.Sha256

/- The digest chain from an image ID to the image config, as `verify` walks it. -/
namespace NoiContest.DockerArchive
open Outcome PyValue

/- What decoding and json.loads raise: an error that `load_json` catches, or another one. -/
inductive LoadError where
  | notJson
  | other
  deriving DecidableEq, Repr

/- The parts of Python that the verifier calls. Floats are the values of other classes. -/
structure Python extends Conversions where
  loads : List UInt8 → Except LoadError PyValue
  empty : loads [] = .error .notJson
  equalsOther : Nat → Int → Bool

variable (py : Python)

/-- `value == n` -/
def equalsInt : PyValue → Int → Bool
  | .bool b, n => (if b then 1 else 0) == n
  | .int m, n => m == n
  | .other k, n => py.equalsOther k n
  | _, _ => false

/-- `isinstance(value, int)`, with the value -/
def intValue? : PyValue → Option Int
  | .bool b => some (if b then 1 else 0)
  | .int n => some n
  | _ => none

/-- `value.get(key)` of any value -/
def getAttr (value : PyValue) (key : String) : Except Raised PyValue :=
  match value with
  | .mapping fields => .ok (get fields key)
  | _ => .error .other

/-- `first or second` -/
def orElse (first second : PyValue) : PyValue :=
  if truthy py.toConversions first then first else second

/-- `value in {…}` for a set of texts -/
def inSet (value : PyValue) (texts : List String) : Except Raised Bool :=
  match value with
  | .text s => .ok (texts.contains s)
  | .list _ | .mapping _ => .error .other
  | _ => .ok false

/-- `for row in value` -/
def iterate : PyValue → Except Raised (List PyValue)
  | .list items => .ok items
  | .mapping fields => .ok (fields.map fun field => .text field.1)
  | .text s => .ok (s.toList.map fun c => .text (String.singleton c))
  | _ => .error .other

def ociIndexMedia : List String :=
  ["application/vnd.oci.image.index.v1+json",
    "application/vnd.docker.distribution.manifest.list.v2+json"]

def ociManifestMedia : List String :=
  ["application/vnd.oci.image.manifest.v1+json",
    "application/vnd.docker.distribution.manifest.v2+json"]

def loadJson (raw : List UInt8) (label : String) : Except Raised PyValue :=
  (py.loads raw).mapError fun
    | .notJson => .archiveIdentity (label ++ " is not valid UTF-8 JSON")
    | .other => .other

def isDigest (digest : Text) : Bool := digest.length == 64 && digest.all PyText.isLowerHex

def digestPath (value : PyValue) (label : String) : Except Raised Text :=
  match value with
  | .text s =>
    if "sha256:".toList.isPrefixOf s.toList ∧ isDigest (s.toList.drop 7) then .ok (s.toList.drop 7)
    else .error (.archiveIdentity (label ++ " digest is invalid"))
  | _ => .error (.archiveIdentity (label ++ " digest is invalid"))

def descriptorSize (fields : List (String × PyValue)) (raw : List UInt8) (label : String) :
    Except Raised Unit :=
  raiseIf (intValue? (get fields "size") ≠ some (raw.length : Int))
    (.archiveIdentity (label ++ " size differs"))

/-- `hashlib.sha256(raw).hexdigest()` -/
def sha (raw : List UInt8) : Text := (Sha256.hexdigest raw).toList

def blobName (digest : Text) : Text := blobs ++ digest

def requiredBlob (members : Members) (digest : Text) (label : String) :
    Except Raised (List UInt8) :=
  match members.lookup (blobName digest) with
  | some raw =>
    if sha raw = digest then .ok raw
    else .error (.archiveIdentity (label ++ " blob is missing or has the wrong digest"))
  | none => .error (.archiveIdentity (label ++ " blob is missing or has the wrong digest"))

/-- `isinstance(value, dict)` or the error -/
def asMapping (value : PyValue) (message : String) : Except Raised (List (String × PyValue)) :=
  match value with
  | .mapping fields => .ok fields
  | _ => .error (.archiveIdentity message)

/-- `isinstance(value, dict) and value.get("schemaVersion") == 2` or the error -/
def schemaTwo (value : PyValue) (message : String) : Except Raised (List (String × PyValue)) := do
  let fields ← asMapping value message
  raiseIf (equalsInt py (get fields "schemaVersion") 2 = false) (.archiveIdentity message)
  pure fields

/-- `isinstance(value, list) and len(value) == 1 and isinstance(value[0], dict)` or the error -/
def onlyMapping (value : PyValue) (message : String) :
    Except Raised (List (String × PyValue)) :=
  match value with
  | .list [.mapping fields] => .ok fields
  | _ => .error (.archiveIdentity message)

/-- `value == [tag]` -/
def isOnlyTag : PyValue → String → Bool
  | .list [.text s], tag => s == tag
  | _, _ => false

/-- `isinstance(value, str)` or the error -/
def asText (value : PyValue) (message : String) : Except Raised Text :=
  match value with
  | .text s => .ok s.toList
  | _ => .error (.archiveIdentity message)

/-- `if value is None: raise` -/
def present {α : Type} (value : Option α) (message : String) : Except Raised α :=
  match value with
  | some found => .ok found
  | none => .error (.archiveIdentity message)

def configRecord (members : Members) (expectedTag : String) :
    Except Raised (Text × List UInt8) := do
  let raw ← present (members.lookup manifestName) "Docker archive is missing manifest.json"
  let document ← loadJson py raw "Docker archive manifest.json"
  let record ← onlyMapping document "Docker archive must contain exactly one image record"
  raiseIf (isOnlyTag (get record "RepoTags") expectedTag = false)
    (.archiveIdentity "Docker archive does not contain exactly the requested tag")
  let configPath ← asText (get record "Config") "Docker archive config path is missing"
  let configPath ← canonicalMember configPath
  let digest ← present (hexName configPath) "Docker archive config path is invalid"
  let config ← present (members.lookup configPath) "Docker archive config content digest differs"
  raiseIf (sha config ≠ digest) (.archiveIdentity "Docker archive config content digest differs")
  let loaded ← loadJson py config "Docker archive image config"
  let _ ← asMapping loaded "Docker archive image config must be an object"
  pure (digest, config)

/- Whether a row of the inner index is counted as a runnable manifest. -/
def runnable (row : PyValue) : Except Raised Bool := do
  let fields ← asMapping row "inner OCI index descriptor is invalid"
  let annotations := orElse py (get fields "annotations") (.mapping [])
  let platform := orElse py (get fields "platform") (.mapping [])
  let reference ← getAttr annotations "vnd.docker.reference.type"
  let isAttestation ← match reference with
    | .text "attestation-manifest" => pure true
    | _ => do
      let os ← getAttr platform "os"
      match os with
      | .text "unknown" => do
        let architecture ← getAttr platform "architecture"
        match architecture with
        | .text "unknown" => pure true
        | _ => pure false
      | _ => pure false
  if isAttestation then pure false else inSet (get fields "mediaType") ociManifestMedia

/- The rows of the inner index that the verifier keeps. -/
def candidates : List PyValue → Except Raised (List PyValue)
  | [] => .ok []
  | row :: rows => do
    let counted ← runnable py row
    let later ← candidates rows
    pure (if counted then row :: later else later)

/- The manifest behind the identity blob, with the mode. -/
def selectManifest (members : Members) (descriptor identity : List (String × PyValue)) :
    Except Raised (String × PyValue) := do
  let media := orElse py (get identity "mediaType") (get descriptor "mediaType")
  if ← inSet media ociManifestMedia then pure ("oci-manifest", .mapping identity)
  else if ← inSet media ociIndexMedia then do
    let rows ← iterate ((identity.lookup "manifests").getD (.list []))
    let kept ← candidates py rows
    let row ← onlyMapping (.list kept)
      "inner OCI index does not contain exactly one runnable manifest"
    let manifestDigest ← digestPath (get row "digest") "runnable OCI manifest"
    let manifestRaw ← requiredBlob members manifestDigest "runnable OCI manifest"
    descriptorSize row manifestRaw "runnable OCI manifest"
    let manifest ← loadJson py manifestRaw "runnable OCI manifest"
    pure ("oci-index", manifest)
  else throw (.archiveIdentity "expected image identity uses an unsupported OCI media type")

def isLayout : PyValue → Bool
  | .mapping [(key, .text version)] => key == "imageLayoutVersion" && version == "1.0.0"
  | _ => false

def bindModernIdentity (members : Members) (expectedDigest configDigest : Text) :
    Except Raised String := do
  let layout ← loadJson py ((members.lookup layoutName).getD []) "Docker archive oci-layout"
  raiseIf (isLayout layout = false) (.archiveIdentity "Docker archive OCI layout differs")
  let outer ← loadJson py ((members.lookup indexName).getD []) "Docker archive index.json"
  let outer ← schemaTwo py outer "Docker archive outer OCI index differs"
  let descriptor ← onlyMapping (get outer "manifests")
    "Docker archive must bind exactly one OCI image reference"
  let named ← digestPath (get descriptor "digest") "outer OCI descriptor"
  raiseIf (named ≠ expectedDigest)
    (.archiveIdentity "Docker archive outer OCI descriptor does not match image ID")
  let identityRaw ← requiredBlob members expectedDigest "expected image identity"
  descriptorSize descriptor identityRaw "outer OCI descriptor"
  let identity ← loadJson py identityRaw "expected image identity blob"
  let identity ← schemaTwo py identity "expected image identity blob has an invalid shape"
  let (mode, manifest) ← selectManifest py members descriptor identity
  let manifest ← schemaTwo py manifest "runnable OCI manifest has an invalid shape"
  let config ← asMapping (get manifest "config")
    "OCI identity graph does not bind the Docker image config"
  let bound ← digestPath (get config "digest") "OCI image config"
  raiseIf (bound ≠ configDigest)
    (.archiveIdentity "OCI identity graph does not bind the Docker image config")
  let configRaw ← requiredBlob members configDigest "OCI image config"
  descriptorSize config configRaw "OCI image config"
  pure mode

structure Verified where
  configSha256 : Text
  identityMode : String
  imageId : Text
  imageTag : String
  deriving DecidableEq, Repr

def verify (archive : List Member) (expectedTag : String) (expectedId : Text) :
    Except Raised (Verified × List UInt8) := do
  raiseIf (expectedTag = "" ∨ ":latest".toList <:+ expectedTag.toList ∨ ':' ∉ expectedTag.toList)
    (.archiveIdentity "expected image tag is not fixed")
  raiseIf (¬ ("sha256:".toList.isPrefixOf expectedId ∧ isDigest (expectedId.drop 7)))
    (.archiveIdentity "expected image ID is invalid")
  let members ← collectSmallMembers archive
  let (configDigest, config) ← configRecord py members expectedTag
  let expectedDigest := expectedId.drop 7
  let mode ← (if configDigest = expectedDigest then pure "legacy-config"
    else bindModernIdentity py members expectedDigest configDigest)
  pure (⟨configDigest, mode, expectedId, expectedTag⟩, config)

end NoiContest.DockerArchive
