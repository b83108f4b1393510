import NoiContest.Lib.Outcome
import NoiContest.Lib.PyBytes
import NoiContest.Lib.Sha256

/- The digest of a test input without its layout. The orchestrator computes it from the whole
   file and the plugin from the chunks of a stream. -/
namespace NoiContest.InputDigest

def lineFeed : UInt8 := 0x0a

def carriageReturn : UInt8 := 0x0d

/- The orchestrator -/

/-- CRLF and CR become LF. -/
def unixLines (payload : List UInt8) : List UInt8 :=
  PyBytes.replace [carriageReturn] [lineFeed]
    (PyBytes.replace [carriageReturn, lineFeed] [lineFeed] payload)

def normalizedInput (payload : List UInt8) : List UInt8 :=
  PyBytes.strip (PyBytes.join lineFeed
    ((PyBytes.split lineFeed (unixLines payload)).map PyBytes.rstrip))

def normalizedInputDigest (payload : List UInt8) : String :=
  Sha256.hexdigest (normalizedInput payload)

/- The plugin -/

inductive DigestError where
  | problemDraftTooLarge
  deriving DecidableEq, Repr

/- The variables of the stream loop, with the bytes that the hash was updated with. -/
structure Normalizer where
  lineParts : List (List UInt8) := []
  lineBytes : Nat := 0
  lineIndex : Nat := 0
  outputStarted : Bool := false
  pendingSeparators : Nat := 0
  total : Nat := 0
  skipLeadingLineFeed : Bool := false
  hashed : List UInt8 := []
  deriving Repr

def inputWhitespace (byte : UInt8) : Bool :=
  byte == 0x09 || byte == 0x0a || byte == 0x0b || byte == 0x0c || byte == 0x0d || byte == 0x20

/-- The separators are hashed in blocks. -/
def hashSeparators (s : Normalizer) : Normalizer :=
  if 0 < s.pendingSeparators then
    let count := min s.pendingSeparators 8192
    hashSeparators { s with
      hashed := s.hashed ++ List.replicate count lineFeed
      pendingSeparators := s.pendingSeparators - count }
  else s
termination_by s.pendingSeparators

def finishLine (s : Normalizer) : Normalizer :=
  let pending := if 0 < s.lineIndex then s.pendingSeparators + 1 else s.pendingSeparators
  let line := s.lineParts.flatten
  let body := line.rdropWhile inputWhitespace
  let body := if s.outputStarted then body else body.dropWhile inputWhitespace
  let s := { s with
    pendingSeparators := pending
    lineParts := []
    lineBytes := 0
    lineIndex := s.lineIndex + 1 }
  if body = [] then s
  else
    let s := if s.outputStarted then hashSeparators s else { s with pendingSeparators := 0 }
    { s with hashed := s.hashed ++ body, outputStarted := true }

def appendLinePart (maxLineBytes : Nat) (s : Normalizer) (part : List UInt8) :
    Except DigestError Normalizer :=
  if part = [] then .ok s
  else if maxLineBytes < s.lineBytes + part.length then .error .problemDraftTooLarge
  else .ok { s with
    lineBytes := s.lineBytes + part.length
    lineParts := s.lineParts ++ [part] }

/- The part holds the bytes since the last line feed of the chunk. -/
def processNormalized (maxLineBytes : Nat) (part : List UInt8) (s : Normalizer) :
    List UInt8 → Except DigestError Normalizer
  | [] => appendLinePart maxLineBytes s part
  | byte :: rest =>
    if byte = lineFeed then do
      let s ← appendLinePart maxLineBytes s part
      processNormalized maxLineBytes [] (finishLine s) rest
    else processNormalized maxLineBytes (part ++ [byte]) s rest

/-- The chunk with its line ends converted, and whether it ended in a carriage return. -/
def lineFeeds : List UInt8 → List UInt8 × Bool
  | [] => ([], false)
  | [byte] => if byte = carriageReturn then ([lineFeed], true) else ([byte], false)
  | byte :: next :: rest =>
    if byte ≠ carriageReturn then
      let converted := lineFeeds (next :: rest)
      (byte :: converted.1, converted.2)
    else if next = lineFeed then
      let converted := lineFeeds rest
      (lineFeed :: converted.1, converted.2)
    else
      let converted := lineFeeds (next :: rest)
      (lineFeed :: converted.1, converted.2)

def dropLineFeed (skip : Bool) (chunk : List UInt8) : List UInt8 :=
  if skip = true ∧ chunk.head? = some lineFeed then chunk.tail else chunk

def consume (maxLineBytes byteBudget : Nat) (s : Normalizer) (chunk : List UInt8) :
    Except DigestError Normalizer :=
  let total := s.total + chunk.length
  if byteBudget < total then .error .problemDraftTooLarge
  else
    let converted := lineFeeds (dropLineFeed s.skipLeadingLineFeed chunk)
    let s := { s with
      total := total
      skipLeadingLineFeed := if chunk = [] then s.skipLeadingLineFeed else converted.2 }
    if converted.1 = [] then .ok s
    else processNormalized maxLineBytes [] s converted.1

structure DigestResult where
  sha256 : String
  bytes : Nat
  deriving DecidableEq, Repr

def normalizedInputSha256 (maxLineBytes byteBudget : Nat) (source : List (List UInt8)) :
    Except DigestError DigestResult := do
  let s ← source.foldlM (consume maxLineBytes byteBudget) {}
  let s := finishLine s
  return { sha256 := Sha256.hexdigest s.hashed, bytes := s.total }

end NoiContest.InputDigest
