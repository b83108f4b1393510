import NoiContest.HydroPlugin.Submit
import NoiContest.Lib.Outcome

/- The material publication endpoint of the Hydro plugin. Between two awaits of a publication
   others may change the contest, and each call of Hydro may fail; both are inputs here. -/
namespace NoiContest.HydroPlugin

inductive MaterialFailure where
  | invalidToken | badRequest (what : String) | tooLarge | conflict | blocked | journalSave | hydro
  deriving DecidableEq, Repr

structure MaterialSettings where
  token : String
  domain : String := "system"
  maxBytes : Nat
  maxEntries : Nat

/- What a marker and a journal entry record of an attachment. -/
structure Declared where
  name : String
  sha256 : String
  size : Nat
  deriving DecidableEq, Repr

structure Attachment extends Declared where
  content : List UInt8
  digested : sha256 = Sha256.hexdigest content
  measured : size = content.length

/-- `MATERIAL_ATTACHMENT_NAMES` -/
def materialAttachmentNames : List String := ["01_比赛题面.pdf", "02_辅助自测数据.tar.gz"]

/- A request that was accepted: one attachment of each name, in the order of the names. -/
structure MaterialRequest (maxBytes : Nat) where
  publicationId : String
  tid : String
  revision : String
  attachments : List Attachment
  named : attachments.map (·.name) = materialAttachmentNames
  bounded : (attachments.map (·.size)).sum ≤ maxBytes

/- An attachment as sent. `content` is what content_base64 is the canonical base64 of. -/
structure RawAttachment where
  extraFields : Bool
  name : String
  sha256 : String
  content : Option (List UInt8)

structure MaterialBody where
  headerToken : Option String
  extraFields : Bool
  publicationId : String
  tid : String
  revision : String
  attachments : Option (List RawAttachment)

/-- `orchestratorMaterials` of a contest document -/
structure Marker where
  version : Int
  publicationId : String
  revision : String
  fingerprint : String
  attachments : List Declared
  deriving DecidableEq, Repr

structure PrivateFile where
  name : String
  size : Int
  lastModified : String
  etag : String
  deriving DecidableEq, Repr

structure Contest where
  beginAt : Option Int
  rule : String
  privateFiles : List PrivateFile
  orchestratorMaterials : Option Marker
  deriving DecidableEq, Repr

structure MaterialEntry where
  publicationId : String
  tid : String
  revision : String
  fingerprint : String
  attachments : List Declared
  uploaded : List String
  complete : Bool
  createdAt : String
  completedAt : Option String
  deriving DecidableEq, Repr

/- The contest of one tid, the stored objects, and what the plugin holds for that tid. -/
structure Shelf where
  contest : Contest
  storage : Dict String (List UInt8)
  entries : Dict String MaterialEntry
  inFlight : Dict String String
  draftMutation : Bool
  materialMutation : Bool
  submissionLeases : Nat

structure FileMeta where
  size : Int
  lastModified : String
  etag : String
  deriving DecidableEq, Repr

/- A call that throws may still have done its work. -/
inductive Done where
  | returned | threw (effective : Bool)
  deriving DecidableEq, Repr

def Done.effective : Done → Bool
  | .returned => true
  | .threw effective => effective

/- The calls of one attachment: put, getMeta, the stream of get, and the save of the journal. -/
structure Upload where
  put : Done
  fileMeta : Option (Option FileMeta)
  stream : Option (List UInt8)
  save : Bool

/- All that happens around one publication request. -/
structure Surroundings where
  createdAt : String
  reserve : Bool
  joined : Except MaterialFailure MaterialEntry
  beforeRead : Contest → Contest
  readFails : Bool
  now : Int
  lostReads : List Bool
  reconfirm : Bool
  uploads : List Upload
  beforeCommit : Contest → Contest
  commitReadFails : Bool
  commitNow : Int
  beforeEdit : Contest → Contest
  edit : Done
  afterEdit : Contest → Contest
  appliedReadFails : Bool
  appliedLostReads : List Bool
  completedAt : String
  confirm : Bool

abbrev Publication := EStateM MaterialFailure Shelf

def failWhen (bad : Bool) (failure : MaterialFailure) : Publication Unit :=
  if bad then throw failure else pure ()

def materialTokenMatches (settings : MaterialSettings) (headerToken : Option String) : Bool :=
  settings.token != "" && headerToken == some settings.token

def isRevisionStart (c : Char) : Bool :=
  ('A' ≤ c && c ≤ 'Z') || ('a' ≤ c && c ≤ 'z') || ('0' ≤ c && c ≤ '9')

/-- `/^[A-Za-z0-9][A-Za-z0-9._-]{0,63}$/` -/
def isRevision (text : String) : Bool :=
  match text.toList with
  | [] => false
  | c :: rest =>
    isRevisionStart c && rest.length ≤ 63 &&
      rest.all fun c => isRevisionStart c || c == '.' || c == '_' || c == '-'

/- The attachments in the order sent, with the names and the bytes seen before them. -/
def parseAttachments (maxBytes : Nat) : List String → Nat → List RawAttachment →
    Except MaterialFailure (List Attachment)
  | _, _, [] => .ok []
  | names, totalBytes, raw :: rest =>
    if raw.extraFields then .error (.badRequest "orchestrator material attachment")
    else
      let sha256 := raw.sha256.toLower
      match raw.content with
      | none => .error (.badRequest "orchestrator material attachment")
      | some content =>
        if !materialAttachmentNames.contains raw.name || names.contains raw.name ||
            !PyText.isLowerHexOf 64 sha256 then
          .error (.badRequest "orchestrator material attachment")
        else if content.isEmpty then
          .error (.badRequest "orchestrator material attachment digest")
        else if digested : sha256 = Sha256.hexdigest content then
          if maxBytes < totalBytes + content.length then .error .tooLarge
          else
            (parseAttachments maxBytes (raw.name :: names) (totalBytes + content.length) rest).map
              (⟨⟨raw.name, sha256, content.length⟩, content, digested, rfl⟩ :: ·)
        else .error (.badRequest "orchestrator material attachment digest")

/-- `.sort((left, right) => left.name.localeCompare(right.name))` -/
def sortAttachments (attachments : List Attachment) : List Attachment :=
  attachments.insertionSort fun left right => left.name ≤ right.name

theorem parseAttachments_bounded {maxBytes : Nat} : ∀ {raw : List RawAttachment}
    {names : List String} {totalBytes : Nat} {parsed : List Attachment},
    totalBytes ≤ maxBytes → parseAttachments maxBytes names totalBytes raw = .ok parsed →
    totalBytes + (parsed.map (·.size)).sum ≤ maxBytes
  | [], _, _, _, below, ok => by
    cases ok
    simpa using below
  | raw :: rest, names, totalBytes, parsed, below, ok => by
    unfold parseAttachments at ok
    split at ok
    · cases ok
    · dsimp only at ok
      split at ok
      · cases ok
      · split at ok
        · cases ok
        · split at ok
          · cases ok
          · split at ok
            · split at ok
              · cases ok
              · rename_i content _ _ _ _ fits
                obtain ⟨later, tail, rfl⟩ := Outcome.map_ok.mp ok
                have bound := parseAttachments_bounded (Nat.le_of_not_lt fits) tail
                simp only [List.map_cons, List.sum_cons]
                omega
            · cases ok

theorem sortAttachments_bounded {maxBytes : Nat} {raw : List RawAttachment}
    {parsed : List Attachment} (ok : parseAttachments maxBytes [] 0 raw = .ok parsed) :
    ((sortAttachments parsed).map (·.size)).sum ≤ maxBytes := by
  have perm : ((sortAttachments parsed).map (·.size)).Perm (parsed.map (·.size)) :=
    (List.perm_insertionSort _ parsed).map _
  have bound := parseAttachments_bounded (Nat.zero_le _) ok
  rw [perm.sum_eq]
  omega

/-- `parseMaterialPublicationRequest` -/
def MaterialBody.parse (settings : MaterialSettings) (body : MaterialBody) :
    Except MaterialFailure (MaterialRequest settings.maxBytes) :=
  if body.extraFields then .error (.badRequest "orchestrator material publication payload")
  else
    let publicationId := body.publicationId.toLower
    let tid := body.tid.toLower
    match body.attachments with
    | none => .error (.badRequest "orchestrator material publication identity")
    | some raw =>
      if !PyText.isLowerHexOf 64 publicationId || !PyText.isLowerHexOf 24 tid ||
          !isRevision body.revision || raw.length != materialAttachmentNames.length then
        .error (.badRequest "orchestrator material publication identity")
      else
        match parsed : parseAttachments settings.maxBytes [] 0 raw with
        | .error failure => .error failure
        | .ok attachments =>
          if named : (sortAttachments attachments).map (·.name) = materialAttachmentNames then
            .ok ⟨publicationId, tid, body.revision, sortAttachments attachments, named,
              sortAttachments_bounded parsed⟩
          else .error (.badRequest "orchestrator material attachment set")

theorem hexdigest_lowerHex (message : List UInt8) :
    PyText.isLowerHexOf 64 (Sha256.hexdigest message) = true := by
  have digits : ∀ n < 16, PyText.isLowerHex (Sha256.hexDigit n) = true := by decide
  simp only [PyText.isLowerHexOf, Sha256.hexdigest_length, beq_self_eq_true, Bool.true_and,
    List.all_eq_true]
  intro c mem
  obtain ⟨n, small, rfl⟩ := Sha256.hexdigest_digit mem
  exact digits n small

def Attachment.raw (attachment : Attachment) : RawAttachment :=
  ⟨false, attachment.name, attachment.sha256, some attachment.content⟩

def MaterialRequest.body {maxBytes : Nat} (request : MaterialRequest maxBytes) (token : String) :
    MaterialBody where
  headerToken := some token
  extraFields := false
  publicationId := request.publicationId
  tid := request.tid
  revision := request.revision
  attachments := some (request.attachments.map Attachment.raw)

theorem parseAttachments_raw {maxBytes : Nat} : ∀ {attachments : List Attachment}
    {names : List String} {totalBytes : Nat},
    (∀ attachment ∈ attachments, attachment.name ∈ materialAttachmentNames ∧
      attachment.name ∉ names ∧ attachment.content ≠ []) →
    (attachments.map (·.name)).Nodup →
    totalBytes + (attachments.map (·.size)).sum ≤ maxBytes →
    parseAttachments maxBytes names totalBytes (attachments.map Attachment.raw) = .ok attachments
  | [], _, _, _, _, _ => rfl
  | attachment :: rest, names, totalBytes, good, distinct, bounded => by
    obtain ⟨reserved, unseen, nonempty⟩ := good attachment List.mem_cons_self
    obtain ⟨fresh, distinctRest⟩ : attachment.name ∉ rest.map (·.name) ∧
        (rest.map (·.name)).Nodup := List.nodup_cons.mp distinct
    have hex : PyText.isLowerHexOf 64 attachment.sha256 = true := by
      rw [attachment.digested]
      exact hexdigest_lowerHex _
    have fits : ¬ maxBytes < totalBytes + attachment.content.length := by
      simp only [List.map_cons, List.sum_cons] at bounded
      rw [attachment.measured] at bounded
      omega
    have later : parseAttachments maxBytes (attachment.name :: names)
        (totalBytes + attachment.content.length) (rest.map Attachment.raw) = .ok rest := by
      refine parseAttachments_raw ?_ distinctRest ?_
      · intro other mem
        obtain ⟨reserved', unseen', nonempty'⟩ := good other (List.mem_cons_of_mem _ mem)
        have differs : other.name ≠ attachment.name := fun same =>
          fresh (same ▸ List.mem_map.mpr ⟨other, mem, rfl⟩)
        exact ⟨reserved', by simp [differs, unseen'], nonempty'⟩
      · simp only [List.map_cons, List.sum_cons] at bounded
        rw [attachment.measured] at bounded
        omega
    clear good distinct bounded fresh
    obtain ⟨⟨name, sha256, size⟩, content, digested, measured⟩ := attachment
    obtain rfl : size = content.length := measured
    dsimp only at *
    have empty : content.isEmpty = false := by simpa using nonempty
    have accepted : (!materialAttachmentNames.contains name || names.contains name ||
        !PyText.isLowerHexOf 64 sha256) = false := by
      simp [reserved, unseen, hex]
    rw [List.map_cons, parseAttachments]
    simp only [Attachment.raw, Bool.false_eq_true, if_false, PyText.lowerHex_toLower hex, accepted,
      empty, dif_pos digested, if_neg fits]
    rw [later]
    rfl

/-- An accepted request is what its own body is read as. -/
theorem parse_body {settings : MaterialSettings} (request : MaterialRequest settings.maxBytes)
    (token : String) (publicationId : PyText.isLowerHexOf 64 request.publicationId = true)
    (tid : PyText.isLowerHexOf 24 request.tid = true) (revision : isRevision request.revision = true)
    (nonempty : ∀ attachment ∈ request.attachments, attachment.content ≠ []) :
    (request.body token).parse settings = .ok request := by
  have names : ∀ attachment ∈ request.attachments, attachment.name ∈ materialAttachmentNames := by
    intro attachment mem
    rw [← request.named]
    exact List.mem_map.mpr ⟨attachment, mem, rfl⟩
  have distinct : (request.attachments.map (·.name)).Nodup := by
    rw [request.named]
    decide
  have count : request.attachments.length = materialAttachmentNames.length := by
    rw [← request.named, List.length_map]
  have parsed : parseAttachments settings.maxBytes [] 0 (request.attachments.map Attachment.raw) =
      .ok request.attachments :=
    parseAttachments_raw (fun attachment mem => ⟨names attachment mem, by simp,
      nonempty attachment mem⟩) distinct (by simpa using request.bounded)
  have sorted : sortAttachments request.attachments = request.attachments := by
    refine List.Pairwise.insertionSort_eq (List.pairwise_map.mp ?_)
    rw [request.named]
    decide
  have identity : (!PyText.isLowerHexOf 64 request.publicationId ||
      !PyText.isLowerHexOf 24 request.tid || !isRevision request.revision ||
      (request.attachments.map Attachment.raw).length != materialAttachmentNames.length) =
      false := by
    simp [publicationId, tid, revision, count]
  unfold MaterialBody.parse
  simp only [MaterialRequest.body, Bool.false_eq_true, if_false, PyText.lowerHex_toLower publicationId,
    PyText.lowerHex_toLower tid, identity]
  split
  · rename_i failure broken
    rw [parsed] at broken
    cases broken
  · rename_i attachments read
    rw [parsed] at read
    obtain rfl := Except.ok.inj read
    simp only [sorted]
    rw [dif_pos request.named]

def Declared.json (d : Declared) : JsonText.Json :=
  .obj [("name", .str d.name), ("sha256", .str d.sha256), ("size", .int d.size)]

def MaterialRequest.declared {maxBytes : Nat} (request : MaterialRequest maxBytes) :
    List Declared := request.attachments.map (·.toDeclared)

def materialPublicationFingerprint {maxBytes : Nat} (request : MaterialRequest maxBytes) :
    String :=
  Sha256.ofText (JsonText.dumps (.arr [.str "noi-material-publication-v1", .str request.tid,
    .str request.revision, .arr (request.declared.map Declared.json)]))

/- The id that a request must carry. -/
def MaterialRequest.identified {maxBytes : Nat} (draft : MaterialRequest maxBytes) :
    MaterialRequest maxBytes :=
  { draft with publicationId := materialPublicationFingerprint draft }

theorem identified_publicationId {maxBytes : Nat} (draft : MaterialRequest maxBytes) :
    draft.identified.publicationId = materialPublicationFingerprint draft.identified := rfl

def exactStreamSha256 (source : List UInt8) (byteLimit : Nat) :
    Except MaterialFailure (String × Nat) :=
  if byteLimit < source.length then .error .tooLarge
  else .ok (Sha256.hexdigest source, source.length)

def materialStoragePath (domain tid name : String) : String :=
  "contest/" ++ domain ++ "/" ++ tid ++ "/private/" ++ name

def materialMarker {maxBytes : Nat} (request : MaterialRequest maxBytes) (fingerprint : String) :
    Marker where
  version := 1
  publicationId := request.publicationId
  revision := request.revision
  fingerprint := fingerprint
  attachments := request.declared

/- One attachment of verifyPublishedMaterials. A lost read is a storage call that throws. -/
def verifyAttachment (settings : MaterialSettings) (storage : Dict String (List UInt8))
    (tdoc : Contest) (tid : String) (lost : Bool) (expected : Declared) :
    Except MaterialFailure Bool :=
  match tdoc.privateFiles.filter (·.name == expected.name) with
  | [file] =>
    if file.size ≠ expected.size then .ok false
    else if lost then .error .hydro
    else
      match storage.get? (materialStoragePath settings.domain tid expected.name) with
      | none => .error .hydro
      | some source =>
        (exactStreamSha256 source settings.maxBytes).map fun actual =>
          actual.2 == expected.size && actual.1 == expected.sha256
  | _ => .ok false

def verifyAttachments (settings : MaterialSettings) (storage : Dict String (List UInt8))
    (tdoc : Contest) (tid : String) : List Bool → List Declared → Except MaterialFailure Bool
  | _, [] => .ok true
  | lost, expected :: rest =>
    match verifyAttachment settings storage tdoc tid (lost.headD false) expected with
    | .ok true => verifyAttachments settings storage tdoc tid lost.tail rest
    | other => other

def markerMatches (marker : Marker) (entry : MaterialEntry) : Bool :=
  marker.version == 1 && marker.publicationId == entry.publicationId &&
    marker.revision == entry.revision && marker.fingerprint == entry.fingerprint &&
    marker.attachments == entry.attachments

def verifyPublishedMaterials (settings : MaterialSettings) (storage : Dict String (List UInt8))
    (lost : List Bool) (tdoc : Contest) (entry : MaterialEntry) : Except MaterialFailure Bool :=
  match tdoc.orchestratorMaterials with
  | none => .ok false
  | some marker =>
    if !markerMatches marker entry then .ok false
    else verifyAttachments settings storage tdoc entry.tid lost entry.attachments

def isOwnedMaterialMarker (settings : MaterialSettings) (marker : Marker) : Bool :=
  marker.version == 1 && PyText.isLowerHexOf 64 marker.publicationId &&
    isRevision marker.revision && PyText.isLowerHexOf 64 marker.fingerprint &&
    marker.attachments.length == materialAttachmentNames.length &&
    (marker.attachments.map (·.name)).Nodup &&
    marker.attachments.all (fun item => materialAttachmentNames.contains item.name &&
      PyText.isLowerHexOf 64 item.sha256 && isSafeInteger item.size && 0 < item.size &&
      item.size ≤ settings.maxBytes) &&
    materialAttachmentNames.all (marker.attachments.map (·.name)).contains

/-- `acquireContestMaterialMutation` -/
def acquireContestMaterialMutation : Publication Unit := do
  let shelf ← get
  failWhen (shelf.draftMutation || shelf.materialMutation || shelf.submissionLeases != 0) .conflict
  modify fun s => { s with materialMutation := true }

/- Only complete entries are removable, oldest first. -/
def pruneMaterialIdempotencyState (settings : MaterialSettings)
    (entries : Dict String MaterialEntry) : Dict String MaterialEntry :=
  if entries.size ≤ settings.maxEntries then entries
  else
    let completed := entries.items.filter fun item => item.2.complete
    let removable := completed.insertionSort fun a b => a.2.createdAt ≤ b.2.createdAt
    let removed := (removable.take (entries.size - settings.maxEntries)).map Prod.fst
    entries.filter fun item => !removed.contains item.1

def saveMaterialIdempotencyState (settings : MaterialSettings) (works : Bool) :
    Publication Unit := do
  modify fun s => { s with entries := pruneMaterialIdempotencyState settings s.entries }
  failWhen (!works) .journalSave

def changeEntry (publicationId : String) (change : MaterialEntry → MaterialEntry) :
    Publication Unit :=
  modify fun s =>
    match s.entries.get? publicationId with
    | none => s
    | some entry => { s with entries := s.entries.set publicationId (change entry) }

def reservedFiles (contest : Contest) : List PrivateFile :=
  contest.privateFiles.filter fun file => materialAttachmentNames.contains file.name

/- The private files fit the marker: none without one, and one of each name with one. -/
def filesFit (marker : Option Marker) (contest : Contest) : Bool :=
  match marker with
  | none => (reservedFiles contest).isEmpty
  | some _ => (reservedFiles contest).length == materialAttachmentNames.length &&
      materialAttachmentNames.all fun name =>
        ((reservedFiles contest).filter (·.name == name)).length == 1

/-- `ContestModel.get` -/
def getContest (others : Contest → Contest) (fails : Bool) : Publication Contest := do
  modify fun s => { s with contest := others s.contest }
  failWhen fails .hydro
  return (← get).contest

def started (contest : Contest) (now : Int) : Bool :=
  match contest.beginAt with
  | none => true
  | some beginAt => beginAt ≤ now

/- The checks before the first upload: the receipt when the contest has this publication
   already, else the marker that the commit must find again. -/
inductive Opening where
  | published | toUpload (previousMarker : Option Marker)
  deriving DecidableEq, Repr

def openingChecks (settings : MaterialSettings) (around : Surroundings) (entry : MaterialEntry)
    (storage : Dict String (List UInt8)) (tdoc : Contest) : Except MaterialFailure Opening :=
  if started tdoc around.now then .error .blocked
  else if tdoc.rule ≠ "oi" then .error (.badRequest "orchestrator material contest rule")
  else
    match tdoc.orchestratorMaterials with
    | none => if filesFit none tdoc then .ok (.toUpload none) else .error .conflict
    | some previousMarker =>
      match verifyPublishedMaterials settings storage around.lostReads tdoc entry with
      | .error failure => .error failure
      | .ok true => .ok .published
      | .ok false =>
        if isOwnedMaterialMarker settings previousMarker && filesFit (some previousMarker) tdoc then
          .ok (.toUpload (some previousMarker))
        else .error .conflict

/-- `StorageModel.put` -/
def putObject (path : String) (content : List UInt8) (put : Done) : Publication Unit := do
  if put.effective then modify fun s => { s with storage := s.storage.set path content }
  failWhen (put != .returned) .hydro

/- The storage confirms what was put there: its size, and the bytes it gives back. -/
def Upload.confirms (settings : MaterialSettings) (upload : Upload) (attachment : Attachment) :
    Except MaterialFailure FileMeta :=
  match upload.fileMeta with
  | none => .error .hydro
  | some none => .error .conflict
  | some (some fileMeta) =>
    if fileMeta.size ≠ attachment.size then .error .conflict
    else
      match upload.stream with
      | none => .error .hydro
      | some source =>
        match exactStreamSha256 source settings.maxBytes with
        | .error failure => .error failure
        | .ok verified =>
          if verified.2 ≠ attachment.size ∨ verified.1 ≠ attachment.sha256 then .error .conflict
          else .ok fileMeta

def insertSorted (name : String) (names : List String) : List String :=
  (names ++ [name]).insertionSort (· ≤ ·)

def MaterialEntry.noted (entry : MaterialEntry) (name : String) : MaterialEntry :=
  if entry.uploaded.contains name then entry
  else { entry with uploaded := insertSorted name entry.uploaded }

/- The entry is one object, so what is noted in it shows in the journal while it is there. -/
def noteUploaded (settings : MaterialSettings) (name : String) (save : Bool)
    (entry : MaterialEntry) : Publication MaterialEntry := do
  if !entry.uploaded.contains name then
    changeEntry entry.publicationId fun _ => entry.noted name
    saveMaterialIdempotencyState settings save
  return entry.noted name

def uploadedFile (attachment : Attachment) (fileMeta : FileMeta) : PrivateFile where
  name := attachment.name
  size := fileMeta.size
  lastModified := fileMeta.lastModified
  etag := fileMeta.etag

def unanswered : Upload := ⟨.threw false, none, none, false⟩

/- A list of calls that is too short stands for calls that throw. -/
def uploadAttachments (settings : MaterialSettings) (tid : String) :
    List Upload → List Attachment → MaterialEntry → Publication (List PrivateFile)
  | _, [], _ => return []
  | uploads, attachment :: rest, entry => do
    let upload := uploads.headD unanswered
    putObject (materialStoragePath settings.domain tid attachment.name) attachment.content
      upload.put
    match upload.confirms settings attachment with
    | .error failure => throw failure
    | .ok fileMeta =>
      let noted ← noteUploaded settings attachment.name upload.save entry
      let files ← uploadAttachments settings tid uploads.tail rest noted
      return uploadedFile attachment fileMeta :: files

def commitChecks (tdoc : Contest) (now : Int) (previousMarker : Option Marker) :
    Except MaterialFailure Unit :=
  if started tdoc now then .error .blocked
  else if tdoc.rule ≠ "oi" ∨ tdoc.orchestratorMaterials ≠ previousMarker ∨
      filesFit previousMarker tdoc = false then .error .conflict
  else .ok ()

/-- `ContestModel.edit` sets two fields of the contest as it is then. -/
def editContest (others : Contest → Contest) (privateFiles : List PrivateFile) (marker : Marker)
    (edit : Done) : Publication Unit := do
  modify fun s => { s with contest := others s.contest }
  if edit.effective then
    modify fun s =>
      { s with contest := { s.contest with privateFiles, orchestratorMaterials := some marker } }
  failWhen (edit != .returned) .hydro

def unreserved (contest : Contest) : List PrivateFile :=
  contest.privateFiles.filter fun file => !materialAttachmentNames.contains file.name

def completeMaterialEntry (settings : MaterialSettings) (publicationId : String)
    (change : MaterialEntry → MaterialEntry) (works : Bool) : Publication Unit := do
  changeEntry publicationId change
  saveMaterialIdempotencyState settings works

def commitPublication (settings : MaterialSettings) (around : Surroundings)
    (request : MaterialRequest settings.maxBytes) (entry : MaterialEntry)
    (previousMarker : Option Marker) (published : List PrivateFile) : Publication Unit := do
  let tdoc ← getContest around.beforeCommit around.commitReadFails
  match commitChecks tdoc around.commitNow previousMarker with
  | .error failure => throw failure
  | .ok () => pure ()
  editContest around.beforeEdit (unreserved tdoc ++ published)
    (materialMarker request (materialPublicationFingerprint request)) around.edit
  let applied ← getContest around.afterEdit around.appliedReadFails
  match verifyPublishedMaterials settings (← get).storage around.appliedLostReads applied entry with
  | .error failure => throw failure
  | .ok false => throw .conflict
  | .ok true =>
    completeMaterialEntry settings request.publicationId
      (fun e => { e with complete := true, completedAt := some around.completedAt }) around.confirm

def publishUnderLock (settings : MaterialSettings) (around : Surroundings)
    (request : MaterialRequest settings.maxBytes) (entry : MaterialEntry) : Publication Unit := do
  let tdoc ← getContest around.beforeRead around.readFails
  match openingChecks settings around entry (← get).storage tdoc with
  | .error failure => throw failure
  | .ok .published =>
    completeMaterialEntry settings request.publicationId
      (fun e => { e with complete := true,
                         completedAt := some (e.completedAt.getD around.completedAt) })
      around.reconfirm
  | .ok (.toUpload previousMarker) =>
    let published ← uploadAttachments settings request.tid around.uploads request.attachments entry
    commitPublication settings around request entry previousMarker published

def MaterialRequest.reservation {maxBytes : Nat} (request : MaterialRequest maxBytes)
    (fingerprint createdAt : String) : MaterialEntry where
  publicationId := request.publicationId
  tid := request.tid
  revision := request.revision
  fingerprint := fingerprint
  attachments := request.declared
  uploaded := []
  complete := false
  createdAt := createdAt
  completedAt := none

/- The entry of the journal, or a new one that is saved first. -/
def reserveEntry (settings : MaterialSettings) (around : Surroundings)
    (request : MaterialRequest settings.maxBytes) (fingerprint : String) :
    Publication MaterialEntry := do
  match (← get).entries.get? request.publicationId with
  | some entry => return entry
  | none =>
    let entry := request.reservation fingerprint around.createdAt
    modify fun s => { s with entries := s.entries.set request.publicationId entry }
    saveMaterialIdempotencyState settings around.reserve
    return entry

/- The finally block frees the contest whichever way the work ends. -/
def underMaterialMutation (work : Publication Unit) : Publication Unit := do
  acquireContestMaterialMutation
  try work
  catch failure =>
    modify fun s => { s with materialMutation := false }
    throw failure
  modify fun s => { s with materialMutation := false }

/- A receipt is made of the entry, whose other fields never change. -/
def publish (settings : MaterialSettings) (around : Surroundings)
    (request : MaterialRequest settings.maxBytes) (fingerprint : String) :
    Publication MaterialEntry := do
  let entry ← reserveEntry settings around request fingerprint
  underMaterialMutation (publishUnderLock settings around request entry)
  return entry

/-- `OrchestratorMaterialHandler.post` -/
def OrchestratorMaterialHandler.post (settings : MaterialSettings) (around : Surroundings)
    (body : MaterialBody) : Publication MaterialEntry := do
  failWhen (!materialTokenMatches settings body.headerToken) .invalidToken
  match body.parse settings with
  | .error failure => throw failure
  | .ok request =>
    let fingerprint := materialPublicationFingerprint request
    failWhen (request.publicationId != fingerprint)
      (.badRequest "orchestrator material publication id")
    let shelf ← get
    failWhen ((shelf.entries.get? request.publicationId).any (·.fingerprint != fingerprint))
      .conflict
    match shelf.inFlight.get? request.publicationId with
    | none => publish settings around request fingerprint
    | some active =>
      failWhen (active != fingerprint) .conflict
      match around.joined with
      | .error failure => throw failure
      | .ok entry => return entry

end NoiContest.HydroPlugin
