import NoiContest.DockerArchive.Identity
import NoiContest.Lib.JsonParse

/- What a successful verification establishes about the archive, and exactly when a loader that
   keeps the last member of a name reads the bytes that were verified. -/
namespace NoiContest.DockerArchive
open Outcome PyValue

variable {py : Python}

/-- A regular member of this name has these bytes. -/
def Holds (archive : List Member) (name : Text) (raw : List UInt8) : Prop :=
  ∃ member ∈ archive, Named name member ∧ member.kind = .regular ∧ member.content = some raw

/- The place and bytes of a blob. -/
def blob (raw : List UInt8) : Text × List UInt8 := (blobName (sha raw), raw)

section Spec
variable (py : Python)

/- How files of a name and their bytes are found: in the archive, or by a loader. -/
variable (stored : Text → List UInt8 → Prop)

/-- A descriptor whose digest and size are those of the blob stored under the digest. -/
structure Link (descriptor : List (String × PyValue)) (raw : List UInt8) : Prop where
  digest : get descriptor "digest" = .text ("sha256:" ++ Sha256.hexdigest raw)
  size : intValue? (get descriptor "size") = some (raw.length : Int)
  file : stored (blobName (sha raw)) raw

/- The only image record of manifest.json has exactly the tag and names the config. -/
structure RecordNames (tag : String) (manifestRaw : List UInt8) (path : Text)
    (config : List UInt8) : Prop where
  document : stored manifestName manifestRaw
  record : ∃ fields named, py.loads manifestRaw = .ok (.list [.mapping fields]) ∧
    get fields "RepoTags" = .list [.text tag] ∧ get fields "Config" = .text named ∧
    canonicalMember named.toList = .ok path
  digest : hexName path = some (sha config)
  file : stored path config

/- The descriptor of the outer index that links to the identity blob. -/
structure OuterIndex (layoutRaw indexRaw : List UInt8) (descriptor : List (String × PyValue))
    (raw : List UInt8) : Prop where
  layout : stored layoutName layoutRaw
  version : py.loads layoutRaw = .ok (.mapping [("imageLayoutVersion", .text "1.0.0")])
  index : stored indexName indexRaw
  outer : ∃ fields, py.loads indexRaw = .ok (.mapping fields) ∧
    equalsInt py (get fields "schemaVersion") 2 = true ∧
    get fields "manifests" = .list [.mapping descriptor]
  link : Link stored descriptor raw

/- A manifest whose config descriptor links to these bytes. -/
def NamesConfig (manifest : PyValue) (config : List UInt8) : Prop :=
  ∃ fields inner, manifest = .mapping fields ∧
    equalsInt py (get fields "schemaVersion") 2 = true ∧
    get fields "config" = .mapping inner ∧ Link stored inner config

/- The rows of an index with exactly one runnable manifest. -/
def OnlyRunnable (rows : List PyValue) (row : PyValue) : Prop :=
  ∃ before after, rows = before ++ row :: after ∧ runnable py row = .ok true ∧
    ∀ other ∈ before ++ after, runnable py other = .ok false

/-- The chains from an image ID to a config, with the mode and the files on the way. -/
inductive Chain (id : Text) (config : List UInt8) : String → Members → Prop where
  | legacyConfig (same : id = sha config) : Chain id config "legacy-config" []
  | ociManifest {layoutRaw indexRaw raw inner : List UInt8} {descriptor : List (String × PyValue)}
      {fields : List (String × PyValue)}
      (outer : OuterIndex py stored layoutRaw indexRaw descriptor raw) (own : id = sha raw)
      (loaded : py.loads raw = .ok (.mapping fields))
      (media : inSet (orElse py (get fields "mediaType") (get descriptor "mediaType"))
        ociManifestMedia = .ok true)
      (names : NamesConfig py stored (.mapping fields) inner) (same : sha inner = sha config) :
      Chain id config "oci-manifest"
        [(layoutName, layoutRaw), (indexName, indexRaw), blob raw, blob inner]
  | ociIndex {layoutRaw indexRaw raw manifestRaw inner : List UInt8}
      {descriptor fields row : List (String × PyValue)} {rows : List PyValue}
      {manifest : PyValue}
      (outer : OuterIndex py stored layoutRaw indexRaw descriptor raw) (own : id = sha raw)
      (loaded : py.loads raw = .ok (.mapping fields))
      (version : equalsInt py (get fields "schemaVersion") 2 = true)
      (media : inSet (orElse py (get fields "mediaType") (get descriptor "mediaType"))
        ociIndexMedia = .ok true)
      (listed : iterate ((fields.lookup "manifests").getD (.list [])) = .ok rows)
      (only : OnlyRunnable py rows (.mapping row)) (link : Link stored row manifestRaw)
      (read : py.loads manifestRaw = .ok manifest)
      (names : NamesConfig py stored manifest inner) (same : sha inner = sha config) :
      Chain id config "oci-index"
        [(layoutName, layoutRaw), (indexName, indexRaw), blob raw, blob manifestRaw, blob inner]

/-- What the verification of an image says, with the files it rests on. -/
structure Identified (tag : String) (id : Text) (record : Verified) (config : List UInt8)
    (used : Members) : Prop where
  imageTag : record.imageTag = tag
  imageId : record.imageId = id
  configSha256 : record.configSha256 = sha config
  chain : ∃ manifestRaw path chained, RecordNames py stored tag manifestRaw path config ∧
    Chain py stored (id.drop 7) config record.identityMode chained ∧
    used = (manifestName, manifestRaw) :: (path, config) :: chained

end Spec

theorem sha_length (raw : List UInt8) : (sha raw).length = 64 := by
  rw [sha, String.length_toList, Sha256.hexdigest_length]

theorem sha_hex (raw : List UInt8) : (sha raw).all PyText.isLowerHex = true := by
  rw [List.all_eq_true]
  intro c mem
  obtain ⟨n, small, rfl⟩ := Sha256.hexdigest_digit mem
  exact (show ∀ n : Fin 16, PyText.isLowerHex (Sha256.hexDigit n) = true by decide) ⟨n, small⟩

theorem hexName_blob (raw : List UInt8) : hexName (blobName (sha raw)) = some (sha raw) := by
  have whole : (sha raw).take 64 = sha raw := List.take_of_length_le (sha_length raw).le
  have rest : (sha raw).drop 64 = [] := List.drop_eq_nil_of_le (sha_length raw).le
  have body : (if blobs.isPrefixOf (blobName (sha raw)) then (blobName (sha raw)).drop 13
      else blobName (sha raw)) = sha raw := by
    have front : blobs <+: blobName (sha raw) := List.prefix_append ..
    rw [if_pos (List.isPrefixOf_iff_prefix.mpr front)]
    exact List.drop_left' rfl
  simp only [hexName, body, whole, rest, sha_length, sha_hex, true_and, true_or, if_true]

theorem wanted_blob (raw : List UInt8) : wanted (blobName (sha raw)) = true := by
  simp [wanted, hexName_blob]

theorem digestPath_ok {value : PyValue} {label : String} {digest : Text} :
    digestPath value label = .ok digest ↔
      ∃ s, value = .text s ∧ s.toList = "sha256:".toList ++ digest ∧ isDigest digest = true := by
  cases value with
  | text s =>
    simp only [digestPath]
    split
    · next fits =>
      obtain ⟨rest, split⟩ := List.isPrefixOf_iff_prefix.mp fits.1
      have dropped : s.toList.drop 7 = rest := by rw [← split]; exact List.drop_left' rfl
      rw [dropped] at fits ⊢
      constructor
      · rintro eq
        cases eq
        exact ⟨s, rfl, split.symm, fits.2⟩
      · rintro ⟨_, same, own, -⟩
        cases same
        rw [List.append_cancel_left (split.trans own)]
    · next unfit =>
      constructor
      · exact nofun
      · rintro ⟨_, same, own, digits⟩
        cases same
        refine absurd ⟨List.isPrefixOf_iff_prefix.mpr ⟨_, own.symm⟩, ?_⟩ unfit
        rw [own, List.drop_left' (by rfl)]
        exact digits
  | _ => simp [digestPath]

theorem requiredBlob_ok {members : Members} {digest : Text} {label : String} {raw : List UInt8} :
    requiredBlob members digest label = .ok raw ↔
      members.lookup (blobName digest) = some raw ∧ sha raw = digest := by
  rw [requiredBlob]
  split
  · next found eq =>
    rw [eq, Option.some_inj]
    split
    · next same =>
      constructor
      · rintro eq
        cases eq
        exact ⟨rfl, same⟩
      · rintro ⟨rfl, -⟩
        rfl
    · next apart => exact ⟨nofun, fun ⟨own, same⟩ => absurd (own ▸ same) apart⟩
  · next eq => rw [eq]; exact ⟨nofun, nofun⟩

theorem loadJson_ok {raw : List UInt8} {label : String} {value : PyValue} :
    loadJson py raw label = .ok value ↔ py.loads raw = .ok value := mapError_ok

theorem asMapping_ok {value : PyValue} {message : String} {fields : List (String × PyValue)} :
    asMapping value message = .ok fields ↔ value = .mapping fields := by
  cases value <;> simp [asMapping]

theorem schemaTwo_ok {value : PyValue} {message : String} {fields : List (String × PyValue)} :
    schemaTwo py value message = .ok fields ↔
      value = .mapping fields ∧ equalsInt py (get fields "schemaVersion") 2 = true := by
  simp only [schemaTwo, bind_ok, asMapping_ok, raiseIf_ok, pure_eq_ok, Bool.not_eq_false]
  constructor
  · rintro ⟨_, rfl, _, two, rfl⟩
    exact ⟨rfl, two⟩
  · rintro ⟨rfl, two⟩
    exact ⟨_, rfl, (), two, rfl⟩

theorem onlyMapping_ok {value : PyValue} {message : String} {fields : List (String × PyValue)} :
    onlyMapping value message = .ok fields ↔ value = .list [.mapping fields] := by
  unfold onlyMapping
  split
  · simp
  · next other => exact ⟨nofun, fun eq => absurd eq (other fields)⟩

theorem isOnlyTag_iff {value : PyValue} {tag : String} :
    isOnlyTag value tag = true ↔ value = .list [.text tag] := by
  unfold isOnlyTag
  split
  · simp
  · next other => exact ⟨nofun, fun eq => absurd eq (other tag)⟩

theorem isLayout_iff {value : PyValue} :
    isLayout value = true ↔ value = .mapping [("imageLayoutVersion", .text "1.0.0")] := by
  unfold isLayout
  split
  · simp
  · next other => exact ⟨nofun, fun eq => absurd eq (other _ _)⟩

theorem asText_ok {value : PyValue} {message : String} {text : Text} :
    asText value message = .ok text ↔ ∃ s, value = .text s ∧ s.toList = text := by
  cases value <;> simp [asText]

theorem present_ok {α : Type} {value : Option α} {message : String} {found : α} :
    present value message = .ok found ↔ value = some found := by
  cases value <;> simp [present]

theorem link_of {members : Members} {descriptor : List (String × PyValue)} {raw : List UInt8}
    {digest : Text} {label label' label'' : String}
    (named : digestPath (get descriptor "digest") label = .ok digest)
    (found : requiredBlob members digest label' = .ok raw)
    (sized : descriptorSize descriptor raw label'' = .ok ()) :
    Link (fun name raw => members.lookup name = some raw) descriptor raw := by
  obtain ⟨s, value, text, -⟩ := digestPath_ok.mp named
  obtain ⟨place, rfl⟩ := requiredBlob_ok.mp found
  refine ⟨?_, not_not.mp (raiseIf_ok.mp sized), place⟩
  rw [value, PyValue.text.injEq]
  apply String.toList_injective
  rw [text, String.toList_append, sha]

theorem candidates_ok {rows kept : List PyValue} (done : candidates py rows = .ok kept) :
    kept = rows.filter (fun row => decide (runnable py row = .ok true)) ∧
      ∀ row ∈ rows, runnable py row = .ok true ∨ runnable py row = .ok false := by
  induction rows generalizing kept with
  | nil =>
    cases done
    exact ⟨rfl, nofun⟩
  | cons row rows ih =>
    simp only [candidates, bind_ok, pure_eq_ok] at done
    obtain ⟨counted, first, later, rest, rfl⟩ := done
    obtain ⟨rfl, each⟩ := ih rest
    cases counted with
    | false => exact ⟨by simp [first], List.forall_mem_cons.mpr ⟨.inr first, each⟩⟩
    | true => exact ⟨by simp [first], List.forall_mem_cons.mpr ⟨.inl first, each⟩⟩

theorem onlyRunnable_of {rows : List PyValue} {row : PyValue}
    (done : candidates py rows = .ok [row]) : OnlyRunnable py rows row := by
  obtain ⟨kept, each⟩ := candidates_ok done
  obtain ⟨before, after, rfl, none, some, rest⟩ := List.filter_eq_cons_iff.mp kept.symm
  refine ⟨before, after, rfl, of_decide_eq_true some, fun other mem => ?_⟩
  have inside : other ∈ before ++ row :: after := by
    rcases List.mem_append.mp mem with first | last
    · exact List.mem_append_left _ first
    · exact List.mem_append_right _ (List.mem_cons_of_mem _ last)
  refine (each other inside).resolve_left fun counted => ?_
  rcases List.mem_append.mp mem with first | last
  · exact none other first (decide_eq_true counted)
  · exact List.filter_eq_nil_iff.mp rest other last (decide_eq_true counted)

theorem configRecord_ok {members : Members} {tag : String} {digest : Text}
    {config : List UInt8} (done : configRecord py members tag = .ok (digest, config)) :
    digest = sha config ∧ ∃ manifestRaw path,
      RecordNames py (fun name raw => members.lookup name = some raw) tag manifestRaw path
        config := by
  simp only [configRecord, bind_ok, present_ok, loadJson_ok, onlyMapping_ok, raiseIf_ok,
    Bool.not_eq_false, isOnlyTag_iff, asText_ok, asMapping_ok, not_not, pure_eq_ok,
    Prod.mk.injEq] at done
  obtain ⟨raw, found, _, loaded, fields, rfl, _, tags, _, ⟨named, own, rfl⟩, done⟩ := done
  obtain ⟨path, canonical, _, group, _, file, _, rfl, _, _, _, _, rfl, rfl⟩ := done
  exact ⟨rfl, raw, path, found, ⟨fields, named, loaded, tags, own, canonical⟩, group, file⟩

theorem bindModernIdentity_ok {members : Members} {id digest : Text} {config : List UInt8}
    {mode : String} (own : digest = sha config)
    (done : bindModernIdentity py members id digest = .ok mode) :
    ∃ chained, Chain py (fun name raw => members.lookup name = some raw) id config mode
      chained := by
  have present : ∀ {name : Text} {value : PyValue},
      py.loads ((members.lookup name).getD []) = .ok value →
      ∃ raw, members.lookup name = some raw ∧ py.loads raw = .ok value := by
    intro name value loaded
    cases found : members.lookup name with
    | none => rw [found, Option.getD_none, py.empty] at loaded; cases loaded
    | some raw => exact ⟨raw, rfl, by rwa [found, Option.getD_some] at loaded⟩
  rw [bindModernIdentity] at done
  simp only [bind_ok, loadJson_ok, schemaTwo_ok, onlyMapping_ok, asMapping_ok] at done
  obtain ⟨layout, layoutLoaded, _, layoutFits, done⟩ := done
  obtain ⟨outer, outerLoaded, outerFields, ⟨rfl, outerTwo⟩, descriptor, listed, done⟩ := done
  obtain ⟨named, naming, _, matched, raw, found, _, sized, done⟩ := done
  obtain ⟨identity, loaded, fields, ⟨rfl, two⟩, ⟨mode', manifest⟩, selected, done⟩ := done
  obtain ⟨manifestFields, ⟨rfl, manifestTwo⟩, inner, innerField, bound, binding, done⟩ := done
  obtain ⟨_, same, configRaw, configFound, _, configSized, done⟩ := done
  rw [pure_eq_ok] at done
  subst done
  have matched := not_not.mp (raiseIf_ok.mp matched)
  have same := not_not.mp (raiseIf_ok.mp same)
  subst matched
  subst same
  obtain ⟨layoutRaw, layoutFile, layoutLoaded⟩ := present layoutLoaded
  obtain ⟨indexRaw, indexFile, indexLoaded⟩ := present outerLoaded
  have version := isLayout_iff.mp (Bool.not_eq_false _ ▸ raiseIf_ok.mp layoutFits)
  subst version
  have index : OuterIndex py (fun name raw => members.lookup name = some raw) layoutRaw indexRaw
      descriptor raw :=
    ⟨layoutFile, layoutLoaded, indexFile, ⟨_, indexLoaded, outerTwo, listed⟩,
      link_of naming found sized⟩
  have names : NamesConfig py (fun name raw => members.lookup name = some raw)
      (.mapping manifestFields) configRaw :=
    ⟨manifestFields, inner, rfl, manifestTwo, innerField, link_of binding configFound configSized⟩
  have configSame : sha configRaw = sha config := (requiredBlob_ok.mp configFound).2.trans own
  have idSame := (requiredBlob_ok.mp found).2.symm
  rw [selectManifest, bind_ok] at selected
  obtain ⟨isManifest, media, selected⟩ := selected
  cases isManifest with
  | true =>
    rw [if_pos rfl, pure_eq_ok] at selected
    cases selected
    exact ⟨_, .ociManifest index idSame loaded media names configSame⟩
  | false =>
    rw [if_neg Bool.false_ne_true, bind_ok] at selected
    obtain ⟨isIndex, media, selected⟩ := selected
    cases isIndex with
    | false => simp at selected
    | true =>
      simp only [if_pos, bind_ok, onlyMapping_ok, loadJson_ok, pure_eq_ok] at selected
      obtain ⟨rows, iterated, kept, counted, row, one, selected⟩ := selected
      obtain ⟨manifestDigest, rowNamed, manifestRaw, rowFound, _, rowSized, selected⟩ := selected
      obtain ⟨_, read, eq⟩ := selected
      cases eq
      cases one
      exact ⟨_, .ociIndex index idSame loaded two media iterated (onlyRunnable_of counted)
        (link_of rowNamed rowFound rowSized) read names configSame⟩

section Transfer
variable {stored stored' : Text → List UInt8 → Prop}

theorem Chain.used {id : Text} {config : List UInt8} {mode : String} {used : Members}
    (chain : Chain py stored id config mode used) :
    ∀ item ∈ used, stored item.1 item.2 ∧ wanted item.1 = true := by
  cases chain with
  | legacyConfig => nofun
  | ociManifest outer _ _ _ names =>
    obtain ⟨_, _, -, -, -, link⟩ := names
    simp only [List.forall_mem_cons]
    exact ⟨⟨outer.layout, by decide +kernel⟩, ⟨outer.index, by decide +kernel⟩,
      ⟨outer.link.file, wanted_blob _⟩, ⟨link.file, wanted_blob _⟩, nofun⟩
  | ociIndex outer _ _ _ _ _ _ row _ names =>
    obtain ⟨_, _, -, -, -, link⟩ := names
    simp only [List.forall_mem_cons]
    exact ⟨⟨outer.layout, by decide +kernel⟩, ⟨outer.index, by decide +kernel⟩,
      ⟨outer.link.file, wanted_blob _⟩, ⟨row.file, wanted_blob _⟩, ⟨link.file, wanted_blob _⟩, nofun⟩

/- The files that are used decide the chain. -/
theorem Chain.transfer {id : Text} {config : List UInt8} {mode : String} {used : Members}
    (chain : Chain py stored id config mode used)
    (found : ∀ item ∈ used, stored' item.1 item.2) : Chain py stored' id config mode used := by
  cases chain with
  | legacyConfig same => exact .legacyConfig same
  | ociManifest outer own loaded media names same =>
    obtain ⟨fields, inner, eq, two, field, link⟩ := names
    simp only [List.forall_mem_cons] at found
    obtain ⟨layout, index, identity, config, -⟩ := found
    exact .ociManifest ⟨layout, outer.version, index, outer.outer, ⟨outer.link.1, outer.link.2, identity⟩⟩
      own loaded media ⟨fields, inner, eq, two, field, ⟨link.1, link.2, config⟩⟩ same
  | ociIndex outer own loaded version media listed only row read names same =>
    obtain ⟨fields, inner, eq, two, field, link⟩ := names
    simp only [List.forall_mem_cons] at found
    obtain ⟨layout, index, identity, manifest, config, -⟩ := found
    exact .ociIndex
      ⟨layout, outer.version, index, outer.outer, ⟨outer.link.1, outer.link.2, identity⟩⟩
      own loaded version media listed only ⟨row.1, row.2, manifest⟩ read
      ⟨fields, inner, eq, two, field, ⟨link.1, link.2, config⟩⟩ same

theorem Identified.used {tag : String} {id : Text} {record : Verified} {config : List UInt8}
    {used : Members} (identified : Identified py stored tag id record config used) :
    ∀ item ∈ used, stored item.1 item.2 ∧ wanted item.1 = true := by
  obtain ⟨manifestRaw, path, chained, names, chain, rfl⟩ := identified.chain
  simp only [List.forall_mem_cons]
  exact ⟨⟨names.document, by decide +kernel⟩,
    ⟨names.file, by simp [wanted, names.digest]⟩, chain.used⟩

theorem Identified.transfer {tag : String} {id : Text} {record : Verified}
    {config : List UInt8} {used : Members}
    (identified : Identified py stored tag id record config used)
    (found : ∀ item ∈ used, stored' item.1 item.2) :
    Identified py stored' tag id record config used := by
  obtain ⟨manifestRaw, path, chained, names, chain, rfl⟩ := identified.chain
  have later := found
  simp only [List.forall_mem_cons] at later
  exact ⟨identified.imageTag, identified.imageId, identified.configSha256, manifestRaw, path,
    chained, ⟨later.1, names.record, names.digest, later.2.1⟩, chain.transfer later.2.2, rfl⟩

end Transfer

theorem verify_ok {archive : List Member} {tag : String} {id : Text} {record : Verified}
    {config : List UInt8} (done : verify py archive tag id = .ok (record, config)) :
    ∃ members used, collectSmallMembers archive = .ok members ∧
      Identified py (fun name raw => members.lookup name = some raw) tag id record config used := by
  simp only [verify, bind_ok] at done
  obtain ⟨_, -, _, -, members, collected, ⟨digest, config'⟩, configured, mode, chained, done⟩ := done
  dsimp only at chained done
  rw [pure_eq_ok, Prod.mk.injEq] at done
  obtain ⟨rfl, rfl⟩ := done
  obtain ⟨named, manifestRaw, path, names⟩ := configRecord_ok configured
  refine ⟨members, ?_⟩
  split at chained
  · next same =>
    rw [pure_eq_ok] at chained
    subst chained
    exact ⟨_, collected, rfl, rfl, named, manifestRaw, path, [], names,
      .legacyConfig (same.symm.trans named), rfl⟩
  · obtain ⟨used, chain⟩ := bindModernIdentity_ok named chained
    exact ⟨_, collected, rfl, rfl, named, manifestRaw, path, used, names, chain, rfl⟩

theorem holds_of_lookup {archive : List Member} {members : Members} {name : Text}
    {raw : List UInt8} (collected : collectSmallMembers archive = .ok members)
    (known : wanted name = true) (found : members.lookup name = some raw) :
    Holds archive name raw := by
  obtain ⟨scanned, once⟩ := collectSmallMembers_ok collected
  have counted := scanned.named known
  rw [filter_key once found] at counted
  obtain ⟨member, alone, content⟩ := List.map_eq_singleton_iff.mp counted
  have mem := alone ▸ List.mem_singleton_self member
  obtain ⟨inner, fine⟩ := List.mem_filter.mp mem
  obtain ⟨inside, named⟩ := List.mem_filter.mp inner
  have named := of_decide_eq_true named
  exact ⟨member, inside, named, scanned.regular known inside named (of_decide_eq_true fine),
    content⟩

/- The chain is always there; its files are alone under their names iff none of the members that
   the scan passes over has one of the names. -/
theorem archive_identity (py : Python) (archive : List Member) (tag : String) (id : Text)
    (record : Verified) (config : List UInt8)
    (returned : verify py archive tag id = .ok (record, config)) :
    ∃ used, Identified py (Holds archive) tag id record config used ∧
      (Identified py (OnlyMember archive) tag id record config used ↔
        ∀ member ∈ archive, Skipped member → ∀ item ∈ used, ¬ Named item.1 member) ∧
      (Identified py (OnlyMember archive) tag id record config used →
        Identified py (fun name raw => lastNamed archive name = some raw) tag id record config
          used) := by
  obtain ⟨members, used, collected, identified⟩ := verify_ok returned
  have files := identified.used
  refine ⟨used, identified.transfer fun item mem =>
    holds_of_lookup collected (files item mem).2 (files item mem).1, ⟨?_, ?_⟩, ?_⟩
  · intro only member inside skipped item mem
    have only := (only.used item mem).1
    exact (only_iff collected (files item mem).2 (files item mem).1).mp only member inside skipped
  · intro clear
    exact identified.transfer fun item mem =>
      (only_iff collected (files item mem).2 (files item mem).1).mpr
        fun member inside skipped => clear member inside skipped item mem
  · exact fun only => only.transfer fun item mem => (only.used item mem).1.last

section Samples

/- json.loads of texts in ASCII. -/
def samplePython : Python where
  intText _ := none
  intOther _ := .refused
  str _ := ""
  truthyOther _ := true
  loads raw := match JsonText.loads (String.ofList (raw.map fun byte => Char.ofNat byte.toNat)) with
    | some value => .ok (ofJson value)
    | none => .error .notJson
  empty := rfl
  equalsOther _ _ := false

def sampleConfig : List UInt8 := [0x7b, 0x7d]

def sampleDigest : Text := "44136fa355b3678a1146ad16f7e8649e94fb4fc21fe77e8310c060f61caaff8a".toList

def sampleId : Text := "sha256:".toList ++ sampleDigest

def sampleManifest : List UInt8 :=
  (["[\x7b\"Config\":\"".toList, sampleDigest, ".json\",\"RepoTags\":[\"noi:1\"]\x7d]".toList].flatten).map
    fun c => UInt8.ofNat c.toNat

def fileMember (name : Text) (content : List UInt8) : Member :=
  ⟨name, .regular, content.length, some content⟩

def sampleArchive : List Member :=
  [fileMember (sampleDigest ++ ".json".toList) sampleConfig,
    fileMember ('.' :: '/' :: manifestName) sampleManifest]

def sampleVerified : Verified := ⟨sampleDigest, "legacy-config", sampleId, "noi:1"⟩

theorem sample_verified : verify samplePython sampleArchive "noi:1" sampleId =
    .ok (sampleVerified, sampleConfig) := by
  decide +kernel

theorem sample_identified : ∃ used,
    Identified samplePython (OnlyMember sampleArchive) "noi:1" sampleId sampleVerified sampleConfig
      used := by
  have small : ∀ member ∈ sampleArchive, ¬ Skipped member := by decide +kernel
  obtain ⟨used, -, iff, -⟩ := archive_identity samplePython sampleArchive "noi:1" sampleId
    sampleVerified sampleConfig sample_verified
  exact ⟨used, iff.mpr fun member mem skipped => absurd skipped (small member mem)⟩

/- A second manifest.json that is too large to be looked at. -/
def shadowedArchive : List Member :=
  sampleArchive ++ [⟨manifestName, .regular, maxJson + 1, some (List.replicate (maxJson + 1) 0x20)⟩]

/- The verification depends on the members that the scan collects only. -/
theorem verify_congr {archive archive' : List Member} (tag : String) (id : Text)
    (same : collectSmallMembers archive' = collectSmallMembers archive) :
    verify py archive' tag id = verify py archive tag id := by
  simp only [verify, same]

theorem large_manifest_passed :
    verify samplePython shadowedArchive "noi:1" sampleId = .ok (sampleVerified, sampleConfig) ∧
      (∀ raw, ¬ OnlyMember shadowedArchive manifestName raw) ∧
      lastNamed shadowedArchive manifestName ≠ some sampleManifest := by
  refine ⟨(verify_congr "noi:1" sampleId rfl).trans sample_verified, ?_, ?_⟩
  · rintro raw ⟨member, alone, -⟩
    have two : (shadowedArchive.filter
        fun member => decide (Named manifestName member)).length = 2 := by decide +kernel
    rw [alone] at two
    cases two
  · have last : lastNamed shadowedArchive manifestName =
        some (List.replicate (maxJson + 1) 0x20) := rfl
    rw [last, List.replicate_succ]
    intro same
    have first : sampleManifest.head? = some 0x5b := by decide +kernel
    rw [← Option.some.inj same] at first
    cases first

end Samples

end NoiContest.DockerArchive
