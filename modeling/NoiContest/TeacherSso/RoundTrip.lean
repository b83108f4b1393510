import NoiContest.TeacherSso.Tokens
import NoiContest.Lib.JsonParse

/- A ticket brings its teacher to the orchestrator, a session keeps the teacher there, and no
   other token does either. -/
namespace NoiContest.TeacherSso
open JsonText TextSize

/- json.loads refuses integers of more digits. -/
def maxDigits : Nat := 4300

/- The values of the payloads. -/
def Flat : Json → Prop
  | .null => True
  | .str _ => True
  | .int n => n.natAbs < 10 ^ maxDigits
  | _ => False

/- What json.loads gives for the text of a flat object. -/
def ReadsBack (py : Python) : Prop :=
  ∀ fields : List (String × Json), (fields.map Prod.fst).Nodup → (∀ field ∈ fields, Flat field.2) →
    ∃ payload, py.jsonLoads (utf8 (dumps (.obj fields))) = .ok (.mapping payload) ∧
      (payload.map Prod.fst).toFinset = (fields.map Prod.fst).toFinset ∧
      ∀ field ∈ fields, PyValue.get payload field.1 = PyValue.ofJson field.2

def Refused (result : Except Raised TeacherIdentity) : Prop :=
  ∃ message, result = .error (.valueError message)

theorem utf8_length (s : String) : (utf8 s).length = utf8Size s.toList := by
  rw [← utf8ByteSize_eq, ← String.size_toByteArray]
  rfl

theorem b64encode_toList (bytes : List UInt8) :
    (b64encode bytes).toList = Base64Url.encode bytes := String.toList_ofList

theorem b64encode_token {bytes : List UInt8} (least : 12 ≤ bytes.length)
    (most : bytes.length ≤ 3072) : isToken (b64encode bytes) = true := by
  simp only [isToken, ← String.length_toList, b64encode_toList, Base64Url.encode_length,
    Base64Url.encode_digits, Bool.and_true, Bool.and_eq_true, decide_eq_true_eq]
  omega

theorem b64decode_encode {bytes : List UInt8} (token : isToken (b64encode bytes) = true) :
    b64decode (b64encode bytes) = .ok bytes := by
  rw [b64decode, Outcome.raiseIf_neg (by simp [token]), Outcome.ok_bind, b64encode_toList,
    Base64Url.decode_encode]

theorem sign_signature (key purpose payload : String) :
    isSignature (sign key purpose payload) = true := by
  simp only [isSignature, sign, ← String.length_toList, b64encode_toList,
    Base64Url.encode_length, Base64Url.encode_digits, Sha256.hmac_length]
  rfl

theorem no_period {cs : List Char} (digits : cs.all Base64Url.isDigit = true) : '.' ∉ cs := by
  intro mem
  have digit := List.all_eq_true.mp digits '.' mem
  rw [Base64Url.isDigit_period] at digit
  cases digit

theorem splitToken_parts {payload signature : String} (token : isToken payload = true)
    (signed : isSignature signature = true) :
    splitToken (payload ++ "." ++ signature) = .ok (payload, signature) := by
  have sizes := token
  have sizes' := signed
  simp only [isToken, isSignature, Bool.and_eq_true, decide_eq_true_eq] at sizes sizes'
  have apart : (payload ++ "." ++ signature).toList.splitOn '.' =
      [payload.toList, signature.toList] := by
    have front := no_period sizes.2
    have back := no_period sizes'.2
    have text : (payload ++ "." ++ signature).toList =
        payload.toList ++ '.' :: signature.toList := by
      simp
    rw [text, List.splitOn_append_cons_self, List.splitOn_eq_singleton front,
      List.splitOn_eq_singleton back]
    rfl
  have short : ¬ 4096 + 1 + 43 < (payload ++ "." ++ signature).length := by
    have dot : ".".length = 1 := rfl
    rw [String.length_append, String.length_append, dot]
    omega
  rw [splitToken, Outcome.raiseIf_neg short, Outcome.ok_bind, apart]
  simp only [String.ofList_toList]
  rw [Outcome.raiseIf_neg (by simp [token, signed])]
  rfl

/- A token in two parts is these parts around a period. -/
theorem splitToken_text {token payload signature : String}
    (split : splitToken token = .ok (payload, signature)) :
    token = payload ++ "." ++ signature := by
  rw [splitToken] at split
  obtain ⟨_, _, parts⟩ := Outcome.bind_ok.mp split
  split at parts
  · rename_i front back two
    obtain ⟨_, _, done⟩ := Outcome.bind_ok.mp parts
    rw [Outcome.pure_eq_ok, Prod.mk.injEq] at done
    have whole : ['.'].intercalate (token.toList.splitOn '.') = token.toList :=
      List.intercalate_splitOn '.'
    rw [two] at whole
    refine String.toList_injective ?_
    rw [← done.1, ← done.2, ← whole]
    simp [List.intercalate]
  · cases parts

/- The fields as a payload of a token, with room for the encoding. -/
structure Carried (fields : List (String × Json)) : Prop where
  once : (fields.map Prod.fst).Nodup
  flat : ∀ field ∈ fields, Flat field.2
  least : 12 ≤ (utf8 (dumps (.obj fields))).length
  most : (utf8 (dumps (.obj fields))).length ≤ 3072

def encodeFields (fields : List (String × Json)) : String :=
  b64encode (utf8 (dumps (.obj fields)))

theorem verifyToken_carried {py : Python} (reads : ReadsBack py) (kind : Kind)
    {fields : List (String × Json)} (carried : Carried fields) (key : String) {signature : String}
    (signed : isSignature signature = true) :
    ∃ payload : List (String × PyValue),
      (payload.map Prod.fst).toFinset = (fields.map Prod.fst).toFinset ∧
      (∀ field ∈ fields, PyValue.get payload field.1 = PyValue.ofJson field.2) ∧
      ∀ now, verifyToken py kind (encodeFields fields ++ "." ++ signature) key now =
        if signature = sign key kind.purpose (encodeFields fields) then
          checkPayload py kind now (.mapping payload)
        else .error (invalid (kind.label ++ " signature")) := by
  obtain ⟨payload, loaded, names, values⟩ := reads fields carried.once carried.flat
  have token : isToken (encodeFields fields) = true := b64encode_token carried.least carried.most
  have load : loadPayload py kind (encodeFields fields) = .ok (.mapping payload) := by
    simp only [loadPayload, encodeFields, b64decode_encode token, loaded]
  refine ⟨payload, names, values, fun now => ?_⟩
  rw [verifyToken, splitToken_parts token signed, Outcome.ok_bind]
  by_cases right : signature = sign key kind.purpose (encodeFields fields)
  · rw [if_pos right]
    simp only
    rw [Outcome.raiseIf_neg (not_not.mpr right), Outcome.ok_bind, load, Outcome.ok_bind]
  · rw [if_neg right]
    simp only
    rw [Outcome.raiseIf_pos right, Outcome.error_bind]

/- A payload with other fields is refused whatever its signature is. -/
theorem other_fields_refused {py : Python} (reads : ReadsBack py) {kind : Kind}
    {fields : List (String × Json)} (carried : Carried fields) {key signature : String}
    (signed : isSignature signature = true)
    (other : (fields.map Prod.fst).toFinset ≠ kind.fields.toFinset) (now : Int) :
    Refused (verifyToken py kind (encodeFields fields ++ "." ++ signature) key now) := by
  obtain ⟨payload, names, _, verified⟩ := verifyToken_carried reads kind carried key signed
  rw [verified]
  split_ifs
  · have refused : (payload.map Prod.fst).toFinset ≠ kind.fields.toFinset := names ▸ other
    rw [checkPayload, Outcome.raiseIf_pos refused, Outcome.error_bind]
    exact ⟨_, rfl⟩
  · exact ⟨_, rfl⟩

/- The fields of a payload that is right but for the clock. -/
structure States (kind : Kind) (fields : List (String × Json)) (identity : TeacherIdentity)
    (issuedAt : Int) : Prop where
  names : (fields.map Prod.fst).toFinset = kind.fields.toFinset
  version : ("v", Json.int 1) ∈ fields
  uid : ("uid", Json.int identity.uid) ∈ fields
  uname : ("uname", Json.str identity.uname) ∈ fields
  tid : ∃ tid, identity.tid = some tid ∧ isTid tid = true ∧ ("tid", Json.str tid) ∈ fields
  nonce : kind.hasNonce = true → ∃ nonce, isNonce nonce = true ∧ ("nonce", Json.str nonce) ∈ fields
  issued : ("iat", Json.int issuedAt) ∈ fields
  expires : ("exp", Json.int identity.expiresAt) ∈ fields
  positive : 0 < identity.uid
  named : identity.uname ≠ ""
  short : identity.uname.length ≤ 128
  lasting : issuedAt < identity.expiresAt
  lifetime : identity.expiresAt - issuedAt ≤ kind.maximumLifetime
  teacher : identity.technical = false

theorem stated_accepted {py : Python} (reads : ReadsBack py) {kind : Kind}
    {fields : List (String × Json)} (carried : Carried fields) {identity : TeacherIdentity}
    {issuedAt : Int} (states : States kind fields identity issuedAt) (key : String) (now : Int) :
    verifyToken py kind (encodeFields fields ++ "." ++
        sign key kind.purpose (encodeFields fields)) key now =
      if issuedAt - 30 ≤ now ∧ now ≤ identity.expiresAt then .ok identity
      else .error (.valueError ("expired or invalid " ++ kind.label)) := by
  obtain ⟨payload, names, values, verified⟩ :=
    verifyToken_carried reads kind carried key (sign_signature key kind.purpose _)
  obtain ⟨tid, identified, objectId, tidField⟩ := states.tid
  have number : ∀ {name : String} {n : Int}, (name, Json.int n) ∈ fields →
      intField py kind payload name = .ok n := by
    intro name n mem
    rw [intField, values _ mem]
    rfl
  have uname : PyValue.get payload "uname" = .text identity.uname := values _ states.uname
  have tidText : PyValue.get payload "tid" = .text tid := values _ tidField
  have nonce : ¬ (kind.hasNonce = true ∧
      isNonce (PyValue.toStr py.toConversions (PyValue.get payload "nonce")) = false) := by
    rintro ⟨needed, wrong⟩
    obtain ⟨nonce, right, mem⟩ := states.nonce needed
    rw [values _ mem, PyValue.ofJson, PyValue.toStr, right] at wrong
    cases wrong
  rw [verified, if_pos rfl, checkPayload, Outcome.raiseIf_neg (by rw [names, states.names]; simp),
    Outcome.ok_bind, number states.version, Outcome.ok_bind, number states.uid, Outcome.ok_bind,
    number states.issued, Outcome.ok_bind, number states.expires, Outcome.ok_bind]
  simp only [uname, tidText, PyValue.toStr, PyText.lowerHex_toLower objectId]
  obtain ⟨uid, name, _, expiresAt, technical⟩ := identity
  obtain rfl : technical = false := states.teacher
  obtain rfl := identified
  have positive := states.positive
  have named := states.named
  have short := states.short
  have lasting := states.lasting
  have lifetime := states.lifetime
  simp only at positive named short lasting lifetime ⊢
  by_cases inTime : issuedAt - 30 ≤ now ∧ now ≤ expiresAt
  · rw [if_pos inTime, Outcome.raiseIf_neg]
    · rfl
    · simp only [not_or]
      exact ⟨by simp, by omega, named, by omega, by simp [objectId], nonce, by omega, by omega,
        by omega, by omega⟩
  · rw [if_neg inTime, Outcome.raiseIf_pos]
    · rfl
    · have outside : now + 30 < issuedAt ∨ expiresAt < now := by omega
      iterate 6 right
      rw [← or_assoc]
      exact .inl outside

theorem isTid_toLower {tid : String} (objectId : PyText.isHexOf 24 tid = true) :
    isTid tid.toLower = true := by
  rw [PyText.isHexOf, Bool.and_eq_true, beq_iff_eq, List.all_eq_true] at objectId
  have lower : tid.toLower = tid.map Char.toLower := rfl
  rw [isTid, PyText.isLowerHexOf, Bool.and_eq_true, beq_iff_eq, List.all_eq_true,
    ← String.length_toList, lower, String.toList_map, List.length_map, String.length_toList]
  refine ⟨objectId.1, fun c mem => ?_⟩
  obtain ⟨d, memD, rfl⟩ := List.mem_map.mp mem
  exact PyText.isLowerHex_of_hex (objectId.2 d memD)

theorem tid_size {tid : String} (objectId : isTid tid = true) :
    utf8Size (dumps (.str tid)).toList ≤ 290 := by
  have units := utf16Length_le tid
  have size := str_size tid
  rw [isTid, PyText.isLowerHexOf, Bool.and_eq_true, beq_iff_eq] at objectId
  omega

theorem nonce_length {nonce : List UInt8} (eighteen : nonce.length = 18) :
    (b64encode nonce).length = 24 := by
  rw [← String.length_toList, b64encode_toList, Base64Url.encode_length, eighteen]

theorem carried_of_sizes (bounds : List Nat) {fields : List (String × Json)}
    (once : (fields.map Prod.fst).Nodup) (flat : ∀ field ∈ fields, Flat field.2)
    (enough : 4 ≤ fields.length)
    (sizes : List.Forall₂ (fun field bound => utf8Size (fieldText field) ≤ bound) fields bounds)
    (room : bounds.sum + bounds.length + 2 ≤ 3072) : Carried fields := by
  obtain ⟨lower, upper⟩ := dumps_size fields
  have least : 3 * fields.length ≤ (fields.map fun field => utf8Size (fieldText field)).sum := by
    clear * -
    induction fields with
    | nil => simp
    | cons field rest ih =>
      have := field_size_ge field
      simp only [List.map_cons, List.sum_cons, List.length_cons]
      omega
  have most : (fields.map fun field => utf8Size (fieldText field) + 1).sum ≤
      bounds.sum + bounds.length := by
    clear * - sizes
    induction sizes with
    | nil => simp
    | cons first _ ih =>
      simp only [List.map_cons, List.sum_cons, List.length_cons]
      omega
  refine ⟨once, flat, ?_, ?_⟩ <;> rw [utf8_length] <;> omega

theorem flat_int {n : Int} (small : n.natAbs < 10 ^ 16) : Flat (.int n) := by
  have more : 16 ≤ maxDigits := by decide
  exact small.trans_le (Nat.pow_le_pow_right (by decide) more)

theorem int_field_size {name : String} (short : utf16Length name ≤ 3) {n : Int}
    (small : n.natAbs < 10 ^ 16) : utf8Size (fieldText (name, .int n)) ≤ 86 :=
  field_size short (int_size (by decide) small)

theorem uname_size {uname : String} (short : utf16Length uname ≤ 128) :
    utf8Size (fieldText ("uname", .str uname)) ≤ 803 := by
  have text : utf8Size (dumps (.str uname)).toList ≤ 770 := (str_size uname).trans (by omega)
  exact field_size (n := 5) (by decide) text

theorem ticket_carried {t : Teacher} (admitted : Admitted t) {nonce : List UInt8}
    (eighteen : nonce.length = 18) {clock : Nat} (real : clock ≤ 8640000000000000) :
    Carried (ticketFields t nonce clock) := by
  have safe := admitted.safe
  have nonceUnits := utf16Length_le (b64encode nonce)
  rw [nonce_length eighteen] at nonceUnits
  have nonceSize : utf8Size (dumps (.str (b64encode nonce))).toList ≤ 290 :=
    (str_size _).trans (by omega)
  have tid := tid_size (isTid_toLower admitted.objectId)
  refine carried_of_sizes [86, 86, 323, 311, 86, 803, 86] (by simp [ticketFields]) ?_
    (by simp [ticketFields]) ?_ (by decide)
  · simp only [ticketFields, List.forall_mem_cons]
    exact ⟨flat_int (by omega), flat_int (by omega), trivial, trivial, flat_int (by omega),
      trivial, flat_int (by decide), by simp⟩
  · simp only [ticketFields, List.forall₂_cons, List.forall₂_nil_left_iff]
    exact ⟨int_field_size (by decide) (by omega), int_field_size (by decide) (by omega),
      field_size (n := 5) (by decide) nonceSize, field_size (n := 3) (by decide) tid,
      int_field_size (by decide) (by omega), uname_size admitted.short,
      int_field_size (by decide) (by decide), trivial⟩

theorem ticket_states {t : Teacher} (admitted : Admitted t) {nonce : List UInt8}
    (eighteen : nonce.length = 18) (clock : Nat) :
    States (ticketKind 120) (ticketFields t nonce clock)
      { uid := t.uid, uname := t.uname, tid := some t.tid.toLower,
        expiresAt := ((clock / 1000 : Nat) : Int) + 60, technical := false }
      (clock / 1000 : Nat) where
  names := by
    simp only [ticketFields, ticketKind, List.map_cons, List.map_nil]
    decide
  version := by simp [ticketFields]
  uid := by simp [ticketFields]
  uname := by simp [ticketFields]
  tid := ⟨_, rfl, isTid_toLower admitted.objectId, by simp [ticketFields]⟩
  nonce := fun _ => ⟨b64encode nonce, by
    simp [isNonce, nonce_length eighteen, b64encode_toList, Base64Url.encode_digits],
    by simp [ticketFields]⟩
  issued := by simp [ticketFields]
  expires := by simp [ticketFields]
  positive := Int.natCast_pos.mpr admitted.positive
  named := admitted.named
  short := (length_units _).trans admitted.short
  lasting := by simp
  lifetime := by simp [ticketKind]
  teacher := rfl

/- The identity of a ticket that was accepted. -/
structure Entered (identity : TeacherIdentity) : Prop where
  teacher : identity.technical = false
  positive : 0 < identity.uid
  safe : identity.uid ≤ 2 ^ 53 - 1
  named : identity.uname ≠ ""
  short : utf16Length identity.uname ≤ 128
  objectId : ∃ tid, identity.tid = some tid ∧ isTid tid = true

theorem session_carried {identity : TeacherIdentity} (entered : Entered identity)
    {issued lifetime : Int} (real : issued.natAbs ≤ 8640000000000) (lasting : 0 < lifetime)
    (day : lifetime ≤ 24 * 60 * 60) : Carried (sessionFields identity issued lifetime) := by
  have safe := entered.safe
  have positive := entered.positive
  obtain ⟨tid, identified, objectId⟩ := entered.objectId
  refine carried_of_sizes [86, 86, 803, 311, 86, 86] (by simp [sessionFields]) ?_
    (by simp [sessionFields]) ?_ (by decide)
  · simp only [sessionFields, identified, List.forall_mem_cons]
    exact ⟨flat_int (by decide), flat_int (by omega), trivial, trivial, flat_int (by omega),
      flat_int (by omega), by simp⟩
  · simp only [sessionFields, identified, List.forall₂_cons, List.forall₂_nil_left_iff]
    exact ⟨int_field_size (by decide) (by decide), int_field_size (by decide) (by omega),
      uname_size entered.short, field_size (n := 3) (by decide) (tid_size objectId),
      int_field_size (by decide) (by omega), int_field_size (by decide) (by omega), trivial⟩

theorem session_states {identity : TeacherIdentity} (entered : Entered identity)
    {issued lifetime : Int} (lasting : 0 < lifetime) (day : lifetime ≤ 24 * 60 * 60) :
    States sessionKind (sessionFields identity issued lifetime)
      { identity with expiresAt := issued + lifetime } issued where
  names := by simp [sessionFields, sessionKind]
  version := by simp [sessionFields]
  uid := by simp [sessionFields]
  uname := by simp [sessionFields]
  tid := by
    obtain ⟨tid, identified, objectId⟩ := entered.objectId
    exact ⟨tid, identified, objectId, by simp [sessionFields, identified]⟩
  nonce := by simp [sessionKind]
  issued := by simp [sessionFields]
  expires := by simp [sessionFields]
  positive := entered.positive
  named := entered.named
  short := (length_units _).trans entered.short
  lasting := by simp [lasting]
  lifetime := by simpa [sessionKind] using day
  teacher := entered.teacher

/- The console handler admits the teacher, and the clock of JavaScript has a value. -/
structure Made (t : Teacher) (nonce : List UInt8) (clock : Nat) : Prop where
  admitted : Admitted t
  eighteen : nonce.length = 18
  real : clock ≤ 8640000000000000

theorem ticket_verified {py : Python} (reads : ReadsBack py) (key : String) {t : Teacher}
    {nonce : List UInt8} {clock : Nat} (made : Made t nonce clock) (now : Int) :
    verifyHydroTicket py (makeTeacherTicket key t nonce clock) key now =
      if ((clock / 1000 : Nat) : Int) - 30 ≤ now ∧ now ≤ ((clock / 1000 : Nat) : Int) + 60 then
        .ok { uid := t.uid, uname := t.uname, tid := some t.tid.toLower,
              expiresAt := ((clock / 1000 : Nat) : Int) + 60, technical := false }
      else .error (.valueError "expired or invalid SSO ticket") :=
  stated_accepted reads (ticket_carried made.admitted made.eighteen made.real)
    (ticket_states made.admitted made.eighteen clock) key now

theorem ticket_no_session {py : Python} (reads : ReadsBack py) (key : String) {t : Teacher}
    {nonce : List UInt8} {clock : Nat} (made : Made t nonce clock) (now : Int) :
    Refused (verifySession py (makeTeacherTicket key t nonce clock) key now) := by
  refine other_fields_refused reads (ticket_carried made.admitted made.eighteen made.real)
    (sign_signature key "ticket" _) ?_ now
  simp only [ticketFields, sessionKind, List.map_cons, List.map_nil]
  decide

theorem entered {py : Python} (reads : ReadsBack py) {key : String} {t : Teacher}
    {nonce : List UInt8} {clock : Nat} (made : Made t nonce clock) {seen : Int}
    {identity : TeacherIdentity}
    (verified : verifyHydroTicket py (makeTeacherTicket key t nonce clock) key seen =
      .ok identity) : Entered identity := by
  rw [ticket_verified reads key made] at verified
  split_ifs at verified
  obtain rfl := Except.ok.inj verified
  have admitted := made.admitted
  have positive := admitted.positive
  have safe := admitted.safe
  exact ⟨rfl, by simp only; omega, by simp only; omega, admitted.named, admitted.short,
    _, rfl, isTid_toLower admitted.objectId⟩

theorem session_verified {py : Python} (reads : ReadsBack py) (key : String)
    {identity : TeacherIdentity} (entered : Entered identity) {issued lifetime : Int}
    (real : issued.natAbs ≤ 8640000000000) (lasting : 0 < lifetime)
    (day : lifetime ≤ 24 * 60 * 60) (now : Int) :
    verifySession py (issueSession identity key issued lifetime) key now =
      if issued - 30 ≤ now ∧ now ≤ issued + lifetime then
        .ok { identity with expiresAt := issued + lifetime }
      else .error (.valueError "expired or invalid teacher session") :=
  stated_accepted reads (session_carried entered real lasting day)
    (session_states entered lasting day) key now

theorem session_no_ticket {py : Python} (reads : ReadsBack py) (key : String)
    {identity : TeacherIdentity} (entered : Entered identity) {issued lifetime : Int}
    (real : issued.natAbs ≤ 8640000000000) (lasting : 0 < lifetime)
    (day : lifetime ≤ 24 * 60 * 60) (now : Int) :
    Refused (verifyHydroTicket py (issueSession identity key issued lifetime) key now) := by
  refine other_fields_refused reads (session_carried entered real lasting day)
    (sign_signature key "session" _) ?_ now
  simp only [sessionFields, ticketKind, List.map_cons, List.map_nil]
  decide

theorem split_refused {token : String} {raised : Raised}
    (split : splitToken token = .error raised) : ∃ message, raised = .valueError message := by
  have one : ∀ {bad : Prop} [Decidable bad] {rest : Unit → Except Raised (String × String)},
      (Outcome.raiseIf bad (invalid "SSO token encoding") >>= rest) = .error raised →
        raised = invalid "SSO token encoding" ∨ rest () = .error raised := by
    intro bad _ rest failed
    by_cases holds : bad
    · rw [Outcome.raiseIf_pos holds, Outcome.error_bind] at failed
      exact Or.inl (Except.error.inj failed).symm
    · rw [Outcome.raiseIf_neg holds, Outcome.ok_bind] at failed
      exact Or.inr failed
  rw [splitToken] at split
  rcases one split with rfl | split
  · exact ⟨_, rfl⟩
  · split at split
    · rcases one split with rfl | done
      · exact ⟨_, rfl⟩
      · cases done
    · exact ⟨_, (Except.error.inj split).symm⟩

theorem unsigned_refused {py : Python} (kind : Kind) {token key : String}
    (unsigned : ∀ payload, token ≠ payload ++ "." ++ sign key kind.purpose payload) (now : Int) :
    Refused (verifyToken py kind token key now) := by
  rw [verifyToken]
  cases split : splitToken token with
  | error raised =>
    obtain ⟨message, rfl⟩ := split_refused split
    exact ⟨message, rfl⟩
  | ok parts =>
    obtain ⟨payload, signature⟩ := parts
    have text := splitToken_text split
    have wrong : signature ≠ sign key kind.purpose payload := by
      rintro rfl
      exact unsigned payload text
    rw [Outcome.ok_bind]
    simp only
    rw [Outcome.raiseIf_pos wrong, Outcome.error_bind]
    exact ⟨_, rfl⟩

/- The tokens that the two programs sign: tickets for admitted teachers, and sessions for the
   identities of accepted tickets. -/
inductive Issued (py : Python) (key : String) : String → Prop
  | ticket {t : Teacher} {nonce : List UInt8} {clock : Nat} (made : Made t nonce clock) :
      Issued py key (makeTeacherTicket key t nonce clock)
  | session {t : Teacher} {nonce : List UInt8} {clock : Nat} (made : Made t nonce clock)
      {seen issued : Int} {identity : TeacherIdentity}
      (accepted : verifyHydroTicket py (makeTeacherTicket key t nonce clock) key seen =
        .ok identity) :
      Issued py key (issueSession identity key issued)

/- HMAC-SHA256 is unforgeable: whoever has a token with a right signature has it from one of
   the two programs. -/
def Unforged (py : Python) (key token : String) : Prop :=
  ∀ purpose payload, token = payload ++ "." ++ sign key purpose payload → Issued py key token

theorem sso_round_trip (py : Python) (reads : ReadsBack py) (key : String) :
    (∀ t nonce clock, Made t nonce clock →
      (∀ now, verifyHydroTicket py (makeTeacherTicket key t nonce clock) key now =
        if ((clock / 1000 : Nat) : Int) - 30 ≤ now ∧ now ≤ ((clock / 1000 : Nat) : Int) + 60 then
          .ok { uid := t.uid, uname := t.uname, tid := some t.tid.toLower,
                expiresAt := ((clock / 1000 : Nat) : Int) + 60, technical := false }
        else .error (.valueError "expired or invalid SSO ticket")) ∧
      (∀ now, Refused (verifySession py (makeTeacherTicket key t nonce clock) key now)) ∧
      ∀ seen identity,
        verifyHydroTicket py (makeTeacherTicket key t nonce clock) key seen = .ok identity →
        ∀ issued lifetime : Int, issued.natAbs ≤ 8640000000000 → 0 < lifetime →
          lifetime ≤ 24 * 60 * 60 →
          (∀ now, verifySession py (issueSession identity key issued lifetime) key now =
            if issued - 30 ≤ now ∧ now ≤ issued + lifetime then
              .ok { identity with expiresAt := issued + lifetime }
            else .error (.valueError "expired or invalid teacher session")) ∧
          ∀ now, Refused (verifyHydroTicket py (issueSession identity key issued lifetime) key now)) ∧
    ∀ token, Unforged py key token → ¬ Issued py key token → ∀ now,
      Refused (verifyHydroTicket py token key now) ∧ Refused (verifySession py token key now) := by
  refine ⟨fun t nonce clock made => ⟨ticket_verified reads key made, ticket_no_session reads key made,
    fun seen identity verified issued lifetime real lasting day => ?_⟩,
    fun token unforged foreign now => ⟨?_, ?_⟩⟩
  · have inside := entered reads made verified
    exact ⟨session_verified reads key inside real lasting day,
      session_no_ticket reads key inside real lasting day⟩
  · exact unsigned_refused (ticketKind 120)
      (fun payload text => foreign (unforged "ticket" payload text)) now
  · exact unsigned_refused sessionKind
      (fun payload text => foreign (unforged "session" payload text)) now

/- A decoder of UTF-8 texts. -/
def utf8Python : Python where
  intText := String.toInt?
  intOther := fun _ => .refused
  str := fun _ => "None"
  truthyOther := fun _ => true
  jsonLoads := fun bytes =>
    match (String.fromUTF8? ⟨bytes.toArray⟩).bind loads with
    | some value => .ok (PyValue.ofJson value)
    | none => .error .valueError

theorem canonical_flat {value : Json} (flat : Flat value) : canonical value = value := by
  cases value with
  | null | str | int => rfl
  | bool | arr | obj => exact flat.elim

theorem utf8Python_reads : ReadsBack utf8Python := by
  intro fields once flat
  have order : (sorted fields).Perm fields := List.perm_insertionSort _ fields
  have same : canonicalFields fields = fields := by
    rw [canonicalFields_map]
    refine (List.map_congr_left fun field mem => ?_).trans (List.map_id fields)
    rw [canonical_flat (flat field mem)]
    rfl
  have text : String.fromUTF8? ⟨(utf8 (dumps (.obj fields))).toArray⟩ =
      some (dumps (.obj fields)) := by
    have bytes : ByteArray.mk (utf8 (dumps (.obj fields))).toArray =
        (dumps (.obj fields)).toByteArray := by
      simp [utf8, String.toUTF8]
    have valid : ByteArray.IsValidUTF8 ⟨(utf8 (dumps (.obj fields))).toArray⟩ :=
      bytes ▸ (dumps (.obj fields)).isValidUTF8
    rw [String.fromUTF8?, dif_pos valid, Option.some_inj]
    exact String.toByteArray_inj.mp bytes
  have names : (PyValue.ofFields (sorted fields)).map Prod.fst = (sorted fields).map Prod.fst := by
    rw [PyValue.ofFields_map, List.map_map]
    rfl
  refine ⟨PyValue.ofFields (sorted fields), ?_, ?_, fun field mem => ?_⟩
  · simp only [utf8Python, text, Option.bind_some, loads_dumps, canonical, same]
    rfl
  · rw [names]
    exact List.toFinset_eq_of_perm _ _ (order.map _)
  · refine PyValue.get_mem ?_ ?_
    · rw [names]
      exact (order.map _).nodup_iff.mpr once
    · rw [PyValue.ofFields_map]
      exact List.mem_map.mpr ⟨field, order.mem_iff.mpr mem, rfl⟩

theorem issued_period {py : Python} {key token : String} (issued : Issued py key token) :
    '.' ∈ token.toList := by
  cases issued with
  | ticket made => simp [makeTeacherTicket]
  | session made accepted => simp [issueSession]

def sampleTeacher : Teacher where
  uid := 2
  uname := "teacher"
  tid := "64A000000000000000000001"

theorem sampleMade : Made sampleTeacher (List.replicate 18 0) 1800000000000 where
  admitted := by constructor <;> decide
  eighteen := by decide
  real := by decide

def sampleIdentity : TeacherIdentity where
  uid := 2
  uname := "teacher"
  tid := some "64a000000000000000000001"
  expiresAt := 1800000060
  technical := false

theorem sample_sso :
    verifyHydroTicket utf8Python
      (makeTeacherTicket "key" sampleTeacher (List.replicate 18 0) 1800000000000) "key" 1800000060 =
        .ok sampleIdentity ∧
    verifySession utf8Python (issueSession sampleIdentity "key" 1800000060) "key" 1800000100 =
      .ok { sampleIdentity with expiresAt := 1800043260 } ∧
    Refused (verifySession utf8Python "ticket" "key" 1800000100) := by
  obtain ⟨made, others⟩ := sso_round_trip utf8Python utf8Python_reads "key"
  obtain ⟨accepted, -, sessions⟩ := made _ _ _ sampleMade
  have entry : verifyHydroTicket utf8Python
      (makeTeacherTicket "key" sampleTeacher (List.replicate 18 0) 1800000000000) "key" 1800000060 =
        .ok sampleIdentity := by
    have lower : sampleTeacher.tid.toLower = "64a000000000000000000001" := by decide +kernel
    rw [accepted, if_pos (by decide), lower]
    rfl
  refine ⟨entry, ?_, ?_⟩
  · have day := sessions _ _ entry 1800000060 (12 * 60 * 60) (by decide) (by decide) (by decide)
    rw [day.1, if_pos (by decide)]
    rfl
  · have plain : '.' ∉ "ticket".toList := by decide
    refine (others "ticket" ?_ ?_ 1800000100).2
    · intro purpose payload text
      exact absurd (by simp [text]) plain
    · exact fun issued => plain (issued_period issued)

end NoiContest.TeacherSso
