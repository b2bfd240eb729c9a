import ArcanaServer.Keys.Confined
import ArcanaServer.Matrix.JsonEquality
import ArcanaServer.Uiaa.Service

namespace ArcanaServer.Keys

open Library ArcanaServer.Matrix List KeyTables Uiaa

/-! The upload of cross-signing keys.  Without an authentication it passes only
for a user who has no master key yet. -/

deriving instance DecidableEq for CrossSigningKey

inductive KeyKind where
  | master
  | selfSigning
  | userSigning
  deriving DecidableEq, Repr

structure SigningKeysRequest where
  auth : Option Uiaa.AuthData
  masterKey : Option Json
  selfSigningKey : Option Json
  userSigningKey : Option Json

inductive UploadError where
  | keys (error : Error)
  | forbidden (message : String)
  | uiaa (error : Uiaa.AuthenticateError)

structure SigningServices where
  tables : KeyTables
  uiaa : Uiaa.Service

/-- What a request ends with, and what the authentication answered if it was
asked. -/
structure SigningKeysOutcome where
  result : Except UploadError Unit
  services : SigningServices
  authenticated : Option (Except Uiaa.AuthenticateError Uiaa.Identity)

section

variable (format : Format)

def deserialize (raw : Json) : Except UploadError CrossSigningKey :=
  match format.decode raw with
  | .ok key => .ok key
  | .error _ => .error (.keys .serdeJson)

def parsedMasterKey (userId : UserId) (raw : Json) :
    Except UploadError (KeyId × CrossSigningKey) :=
  (parseMasterKey format userId raw).mapError .keys

def compareMasterKey (userId : UserId) (found : KeyId × CrossSigningKey)
    (existing : Json) : Except UploadError Bool := do
  let existing ← parsedMasterKey format userId existing
  if existing.1 ≠ found.1 ∨ existing.2 ≠ found.2 then
    .error (.forbidden
      "Tried to change an existing master key, UIA required")
  else return false

variable (tables : KeyTables) (userId : UserId)

def checkMasterKey : Option Json → Except UploadError Bool
  | none => .ok false
  | some masterSigningKey => do
      let found ← parsedMasterKey format userId masterSigningKey
      match getMasterKey format tables none userId (fun _ => true) with
      | .error (.notFound _) => return true
      | .error error => throw (.keys error)
      | .ok existing => compareMasterKey format userId found existing

def compareSigningKey (existing signingKey : Json) (changed : String) :
    Except UploadError Unit := do
  let existing ← deserialize format existing
  let uploaded ← deserialize format signingKey
  if existing ≠ uploaded then .error (.forbidden changed) else .ok ()

/-- A key may be missing only if the master key is missing too. -/
def checkSigningKey (empty : Bool) (found : Except Error Json)
    (absent changed : String) : Option Json → Except UploadError Unit
  | none => .ok ()
  | some signingKey =>
      match found with
      | .error (.notFound _) =>
          if empty then .ok () else .error (.forbidden absent)
      | .error error => .error (.keys error)
      | .ok existing => compareSigningKey format existing signingKey changed

def foundUserSigningKey : Except Error Json :=
  (getUserSigningKey tables userId).elim
    (.error (.notFound "Not found in database")) .ok

/-- Without a value the keys may be stored; with one they are stored already. -/
def checkForNewKeys
    (selfSigningKey userSigningKey masterSigningKey : Option Json) :
    Except UploadError (Option Unit) := do
  let empty ← checkMasterKey format tables userId masterSigningKey
  checkSigningKey format empty (foundUserSigningKey tables userId)
    "Tried to update an existing user signing key, UIA required"
    "Tried to change an existing user signing key, UIA required"
    userSigningKey
  checkSigningKey format empty
    (getSelfSigningKey format tables none userId (fun _ => true))
    "Tried to add a new signing key independently from the master key"
    "Tried to update an existing self signing key, UIA required"
    selfSigningKey
  return if empty then none else some ()

def storeSigningKeys (services : SigningServices) (userId : UserId)
    (body : SigningKeysRequest)
    (authenticated : Option (Except Uiaa.AuthenticateError Uiaa.Identity)) :
    SigningKeysOutcome :=
  match addCrossSigningKeys format userId body.masterKey body.selfSigningKey
    body.userSigningKey services.tables with
  | .ok () tables => ⟨.ok (), { services with tables }, authenticated⟩
  | .error error tables =>
      ⟨.error (.keys error), { services with tables }, authenticated⟩

def uploadSigningKeysRoute (config : Uiaa.Config)
    (surroundings : Uiaa.Surroundings) (services : SigningServices)
    (senderUser : Users.UserId) (body : SigningKeysRequest) :
    SigningKeysOutcome :=
  let userId := senderUser.toString
  match checkForNewKeys format services.tables userId body.selfSigningKey
    body.userSigningKey body.masterKey with
  | .ok (some ()) => ⟨.ok (), services, none⟩
  | .ok none => storeSigningKeys format services userId body none
  | .error _ =>
      let (answer, uiaa) := authenticatePassword config surroundings
        services.uiaa body.auth (some (Uiaa.Identity.fromUserId senderUser))
      match answer with
      | .error error =>
          ⟨.error (.uiaa error), { services with uiaa }, some answer⟩
      | .ok _ =>
          storeSigningKeys format { services with uiaa } userId body
            (some answer)

end

def KeyTables.keyIdOf (tables : KeyTables) (userId : UserId) :
    KeyKind → Option KeyId
  | .master => tables.useridMasterkeyid userId
  | .selfSigning => tables.useridSelfsigningkeyid userId
  | .userSigning => tables.useridUsersigningkeyid userId

def KeyTables.storedKey (tables : KeyTables) (userId : UserId)
    (kind : KeyKind) : Option Json :=
  (tables.keyIdOf userId kind).bind tables.keyidKey

def SigningKeysRequest.key (body : SigningKeysRequest) : KeyKind → Option Json
  | .master => body.masterKey
  | .selfSigning => body.selfSigningKey
  | .userSigning => body.userSigningKey

def SameKey (format : Format) (left right : Json) : Prop := left = right ∨
    ∃ key, format.decode left = .ok key ∧ format.decode right = .ok key

def KeepsKeys (format : Format) (userId : UserId)
    (before after : KeyTables) : Prop :=
  ∀ kind stored, before.storedKey userId kind = some stored →
    ∃ key, after.storedKey userId kind = some key ∧ SameKey format stored key

/-- What is stored without an authentication is the first master key of the
user, and replaces no key. -/
def GuardsKeys (format : Format) (userId : UserId)
    (body : SigningKeysRequest) (before : SigningServices)
    (outcome : SigningKeysOutcome) : Prop :=
  (∀ identity, outcome.authenticated ≠ some (.ok identity)) →
    outcome.services.tables ≠ before.tables →
      KeepsKeys format userId before.tables outcome.services.tables ∧
        before.tables.storedKey userId .master = none ∧
        body.masterKey.isSome = true

structure KeyWrite where
  kind : KeyKind
  keyId : KeyId
  key : Json

def KeyTables.put (userId : UserId) (tables : KeyTables) (write : KeyWrite) :
    KeyTables :=
  match write.kind with
  | .master => tables.putMaster userId write.keyId write.key
  | .selfSigning => tables.putSelfSigning userId write.keyId write.key
  | .userSigning => tables.putUserSigning userId write.keyId write.key

def rowOf (format : Format) (userId : UserId) (key : Json) :
    KeyKind → Except Error KeyId
  | .master => (parseMasterKey format userId key).map Prod.fst
  | .selfSigning => (parseSelfSigningKey format key).map (Prod.mk userId)
  | .userSigning => (parseUserSigningKey format key).map (Prod.mk userId)

def written (format : Format) (userId : UserId) :
    List (KeyKind × Option Json) → List KeyWrite
  | [] => []
  | (_, none) :: rest => written format userId rest
  | (kind, some key) :: rest =>
      match rowOf format userId key kind with
      | .error _ => []
      | .ok keyId => ⟨kind, keyId, key⟩ :: written format userId rest

def SigningKeysRequest.uploads (body : SigningKeysRequest) :
    List (KeyKind × Option Json) :=
  [(.master, body.masterKey), (.selfSigning, body.selfSigningKey),
    (.userSigning, body.userSigningKey)]

def SigningKeysRequest.writes (format : Format) (userId : UserId)
    (body : SigningKeysRequest) : List KeyWrite :=
  written format userId body.uploads

def lastAt (writes : List KeyWrite) (keyId : KeyId) : Option KeyWrite :=
  writes.reverse.find? (fun write => write.keyId = keyId)

def standsAt (writes : List KeyWrite) (tables : KeyTables) (userId : UserId)
    (kind : KeyKind) : Option KeyId :=
  ((writes.reverse.find? (fun write => write.kind = kind)).map
    KeyWrite.keyId).or (tables.keyIdOf userId kind)

section

variable {format : Format} {userId : UserId}

theorem keyidKey_put (tables : KeyTables) (write : KeyWrite) :
    (tables.put userId write).keyidKey =
      Function.update tables.keyidKey write.keyId (some write.key) := by
  unfold put
  cases write.kind <;> rfl

theorem keyIdOf_put (tables : KeyTables) (write : KeyWrite) (kind : KeyKind) :
    (tables.put userId write).keyIdOf userId kind =
      if write.kind = kind then some write.keyId
      else tables.keyIdOf userId kind := by
  unfold put
  cases write.kind <;> cases kind <;>
    simp [keyIdOf, putMaster, putSelfSigning,
      putUserSigning]

variable (writes : List KeyWrite) (tables : KeyTables)

theorem keyidKey_putAll (keyId : KeyId) :
    (writes.foldl (put userId) tables).keyidKey keyId =
      ((lastAt writes keyId).map KeyWrite.key).or (tables.keyidKey keyId) := by
  induction writes generalizing tables with
  | nil => rfl
  | cons write rest ih =>
      rw [foldl_cons, ih, keyidKey_put]
      unfold lastAt
      rw [reverse_cons, find?_append, Option.map_or, Option.or_assoc]
      by_cases here : write.keyId = keyId
      · simp [here]
      · simp [here, Function.update_of_ne (Ne.symm here)]

theorem keyIdOf_putAll (kind : KeyKind) :
    (writes.foldl (put userId) tables).keyIdOf userId kind =
      standsAt writes tables userId kind := by
  induction writes generalizing tables with
  | nil => rfl
  | cons write rest ih =>
      rw [foldl_cons, ih]
      unfold standsAt
      rw [keyIdOf_put, reverse_cons, find?_append, Option.map_or,
        Option.or_assoc]
      by_cases same : write.kind = kind <;> simp [same]

theorem storedKey_putAll (kind : KeyKind) :
    (writes.foldl (put userId) tables).storedKey userId kind =
      (standsAt writes tables userId kind).bind (fun keyId =>
        ((lastAt writes keyId).map KeyWrite.key).or
          (tables.keyidKey keyId)) := by
  unfold storedKey
  rw [keyIdOf_putAll]
  refine Option.bind_congr (fun keyId _ => ?_)
  exact keyidKey_putAll writes tables keyId

variable (format userId) in
theorem ended_addUserSigning (key : Option Json) (tables : KeyTables) :
    ended (addCrossSigningKeys format userId none none key tables) =
      (written format userId [(.userSigning, key)]).foldl
        (put userId) tables := by
  cases key with
  | none => rfl
  | some key =>
      unfold addCrossSigningKeys written rowOf
      cases parsed : parseUserSigningKey format key with
      | error error | ok id =>
          simp only [parsed]
          rfl

variable (format userId) in
theorem ended_addSelfSigning (selfSigningKey userSigningKey : Option Json)
    (tables : KeyTables) :
    ended (addCrossSigningKeys format userId none selfSigningKey
      userSigningKey tables) =
        (written format userId [(.selfSigning, selfSigningKey),
          (.userSigning, userSigningKey)]).foldl (put userId)
          tables := by
  cases selfSigningKey with
  | none => exact ended_addUserSigning format userId userSigningKey tables
  | some key =>
      unfold written rowOf
      cases parsed : parseSelfSigningKey format key with
      | error error =>
          unfold addCrossSigningKeys
          simp only [parsed]
          rfl
      | ok id =>
          have later := ended_addUserSigning format userId userSigningKey
            (tables.putSelfSigning userId (userId, id) key)
          refine Eq.trans ?_ later
          unfold addCrossSigningKeys
          simp only [parsed]
          rfl

theorem ended_addCrossSigningKeys (body : SigningKeysRequest)
    (tables : KeyTables) :
    ended (addCrossSigningKeys format userId body.masterKey
      body.selfSigningKey body.userSigningKey tables) =
        (body.writes format userId).foldl (put userId) tables := by
  unfold SigningKeysRequest.writes SigningKeysRequest.uploads
  cases body.masterKey with
  | none =>
      exact ended_addSelfSigning format userId body.selfSigningKey
        body.userSigningKey tables
  | some key =>
      unfold written rowOf
      cases parsed : parseMasterKey format userId key with
      | error error =>
          unfold addCrossSigningKeys
          simp only [parsed]
          rfl
      | ok found =>
          have later := ended_addSelfSigning format userId
            body.selfSigningKey body.userSigningKey
            (tables.putMaster userId found.1 key)
          refine Eq.trans ?_ later
          unfold addCrossSigningKeys
          simp only [parsed]
          rfl

theorem mem_written {uploads : List (KeyKind × Option Json)}
    {write : KeyWrite} (member : write ∈ written format userId uploads) :
    (write.kind, some write.key) ∈ uploads ∧
      rowOf format userId write.key write.kind = .ok write.keyId := by
  induction uploads with
  | nil => cases member
  | cons upload rest ih =>
      obtain ⟨kind, key⟩ := upload
      cases key with
      | none =>
          obtain ⟨listed, row⟩ := ih member
          exact ⟨mem_cons_of_mem _ listed, row⟩
      | some key =>
          unfold written at member
          cases row : rowOf format userId key kind with
          | error error =>
              rw [row] at member
              cases member
          | ok keyId =>
              rw [row] at member
              rcases mem_cons.mp member with here | later
              · rw [here]
                exact ⟨mem_cons_self, row⟩
              · obtain ⟨listed, row⟩ := ih later
                exact ⟨mem_cons_of_mem _ listed, row⟩

theorem key_of_mem_writes {body : SigningKeysRequest} {write : KeyWrite}
    (member : write ∈ body.writes format userId) :
    body.key write.kind = some write.key := by
  obtain ⟨listed, _⟩ := mem_written member
  unfold SigningKeysRequest.uploads at listed
  obtain ⟨kind, keyId, key⟩ := write
  simp only [mem_cons, Prod.mk.injEq, not_mem_nil, or_false] at listed
  obtain ⟨rfl, same⟩ | ⟨rfl, same⟩ | ⟨rfl, same⟩ := listed
  · exact same.symm
  · exact same.symm
  · exact same.symm

end

variable (format : Format) (tables : KeyTables) (userId : UserId)

def readKey : KeyKind → Except Error Json
  | .master => getMasterKey format tables none userId (fun _ => true)
  | .selfSigning =>
      getSelfSigningKey format tables none userId (fun _ => true)
  | .userSigning => foundUserSigningKey tables userId

def NewOrSame (kind : KeyKind) (key : Json) : Prop :=
  ∀ stored, tables.storedKey userId kind = some stored →
    ∃ existing value, readKey format tables userId kind = .ok existing ∧
      format.decode existing = .ok value ∧ format.decode key = .ok value

structure FirstUpload (body : SigningKeysRequest) : Prop where
  uploaded : ∃ key found, body.masterKey = some key ∧
    parseMasterKey format userId key = .ok found
  noMaster : tables.storedKey userId .master = none
  same : ∀ kind, kind ≠ .master → ∀ key, body.key kind = some key →
    NewOrSame format tables userId kind key

section

variable {format : Format} {tables : KeyTables} {userId : UserId}

theorem getKey_notFound_iff {keyId : KeyId} {senderUser : Option UserId}
    {allowedSignatures : UserId → Bool} :
    (∃ message, getKey format tables keyId senderUser userId
      allowedSignatures = .error (.notFound message)) ↔
        tables.keyidKey keyId = none := by
  unfold getKey
  cases stored : tables.keyidKey keyId with
  | none => exact iff_of_true ⟨_, rfl⟩ rfl
  | some key =>
      refine iff_of_false ?_ (by simp)
      rintro ⟨message, refused⟩
      simp only at refused
      unfold cleanSignatures at refused
      split at refused
      · split at refused
        · cases refused
        · split at refused
          · cases refused
          · cases refused
      · cases refused

variable (format tables userId) in
theorem readKey_notFound_iff (kind : KeyKind) :
    (∃ message, readKey format tables userId kind =
      .error (.notFound message)) ↔ tables.storedKey userId kind = none := by
  have named (keyId : Option KeyId) :
      (∃ message, getKeyNamed format tables keyId none userId
        (fun _ => true) = .error (.notFound message)) ↔
          keyId.bind tables.keyidKey = none := by
    cases keyId with
    | none => exact iff_of_true ⟨_, rfl⟩ rfl
    | some keyId => exact getKey_notFound_iff
  cases kind with
  | master => exact named (tables.useridMasterkeyid userId)
  | selfSigning => exact named (tables.useridSelfsigningkeyid userId)
  | userSigning =>
      unfold readKey foundUserSigningKey
      change _ ↔ getUserSigningKey tables userId = none
      cases getUserSigningKey tables userId <;> simp

theorem compareMasterKey_ne_true {found : KeyId × CrossSigningKey}
    {existing : Json} :
    compareMasterKey format userId found existing ≠ .ok true := by
  intro passed
  obtain ⟨read, _, compared⟩ := bind_eq_ok passed
  split at compared
  · cases compared
  · cases compared

theorem checkMasterKey_true_iff {masterKey : Option Json} :
    checkMasterKey format tables userId masterKey = .ok true ↔
      (∃ key found, masterKey = some key ∧
        parseMasterKey format userId key = .ok found) ∧
        tables.storedKey userId .master = none := by
  rw [← readKey_notFound_iff format]
  cases masterKey with
  | none =>
      refine iff_of_false (fun passed => by cases passed) ?_
      rintro ⟨⟨_, _, absent, _⟩, _⟩
      cases absent
  | some key =>
      unfold checkMasterKey parsedMasterKey readKey
      cases parsed : parseMasterKey format userId key with
      | error error =>
          refine iff_of_false (fun passed => ?_) ?_
          · simp [parsed, Except.mapError, bind, Except.bind] at passed
          · rintro ⟨⟨_, _, same, isOk⟩, _⟩
            cases same
            rw [parsed] at isOk
            cases isOk
      | ok found =>
          have read : ∃ other found, some key = some other ∧
              parseMasterKey format userId other = .ok found :=
            ⟨key, found, rfl, parsed⟩
          simp only [parsed, Except.mapError, bind, Except.bind, read, true_and]
          cases getMasterKey format tables none userId (fun _ => true) with
          | error error =>
              cases error <;> simp [pure, Except.pure, throw, throwThe,
                MonadExceptOf.throw]
          | ok existing => simp [compareMasterKey_ne_true]

variable (format tables userId) in
theorem storedKey_of_readKey (kind : KeyKind)
    (found : ∀ message, readKey format tables userId kind ≠
      .error (.notFound message)) :
    ∃ stored, tables.storedKey userId kind = some stored := by
  rw [← Option.ne_none_iff_exists', ne_eq, ← readKey_notFound_iff format]
  rintro ⟨message, missing⟩
  exact found message missing

theorem compareSigningKey_ok_iff {existing key : Json} {changed : String} :
    compareSigningKey format existing key changed = .ok () ↔
      ∃ value, format.decode existing = .ok value ∧
        format.decode key = .ok value := by
  unfold compareSigningKey deserialize
  cases format.decode existing with
  | error message =>
      refine iff_of_false (fun passed => by cases passed) ?_
      rintro ⟨value, read, _⟩
      cases read
  | ok first =>
      cases format.decode key with
      | error message =>
          refine iff_of_false (fun passed => by cases passed) ?_
          rintro ⟨value, _, read⟩
          cases read
      | ok second =>
          by_cases same : first = second
          · subst same
            refine iff_of_true ?_ ⟨first, rfl, rfl⟩
            exact if_neg (not_not_intro rfl)
          · refine iff_of_false (fun passed => ?_) ?_
            · have refused := (if_pos same).symm.trans passed
              cases refused
            · rintro ⟨value, isFirst, isSecond⟩
              cases isFirst
              cases isSecond
              exact same rfl

theorem checkSigningKey_true_iff (kind : KeyKind) {key : Option Json}
    {absent changed : String} :
    checkSigningKey format true (readKey format tables userId kind) absent
        changed key = .ok () ↔
      ∀ uploaded, key = some uploaded →
        NewOrSame format tables userId kind uploaded := by
  cases key with
  | none => exact iff_of_true rfl (fun _ given => by cases given)
  | some key =>
      simp only [Option.some.injEq, forall_eq']
      unfold checkSigningKey NewOrSame
      cases read : readKey format tables userId kind with
      | error error =>
          by_cases missing : ∃ message, error = .notFound message
          · obtain ⟨message, rfl⟩ := missing
            have none := (readKey_notFound_iff format tables userId kind).mp
              ⟨message, read⟩
            refine iff_of_true rfl (fun stored found => ?_)
            rw [none] at found
            cases found
          · obtain ⟨stored, found⟩ := storedKey_of_readKey format tables
              userId kind (fun message same => missing
                ⟨message, Except.error.inj (read.symm.trans same)⟩)
            refine iff_of_false ?_ ?_
            · cases error with
              | notFound message => exact absurd ⟨message, rfl⟩ missing
              | database message
              | invalidParam message
              | serdeJson => exact fun passed => by cases passed
            · intro all
              obtain ⟨existing, value, isOk, _⟩ := all stored found
              cases isOk
      | ok existing =>
          obtain ⟨stored, found⟩ := storedKey_of_readKey format tables userId
            kind (fun message same => by
              rw [read] at same
              cases same)
          refine compareSigningKey_ok_iff.trans ?_
          constructor
          · rintro ⟨value, first, second⟩ _ _
            exact ⟨existing, value, rfl, first, second⟩
          · intro all
            obtain ⟨_, value, same, first, second⟩ := all stored found
            cases same
            exact ⟨value, first, second⟩

/-- The check passes without an answer just in a first upload. -/
theorem checkForNewKeys_none_iff {body : SigningKeysRequest} :
    checkForNewKeys format tables userId body.selfSigningKey
        body.userSigningKey body.masterKey = .ok none ↔
      FirstUpload format tables userId body := by
  constructor
  · intro passed
    obtain ⟨empty, master, rest⟩ := bind_eq_ok passed
    obtain ⟨_, userSigning, rest⟩ := bind_eq_ok rest
    obtain ⟨_, selfSigning, last⟩ := bind_eq_ok rest
    cases empty with
    | false => cases last
    | true =>
        obtain ⟨uploaded, noMaster⟩ := checkMasterKey_true_iff.mp master
        have users := (checkSigningKey_true_iff .userSigning).mp userSigning
        have selves := (checkSigningKey_true_iff .selfSigning).mp selfSigning
        refine ⟨uploaded, noMaster, ?_⟩
        rintro (_ | _ | _) other key given
        · exact absurd rfl other
        · exact selves key given
        · exact users key given
  · intro first
    have master := checkMasterKey_true_iff.mpr ⟨first.uploaded, first.noMaster⟩
    have users (absent changed : String) : checkSigningKey format true
        (foundUserSigningKey tables userId) absent changed
        body.userSigningKey = .ok () :=
      (checkSigningKey_true_iff .userSigning).mpr
        (first.same .userSigning (by decide))
    have selves (absent changed : String) : checkSigningKey format true
        (getSelfSigningKey format tables none userId (fun _ => true)) absent
        changed body.selfSigningKey = .ok () :=
      (checkSigningKey_true_iff .selfSigning).mpr
        (first.same .selfSigning (by decide))
    unfold checkForNewKeys
    simp only [master, users, selves, bind, Except.bind, if_true]
    rfl

end

def FieldsUnordered (format : Format) : Prop :=
  ∀ fields name value, fields.lookup name = some value →
    format.decode (.obj (setField fields name value)) =
      format.decode (.obj fields)

/-- No uploaded key of another kind comes to stand under the public key of a
stored one, unless it is the same key. -/
def ClashFree (format : Format) (tables : KeyTables) (userId : UserId)
    (writes : List KeyWrite) : Prop :=
  ∀ kind stored, tables.storedKey userId kind = some stored →
    ∀ keyId, standsAt writes tables userId kind = some keyId →
      ∀ write, lastAt writes keyId = some write →
        write.kind = kind ∨ SameKey format stored write.key

section

variable {format : Format} {tables : KeyTables} {userId : UserId}
  {body : SigningKeysRequest}

theorem decode_cleanSignatures (unordered : FieldsUnordered format)
    {stored cleaned : Json} {senderUser : Option UserId}
    (read : cleanSignatures format stored senderUser userId (fun _ => true) =
      .ok cleaned) : format.decode cleaned = format.decode stored := by
  unfold cleanSignatures at read
  split at read
  next fields =>
    split at read
    · cases read
      rfl
    next signatures named =>
      split at read
      · cases read
      · simp only [Bool.or_true, filter_true] at read
        cases read
        obtain ⟨value, listed, object⟩ := Option.bind_eq_some_iff.mp named
        cases value with
        | obj found =>
            cases object
            exact unordered fields "signatures" _ listed
        | null | bool _ | int _ | float | str _ | arr _ => cases object
  · cases read
    rfl

theorem decode_readKey (unordered : FieldsUnordered format) {kind : KeyKind}
    {existing stored : Json}
    (read : readKey format tables userId kind = .ok existing)
    (found : tables.storedKey userId kind = some stored) :
    format.decode existing = format.decode stored := by
  have cleaned (keyId : Option KeyId)
      (read : getKeyNamed format tables keyId none userId (fun _ => true) =
        .ok existing) (found : keyId.bind tables.keyidKey = some stored) :
      format.decode existing = format.decode stored := by
    cases keyId with
    | none => cases found
    | some keyId =>
        change tables.keyidKey keyId = some stored at found
        unfold getKeyNamed getKey at read
        simp only [found] at read
        exact decode_cleanSignatures unordered read
  cases kind with
  | master | selfSigning => exact cleaned _ read found
  | userSigning =>
      have same : getUserSigningKey tables userId = some stored := found
      unfold readKey foundUserSigningKey at read
      rw [same] at read
      cases read
      rfl

theorem sameKey_of_newOrSame (unordered : FieldsUnordered format)
    {kind : KeyKind} {key stored : Json}
    (newOrSame : NewOrSame format tables userId kind key)
    (found : tables.storedKey userId kind = some stored) :
    SameKey format stored key := by
  obtain ⟨existing, value, read, first, second⟩ := newOrSame stored found
  rw [decode_readKey unordered read found] at first
  exact .inr ⟨value, first, second⟩

theorem lastAt_isSome_of_mem {writes : List KeyWrite} {write : KeyWrite}
    (member : write ∈ writes) :
    ∃ last, lastAt writes write.keyId = some last := by
  refine Option.isSome_iff_exists.mp (find?_isSome.mpr ?_)
  exact ⟨write, mem_reverse.mpr member, by simp⟩

theorem keyIdOf_of_lastAt_eq_none {writes : List KeyWrite} {kind : KeyKind}
    {keyId : KeyId} (stands : standsAt writes tables userId kind = some keyId)
    (untouched : lastAt writes keyId = none) :
    tables.keyIdOf userId kind = some keyId := by
  unfold standsAt at stands
  cases found : writes.reverse.find? (fun write => write.kind = kind) with
  | none =>
      rw [found] at stands
      exact stands
  | some write =>
      rw [found] at stands
      cases stands
      obtain ⟨last, isLast⟩ := lastAt_isSome_of_mem
        (mem_reverse.mp (List.mem_of_find?_eq_some found))
      rw [untouched] at isLast
      cases isLast

theorem keepsKeys_iff (unordered : FieldsUnordered format)
    (first : FirstUpload format tables userId body) :
    KeepsKeys format userId tables
        ((body.writes format userId).foldl (put userId) tables) ↔
      ClashFree format tables userId (body.writes format userId) := by
  constructor
  · intro keeps kind stored found keyId stands write last
    obtain ⟨key, after, same⟩ := keeps kind stored found
    rw [storedKey_putAll, stands, Option.bind_some, last] at after
    cases after
    exact .inr same
  · intro free kind stored found
    obtain ⟨old, named, row⟩ := Option.bind_eq_some_iff.mp found
    obtain ⟨keyId, stands⟩ : ∃ keyId, standsAt (body.writes format userId)
        tables userId kind = some keyId := by
      unfold standsAt
      rw [named, Option.or_some]
      exact ⟨_, rfl⟩
    rw [storedKey_putAll, stands, Option.bind_some]
    cases last : lastAt (body.writes format userId) keyId with
    | none =>
        have same := keyIdOf_of_lastAt_eq_none stands last
        rw [named] at same
        cases same
        exact ⟨stored, row, .inl rfl⟩
    | some write =>
        refine ⟨write.key, rfl, ?_⟩
        obtain own | same := free kind stored found keyId stands write last
        · have member := mem_reverse.mp (List.mem_of_find?_eq_some last)
          have given := key_of_mem_writes member
          rw [own] at given
          have other : kind ≠ .master := by
            rintro rfl
            rw [first.noMaster] at found
            cases found
          exact sameKey_of_newOrSame unordered
            (first.same kind other write.key given) found
        · exact same

theorem storedMaster_of_firstUpload
    (first : FirstUpload format tables userId body) :
    (body.writes format userId).foldl (put userId) tables ≠
      tables := by
  intro same
  obtain ⟨key, found, given, parsed⟩ := first.uploaded
  have row : rowOf format userId key .master = .ok found.1 := by
    unfold rowOf
    rw [parsed]
    rfl
  have member : ⟨.master, found.1, key⟩ ∈ body.writes format userId := by
    unfold SigningKeysRequest.writes SigningKeysRequest.uploads written
    rw [given]
    simp only [row]
    exact mem_cons_self
  have stored := first.noMaster
  rw [← same, storedKey_putAll] at stored
  obtain ⟨write, isMaster⟩ : ∃ write, (body.writes format userId).reverse.find?
        (fun write => write.kind = .master) = some write := by
    refine Option.isSome_iff_exists.mp (find?_isSome.mpr ?_)
    exact ⟨_, mem_reverse.mpr member, by simp⟩
  obtain ⟨last, isLast⟩ := lastAt_isSome_of_mem
    (mem_reverse.mp (List.mem_of_find?_eq_some isMaster))
  have stands : standsAt (body.writes format userId) tables userId .master =
      some write.keyId := by
    unfold standsAt
    rw [isMaster]
    rfl
  rw [stands, Option.bind_some, isLast] at stored
  cases stored

end

section

variable {format : Format} {config : Uiaa.Config}
  {surroundings : Uiaa.Surroundings} {services : SigningServices}
  {senderUser : Users.UserId} {body : SigningKeysRequest}

variable (format services body) in
theorem storeSigningKeys_tables (userId : UserId)
    (authenticated : Option (Except Uiaa.AuthenticateError Uiaa.Identity)) :
    (storeSigningKeys format services userId body
        authenticated).services.tables =
      (body.writes format userId).foldl (put userId) services.tables ∧
    (storeSigningKeys format services userId body
      authenticated).authenticated = authenticated := by
  rw [← ended_addCrossSigningKeys]
  unfold storeSigningKeys
  split
  next tables added => exact ⟨by rw [added]; rfl, rfl⟩
  next error tables added => exact ⟨by rw [added]; rfl, rfl⟩

/-- Without an authentication an upload replaces no key, and stores the first
master key of the user, if and only if no keys clash in a first upload. -/
theorem uploadSigningKeysRoute_guards_iff (unordered : FieldsUnordered format) :
    GuardsKeys format senderUser.toString body services
        (uploadSigningKeysRoute format config surroundings services senderUser
          body) ↔
      (FirstUpload format services.tables senderUser.toString body →
        ClashFree format services.tables senderUser.toString
          (body.writes format senderUser.toString)) := by
  have skips : checkForNewKeys format services.tables senderUser.toString
      body.selfSigningKey body.userSigningKey body.masterKey = .ok none ↔
      FirstUpload format services.tables senderUser.toString body :=
    checkForNewKeys_none_iff
  unfold uploadSigningKeysRoute
  simp only
  cases check : checkForNewKeys format services.tables senderUser.toString
      body.selfSigningKey body.userSigningKey body.masterKey with
  | ok answer =>
      cases answer with
      | some value =>
          refine iff_of_true (fun _ changed => absurd rfl changed) ?_
          intro first
          rw [skips.mpr first] at check
          cases check
      | none =>
          have first := skips.mp check
          obtain ⟨stored, asked⟩ := storeSigningKeys_tables format services
            body senderUser.toString none
          unfold GuardsKeys
          simp only [stored, asked]
          rw [keepsKeys_iff unordered first]
          constructor
          · intro guards _
            exact (guards (fun identity same => by cases same)
              (storedMaster_of_firstUpload first)).1
          · intro free _ _
            obtain ⟨key, _, given, _⟩ := first.uploaded
            exact ⟨free first, first.noMaster, by rw [given]; rfl⟩
  | error error =>
      refine iff_of_true ?_ ?_
      · simp only
        split
        · exact fun _ changed => absurd rfl changed
        next identity answered =>
          intro unasked
          refine absurd ?_ (unasked identity)
          rw [(storeSigningKeys_tables _ _ _ _ _).2, answered]
      · intro first
        rw [skips.mpr first] at check
        cases check

end

theorem lookup_filter_ne (fields : List (String × Json)) (name other : String) :
    (fields.filter (fun field => field.1 != name)).lookup other =
      if other = name then none else fields.lookup other := by
  induction fields with
  | nil => simp
  | cons field rest ih =>
      obtain ⟨key, value⟩ := field
      by_cases dropped : key = name
      · subst dropped
        rw [filter_cons_of_neg (by simp), ih]
        by_cases same : other = key
        · simp [same]
        · simp [same, lookup_cons, beq_false_of_ne same]
      · rw [filter_cons_of_pos (by simpa using dropped),
          lookup_cons, ih, lookup_cons]
        by_cases here : other = key
        · subst here
          simp [dropped]
        · simp [beq_false_of_ne here]

theorem lookup_setField {fields : List (String × Json)} {name : String}
    {value : Json} (named : fields.lookup name = some value) (other : String) :
    (setField fields name value).lookup other = fields.lookup other := by
  unfold setField
  rw [lookup_append, lookup_filter_ne]
  by_cases same : other = name
  · subst same
    simp [named]
  · simp [same, lookup_cons, beq_false_of_ne same]

theorem plainFormat_unordered : FieldsUnordered plainFormat := by
  intro fields name value named
  have same : decodeKey (.obj (setField fields name value)) =
      decodeKey (.obj fields) := by
    unfold decodeKey
    simp only [Json.asObject, Option.bind_eq_bind, Option.bind_some,
      lookup_setField named]
  simp only [plainFormat, same]

namespace PlainUpload

def plainKey (usage id : String) : Json := encodeKey {
    userId := "@mallory:server"
    usage := [usage]
    keys := [("ed25519:" ++ id, id)]
    signatures := [] }

def services (tables : KeyTables) : SigningServices where
  tables := tables
  uiaa := { sessions := fun _ => none, world := malloryWorld }

def masterOnly (id : String) : SigningKeysRequest where
  auth := none
  masterKey := some (plainKey "master" id)
  selfSigningKey := none
  userSigningKey := none

def upload (tables : KeyTables) (body : SigningKeysRequest) :
    SigningKeysOutcome :=
  uploadSigningKeysRoute plainFormat plainConfig plainSurroundings
    (services tables) mallory body

def userSigningOnly : KeyTables :=
  ended (addCrossSigningKeys plainFormat mallory.toString none none
    (some (plainKey "user_signing" "U")) empty)

theorem first_guards :
    GuardsKeys plainFormat mallory.toString (masterOnly "M")
      (services empty) (upload empty (masterOnly "M")) :=
  (uploadSigningKeysRoute_guards_iff plainFormat_unordered).mpr
    (fun _ kind stored found => by cases kind <;> cases found)

/-- A master key of the same name takes the place of the user-signing key,
without an authentication. -/
theorem userSigningKey_replaced :
    (upload userSigningOnly (masterOnly "U")).authenticated = none ∧
    userSigningOnly.storedKey mallory.toString .userSigning =
      some (plainKey "user_signing" "U") ∧
    (upload userSigningOnly (masterOnly "U")).services.tables.storedKey
      mallory.toString .userSigning = some (plainKey "master" "U") ∧
    ¬ ∀ (format : Format) (config : Uiaa.Config)
        (surroundings : Uiaa.Surroundings) (services : SigningServices)
        (senderUser : Users.UserId) (body : SigningKeysRequest),
        FieldsUnordered format →
        GuardsKeys format senderUser.toString body services
          (uploadSigningKeysRoute format config surroundings services
            senderUser body) := by
  refine ⟨rfl, rfl, rfl, fun guards => ?_⟩
  have changed : (upload userSigningOnly
      (masterOnly "U")).services.tables ≠ userSigningOnly := by
    intro same
    have none : (upload userSigningOnly
        (masterOnly "U")).services.tables.useridMasterkeyid
          mallory.toString = none := by
      rw [same]
      rfl
    cases none
  obtain ⟨keeps, _⟩ := guards plainFormat plainConfig
    plainSurroundings (services userSigningOnly) mallory
    (masterOnly "U") plainFormat_unordered (fun _ same => by cases same)
    changed
  obtain ⟨key, found, same⟩ :=
    keeps .userSigning (plainKey "user_signing" "U") rfl
  cases found
  obtain same | ⟨key, first, second⟩ := same
  · exact absurd same (by decide)
  · have clash : plainFormat.decode (plainKey "user_signing" "U") =
        plainFormat.decode (plainKey "master" "U") := first.trans second.symm
    exact absurd clash (by decide)

end PlainUpload

end ArcanaServer.Keys
